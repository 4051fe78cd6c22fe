import Mathlib.Logic.Function.Iterate

/-! Following a successor function for a number of steps, unless a marked value comes first. -/
namespace Follow

variable {α : Type u} {β : Type v} (next : α → α) (mark : α → Option β)

/-- The value after so many steps, or the first mark met on the way. -/
def follow : Nat → α → Except β α
  | 0, a => .ok a
  | n + 1, a =>
    match mark (next a) with
    | some m => .error m
    | none => follow n (next a)

/-- The first steps lead to no marked value. -/
def Clear (a : α) (n : Nat) : Prop := ∀ i < n, mark (next^[i + 1] a) = none

instance (a : α) (n : Nat) : Decidable (Clear next mark a n) :=
  inferInstanceAs (Decidable (∀ i < n, _))

variable {next mark} {a : α} {m : β} {n k : Nat}

theorem Clear.head (h : Clear next mark a (n + 1)) : mark (next a) = none := h 0 (by omega)

theorem Clear.tail (h : Clear next mark a (n + 1)) : Clear next mark (next a) n := by
  intro i less
  exact h (i + 1) (by omega)

theorem Clear.cons (first : mark (next a) = none) (rest : Clear next mark (next a) n) :
    Clear next mark a (n + 1) := by
  intro i less
  cases i with
  | zero => exact first
  | succ i => exact rest i (by omega)

theorem follow_clear (h : Clear next mark a n) : follow next mark n a = .ok (next^[n] a) := by
  induction n generalizing a with
  | zero => rfl
  | succ n ih =>
    have rest := ih h.tail
    simp only [follow, h.head, rest, Function.iterate_succ_apply]

theorem follow_marked (clear : Clear next mark a k) (marked : mark (next^[k + 1] a) = some m)
    (before : k < n) : follow next mark n a = .error m := by
  induction n generalizing a k with
  | zero => omega
  | succ n ih =>
    cases k with
    | zero =>
      have first : mark (next a) = some m := marked
      simp only [follow, first]
    | succ k =>
      have rest := ih clear.tail marked (by omega)
      simp only [follow, clear.head, rest]

/-- Where the steps are not clear there is a first mark. -/
theorem exists_first_mark (h : ¬ Clear next mark a n) :
    ∃ k < n, Clear next mark a k ∧ ∃ m, mark (next^[k + 1] a) = some m := by
  induction n generalizing a with
  | zero =>
    exact absurd (fun i less => absurd less (Nat.not_lt_zero i)) h
  | succ n ih =>
    cases first : mark (next a) with
    | some m =>
      exact ⟨0, by omega, fun i less => absurd less (Nat.not_lt_zero i), m, first⟩
    | none =>
      obtain ⟨k, less, clear, m, marked⟩ := ih (fun rest => h (.cons first rest))
      exact ⟨k + 1, by omega, .cons first clear, m, marked⟩

end Follow
