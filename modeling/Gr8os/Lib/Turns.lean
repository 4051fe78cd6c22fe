import Mathlib.Data.List.Rotate

/-! Taking turns from a list: the one whose turn ends goes to the end, and the first of the others is next. After the
first turn the list only rotates. -/
namespace Turns

variable {α : Type u} [DecidableEq α]

def turn (q : List α × α) : List α × α :=
  let rest := q.1.erase q.2
  (rest ++ [q.2], rest.headD q.2)

/-- Who has the next turns. -/
def order : Nat → List α × α → List α
  | 0, _ => []
  | n + 1, q => (turn q).2 :: order n (turn q)

theorem turn_head (x : α) (xs : List α) : turn (x :: xs, x) = (xs ++ [x], xs.headD x) := by
  rw [turn, List.erase_cons_head]

/-- If the first one has its turn, those behind it come next. -/
theorem order_head (x : α) (front back : List α) : order front.length (x :: (front ++ back), x) = front := by
  induction front generalizing x back with
  | nil => rfl
  | cons y front ih =>
    have next : turn (x :: (y :: front ++ back), x) = (y :: (front ++ (back ++ [x])), y) := by
      rw [turn_head]
      simp
    rw [List.length_cons, order, next, ih]

theorem turn_rotates (x : α) (xs : List α) (k : Nat) :
    turn^[k] (x :: xs, x) = ((x :: xs).rotate k, ((x :: xs).rotate k).headD x) := by
  induction k generalizing x xs with
  | zero => rw [List.rotate_zero]; rfl
  | succ k ih =>
    rw [Function.iterate_succ_apply, turn_head, List.rotate_cons_succ]
    cases xs with
    | nil => exact ih x []
    | cons y xs =>
      have filled : ∀ n, ((y :: (xs ++ [x])).rotate n).headD y = ((y :: (xs ++ [x])).rotate n).headD x := by
        intro n
        cases h : (y :: (xs ++ [x])).rotate n with
        | nil => exact absurd (List.rotate_eq_nil_iff.mp h) (List.cons_ne_nil _ _)
        | cons z zs => rfl
      have rest := ih y (xs ++ [x])
      rw [filled] at rest
      exact rest

section all

variable {l : List α} {c : α}

/-- In as many turns as there are members each has one, and the one that began is the last. -/
theorem order_all (member : c ∈ l) : order l.length (l, c) = l.erase c ++ [c] ∧
    turn^[l.length] (l, c) = (c :: l.erase c, c) := by
  have length : l.length = (l.erase c).length + 1 := by
    have positive := List.length_pos_of_mem member
    rw [List.length_erase_of_mem member]
    omega
  rw [length, order, Function.iterate_succ_apply, turn]
  dsimp only
  cases l.erase c with
  | nil => exact ⟨rfl, rfl⟩
  | cons a rest =>
    have served := order_head a (rest ++ [c]) []
    rw [List.append_nil, List.length_append, List.length_singleton] at served
    have rotated : (a :: rest ++ [c]).rotate (a :: rest).length = c :: a :: rest := List.rotate_append_length_eq _ _
    refine ⟨congrArg (a :: ·) served, ?_⟩
    rw [List.headD_cons, List.cons_append, turn_rotates, ← List.cons_append, rotated]
    rfl

omit [DecidableEq α] in
/-- A list without repetitions has one rotation that begins with a given member. -/
theorem rotated_cons {xs ys : List α} (distinct : (c :: xs).Nodup) (rotated : c :: xs ~r c :: ys) : xs = ys := by
  obtain ⟨n, bound, same⟩ := List.isRotated_iff_mod.mp rotated
  rcases Nat.lt_or_eq_of_le bound with inside | whole
  · have first := List.head?_rotate inside
    have start : (c :: xs)[0]? = some c := rfl
    rw [same, List.head?_cons, ← start] at first
    have zero := (List.getElem?_inj (Nat.zero_lt_of_lt inside) distinct).mp first
    rw [← zero, List.rotate_zero] at same
    exact (List.cons.inj same).2
  · rw [whole, List.rotate_length] at same
    exact (List.cons.inj same).2

/-- The order of the turns is a rotation of the list if the one that begins is the first or the last of it. -/
theorem order_rotated_iff (distinct : l.Nodup) (member : c ∈ l) :
    l.erase c ++ [c] ~r l ↔ l.head? = some c ∨ l.getLast? = some c := by
  obtain ⟨us, vs, before, rfl, rest⟩ := List.exists_erase_eq member
  have turned : us ++ c :: vs ~r c :: (vs ++ us) := by
    have apart : us ++ (c :: vs) ~r c :: vs ++ us := List.isRotated_append
    exact apart
  have perm : (us ++ c :: vs).Perm (c :: (us ++ vs)) := List.perm_middle
  have cons := perm.nodup_iff.mp distinct
  have behind : c ∉ vs := fun here => (List.nodup_cons.mp cons).1 (List.mem_append_right us here)
  rw [rest]
  constructor
  · intro rotated
    have heads : c :: (us ++ vs) ~r c :: (vs ++ us) :=
      (List.isRotated_concat c (us ++ vs)).symm.trans (rotated.trans turned)
    have swapped := rotated_cons cons heads
    cases us with
    | nil => exact .inl rfl
    | cons a us =>
      cases vs with
      | nil => exact .inr (List.getLast?_concat)
      | cons b vs =>
        have same : a = b := (List.cons.inj swapped).1
        subst same
        exact absurd (List.mem_append_right us List.mem_cons_self) (List.nodup_cons.mp (List.nodup_cons.mp cons).2).1
  · rintro (first | last)
    · cases us with
      | nil => exact List.isRotated_concat c vs
      | cons a us =>
        have same : a = c := Option.some.inj first
        exact absurd (same ▸ List.mem_cons_self) before
    · rcases List.eq_nil_or_concat vs with rfl | ⟨ws, b, rfl⟩
      · rw [List.append_nil]
      · rw [List.concat_eq_append, ← List.cons_append, ← List.append_assoc, List.getLast?_concat] at last
        have same : b = c := Option.some.inj last
        exact absurd (by simp [same]) behind

end all

end Turns
