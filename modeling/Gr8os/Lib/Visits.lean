import Mathlib.Data.Fintype.EquivFin

/-! The values that a partial function visits one after another. -/
namespace Visits

variable {α : Type u} {next : α → Option α} {a b : α} {o : Option α} {n k : Nat}

/-- The value after so many steps from a first one, if the steps lead that far. -/
def visit (next : α → Option α) : Option α → Nat → Option α
  | o, 0 => o
  | o, n + 1 => visit next (o.bind next) n

theorem visit_none (n : Nat) : visit next none n = none := by
  induction n with
  | zero => rfl
  | succ n ih => exact ih

theorem visit_add (o : Option α) (n k : Nat) : visit next o (n + k) = visit next (visit next o n) k := by
  induction n generalizing o with
  | zero => rw [Nat.zero_add, visit]
  | succ n ih =>
    rw [Nat.succ_add]
    exact ih (o.bind next)

theorem visit_later (ends : visit next o n = none) (k : Nat) : visit next o (n + k) = none := by
  rw [visit_add, ends, visit_none]

/-- The steps end, and what they visit has the property. -/
def EndsWithin (next : α → Option α) (P : α → Prop) (o : Option α) : Prop :=
  (∃ k, visit next o k = none) ∧ ∀ i a, visit next o i = some a → P a

theorem EndsWithin.none {P : α → Prop} : EndsWithin next P none := by
  refine ⟨⟨0, rfl⟩, fun i a visited => ?_⟩
  rw [visit_none] at visited
  cases visited

theorem EndsWithin.cons {P : α → Prop} (first : P a) (rest : EndsWithin next P (next a)) : EndsWithin next P (some a) := by
  obtain ⟨⟨k, ends⟩, within⟩ := rest
  refine ⟨⟨k + 1, ends⟩, fun i b visited => ?_⟩
  cases i with
  | zero =>
    cases visited
    exact first
  | succ i => exact within i b visited

/-- The values of the list come one after another from the first value on, and the last one is behind them. -/
def Leads (next : α → Option α) : α → List α → α → Prop
  | a, [], b => a = b
  | a, x :: l, b => a = x ∧ ∃ c, next a = some c ∧ Leads next c l b

/-- The same list leads to the same value, and where it is not empty from the same value. -/
theorem Leads.unique {l : List α} {a' b' : α} (first : Leads next a l b) (second : Leads next a' l b') (some : l ≠ []) :
    a = a' ∧ b = b' := by
  induction l generalizing a a' with
  | nil => exact absurd rfl some
  | cons x l ih =>
    obtain ⟨rfl, c, here, rest⟩ := first
    obtain ⟨rfl, c', there, rest'⟩ := second
    obtain rfl : c = c' := Option.some.inj (here.symm.trans there)
    cases l with
    | nil => exact ⟨rfl, Eq.trans (Eq.symm rest) rest'⟩
    | cons y l => exact ⟨rfl, (ih rest rest' (List.cons_ne_nil y l)).2⟩

theorem leads_of_visit (visited : visit next (some a) n = some b) : ∃ l, Leads next a l b := by
  induction n generalizing a with
  | zero => exact ⟨[], Option.some.inj visited⟩
  | succ n ih =>
    change visit next (next a) n = some b at visited
    cases step : next a with
    | none =>
      rw [step, visit_none] at visited
      cases visited
    | some c =>
      rw [step] at visited
      obtain ⟨l, rest⟩ := ih visited
      exact ⟨a :: l, rfl, c, step, rest⟩

/-- From a value in between on, the rest of the list leads to the same value. -/
theorem Leads.of_mem {l : List α} {x : α} (leads : Leads next a l b) (member : x ∈ l) :
    ∃ front back, l = front ++ x :: back ∧ Leads next x (x :: back) b := by
  induction l generalizing a with
  | nil => cases member
  | cons y l ih =>
    obtain ⟨rfl, c, step, rest⟩ := leads
    rcases List.mem_cons.mp member with rfl | later
    · exact ⟨[], l, rfl, rfl, c, step, rest⟩
    · obtain ⟨front, back, rfl, leads⟩ := ih rest later
      exact ⟨a :: front, back, rfl, leads⟩

theorem Leads.split {l l' : List α} (leads : Leads next a (l ++ l') b) : ∃ c, Leads next a l c ∧ Leads next c l' b := by
  induction l generalizing a with
  | nil => exact ⟨a, rfl, leads⟩
  | cons x l ih =>
    obtain ⟨rfl, c, step, rest⟩ := leads
    obtain ⟨d, front, back⟩ := ih rest
    exact ⟨d, ⟨rfl, c, step, front⟩, back⟩

/-- A way that does not pass the end of another one is the first part of it. -/
theorem Leads.prefix_of {l l' : List α} {c : α} (leads : Leads next a l b) (other : Leads next a l' c) (apart : b ∉ l') :
    ∃ rest, l = l' ++ rest ∧ Leads next c rest b := by
  induction l' generalizing a l with
  | nil =>
    obtain rfl : a = c := other
    exact ⟨l, rfl, leads⟩
  | cons x l' ih =>
    obtain ⟨rfl, d, step, other⟩ := other
    obtain ⟨differs, apart⟩ := not_or.mp (mt List.mem_cons.mpr apart)
    cases l with
    | nil => exact absurd (Eq.symm leads) differs
    | cons y l =>
      obtain ⟨rfl, d', step', leads⟩ := leads
      obtain rfl : d = d' := Option.some.inj (step.symm.trans step')
      obtain ⟨rest, same, last⟩ := ih leads other apart
      exact ⟨rest, congrArg (a :: ·) same, last⟩

/-- Ways that do not pass each other's ends have the same end. -/
theorem Leads.same_end {l l' : List α} {c : α} (leads : Leads next a l b) (other : Leads next a l' c) (apart : b ∉ l')
    (apart' : c ∉ l) : b = c := by
  obtain ⟨rest, rfl, tail⟩ := leads.prefix_of other apart
  cases rest with
  | nil => exact Eq.symm tail
  | cons x rest =>
    obtain ⟨rfl, -⟩ := tail
    exact absurd (List.mem_append_right l' List.mem_cons_self) apart'

/-- There is one way to a value at most that does not pass it before. -/
theorem Leads.unique_way {l l' : List α} (leads : Leads next a l b) (other : Leads next a l' b) (apart : b ∉ l)
    (apart' : b ∉ l') : l = l' := by
  obtain ⟨rest, rfl, tail⟩ := leads.prefix_of other apart'
  cases rest with
  | nil => exact List.append_nil l'
  | cons x rest =>
    obtain ⟨rfl, -⟩ := tail
    exact absurd (List.mem_append_right l' List.mem_cons_self) apart

/-- A way to a value that it does not pass before visits no value twice. -/
theorem Leads.nodup {l : List α} (leads : Leads next a l b) (apart : b ∉ l) : l.Nodup := by
  induction l generalizing a with
  | nil => exact List.nodup_nil
  | cons x l ih =>
    have whole := leads
    obtain ⟨rfl, c, step, rest⟩ := leads
    obtain ⟨differs, later⟩ := not_or.mp (mt List.mem_cons.mpr apart)
    refine List.nodup_cons.mpr ⟨fun again => ?_, ih rest later⟩
    obtain ⟨front, back, rfl, shorter⟩ := rest.of_mem again
    obtain ⟨more, same, -⟩ := shorter.prefix_of whole apart
    have length := congrArg List.length same
    simp only [List.length_cons, List.length_append] at length
    omega

/-- No value is visited twice. -/
def NoReturn (next : α → Option α) (o : Option α) : Prop :=
  ∀ i j a, i < j → visit next o i = some a → visit next o j ≠ some a

/-- A value that is visited again is visited again and again. -/
theorem visit_round (round : visit next (some a) k = some a) (n : Nat) : visit next (some a) (n * k) = some a := by
  induction n with
  | zero => rw [Nat.zero_mul, visit]
  | succ n ih => rw [Nat.succ_mul, visit_add, ih, round]

/-- Among finitely many values, the steps end if and only if they come back to none. -/
theorem ends_iff_noReturn [Finite α] : (∃ n, visit next o n = none) ↔ NoReturn next o := by
  constructor
  · rintro ⟨n, ends⟩ i j a less first again
    have round : visit next (some a) (j - i) = some a := by
      have whole := @visit_add _ next o i (j - i)
      rw [Nat.add_sub_cancel' (Nat.le_of_lt less), again, first] at whole
      exact whole.symm
    have far : visit next o (i + n * (j - i)) = some a := by
      rw [visit_add, first, visit_round round]
    have past : n ≤ i + n * (j - i) := by
      have step : n * 1 ≤ n * (j - i) := Nat.mul_le_mul_left n (by omega)
      omega
    obtain ⟨k, here⟩ := Nat.exists_eq_add_of_le past
    rw [here, visit_later ends] at far
    cases far
  · intro never
    by_contra endless
    have value : ∀ n, ∃ a, visit next o n = some a := by
      intro n
      exact Option.ne_none_iff_exists'.mp fun none => endless ⟨n, none⟩
    choose f visits using value
    apply not_injective_infinite_finite f
    intro i j same
    by_contra differ
    rcases Nat.lt_or_gt_of_ne differ with less | less
    · exact never i j (f i) less (visits i) (same ▸ visits j)
    · exact never j i (f j) less (visits j) (same ▸ visits i)

end Visits
