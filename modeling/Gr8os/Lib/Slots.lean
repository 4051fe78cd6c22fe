import Mathlib.Data.List.Find

/-! A table of slots searched from the front for the first one that holds a key. -/
namespace Slots

variable {α : Type u} {p q : α → Bool} {l : List α} {x y : α} {i : Nat}

theorem get_of_findIdx? (found : l.findIdx? p = some i) : ∃ x, l[i]? = some x ∧ p x = true := by
  obtain ⟨inside, holds, _⟩ := List.findIdx?_eq_some_iff_getElem.mp found
  exact ⟨l[i], List.getElem?_eq_getElem inside, holds⟩

theorem get_of_free {l : List (Option α)} (found : l.findIdx? (·.isNone) = some i) : l[i]? = some none := by
  obtain ⟨x, here, free⟩ := get_of_findIdx? found
  rw [here, Option.isNone_iff_eq_none.mp free]

theorem find?_of_findIdx? (found : l.findIdx? p = some i) : l.find? p = l[i]? := by
  induction l generalizing i with
  | nil => cases found
  | cons a l ih =>
    rw [List.findIdx?_cons] at found
    cases holds : p a with
    | true =>
      rw [holds, if_pos rfl] at found
      cases found
      simp [holds]
    | false =>
      simp only [holds, Bool.false_eq_true, if_false, Option.map_eq_some_iff] at found
      obtain ⟨j, later, rfl⟩ := found
      simp [holds, ih later]

theorem find?_none_of_findIdx? (missing : l.findIdx? p = none) : l.find? p = none := by
  rw [List.findIdx?_eq_none_iff] at missing
  rw [List.find?_eq_none]
  intro x member
  simp [missing x member]

/-- A slot that does not hold the key and goes on not holding it is not seen. -/
theorem find?_set_other (here : l[i]? = some x) (before : q x = false) (after : q y = false) :
    (l.set i y).find? q = l.find? q := by
  induction l generalizing i with
  | nil => rfl
  | cons a l ih =>
    cases i with
    | zero =>
      cases Option.some.inj here
      simp [before, after]
    | succ i =>
      simp only [List.set_cons_succ, List.find?_cons]
      cases q a with
      | true => rfl
      | false => exact ih (by simpa using here)

/-- The slot found for a key, when it still holds the key, is found again. -/
theorem find?_set_found (found : l.findIdx? p = some i) (after : p y = true) :
    (l.set i y).find? p = some y := by
  induction l generalizing i with
  | nil => cases found
  | cons a l ih =>
    rw [List.findIdx?_cons] at found
    cases holds : p a with
    | true =>
      rw [holds, if_pos rfl] at found
      cases found
      simp [after]
    | false =>
      simp only [holds, Bool.false_eq_true, if_false, Option.map_eq_some_iff] at found
      obtain ⟨j, later, rfl⟩ := found
      simp [holds, ih later]

/-- A key that no slot holds is found in the slot that comes to hold it. -/
theorem find?_set_new (inside : i < l.length) (missing : l.find? p = none) (after : p y = true) :
    (l.set i y).find? p = some y := by
  induction l generalizing i with
  | nil => cases inside
  | cons a l ih =>
    rw [List.find?_cons] at missing
    cases holds : p a with
    | true => simp [holds] at missing
    | false =>
      rw [holds] at missing
      cases i with
      | zero => simp [after]
      | succ i => simpa [holds] using ih (Nat.lt_of_succ_lt_succ inside) missing

/-- Slots at the end that do not hold the key are not seen. -/
theorem find?_append_other {k : List α} (others : ∀ x ∈ k, q x = false) : (l ++ k).find? q = l.find? q := by
  have none_of : k.find? q = none := List.find?_eq_none.mpr fun x member => by simp [others x member]
  rw [List.find?_append, none_of, Option.or_none]

theorem countP_set (here : l[i]? = some x) : (l.set i y).countP p + (if p x then 1 else 0) =
    l.countP p + (if p y then 1 else 0) := by
  induction l generalizing i with
  | nil => cases here
  | cons a l ih =>
    cases i with
    | zero =>
      cases Option.some.inj here
      simp only [List.set_cons_zero, List.countP_cons]
      omega
    | succ i =>
      have := ih (i := i) (by simpa using here)
      simp only [List.set_cons_succ, List.countP_cons]
      omega

theorem modify_set {f : α → α} : (l.set i x).modify i f = l.set i (f x) := by
  induction l generalizing i with
  | nil => simp
  | cons a l ih =>
    cases i with
    | zero => rfl
    | succ i => simp [ih]

/-- The only slot that holds a key is the one that a search finds. -/
theorem find?_of_unique (only : l.countP p ≤ 1) (member : x ∈ l) (holds : p x = true) : l.find? p = some x := by
  induction l with
  | nil => cases member
  | cons a l ih =>
    rw [List.countP_cons] at only
    cases List.mem_cons.mp member with
    | inl here => simp [← here, holds]
    | inr later =>
      have some_later : 0 < l.countP p := List.countP_pos_iff.mpr ⟨x, later, holds⟩
      cases first : p a with
      | true =>
        simp only [first, if_true] at only
        omega
      | false =>
        rw [List.find?_cons, first]
        exact ih (by omega) later

end Slots
