import Mathlib.Data.List.DropRight

/-! Lists that are filled up to a fixed length with one value. What is lost is how many of that value stood at the end. -/
namespace Padding

variable {α : Type u} {a : α} {n : Nat} {xs ys : List α}

theorem map_range_getD (fits : xs.length ≤ n) : (List.range n).map (fun k => xs.getD k a) = xs.rightpad n a := by
  apply List.ext_getElem?
  intro k
  rw [List.getElem?_map, List.rightpad]
  by_cases inside : k < n
  · rw [List.getElem?_range inside, Option.map_some, List.getD_eq_getElem?_getD]
    by_cases early : k < xs.length
    · rw [List.getElem?_append_left early, List.getElem?_eq_getElem early, Option.getD_some]
    · have late : xs.length ≤ k := Nat.le_of_not_lt early
      have room : k - xs.length < n - xs.length := by omega
      rw [List.getElem?_append_right late, List.getElem?_eq_none late, List.getElem?_replicate_of_lt room]
      rfl
  · have outside : n ≤ k := Nat.le_of_not_lt inside
    have length : (xs ++ List.replicate (n - xs.length) a).length = n := by
      rw [List.length_append, List.length_replicate]
      omega
    rw [List.getElem?_eq_none (by rwa [List.length_range]), List.getElem?_eq_none (by rwa [length])]
    rfl

section drop

variable [DecidableEq α]

theorem rdropWhile_replicate (xs : List α) (k : Nat) :
    (xs ++ List.replicate k a).rdropWhile (· = a) = xs.rdropWhile (· = a) := by
  induction k with
  | zero => rw [List.replicate_zero, List.append_nil]
  | succ k ih =>
    rw [List.replicate_succ', ← List.append_assoc, List.rdropWhile_concat, if_pos (decide_eq_true rfl), ih]

theorem rightpad_rdropWhile (fits : xs.length ≤ n) : xs.rightpad n a = (xs.rdropWhile (· = a)).rightpad n a := by
  have parts := List.rdropWhile_append_rtakeWhile (p := fun x => decide (x = a)) (l := xs)
  have same : xs.rtakeWhile (· = a) = List.replicate (xs.rtakeWhile (· = a)).length a := by
    rw [List.eq_replicate_iff]
    refine ⟨rfl, fun x member => ?_⟩
    have is_a := List.mem_rtakeWhile_imp member
    exact of_decide_eq_true is_a
  have length := congrArg List.length parts
  rw [List.length_append] at length
  rw [List.rightpad, List.rightpad]
  conv_lhs => rw [← parts, same, List.append_assoc, List.replicate_append_replicate]
  congr 2
  rw [List.length_append, List.length_replicate]
  omega

/-- Two lists are filled up alike if they differ only in how often they end with the value. -/
theorem rightpad_inj (fits : xs.length ≤ n) (fits' : ys.length ≤ n) :
    xs.rightpad n a = ys.rightpad n a ↔ xs.rdropWhile (· = a) = ys.rdropWhile (· = a) := by
  constructor
  · intro same
    have dropped := congrArg (List.rdropWhile fun x => decide (x = a)) same
    rwa [List.rightpad, List.rightpad, rdropWhile_replicate, rdropWhile_replicate] at dropped
  · intro same
    rw [rightpad_rdropWhile fits, rightpad_rdropWhile fits', same]

end drop

end Padding
