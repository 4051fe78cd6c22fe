import Mathlib.Data.Set.Card
import Mathlib.Logic.Function.Basic

/-! How many arguments a partial assignment sends to a value, as single arguments are assigned and cleared. -/
namespace Fibre

variable {ι : Type u} {κ : Type v}

noncomputable def count (g : ι → Option κ) (k : κ) : Nat := { i | g i = some k }.ncard

theorem count_empty {g : ι → Option κ} (empty : ∀ i, g i = none) (k : κ) : count g k = 0 := by
  have none : { i | g i = some k } = ∅ := by
    ext i
    simp [empty i]
  rw [count, none, Set.ncard_empty]

theorem count_pos [Finite ι] {g : ι → Option κ} {i : ι} {k : κ} (taken : g i = some k) : 0 < count g k :=
  (Set.ncard_pos (Set.toFinite _)).mpr ⟨i, taken⟩

/-- What one argument is not sent to is counted less often than there are arguments. -/
theorem count_lt [Finite ι] {g : ι → Option κ} {i : ι} {k : κ} (other : g i ≠ some k) : count g k < Nat.card ι := by
  apply Set.ncard_lt_card
  intro all
  have here : i ∈ { i | g i = some k } := all ▸ Set.mem_univ i
  exact other here

instance finite_bitVec : Finite (BitVec w) :=
  Finite.of_injective (fun i : BitVec w => i.toFin) fun _ _ same => BitVec.toFin_inj.mp same

theorem card_bitVec (w : Nat) : Nat.card (BitVec w) = 2 ^ w := by
  have same : Nat.card (BitVec w) = Nat.card (Fin (2 ^ w)) := Nat.card_congr
    ⟨BitVec.toFin, BitVec.ofFin, fun _ => rfl, fun _ => rfl⟩
  rw [same, Nat.card_fin]

variable [DecidableEq ι]

theorem count_assign [Finite ι] [DecidableEq κ] {g : ι → Option κ} {i : ι} (free : g i = none) (k q : κ) :
    count (Function.update g i (some k)) q = count g q + if q = k then 1 else 0 := by
  rcases Decidable.em (q = k) with rfl | other
  · have grown : { j | Function.update g i (some q) j = some q } = insert i { j | g j = some q } := by
      ext j
      rcases Decidable.em (j = i) with rfl | apart <;> simp_all
    rw [if_pos rfl, count, grown, Set.ncard_insert_of_notMem (by simp [free])]
    rfl
  · have same : { j | Function.update g i (some k) j = some q } = { j | g j = some q } := by
      ext j
      rcases Decidable.em (j = i) with rfl | apart <;> simp_all [Ne.symm]
    rw [if_neg other, count, same]
    rfl

theorem count_clear [Finite ι] [DecidableEq κ] {g : ι → Option κ} {i : ι} {k : κ} (taken : g i = some k)
    (q : κ) : count g q = count (Function.update g i none) q + if q = k then 1 else 0 := by
  have back : Function.update (Function.update g i none) i (some k) = g := by
    rw [Function.update_idem, ← taken, Function.update_eq_self]
  have step := count_assign (g := Function.update g i none) (i := i) (by simp) k q
  rwa [back] at step

end Fibre
