import Mathlib.Algebra.Group.Nat.Defs
import Mathlib.Data.Set.Basic

/-! Machine words read as sets of bit positions, and the fields of a word. -/
namespace Bits

variable {w : Nat}

/-- The positions of the set bits of a word. -/
def bits (x : BitVec w) : Set (Fin w) := { i | x[i] = true }

theorem mem_bits (x : BitVec w) (i : Fin w) : i ∈ bits x ↔ x[i] = true := Iff.rfl

/-- The bits of the second word that the first one lacks. -/
theorem mem_bits_xor_and_not (x y : BitVec w) (i : Fin w) :
    i ∈ bits ((x ^^^ y) &&& ~~~x) ↔ i ∈ bits y ∧ i ∉ bits x := by
  cases hx : x[i] <;> cases hy : y[i] <;> simp_all [mem_bits]

theorem bits_injective : Function.Injective (bits (w := w)) := by
  intro x y same
  apply BitVec.eq_of_getElem_eq
  intro i hi
  have hb := congrArg (fun s => (⟨i, hi⟩ : Fin w) ∈ s) same
  simpa only [mem_bits, Fin.getElem_fin, eq_iff_iff, ← Bool.eq_iff_iff] using hb

theorem bits_zero : bits (0 : BitVec w) = ∅ := by
  ext i
  simp [mem_bits]

theorem xor_and_not_eq_zero_iff (x y : BitVec w) :
    (x ^^^ y) &&& ~~~x = 0 ↔ bits y ⊆ bits x := by
  rw [← bits_injective.eq_iff, bits_zero, Set.eq_empty_iff_forall_notMem]
  simp only [mem_bits_xor_and_not, Set.subset_def, not_and, not_not]

theorem bits_and (x y : BitVec w) : bits (x &&& y) = bits x ∩ bits y := by
  ext i
  simp [mem_bits]

theorem and_eq_right_iff (x y : BitVec w) : x &&& y = y ↔ bits y ⊆ bits x := by
  rw [← bits_injective.eq_iff, bits_and, Set.inter_eq_right]

theorem getLsbD_of_small {x : BitVec w} {k i : Nat} (small : x.toNat < 2 ^ k) (past : k ≤ i) : x.getLsbD i = false := by
  rw [← BitVec.testBit_toNat]
  exact Nat.testBit_lt_two_pow (Nat.lt_of_lt_of_le small (Nat.pow_le_pow_right (by decide) past))

/-- A field of a word is cleared by a mask and set to a value that fits in it. -/
theorem getLsbD_setField {x mask v : BitVec w} {lo hi : Nat}
    (kept : ∀ i < w, mask.getLsbD i = (decide (i < lo) || decide (hi ≤ i)))
    (fits : ∀ i, hi ≤ lo + i → v.getLsbD i = false) (i : Nat) (inside : i < w) :
    ((x &&& mask) ||| (v <<< lo)).getLsbD i = if lo ≤ i ∧ i < hi then v.getLsbD (i - lo) else x.getLsbD i := by
  rw [BitVec.getLsbD_or, BitVec.getLsbD_and, BitVec.getLsbD_shiftLeft, kept i inside]
  rcases Nat.lt_or_ge i lo with low | high
  · have before : ¬ (lo ≤ i ∧ i < hi) := by omega
    simp [low, before]
  · rcases Nat.lt_or_ge i hi with inField | after
    · simp [high, inField, inside, Nat.not_lt.mpr high, Nat.not_le.mpr inField]
    · have past : v.getLsbD (i - lo) = false := fits _ (by omega)
      have later : ¬ i < hi := by omega
      simp [after, later, past]

end Bits
