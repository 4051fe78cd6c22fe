import Gr8os.Lib.LittleEndian
import Mathlib.Data.BitVec
import Mathlib.Tactic.Ring

/-! Blocks of memory copied and filled, byte by byte and word by word. Addresses wrap around. -/
namespace BlockMoves

open LittleEndian

/-- The n bytes from d on are what stood from s on, all at once. -/
def moved (m : Memory) (d s : Address) (n : Nat) : Memory := fun x => if Covers d n x then m (s + (x - d)) else m x

def filled (m : Memory) (d : Address) (b : BitVec 8) (n : Nat) : Memory := fun x => if Covers d n x then b else m x

def setByte (m : Memory) (d : Address) (b : BitVec 8) : Memory := fun x => if x = d then b else m x

/-- Bytes copied one by one, the first one first. -/
def copyUp : Nat → Memory → Address → Address → Memory
  | 0, m, _, _ => m
  | n + 1, m, d, s => copyUp n (setByte m d (m s)) (d + 1#32) (s + 1#32)

/-- Bytes copied one by one, the last one first. -/
def copyDown : Nat → Memory → Address → Address → Memory
  | 0, m, _, _ => m
  | n + 1, m, d, s => copyDown n (setByte m (d + BitVec.ofNat 32 n) (m (s + BitVec.ofNat 32 n))) d s

def fillUp : Nat → Memory → Address → BitVec 8 → Memory
  | 0, m, _, _ => m
  | n + 1, m, d, b => fillUp n (setByte m d b) (d + 1#32) b

section blocks

variable {m : Memory} {d s x : Address} {b : BitVec 8} {n k i : Nat}

theorem not_covers_zero : ¬Covers d 0 x := Nat.not_lt_zero _

theorem covers_one_iff : Covers d 1 x ↔ x = d := by
  unfold Covers
  constructor
  · intro covered
    bv_omega
  · rintro rfl
    simp

theorem covers_add_iff (small : n + k ≤ 2 ^ 32) :
    Covers d (n + k) x ↔ Covers d n x ∨ Covers (d + BitVec.ofNat 32 n) k x := by
  unfold Covers
  by_cases all : k = 0
  · subst all
    simp
  · have start : (BitVec.ofNat 32 n).toNat = n := by
      rw [BitVec.toNat_ofNat, Nat.mod_eq_of_lt (by omega)]
    bv_omega

theorem moved_inside (covered : Covers d n x) : moved m d s n x = m (s + (x - d)) := if_pos covered

theorem moved_outside (outside : ¬Covers d n x) : moved m d s n x = m x := if_neg outside

theorem moved_byte (less : i < n) (small : n ≤ 2 ^ 32) :
    moved m d s n (d + BitVec.ofNat 32 i) = m (s + BitVec.ofNat 32 i) := by
  have back : d + BitVec.ofNat 32 i - d = BitVec.ofNat 32 i := by
    rw [BitVec.add_comm, BitVec.add_sub_cancel]
  rw [moved_inside (covers_add less small), back]

theorem moved_alike (alike : ∀ x, Covers s n x → m x = b) : moved m d s n = filled m d b n := by
  funext x
  unfold moved filled
  split
  · have back : s + (x - d) - s = x - d := by ring
    exact alike _ (by unfold Covers; rwa [back])
  · rfl

theorem moved_zero : moved m d s 0 = m := funext fun _ => moved_outside not_covers_zero

theorem moved_self : moved m d d n = m := by
  funext x
  have back : d + (x - d) = x := by
    rw [BitVec.add_comm, BitVec.sub_add_cancel]
  unfold moved
  rw [back, ite_self]

theorem moved_one : moved m d s 1 = setByte m d (m s) := by
  funext x
  unfold moved setByte
  simp only [covers_one_iff]
  split
  · subst x
    rw [BitVec.sub_self, BitVec.add_zero]
  · rfl

/-- A word stored is four bytes moved, as it has been read before. -/
theorem moved_four : moved m d s 4 = setUlong m d (ulong m s) := by
  funext x
  by_cases covered : Covers d 4 x
  · obtain ⟨i, less, rfl⟩ := covered.offset
    rw [moved_byte less (by decide), setUlong_inside less, byte_of_ulong less]
  · rw [moved_outside covered, setUlong_outside covered]

/-- A stretch moved in two parts, where the first part does not change what the second one reads. -/
theorem moved_moved (kept : ∀ x, Covers (s + BitVec.ofNat 32 n) k x → moved m d s n x = m x) (small : n + k ≤ 2 ^ 32) :
    moved (moved m d s n) (d + BitVec.ofNat 32 n) (s + BitVec.ofNat 32 n) k = moved m d s (n + k) := by
  funext x
  by_cases second : Covers (d + BitVec.ofNat 32 n) k x
  · have both : Covers d (n + k) x := (covers_add_iff small).mpr (Or.inr second)
    have place : s + BitVec.ofNat 32 n + (x - (d + BitVec.ofNat 32 n)) = s + (x - d) := by ring
    have offset : s + (x - d) - (s + BitVec.ofNat 32 n) = x - (d + BitVec.ofNat 32 n) := by ring
    rw [moved_inside second, moved_inside both, place]
    apply kept
    unfold Covers
    rwa [offset]
  · rw [moved_outside second]
    by_cases first : Covers d n x
    · rw [moved_inside first, moved_inside ((covers_add_iff small).mpr (Or.inl first))]
    · have neither : ¬Covers d (n + k) x := fun both => ((covers_add_iff small).mp both).elim first second
      rw [moved_outside first, moved_outside neither]

/-- Whatever part has been moved, the bytes still to be read are as they were. -/
def Unread (m : Memory) (d s : Address) (n : Nat) : Prop :=
  ∀ i ≤ n, ∀ x, Covers (s + BitVec.ofNat 32 i) (n - i) x → moved m d s i x = m x

theorem Unread.split (unread : Unread m d s (n + k)) :
    ∀ x, Covers (s + BitVec.ofNat 32 n) k x → moved m d s n x = m x := by
  have part := unread n (Nat.le_add_right n k)
  rwa [Nat.add_sub_cancel_left] at part

theorem Unread.first (unread : Unread m d s (n + k)) : Unread m d s n := by
  intro i most x covered
  exact unread i (by omega) x (Nat.lt_of_lt_of_le covered (by omega))

theorem Unread.rest (unread : Unread m d s (n + k)) (small : n + k < 2 ^ 32) :
    Unread (moved m d s n) (d + BitVec.ofNat 32 n) (s + BitVec.ofNat 32 n) k := by
  intro i most x covered
  have before (y : Address) (inside : Covers (s + BitVec.ofNat 32 n) i y) : moved m d s n y = m y :=
    unread.split y (Nat.lt_of_lt_of_le inside most)
  have place : s + BitVec.ofNat 32 n + BitVec.ofNat 32 i = s + BitVec.ofNat 32 (n + i) := by
    rw [BitVec.ofNat_add, BitVec.add_assoc]
  rw [place] at covered
  have later := unread (n + i) (by omega) x (by rwa [show n + k - (n + i) = k - i by omega])
  have inside : Covers (s + BitVec.ofNat 32 n) k x := by
    rw [← place] at covered
    exact covered.widen (by omega) (by omega)
  rw [moved_moved before (by omega), later, unread.split x inside]

theorem unread_of_apart (apart : ∀ i < n, ∀ j < n, s + BitVec.ofNat 32 i ≠ d + BitVec.ofNat 32 j) :
    Unread m d s n := by
  intro k most x later
  apply moved_outside
  intro first
  obtain ⟨j, low, here⟩ := first.offset
  obtain ⟨i, high, there⟩ := later.offset
  refine apart (k + i) (by omega) j (by omega) ?_
  rw [BitVec.ofNat_add, ← BitVec.add_assoc, ← there, here]

theorem unread_of_alike (small : n < 2 ^ 32) (alike : ∀ x, Covers s n x → m x = b) : Unread m d s n := by
  intro k most x later
  have source (y : Address) (inside : Covers s k y) : m y = b := alike y (Nat.lt_of_lt_of_le inside most)
  by_cases first : Covers d k x
  · have back : s + (x - d) - s = x - d := by ring
    rw [moved_inside first, source _ (by unfold Covers; rwa [back]), alike x (later.widen (by omega) small)]
  · exact moved_outside first

theorem filled_inside (covered : Covers d n x) : filled m d b n x = b := if_pos covered

theorem filled_outside (outside : ¬Covers d n x) : filled m d b n x = m x := if_neg outside

theorem filled_zero : filled m d b 0 = m := funext fun _ => filled_outside not_covers_zero

theorem filled_one : filled m d b 1 = setByte m d b := by
  funext x
  unfold filled setByte
  simp only [covers_one_iff]

/-- A word whose bytes are alike fills four bytes. -/
theorem filled_four {v : BitVec 32} (alike : ∀ i < 4, v.extractLsb' (8 * i) 8 = b) :
    filled m d b 4 = setUlong m d v := by
  funext x
  by_cases covered : Covers d 4 x
  · rw [filled_inside covered]
    obtain ⟨i, less, rfl⟩ := covered.offset
    rw [setUlong_inside less, alike i less]
  · rw [filled_outside covered, setUlong_outside covered]

theorem filled_filled (small : n + k ≤ 2 ^ 32) :
    filled (filled m d b n) (d + BitVec.ofNat 32 n) b k = filled m d b (n + k) := by
  funext x
  unfold filled
  rw [← ite_or]
  simp only [covers_add_iff small, or_comm]

end blocks

section loops

variable {m : Memory} {d s t x : Address} {b : BitVec 8} {n k i : Nat}

theorem ofNat_add_one (a : Address) (n : Nat) : a + 1#32 + BitVec.ofNat 32 n = a + BitVec.ofNat 32 (n + 1) := by
  rw [Nat.add_comm n 1, BitVec.ofNat_add, BitVec.add_assoc]

/-- The bytes copied upwards do not overwrite what is still to be read. -/
theorem copyUp_eq (small : n ≤ 2 ^ 32)
    (apart : ∀ i j, j < i → i < n → s + BitVec.ofNat 32 i ≠ d + BitVec.ofNat 32 j) : copyUp n m d s = moved m d s n := by
  induction n generalizing m d s with
  | zero => exact moved_zero.symm
  | succ n ih =>
    have rest := ih (m := setByte m d (m s)) (d := d + 1#32) (s := s + 1#32) (by omega) (by
      intro i j before less
      rw [ofNat_add_one, ofNat_add_one]
      exact apart (i + 1) (j + 1) (by omega) (by omega))
    have kept : ∀ x, Covers (s + BitVec.ofNat 32 1) n x → moved m d s 1 x = m x := by
      intro x later
      apply moved_outside
      intro first
      obtain ⟨i, less, place⟩ := later.offset
      rw [ofNat_add_one, covers_one_iff.mp first] at place
      refine apart (i + 1) 0 (by omega) (by omega) ?_
      rw [← place, BitVec.add_zero]
    have together := moved_moved (m := m) kept (by omega)
    rw [Nat.add_comm] at together
    rw [copyUp, rest, ← together, moved_one]

theorem fillUp_eq (small : n ≤ 2 ^ 32) : fillUp n m d b = filled m d b n := by
  induction n generalizing m d with
  | zero => exact filled_zero.symm
  | succ n ih =>
    have rest := ih (m := setByte m d b) (d := d + 1#32) (by omega)
    have together := filled_filled (m := m) (d := d) (b := b) (n := 1) (k := n) (by omega)
    rw [Nat.add_comm] at together
    rw [fillUp, rest, ← together, filled_one]

theorem setByte_self : setByte m d (m d) = m := by
  funext x
  unfold setByte
  split
  · subst x
    rfl
  · rfl

theorem copyDown_self : copyDown n m d d = m := by
  induction n with
  | zero => rfl
  | succ n ih => rw [copyDown, setByte_self, ih]

/-- A change of memory that puts into each of the n bytes from d on one of the bytes that stood from s on. -/
structure Carries (f : Memory → Memory) (d s : Address) (n : Nat) (ρ : Address → Address) : Prop where
  bytes : ∀ m, f m = fun x => m (ρ x)
  inside : ∀ x, Covers d n x → Covers s n (ρ x)
  outside : ∀ x, ¬Covers d n x → ρ x = x

theorem Carries.eq_self_of_id {f : Memory → Memory} {ρ : Address → Address} (carries : Carries f d s n ρ)
    (same : ∀ x, ρ x = x) : f m = m := by
  rw [carries.bytes]
  funext x
  rw [same x]

theorem eq_of_memories {x y : Address} (same : ∀ m : Memory, m x = m y) : x = y := by
  have here := same fun z => if z = y then 1 else 0
  rw [if_pos rfl] at here
  split at here
  · assumption
  · cases here

theorem Carries.source_eq {f : Memory → Memory} {ρ : Address → Address} (carries : Carries f d s n ρ)
    {d' s' : Address} (alike : ∀ m, f m = moved m d' s' k) (x : Address) :
    ρ x = if Covers d' k x then s' + (x - d') else x := by
  apply eq_of_memories
  intro m
  have here := congrFun (alike m) x
  rw [carries.bytes] at here
  rw [apply_ite m]
  exact here

/-- Bytes that go to s come from there: the move of n bytes to d overwrites the byte before s as well. -/
theorem Carries.still {f : Memory → Memory} {ρ : Address → Address} (carries : Carries f d s n ρ)
    (self : s = d → ∀ m, f m = m) (few : n < 2 ^ 32) (small : k < 2 ^ 32) (alike : ∀ m, f m = moved m s t k) :
    k = 0 ∨ t = s := by
  refine Decidable.byContradiction fun moves => ?_
  have source := carries.source_eq alike
  have here : ρ s ≠ s := by
    rw [source s, if_pos (by unfold Covers; bv_omega)]
    bv_omega
  have covered : Covers d n s := Decidable.byContradiction fun apart => here (carries.outside s apart)
  by_cases same : s = d
  · refine here (eq_of_memories fun m => ?_)
    have kept := congrFun (self same m) s
    rwa [carries.bytes] at kept
  · -- The byte before s is not one of those that the other move writes.
    have before : Covers s n (ρ (s - 1)) := carries.inside _ (by unfold Covers at covered ⊢; bv_omega)
    rw [source (s - 1), if_neg (by unfold Covers; bv_omega)] at before
    unfold Covers at before
    bv_omega

/-- Where every byte stays in its place, no bytes are moved from one place to another. -/
theorem Carries.unmoved {f : Memory → Memory} {ρ : Address → Address} (carries : Carries f d s n ρ) (few : n < 2 ^ 32)
    (fixed : ∀ x, ρ x = x) : n = 0 ∨ s = d := by
  refine Decidable.byContradiction fun moves => ?_
  have first := carries.inside d (by unfold Covers; bv_omega)
  rw [fixed] at first
  have last := carries.inside (s + BitVec.ofNat 32 n) (by unfold Covers at first ⊢; bv_omega)
  rw [fixed] at last
  unfold Covers at last
  bv_omega

/-- The move of n bytes from s to d does what a move to s is to do only where neither of them changes anything. -/
theorem Carries.shifted_iff {f : Memory → Memory} {ρ : Address → Address} (carries : Carries f d s n ρ)
    (self : s = d → ∀ m, f m = m) (few : n < 2 ^ 32) (small : k < 2 ^ 32) :
    (∀ m, f m = moved m s t k) ↔ (n = 0 ∨ s = d) ∧ (k = 0 ∨ t = s) := by
  constructor
  · intro alike
    have still := carries.still self few small alike
    refine ⟨carries.unmoved few fun x => ?_, still⟩
    rw [carries.source_eq alike x]
    rcases still with rfl | rfl
    · exact if_neg not_covers_zero
    · rw [BitVec.add_comm, BitVec.sub_add_cancel, ite_self]
  · rintro ⟨none, other⟩ m
    have kept : f m = m := by
      rcases none with rfl | same
      · exact carries.eq_self_of_id fun x => carries.outside x not_covers_zero
      · exact self same m
    rcases other with rfl | rfl
    · rw [kept, moved_zero]
    · rw [kept, moved_self]

theorem covers_first : Covers d (n + 1) d := by
  unfold Covers
  simp

theorem copyUp_carries (d s : Address) (small : n ≤ 2 ^ 32) : ∃ ρ, Carries (fun m => copyUp n m d s) d s n ρ := by
  induction n generalizing d s with
  | zero =>
    exact ⟨id, fun _ => rfl, fun _ covered => absurd covered not_covers_zero, fun _ _ => rfl⟩
  | succ n ih =>
    obtain ⟨ρ, bytes, inside, outside⟩ := ih (d + 1#32) (s + 1#32) (by omega)
    have wide (a y : Address) : Covers a (n + 1) y ↔ y = a ∨ Covers (a + 1#32) n y := by
      have split := covers_add_iff (d := a) (x := y) (n := 1) (k := n) (by omega)
      rwa [Nat.add_comm, covers_one_iff] at split
    refine ⟨fun x => if ρ x = d then s else ρ x, ?_, ?_, ?_⟩
    · intro m
      funext x
      have rest := congrFun (bytes (setByte m d (m s))) x
      refine rest.trans ?_
      unfold setByte
      split <;> rfl
    · intro x covered
      split
      · exact covers_first
      · rename_i other
        rcases Decidable.em (Covers (d + 1#32) n x) with later | first
        · exact (wide s _).mpr (Or.inr (inside x later))
        · rw [outside x first] at other
          exact absurd covered fun both => ((wide d x).mp both).elim other first
    · intro x apart
      have later : ¬Covers (d + 1#32) n x := fun covered => apart ((wide d x).mpr (Or.inr covered))
      have other : x ≠ d := fun same => apart ((wide d x).mpr (Or.inl same))
      rw [outside x later, if_neg other]

theorem copyDown_carries (d s : Address) (small : n ≤ 2 ^ 32) :
    ∃ ρ, Carries (fun m => copyDown n m d s) d s n ρ := by
  induction n with
  | zero =>
    exact ⟨id, fun _ => rfl, fun _ covered => absurd covered not_covers_zero, fun _ _ => rfl⟩
  | succ n ih =>
    obtain ⟨ρ, bytes, inside, outside⟩ := ih (by omega)
    have wide (a y : Address) : Covers a (n + 1) y ↔ Covers a n y ∨ y = a + BitVec.ofNat 32 n := by
      rw [covers_add_iff small, covers_one_iff]
    refine ⟨fun x => if ρ x = d + BitVec.ofNat 32 n then s + BitVec.ofNat 32 n else ρ x, ?_, ?_, ?_⟩
    · intro m
      funext x
      have rest := congrFun (bytes (setByte m (d + BitVec.ofNat 32 n) (m (s + BitVec.ofNat 32 n)))) x
      refine rest.trans ?_
      unfold setByte
      split <;> rfl
    · intro x covered
      split
      · exact covers_add (Nat.lt_succ_self n) small
      · rename_i other
        rcases Decidable.em (Covers d n x) with earlier | last
        · exact (wide s _).mpr (Or.inl (inside x earlier))
        · rw [outside x last] at other
          exact absurd covered fun both => ((wide d x).mp both).elim last other
    · intro x apart
      have earlier : ¬Covers d n x := fun covered => apart ((wide d x).mpr (Or.inl covered))
      have other : x ≠ d + BitVec.ofNat 32 n := fun same => apart ((wide d x).mpr (Or.inr same))
      rw [outside x earlier, if_neg other]

end loops

end BlockMoves
