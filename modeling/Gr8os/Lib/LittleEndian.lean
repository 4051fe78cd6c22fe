import Mathlib.Algebra.Group.Nat.Defs

/-! Little-endian words in a 32-bit address space, and the changes a list of disjoint patches or stores makes. -/
namespace LittleEndian

abbrev Address := BitVec 32

/-- The byte at each address. -/
abbrev Memory := Address → BitVec 8

/-- The address is one of the n bytes from another one on; addresses wrap around. -/
def Covers (a : Address) (n : Nat) (x : Address) : Prop := (x - a).toNat < n

instance (a : Address) (n : Nat) (x : Address) : Decidable (Covers a n x) :=
  inferInstanceAs (Decidable (_ < _))

/-- Two stretches of memory have no byte in common. -/
def Apart (a : Address) (n : Nat) (b : Address) (k : Nat) : Prop :=
  ∀ x, Covers a n x → ¬Covers b k x

/-- The 16-bit word at an address. -/
def ushort (m : Memory) (a : Address) : BitVec 16 := m (a + 1) ++ m a

/-- The 32-bit word at an address. -/
def ulong (m : Memory) (a : Address) : BitVec 32 := m (a + 3) ++ m (a + 2) ++ m (a + 1) ++ m a

def setUlong (m : Memory) (a : Address) (v : BitVec 32) : Memory :=
  fun x => if Covers a 4 x then v.extractLsb' (8 * (x - a).toNat) 8 else m x

section words

variable {m m' : Memory} {a b x : Address} {n k : Nat} {v : BitVec 32}

theorem Apart.symm (apart : Apart a n b k) : Apart b k a n := fun x first second => apart x second first

theorem covers_add {i : Nat} (less : i < n) (small : n ≤ 2 ^ 32) : Covers a n (a + BitVec.ofNat 32 i) := by
  have back : a + BitVec.ofNat 32 i - a = BitVec.ofNat 32 i := by
    rw [BitVec.add_comm, BitVec.add_sub_cancel]
  unfold Covers
  rw [back, BitVec.toNat_ofNat, Nat.mod_eq_of_lt (by omega)]
  exact less

theorem Covers.offset (covered : Covers a n x) : ∃ i < n, x = a + BitVec.ofNat 32 i := by
  refine ⟨(x - a).toNat, covered, ?_⟩
  rw [BitVec.ofNat_toNat, BitVec.setWidth_eq, BitVec.add_comm, BitVec.sub_add_cancel]

theorem Covers.widen {o : Nat} (covered : Covers (a + BitVec.ofNat 32 o) k x) (room : o + k ≤ n) (small : n < 2 ^ 32) :
    Covers a n x := by
  obtain ⟨i, less, rfl⟩ := covered.offset
  have sum : a + BitVec.ofNat 32 o + BitVec.ofNat 32 i = a + BitVec.ofNat 32 (o + i) := by
    rw [BitVec.add_assoc, ← BitVec.ofNat_add]
  rw [sum]
  exact covers_add (by omega) (by omega)

/-- Stretches are apart where neither reaches the start of the other. -/
theorem apart_of_distance (right : n ≤ (b - a).toNat) (left : k ≤ (a - b).toNat) : Apart a n b k := by
  intro x covered other
  unfold Covers at covered other
  bv_omega

/-- A stretch that starts so far behind an address lies in the bytes from there on. -/
theorem covers_inside_iff {d : Address} (few : k < 2 ^ 32) (small : n < 2 ^ 32) :
    (∀ x, Covers (a + d) k x → Covers a n x) ↔ k = 0 ∨ d.toNat + k ≤ n := by
  constructor
  · intro inside
    by_cases none : k = 0
    · exact Or.inl none
    · right
      refine Decidable.byContradiction fun outside => ?_
      rcases Nat.lt_or_ge d.toNat n with before | behind
      · have last := inside (a + BitVec.ofNat 32 n) (by unfold Covers; bv_omega)
        unfold Covers at last
        bv_omega
      · have first := inside (a + d) (by unfold Covers; bv_omega)
        unfold Covers at first
        bv_omega
  · rintro (rfl | room) x covered
    · exact absurd covered (Nat.not_lt_zero _)
    · refine Covers.widen (o := d.toNat) (k := k) ?_ room small
      rwa [BitVec.ofNat_toNat, BitVec.setWidth_eq]

theorem ushort_congr (same : ∀ x, Covers a 2 x → m x = m' x) : ushort m a = ushort m' a := by
  have low := same a (by simpa using covers_add (i := 0) (a := a) (n := 2) (by decide) (by decide))
  have high := same (a + 1) (covers_add (i := 1) (by decide) (by decide))
  rw [ushort, ushort, low, high]

theorem ulong_congr (same : ∀ x, Covers a 4 x → m x = m' x) : ulong m a = ulong m' a := by
  have zero := same a (by simpa using covers_add (i := 0) (a := a) (n := 4) (by decide) (by decide))
  have one := same (a + 1) (covers_add (i := 1) (by decide) (by decide))
  have two := same (a + 2) (covers_add (i := 2) (by decide) (by decide))
  have three := same (a + 3) (covers_add (i := 3) (by decide) (by decide))
  rw [ulong, ulong, zero, one, two, three]

theorem setUlong_outside (outside : ¬Covers a 4 x) : setUlong m a v x = m x := if_neg outside

theorem setUlong_inside {i : Nat} (less : i < 4) :
    setUlong m a v (a + BitVec.ofNat 32 i) = v.extractLsb' (8 * i) 8 := by
  have back : a + BitVec.ofNat 32 i - a = BitVec.ofNat 32 i := by
    rw [BitVec.add_comm, BitVec.add_sub_cancel]
  rw [setUlong, if_pos (covers_add less (by decide)), back, BitVec.toNat_ofNat, Nat.mod_eq_of_lt (by omega)]

theorem word_of_bytes (v : BitVec 32) :
    v.extractLsb' 24 8 ++ v.extractLsb' 16 8 ++ v.extractLsb' 8 8 ++ v.extractLsb' 0 8 = v := by
  apply BitVec.eq_of_getLsbD_eq
  intro i less
  simp only [BitVec.getLsbD_append, BitVec.getLsbD_extractLsb']
  grind

theorem ulong_setUlong (m : Memory) (a : Address) (v : BitVec 32) : ulong (setUlong m a v) a = v := by
  have zero : setUlong m a v a = v.extractLsb' 0 8 := by
    simpa using setUlong_inside (m := m) (a := a) (v := v) (i := 0) (by decide)
  have one : setUlong m a v (a + 1) = v.extractLsb' 8 8 := setUlong_inside (i := 1) (by decide)
  have two : setUlong m a v (a + 2) = v.extractLsb' 16 8 := setUlong_inside (i := 2) (by decide)
  have three : setUlong m a v (a + 3) = v.extractLsb' 24 8 := setUlong_inside (i := 3) (by decide)
  rw [ulong, zero, one, two, three]
  exact word_of_bytes v

theorem ulong_setUlong_apart (apart : Apart a 4 b 4) : ulong (setUlong m a v) b = ulong m b :=
  ulong_congr fun x covered => setUlong_outside fun other => apart x other covered

theorem byte_of_ulong {i : Nat} (less : i < 4) : (ulong m a).extractLsb' (8 * i) 8 = m (a + BitVec.ofNat 32 i) := by
  have cases : i = 0 ∨ i = 1 ∨ i = 2 ∨ i = 3 := by omega
  apply BitVec.eq_of_getLsbD_eq
  intro j small
  rcases cases with rfl | rfl | rfl | rfl <;>
    simp only [ulong, BitVec.getLsbD_extractLsb', BitVec.getLsbD_append, BitVec.add_zero] <;> grind

/-- Where two memories have the same word they have the same bytes. -/
theorem bytes_of_ulong (same : ulong m a = ulong m' a) (covered : Covers a 4 x) : m x = m' x := by
  obtain ⟨i, less, rfl⟩ := covered.offset
  have left := byte_of_ulong (m := m) (a := a) less
  have right := byte_of_ulong (m := m') (a := a) less
  rw [← left, ← right, same]

theorem setUlong_ulong (m : Memory) (a : Address) : setUlong m a (ulong m a) = m := by
  funext x
  by_cases covered : Covers a 4 x
  · exact bytes_of_ulong (ulong_setUlong m a _) covered
  · exact setUlong_outside covered

end words

/-- The word at an address replaced by a function of itself. -/
def patch (f : BitVec 32 → BitVec 32) (m : Memory) (a : Address) : Memory := setUlong m a (f (ulong m a))

/-- The words at a list of addresses patched one after another. -/
def patchAll (f : BitVec 32 → BitVec 32) : Memory → List Address → Memory := List.foldl (patch f)

section patches

variable {f : BitVec 32 → BitVec 32} {m : Memory} {ts us : List Address} {t x : Address}

theorem patchAll_append : patchAll f m (ts ++ us) = patchAll f (patchAll f m ts) us := List.foldl_append

theorem patchAll_frame (outside : ∀ t ∈ ts, ¬Covers t 4 x) : patchAll f m ts x = m x := by
  induction ts generalizing m with
  | nil => rfl
  | cons t ts ih =>
    have rest := ih (m := patch f m t) (fun u member => outside u (List.mem_cons_of_mem _ member))
    exact rest.trans (setUlong_outside (outside t List.mem_cons_self))

theorem patchAll_target (apart : ts.Pairwise fun t u => Apart t 4 u 4) (member : t ∈ ts) :
    ulong (patchAll f m ts) t = f (ulong m t) := by
  induction ts generalizing m with
  | nil => cases member
  | cons u ts ih =>
    obtain ⟨first, rest⟩ := List.pairwise_cons.mp apart
    rcases List.mem_cons.mp member with rfl | later
    · have kept : ulong (patchAll f (patch f m t) ts) t = ulong (patch f m t) t :=
        ulong_congr fun x covered => patchAll_frame fun w inRest other => first w inRest x covered other
      exact kept.trans (ulong_setUlong m t _)
    · have step : ulong (patchAll f (patch f m u) ts) t = f (ulong (patch f m u) t) := ih rest later
      have before : ulong (patch f m u) t = ulong m t := ulong_setUlong_apart (first t later)
      rw [before] at step
      exact step

/-- Only the words that a patch changes have other bytes afterwards. -/
theorem patchAll_outside (apart : ts.Pairwise fun t u => Apart t 4 u 4)
    (outside : ∀ t ∈ ts, f (ulong m t) ≠ ulong m t → ¬Covers t 4 x) : patchAll f m ts x = m x := by
  by_cases touched : ∃ t ∈ ts, Covers t 4 x
  · obtain ⟨t, member, covered⟩ := touched
    have same : f (ulong m t) = ulong m t :=
      Decidable.byContradiction fun changed => outside t member changed covered
    exact bytes_of_ulong ((patchAll_target apart member).trans same) covered
  · exact patchAll_frame fun t member covered => touched ⟨t, member, covered⟩

end patches

end LittleEndian

namespace Stores

open LittleEndian

def storeAll (m : Memory) (ps : List (Address × BitVec 32)) : Memory := ps.foldl (fun m p => setUlong m p.1 p.2) m

section stores

variable {m : Memory} {ps qs : List (Address × BitVec 32)} {t x : Address} {v : BitVec 32}

theorem storeAll_cons {p : Address × BitVec 32} : storeAll m (p :: ps) = storeAll (setUlong m p.1 p.2) ps := rfl

theorem storeAll_append : storeAll m (ps ++ qs) = storeAll (storeAll m ps) qs := List.foldl_append

theorem storeAll_frame (outside : ∀ p ∈ ps, ¬Covers p.1 4 x) : storeAll m ps x = m x := by
  induction ps generalizing m with
  | nil => rfl
  | cons p ps ih =>
    rw [storeAll_cons, ih fun q member => outside q (List.mem_cons_of_mem p member)]
    exact setUlong_outside (outside p List.mem_cons_self)

theorem storeAll_apart (apart : ∀ p ∈ ps, Apart p.1 4 t 4) : ulong (storeAll m ps) t = ulong m t :=
  ulong_congr fun x covered => storeAll_frame fun p member other => apart p member x other covered

/-- At disjoint addresses every word stays as it was stored. -/
theorem storeAll_word (apart : (ps.map Prod.fst).Pairwise fun t u => Apart t 4 u 4) (member : (t, v) ∈ ps) :
    ulong (storeAll m ps) t = v := by
  induction ps generalizing m with
  | nil => cases member
  | cons p ps ih =>
    obtain ⟨first, rest⟩ := List.pairwise_cons.mp apart
    rw [storeAll_cons]
    rcases List.mem_cons.mp member with rfl | later
    · have kept : ∀ q ∈ ps, Apart q.1 4 t 4 := fun q member => (first q.1 (List.mem_map_of_mem member)).symm
      rw [storeAll_apart kept]
      exact ulong_setUlong m t v
    · exact ih rest later

end stores

end Stores
