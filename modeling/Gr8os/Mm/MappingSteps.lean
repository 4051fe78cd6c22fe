import Gr8os.Mm.Mapping
import Gr8os.Mm.PageLists

/-! What one page of a mapping or an unmapping can do to the machine. -/
namespace Gr8os.Mm

/-- Where the descriptors lie and which lists they are in. -/
structure SameDatabase (s t : MmState) : Prop where
  pages : t.physicalMemoryPages = s.physicalMemoryPages
  database : t.mmPpdDatabase = s.mmPpdDatabase
  heads : t.pageListHead = s.pageListHead

namespace SameDatabase

variable {s t u : MmState}

theorem refl (s : MmState) : SameDatabase s s := ⟨rfl, rfl, rfl⟩

theorem trans (h : SameDatabase s t) (k : SameDatabase t u) : SameDatabase s u :=
  ⟨k.pages.trans h.pages, k.database.trans h.database, k.heads.trans h.heads⟩

theorem ppd_eq (h : SameDatabase s t) (pfn : Nat) : mmPfnPpd t pfn = mmPfnPpd s pfn := by
  simp only [mmPfnPpd, h.database]

end SameDatabase

theorem mmPfnPpd_injective (s : MmState) {f g : Nat} (same : mmPfnPpd s f = mmPfnPpd s g) : f = g := by
  simp only [mmPfnPpd, sizeofMmppd] at same
  omega

/-- One descriptor is rewritten. -/
structure Updated (s t : MmState) (p : Nat) (f : Mmppd → Mmppd) : Prop where
  described : s.Mapped p
  here : t.ppd p = f (s.ppd p)
  others : ∀ q, q ≠ p → t.ppd q = s.ppd q
  same : SameDatabase s t
  pte : t.pte = s.pte
  workingSet : t.workingSet = s.workingSet

theorem update_inv {s t : MmState} {p : Nat} {f : Mmppd → Mmppd} (h : s.update p f = some t) :
    Updated s t p f := by
  unfold MmState.update at h
  split at h
  · cases Option.some.inj h
    constructor
    · assumption
    · exact if_pos rfl
    · intro q other
      exact if_neg other
    · exact ⟨rfl, rfl, rfl⟩
    · rfl
    · rfl
  · exact absurd h (by simp)

theorem writePte_inv {s t : MmState} {i : Nat} {p : Mmpte} (h : s.writePte i p = some t) :
    i < pageTableEntries ∧ t = s.setPte (BitVec.ofNat 20 i) p := by
  unfold MmState.writePte at h
  split at h
  · exact ⟨‹_›, (Option.some.inj h).symm⟩
  · exact absurd h (by simp)

/-- How a page that is mapped for the first time is indexed. -/
def Indexed (heap : Nat → Bool) (s t : MmState) (p : Nat) : Prop :=
  (t.workingSet = s.workingSet ∧ (t.ppd p).u1 = noWsIndex ∧
    (t.ppd p).belongsToSystemWorkingSet = (s.ppd p).belongsToSystemWorkingSet) ∨
  miAddPageToWorkingSet heap s.workingSet p = some ((t.ppd p).u1, t.workingSet)

structure FirstMapped (heap : Nat → Bool) (s t : MmState) (p : Nat) : Prop where
  same : SameDatabase s t
  pte : t.pte = s.pte
  others : ∀ q, q ≠ p → t.ppd q = s.ppd q
  count : (t.ppd p).shareCount = (s.ppd p).shareCount
  location : (t.ppd p).pageLocation = (s.ppd p).pageLocation
  indexed : Indexed heap s t p

theorem firstMapping_inv {heap : Nat → Bool} {s t : MmState} {p i : Nat} {add : Bool} {mode : ProcessorMode}
    (h : firstMapping heap s p i add mode = some t) : FirstMapped heap s t p := by
  simp only [firstMapping, Option.bind_eq_bind, Option.bind_eq_some_iff] at h
  obtain ⟨s₁, reset, rest⟩ := h
  have first := update_inv reset
  cases add with
  | false =>
    cases Option.some.inj rest
    have indexed : Indexed heap s t p := .inl ⟨first.workingSet, by rw [first.here], by rw [first.here]⟩
    exact ⟨first.same, first.pte, first.others, by rw [first.here], by rw [first.here], indexed⟩
  | true =>
    simp only [if_true, Option.bind_eq_some_iff] at rest
    obtain ⟨⟨wsIndex, w⟩, joined, rest⟩ := rest
    dsimp only at rest joined
    split at rest
    · exact absurd rest (by simp)
    · have second := update_inv rest
      have same : SameDatabase s₁ { s₁ with workingSet := w } := ⟨rfl, rfl, rfl⟩
      constructor
      · exact (first.same.trans same).trans second.same
      · exact second.pte.trans first.pte
      · intro q other
        exact (second.others q other).trans (first.others q other)
      · rw [second.here]
        change (s₁.ppd p).shareCount = _
        rw [first.here]
      · rw [second.here]
        change (s₁.ppd p).pageLocation = _
        rw [first.here]
      · rw [first.workingSet] at joined
        exact .inr (by rw [second.here, second.workingSet]; exact joined)

/-- The page whose descriptor is `p` gets one more PTE. -/
structure PageMapped (heap : Nat → Bool) (s t : MmState) (i pfn p : Nat) : Prop where
  frame : p = mmPfnPpd s pfn
  inTable : i < pageTableEntries
  described : pfn < s.physicalMemoryPages
  same : SameDatabase s t
  pte : t.pte = (s.setPte (BitVec.ofNat 20 i) (validKernelPte pfn)).pte
  others : ∀ q, q ≠ p → t.ppd q = s.ppd q
  count : (t.ppd p).shareCount = (s.ppd p).shareCount + 1
  location : (t.ppd p).pageLocation = (s.ppd p).pageLocation
  again : (s.ppd p).shareCount ≠ 0 → t.workingSet = s.workingSet ∧ (t.ppd p).u1 = (s.ppd p).u1 ∧
    (t.ppd p).belongsToSystemWorkingSet = (s.ppd p).belongsToSystemWorkingSet
  first : (s.ppd p).shareCount = 0 → Indexed heap s t p

theorem mapPage_inv {heap : Nat → Bool} {s t : MmState} {i pfn : Nat} {add : Bool} {mode : ProcessorMode}
    (h : mapPage heap s i pfn add mode = some t) : PageMapped heap s t i pfn (mmPfnPpd s pfn) := by
  simp only [mapPage, Option.bind_eq_bind, Option.bind_eq_some_iff] at h
  obtain ⟨s₁, wrote, s₂, counted, rest⟩ := h
  obtain ⟨inTable, rfl⟩ := writePte_inv wrote
  have count := update_inv counted
  have described : pfn < s.physicalMemoryPages := (mapped_mmPfnPpd s pfn).mp count.described
  have same : SameDatabase s s₂ := ⟨count.same.pages, count.same.database, count.same.heads⟩
  change (if (s₂.ppd (mmPfnPpd s pfn)).shareCount = 1 then _ else _) = _ at rest
  have here : s₂.ppd (mmPfnPpd s pfn) =
      { s.ppd (mmPfnPpd s pfn) with shareCount := (s.ppd (mmPfnPpd s pfn)).shareCount + 1 } := count.here
  have fromZero : (s₂.ppd (mmPfnPpd s pfn)).shareCount = 1 ↔ (s.ppd (mmPfnPpd s pfn)).shareCount = 0 := by
    rw [here]
    bv_omega
  split at rest
  · have once := fromZero.mp ‹_›
    have step : FirstMapped heap s₂ t (mmPfnPpd s pfn) := firstMapping_inv rest
    constructor
    · rfl
    · exact inTable
    · exact described
    · exact same.trans step.same
    · exact step.pte.trans count.pte
    · intro q other
      exact (step.others q other).trans (count.others q other)
    · rw [step.count, here]
    · rw [step.location, here]
    · intro mapped
      exact absurd once mapped
    · intro _
      have indexed := step.indexed
      rw [Indexed, count.workingSet, here] at indexed
      exact indexed
  · have mapped := (not_congr fromZero).mp ‹_›
    cases Option.some.inj rest
    constructor
    · rfl
    · exact inTable
    · exact described
    · exact same
    · exact count.pte
    · exact count.others
    · rw [here]
    · rw [here]
    · intro _
      exact ⟨count.workingSet, by rw [here], by rw [here]⟩
    · intro zero
      exact absurd zero mapped

theorem miRemovePageFromWorkingSet_inv {checked : Bool} {s t : MmState} {p : Nat}
    (h : miRemovePageFromWorkingSet checked s p = some t) :
    t = { s with workingSet := s.workingSet.clearPresent (s.ppd p).u1 } := by
  unfold miRemovePageFromWorkingSet at h
  split at h
  · exact absurd h (by simp)
  · exact (Option.some.inj h).symm

/-- One PTE is cleared and the page whose descriptor is `p` has one PTE less. -/
structure PageUnmapped (s t : MmState) (i p : Nat) : Prop where
  frame : p = mmPfnPpd s (s.pte (BitVec.ofNat 20 i)).pageFrameNumber
  inTable : i < pageTableEntries
  described : (s.pte (BitVec.ofNat 20 i)).pageFrameNumber < s.physicalMemoryPages
  same : SameDatabase s t
  pte : t.pte = (s.setPte (BitVec.ofNat 20 i) 0).pte
  others : ∀ q, q ≠ p → t.ppd q = s.ppd q
  count : (t.ppd p).shareCount = (s.ppd p).shareCount - 1
  location : (t.ppd p).pageLocation = (s.ppd p).pageLocation
  kept : (s.ppd p).shareCount ≠ 1 → t.workingSet = s.workingSet ∧ (t.ppd p).u1 = (s.ppd p).u1 ∧
    (t.ppd p).belongsToSystemWorkingSet = (s.ppd p).belongsToSystemWorkingSet
  last : (s.ppd p).shareCount = 1 → (t.ppd p).belongsToSystemWorkingSet = false ∧
    t.workingSet = s.workingSet.clearPresent (s.ppd p).u1

theorem unmapPage_inv {checked : Bool} {s t : MmState} {i : Nat} (h : unmapPage checked s i = some t) :
    PageUnmapped s t i (mmPfnPpd s (s.pte (BitVec.ofNat 20 i)).pageFrameNumber) := by
  simp only [unmapPage, Option.bind_eq_bind, Option.bind_eq_some_iff] at h
  generalize frame : mmPfnPpd s (s.pte (BitVec.ofNat 20 i)).pageFrameNumber = p at h
  obtain ⟨s₁, wrote, s₂, counted, rest⟩ := h
  obtain ⟨inTable, rfl⟩ := writePte_inv wrote
  have count := update_inv counted
  have described : (s.pte (BitVec.ofNat 20 i)).pageFrameNumber < s.physicalMemoryPages := by
    rw [← mapped_mmPfnPpd, frame]
    exact count.described
  have same : SameDatabase s s₂ := ⟨count.same.pages, count.same.database, count.same.heads⟩
  have here : s₂.ppd p = { s.ppd p with shareCount := (s.ppd p).shareCount - 1 } := count.here
  have toZero : (s₂.ppd p).shareCount = 0 ↔ (s.ppd p).shareCount = 1 := by
    rw [here]
    bv_omega
  split at rest
  · have once := toZero.mp ‹_›
    simp only [Option.bind_eq_some_iff] at rest
    obtain ⟨s₃, removed, left⟩ := rest
    cases miRemovePageFromWorkingSet_inv removed
    have last := update_inv left
    have unlisted : SameDatabase s₂
        { s₂ with workingSet := s₂.workingSet.clearPresent (s₂.ppd p).u1 } := ⟨rfl, rfl, rfl⟩
    constructor
    · exact frame.symm
    · exact inTable
    · exact described
    · exact (same.trans unlisted).trans last.same
    · exact last.pte.trans count.pte
    · intro q other
      exact (last.others q other).trans (count.others q other)
    · rw [last.here]
      change (s₂.ppd p).shareCount = _
      rw [here]
    · rw [last.here]
      change (s₂.ppd p).pageLocation = _
      rw [here]
    · intro shared
      exact absurd once shared
    · intro _
      rw [last.here, last.workingSet, here, count.workingSet]
      exact ⟨rfl, rfl⟩
  · have shared := (not_congr toZero).mp ‹_›
    cases Option.some.inj rest
    constructor
    · exact frame.symm
    · exact inTable
    · exact described
    · exact same
    · exact count.pte
    · exact count.others
    · rw [here]
    · rw [here]
    · intro _
      exact ⟨count.workingSet, by rw [here], by rw [here]⟩
    · intro once
      exact absurd once shared

end Gr8os.Mm
