import Gr8os.Lib.Fibre
import Gr8os.Mm.MappingWrites

/-! The share count of a page and the number of PTEs that map it, over runs of mappings and unmappings. -/
namespace Gr8os.Mm

open Runs

/-- The frame that a PTE maps. -/
def frameOf (p : Mmpte) : Option Nat := if p.valid then some p.pageFrameNumber else none

def mapping (s : MmState) (i : BitVec 20) : Option Nat := frameOf (s.pte i)

noncomputable def mappings (s : MmState) (pfn : Nat) : Nat := Fibre.count (mapping s) pfn

def shareCount (s : MmState) (pfn : Nat) : Nat := (s.ppd (mmPfnPpd s pfn)).shareCount.toNat

theorem validKernelPte_valid (pfn : Nat) : (validKernelPte pfn).valid = true := by
  simp [Mmpte.valid, validKernelPte]

theorem frameOf_validKernelPte {pfn : Nat} (small : pfn < 2 ^ 20) : frameOf (validKernelPte pfn) = some pfn := by
  have frame : (validKernelPte pfn).pageFrameNumber = pfn := by
    have shifted : validKernelPte pfn >>> 12 = (BitVec.ofNat 32 pfn <<< 12) >>> 12 := by
      rw [validKernelPte, BitVec.ushiftRight_or_distrib]
      exact BitVec.zero_or
    rw [Mmpte.pageFrameNumber, shifted, BitVec.toNat_ushiftRight, BitVec.toNat_shiftLeft, BitVec.toNat_ofNat,
      Nat.shiftLeft_eq, Nat.shiftRight_eq_div_pow]
    omega
  rw [frameOf, if_pos (validKernelPte_valid pfn), frame]

theorem valid_zero : Mmpte.valid 0 = false := by decide

theorem frameOf_zero : frameOf 0 = none := by decide

theorem mapping_free {s : MmState} {i : BitVec 20} (free : mmPteIsFree (s.pte i) = true) : mapping s i = none := by
  have invalid : (s.pte i).valid = false := by
    simp only [mmPteIsFree, Bool.and_eq_true, Bool.not_eq_true'] at free
    exact free.1
  rw [mapping, frameOf, if_neg (by simp [invalid])]

/-- A physical address has 32 bits. -/
structure Counted (s : MmState) : Prop where
  frames : s.physicalMemoryPages ≤ 2 ^ 20
  exact : ∀ pfn < s.physicalMemoryPages, shareCount s pfn = mappings s pfn

theorem mapping_update {s t : MmState} {i : BitVec 20} {p : Mmpte} (pte : t.pte = (s.setPte i p).pte) :
    mapping t = Function.update (mapping s) i (frameOf p) := by
  funext j
  rw [mapping, pte]
  rcases Decidable.em (j = i) with rfl | other
  · simp [MmState.setPte]
  · simp [MmState.setPte, mapping, other]

theorem PageMapped.shareCount_eq {heap : Nat → Bool} {s t : MmState} {i pfn p : Nat}
    (step : PageMapped heap s t i pfn p) (room : shareCount s pfn < 31) (f : Nat) :
    shareCount t f = shareCount s f + if f = pfn then 1 else 0 := by
  rw [shareCount, step.same.ppd_eq]
  rcases Decidable.em (f = pfn) with rfl | other
  · have count := step.count
    rw [step.frame] at count
    rw [shareCount] at room
    rw [if_pos rfl, count, shareCount]
    bv_omega
  · have apart : mmPfnPpd s f ≠ p := fun same => other (mmPfnPpd_injective s (same.trans step.frame))
    rw [if_neg other, step.others _ apart]
    rfl

theorem PageUnmapped.shareCount_eq {s t : MmState} {i p pfn : Nat} (step : PageUnmapped s t i p)
    (frame : (s.pte (BitVec.ofNat 20 i)).pageFrameNumber = pfn) (shared : shareCount s pfn ≠ 0) (f : Nat) :
    shareCount t f + (if f = pfn then 1 else 0) = shareCount s f := by
  have here : p = mmPfnPpd s pfn := by rw [step.frame, frame]
  rw [shareCount, step.same.ppd_eq]
  rcases Decidable.em (f = pfn) with rfl | other
  · have count := step.count
    rw [here] at count
    rw [shareCount] at shared
    rw [if_pos rfl, count, shareCount]
    bv_omega
  · have apart : mmPfnPpd s f ≠ p := fun same => other (mmPfnPpd_injective s (same.trans here))
    rw [if_neg other, step.others _ apart]
    rfl

theorem PageMapped.counted {heap : Nat → Bool} {s t : MmState} {i pfn p : Nat}
    (step : PageMapped heap s t i pfn p) (counted : Counted s)
    (free : mmPteIsFree (s.pte (BitVec.ofNat 20 i)) = true) (room : shareCount s pfn < 31) : Counted t := by
  have described := step.described
  have frames := counted.frames
  constructor
  · rw [step.same.pages]
    exact frames
  · intro f inside
    rw [step.same.pages] at inside
    have assigned := Fibre.count_assign (mapping_free free) pfn f
    rw [step.shareCount_eq room, counted.exact f inside, mappings, mappings, mapping_update step.pte,
      frameOf_validKernelPte (by omega), assigned]

theorem PageUnmapped.counted {s t : MmState} {i p : Nat} (step : PageUnmapped s t i p) (counted : Counted s)
    (valid : (s.pte (BitVec.ofNat 20 i)).valid = true) : Counted t := by
  have described := step.described
  generalize frame : (s.pte (BitVec.ofNat 20 i)).pageFrameNumber = pfn at described
  have taken : mapping s (BitVec.ofNat 20 i) = some pfn := by
    rw [mapping, frameOf, if_pos valid, frame]
  have cleared := Fibre.count_clear taken
  have shared : shareCount s pfn ≠ 0 := by
    have exact := counted.exact pfn described
    have one := cleared pfn
    rw [if_pos rfl] at one
    rw [mappings] at exact
    omega
  constructor
  · rw [step.same.pages]
    exact counted.frames
  · intro f inside
    rw [step.same.pages] at inside
    have before := counted.exact f inside
    have less := step.shareCount_eq frame shared f
    have lost := cleared f
    rw [mappings] at before
    rw [mappings, mapping_update step.pte, frameOf_zero]
    omega

/-- No frame comes to more mappings than can be counted. -/
def Room (s : MmState) (frames : List Nat) : Prop := ∀ f ∈ frames, shareCount s f + frames.count f ≤ 31

instance (s : MmState) (frames : List Nat) : Decidable (Room s frames) :=
  inferInstanceAs (Decidable (∀ f ∈ frames, _))

theorem Room.head {s : MmState} {pfn : Nat} {pfns : List Nat} (room : Room s (pfn :: pfns)) :
    shareCount s pfn < 31 := by
  have first := room pfn (by simp)
  rw [List.count_cons_self] at first
  omega

theorem Room.tail {s t : MmState} {pfn : Nat} {pfns : List Nat} (room : Room s (pfn :: pfns))
    (shared : ∀ f, shareCount t f = shareCount s f + if f = pfn then 1 else 0) : Room t pfns := by
  intro f member
  have before := room f (List.mem_cons_of_mem _ member)
  have now := shared f
  rw [List.count_cons] at before
  rcases Decidable.em (f = pfn) with rfl | other
  · simp at before now
    omega
  · have apart : (pfn == f) = false := by simp [Ne.symm other]
    simp only [apart] at before
    rw [if_neg other] at now
    omega

theorem mapPages_counted {heap : Nat → Bool} {add : Bool} {mode : ProcessorMode} {i : Nat} {pfns : List Nat}
    {s t : MmState} {replaced : List Mmpte} (h : mapPages heap add mode i pfns s = some (replaced, t))
    (counted : Counted s)
    (free : ∀ j < pfns.length, mmPteIsFree (s.pte (BitVec.ofNat 20 (i + j))) = true)
    (room : Room s pfns) : Counted t := by
  induction pfns generalizing i s replaced with
  | nil =>
    cases Option.some.inj h
    exact counted
  | cons pfn pfns ih =>
    have inTable := mapPages_inTable h
    simp only [mapPages, Option.bind_eq_bind, Option.bind_eq_some_iff] at h
    obtain ⟨s₁, first, ⟨old, t'⟩, rest, last⟩ := h
    cases Option.some.inj last
    have step := mapPage_inv first
    have one := room.head
    apply ih rest (step.counted counted (free 0 (by simp)) one)
    · intro j less
      have here := step.inTable
      have there := inTable (j + 1) (by rw [List.length_cons]; omega)
      have later := free (j + 1) (by rw [List.length_cons]; omega)
      rw [step.pte_other (ofNat_ne here (by omega) (by omega))]
      rwa [Nat.add_assoc, Nat.add_comm 1 j]
    · exact room.tail (step.shareCount_eq one)

theorem unmapPages_inTable {checked : Bool} {i n : Nat} {s t : MmState}
    (h : unmapPages checked i n s = some t) : ∀ j < n, i + j < pageTableEntries := by
  induction n generalizing i s with
  | zero =>
    intro j less
    exact absurd less (Nat.not_lt_zero j)
  | succ n ih =>
    simp only [unmapPages, Option.bind_eq_bind, Option.bind_eq_some_iff] at h
    obtain ⟨s₁, first, rest⟩ := h
    intro j less
    cases j with
    | zero => exact (unmapPage_inv first).inTable
    | succ j =>
      have := ih rest j (by omega)
      omega

theorem PageUnmapped.pte_other {s t : MmState} {i p : Nat} (h : PageUnmapped s t i p) {k : BitVec 20}
    (other : k ≠ BitVec.ofNat 20 i) : t.pte k = s.pte k := by
  rw [h.pte]
  exact if_neg other

theorem unmapPages_counted {checked : Bool} {i n : Nat} {s t : MmState}
    (h : unmapPages checked i n s = some t) (counted : Counted s)
    (valid : ∀ j < n, (s.pte (BitVec.ofNat 20 (i + j))).valid = true) : Counted t := by
  induction n generalizing i s with
  | zero =>
    cases Option.some.inj h
    exact counted
  | succ n ih =>
    have inTable := unmapPages_inTable h
    simp only [unmapPages, Option.bind_eq_bind, Option.bind_eq_some_iff] at h
    obtain ⟨s₁, first, rest⟩ := h
    have step := unmapPage_inv first
    apply ih rest (step.counted counted (valid 0 (by omega)))
    intro j less
    have here := step.inTable
    have there := inTable (j + 1) (by omega)
    have later := valid (j + 1) (by omega)
    rw [step.pte_other (ofNat_ne here (by omega) (by omega))]
    rwa [Nat.add_assoc, Nat.add_comm 1 j]

/-! Runs of the five calls. -/

inductive MappingOp
  | miMapPhysicalPages (virtualAddress physicalAddress pageCount : BitVec 32)
  | map (c : MapCall)
  | miUnmapPhysicalPages (virtualAddress : BitVec 32) (pageCount : Nat)
  | mmUnmapLockedPages (mmd : Mmd)

def mappingStep (checked : Bool) (heap : Nat → Bool) (s : MmState) : MappingOp → Option MmState
  | .miMapPhysicalPages va pa n => miMapPhysicalPages s va pa n
  | .map c => (c.run heap s).map MapResult.state
  | .miUnmapPhysicalPages va n => miUnmapPhysicalPages checked s va n
  | .mmUnmapLockedPages mmd => (mmUnmapLockedPages checked s mmd).map Prod.fst

def MapCall.firstFree (c : MapCall) (s : MmState) : Option (BitVec 32) :=
  c.scan.bind fun area => findFree s area.1 1 area.2

/-- The pages find a free PTE each, and none of them becomes the 32nd mapping of its frame. -/
def MapCall.Fits (c : MapCall) (s : MmState) : Prop :=
  ∀ virtual ∈ c.firstFree s,
    (∀ j < c.frames.length, mmPteIsFree (s.pte (BitVec.ofNat 20 ((vpn virtual).toNat + j))) = true) ∧
      Room s c.frames

instance (c : MapCall) (s : MmState) : Decidable (c.Fits s) := Option.decidableForallMem (c.firstFree s)

def AllValid (s : MmState) (virtualAddress : BitVec 32) (pageCount : Nat) : Prop :=
  ∀ j < pageCount, (s.pte (BitVec.ofNat 20 ((vpn (alignDown virtualAddress)).toNat + j))).valid = true

instance (s : MmState) (virtualAddress : BitVec 32) (pageCount : Nat) :
    Decidable (AllValid s virtualAddress pageCount) :=
  inferInstanceAs (Decidable (∀ j < pageCount, _))

/-- What keeps the counts: MiMapPhysicalPages maps nothing, a mapping has room, and only what is mapped
is unmapped. -/
def Countable (s : MmState) : MappingOp → Prop
  | .miMapPhysicalPages _ _ n => n = 0
  | .map c => c.Fits s
  | .miUnmapPhysicalPages va n => AllValid s va n
  | .mmUnmapLockedPages mmd => AllValid s mmd.mappedVirtual mmd.pfnList.length

instance (s : MmState) : (op : MappingOp) → Decidable (Countable s op)
  | .miMapPhysicalPages _ _ n => inferInstanceAs (Decidable (n = 0))
  | .map c => inferInstanceAs (Decidable (c.Fits s))
  | .miUnmapPhysicalPages va n => inferInstanceAs (Decidable (AllValid s va n))
  | .mmUnmapLockedPages mmd => inferInstanceAs (Decidable (AllValid s mmd.mappedVirtual mmd.pfnList.length))

/-- No PTE maps a page yet. -/
structure NoMappings (s : MmState) : Prop where
  frames : s.physicalMemoryPages ≤ 2 ^ 20
  unmapped : ∀ i, (s.pte i).valid = false
  unshared : ∀ pfn < s.physicalMemoryPages, shareCount s pfn = 0

theorem NoMappings.counted {s : MmState} (h : NoMappings s) : Counted s where
  frames := h.frames
  exact := by
    intro pfn inside
    have empty : ∀ i, mapping s i = none := by
      intro i
      rw [mapping, frameOf, if_neg (by simp [h.unmapped i])]
    rw [h.unshared pfn inside, mappings, Fibre.count_empty empty]

theorem MapCall.counted {heap : Nat → Bool} {s : MmState} {c : MapCall} {r : MapResult}
    (h : c.run heap s = some r) (counted : Counted s) (fits : c.Fits s) : Counted r.state := by
  obtain ⟨start, pages, scan, ⟨-, -, same⟩ | ⟨virtual, found, mapped⟩⟩ := c.run_inv h
  · rw [same]
    exact counted
  · have first : virtual ∈ c.firstFree s := by
      rw [MapCall.firstFree, scan]
      exact (findFree_iff ..).mpr found
    obtain ⟨free, room⟩ := fits virtual first
    exact mapPages_counted mapped counted free room

theorem mappingStep_counted {checked : Bool} {heap : Nat → Bool} {s t : MmState} {op : MappingOp}
    (counted : Counted s)
    (step : Guarded Countable (fun s op t => mappingStep checked heap s op = some t) s op t) : Counted t := by
  obtain ⟨countable, step⟩ := step
  cases op with
  | miMapPhysicalPages va pa n =>
    cases (show n = 0 from countable)
    cases Option.some.inj step
    exact counted
  | map c =>
    obtain ⟨r, code, rfl⟩ := Option.map_eq_some_iff.mp step
    exact c.counted code counted countable
  | miUnmapPhysicalPages va n => exact unmapPages_counted step counted countable
  | mmUnmapLockedPages mmd =>
    simp only [mappingStep, mmUnmapLockedPages, Option.bind_eq_bind, Option.map_eq_some_iff,
      Option.bind_eq_some_iff] at step
    obtain ⟨r, ⟨s₁, code, last⟩, rfl⟩ := step
    cases Option.some.inj last
    exact unmapPages_counted code counted countable

theorem shareCount_eq_mappings {checked : Bool} {heap : Nat → Bool} {s t : MmState} {ops : List MappingOp}
    (initial : NoMappings s)
    (run : Run (Guarded Countable fun s op t => mappingStep checked heap s op = some t) s ops t) :
    ∀ pfn < t.physicalMemoryPages, shareCount t pfn = mappings t pfn :=
  (run.invariant (I := Counted) mappingStep_counted initial.counted).exact

/-- Four pages that nothing maps. -/
def unmapped : MmState where
  physicalMemoryPages := 4
  mmPpdDatabase := 1200
  ppd := fun _ => { u1 := 0, u2 := 0, pageLocation := .activeAndValid, modified := false }
  pageListHead := fun _ => 0
  pte := fun _ => 0

theorem unmapped_noMappings : NoMappings unmapped where
  frames := by decide
  unmapped := fun _ => valid_zero
  unshared := fun _ _ => rfl

def sharedTwice : List MappingOp :=
  [.map (.inRange 0xFF000000 0xFF010000 0x1000 2 false .kernelMode),
    .map (.locked { flags := 1, pfnList := [2] } .kernelMode false true),
    .miUnmapPhysicalPages 0xFF000000 1,
    .mmUnmapLockedPages { flags := 5, pfnList := [2], mappedVirtual := 0xFF002000 }]

theorem sharedTwice_counts : ∃ t,
    Run (Guarded Countable fun s op t => mappingStep true (fun _ => true) s op = some t) unmapped sharedTwice t ∧
      mappings t 2 = 1 := by
  have finishes : (exec (guarded Countable (mappingStep true fun _ => true)) unmapped sharedTwice).map
      (fun t => (t.physicalMemoryPages, shareCount t 2)) = some (4, 1) := by decide
  obtain ⟨t, run, ends⟩ := Option.map_eq_some_iff.mp finishes
  obtain ⟨pages, count⟩ := Prod.mk.inj ends
  have exact := shareCount_eq_mappings unmapped_noMappings (guarded_run run) 2 (by omega)
  exact ⟨t, guarded_run run, by omega⟩

theorem mapped_uncounted : ∃ t,
    Run (fun s op t => mappingStep true (fun _ => true) s op = some t) unmapped
        [.miMapPhysicalPages 0x80000000 0x1000 1] t ∧
      shareCount t 1 = 0 ∧ mappings t 1 = 1 := by
  refine ⟨unmapped.setPte 0x80000 (validKernelPte 1), .next rfl (.done _), rfl, ?_⟩
  have free : mapping unmapped 0x80000 = none := by decide
  have empty : ∀ i, mapping unmapped i = none := fun _ => frameOf_zero
  have before : Fibre.count (mapping unmapped) 1 = 0 := Fibre.count_empty empty 1
  rw [mappings, mapping_update rfl, frameOf_validKernelPte (by decide), Fibre.count_assign free, before]
  rfl

end Gr8os.Mm
