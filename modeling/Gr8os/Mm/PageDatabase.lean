import Gr8os.Lib.Sweep
import Gr8os.Mm.PageRuns
import Gr8os.Mm.ShareCount

/-! The page database at start-up: it is mapped, and its descriptors are filled in. Descriptors are words
of physical memory here, reached through page tables that hold whatever was in them before. -/
namespace Gr8os.Mm

open Intrusive Runs

/-- The loader counts pages of a physical address space of 32 bits. -/
structure LoaderArguments where
  physicalMemoryPages : Nat
  addressed : physicalMemoryPages ≤ 0x100000

/-- `memory` is physical memory in words of four bytes. -/
structure Startup where
  memory : Nat → BitVec 32
  pte : BitVec 20 → Mmpte
  workingSet : MmWorkingSet := {}
  mmZeroedPageListHead : BitVec 32 := 0

def mmPpdStart : BitVec 32 := 0xC8000000
def mmPpdStartPhys : BitVec 32 := 0x01000000
def initialPageCount : Nat := 0x3000

/-! The fields of the third word of a descriptor. -/

def setPageLocation (w : BitVec 32) (location : BitVec 32) : BitVec 32 := (w &&& 0xFFFFFFF8) ||| location
def setBelongsToSystemWorkingSet (w : BitVec 32) : BitVec 32 := w ||| 8
def setProcessorMode (w : BitVec 32) (mode : BitVec 32) : BitVec 32 := (w &&& 0xF9FFFFFF) ||| (mode <<< 25)
def setShareCount (w : BitVec 32) (count : BitVec 32) : BitVec 32 := (w &&& 0x07FFFFFF) ||| (count <<< 27)

def pageLocationOf (w : BitVec 32) : PageLocation :=
  match (w &&& 7).toNat with
  | 0 => .list .zeroedPageList
  | 1 => .list .freePageList
  | 2 => .list .modifiedPageList
  | 3 => .list .standbyPageList
  | 4 => .activeAndValid
  | 5 => .transitionPage
  | _ => .reservedOrBadPage

def mmppdOf (u1 u2 bits : BitVec 32) : Mmppd where
  u1 := u1.toNat
  u2 := u2.toNat
  pageLocation := pageLocationOf bits
  modified := bits.getLsbD 7
  belongsToSystemWorkingSet := bits.getLsbD 3
  processorMode := (bits >>> 25).setWidth 2
  shareCount := (bits >>> 27).setWidth 5

/-- The address of a word of Ppd[i]: u1, u2 and then the bit fields. -/
def ppdField (i k : Nat) : BitVec 32 := mmPpdStart + BitVec.ofNat 32 (sizeofMmppd * i + 4 * k)

namespace Startup

def translate (m : Startup) (virtualAddress : BitVec 32) : Option Nat :=
  (frameOf (m.pte (vpn virtualAddress))).map fun frame => 1024 * frame + (virtualAddress % 0x1000).toNat / 4

/-- No result is a page fault. -/
def modify (m : Startup) (virtualAddress : BitVec 32) (f : BitVec 32 → BitVec 32) : Option Startup :=
  (m.translate virtualAddress).map fun w => { m with memory := Function.update m.memory w (f (m.memory w)) }

def read (m : Startup) (virtualAddress : BitVec 32) : BitVec 32 :=
  match m.translate virtualAddress with
  | some w => m.memory w
  | none => 0

def descriptor (m : Startup) (p : Nat) : Mmppd :=
  mmppdOf (m.read (BitVec.ofNat 32 p)) (m.read (BitVec.ofNat 32 p + 4)) (m.read (BitVec.ofNat 32 p + 8))

/-- The state that the memory manager runs from. The heads of the other lists are still null. -/
def state (args : LoaderArguments) (m : Startup) : MmState where
  physicalMemoryPages := args.physicalMemoryPages
  mmPpdDatabase := mmPpdStart.toNat
  ppd := m.descriptor
  pageListHead
    | .zeroedPageList => m.mmZeroedPageListHead.toNat
    | _ => 0
  pte := m.pte
  workingSet := m.workingSet

/-- The size is rounded down to pages. -/
def mapDatabase (args : LoaderArguments) (m : Startup) : Option Startup :=
  let size := BitVec.ofNat 32 args.physicalMemoryPages * BitVec.ofNat 32 sizeofMmppd
  (miMapPhysicalPages (m.state args) mmPpdStart mmPpdStartPhys (size / 0x1000)).map fun s => { m with pte := s.pte }

def createWorkingSet (m : Startup) : Startup :=
  { m with
    workingSet :=
      { totalPageCount := initialPageCount
        wsPages := fun i => if i < initialPageCount then {} else m.workingSet.wsPages i } }

def activatePage (m : Startup) (i : Nat) : Option Startup := do
  let m ← m.modify (ppdField i 2) (setPageLocation · 4)
  let m ← m.modify (ppdField i 2) setBelongsToSystemWorkingSet
  let m ← m.modify (ppdField i 2) (setProcessorMode · 0)
  let entry : MmWorkingSetEntry :=
    { pageDescriptor := (ppdField i 0).toNat, present := true, lockedInWs := true }
  let m := { m with workingSet := m.workingSet.setEntry i entry }
  let m ← m.modify (ppdField i 0) fun _ => BitVec.ofNat 32 i
  m.modify (ppdField i 2) (setShareCount · 1)

def activatePages (m : Startup) : Option Startup := (List.range' 0 initialPageCount).foldlM activatePage m

/-- The first of the two ranges of addresses: the index of the ranges is never raised. -/
def initializeRange (checked : Bool) (m : Startup) : Option Startup :=
  (List.range' (vpn 0x80000000).toNat 0x1000).foldlM (fun m i =>
    let pte := m.pte (BitVec.ofNat 20 i)
    let ppd := pte.pageFrameNumber
    if !pte.valid then some m
    else if checked && pageLocationOf (m.read (ppdField ppd 2)) ≠ .activeAndValid then none
    else m.modify (ppdField ppd 1) fun _ => BitVec.ofNat 32 (pteAddress i)) m

/-- The loop tests the page index. -/
def initializeRanges (checked : Bool) (m : Startup) (i : Nat) : Option Startup :=
  (List.range' i (2 - i)).foldlM (fun m _ => initializeRange checked m) m

/-- Not for the first page of the list. -/
def setPrevBlink (m : Startup) (i : Nat) : Option Startup :=
  if initialPageCount < i then m.modify (ppdField i 1) fun _ => ppdField (i - 1) 0 else some m

def zeroPage (args : LoaderArguments) (m : Startup) (i : Nat) : Option Startup := do
  let m ← m.modify (ppdField i 2) (setPageLocation · 0)
  let m ← m.modify (ppdField i 2) (setShareCount · 0)
  let m ← m.setPrevBlink i
  m.modify (ppdField i 0) fun _ => if i = args.physicalMemoryPages - 1 then 0 else ppdField (i + 1) 0

def setHead (args : LoaderArguments) (m : Startup) : Startup :=
  { m with
    mmZeroedPageListHead :=
      if args.physicalMemoryPages = initialPageCount then 0 else ppdField initialPageCount 0 }

def zeroPages (args : LoaderArguments) (m : Startup) : Option Startup :=
  (List.range' initialPageCount (args.physicalMemoryPages - initialPageCount)).foldlM (zeroPage args) m

/-- The part of MmInitSystemPhase1 before the memory map is read. -/
def mmInitSystemPhase1 (checked : Bool) (args : LoaderArguments) (m : Startup) : Option Startup := do
  let m ← m.mapDatabase args
  let m ← m.createWorkingSet.activatePages
  let m ← m.initializeRanges checked initialPageCount
  (m.setHead args).zeroPages args

/-- The word of physical memory that is meant for a word of Ppd[i]. -/
def ppdWord (i k : Nat) : Nat := 0x400000 + 3 * i + k

/-- The page table maps this page of the database to its own frame. -/
def MapsPage (m : Startup) (j : Nat) : Prop := frameOf (m.pte (BitVec.ofNat 20 (0xC8000 + j))) = some (0x1000 + j)

instance (m : Startup) (j : Nat) : Decidable (m.MapsPage j) := inferInstanceAs (Decidable (_ = _))

def Maps (args : LoaderArguments) (m : Startup) : Prop :=
  ∀ j, 0x1000 * j < sizeofMmppd * args.physicalMemoryPages → m.MapsPage j

section pages

variable {args : LoaderArguments} {m t : Startup} {i j k l : Nat}

theorem ppdField_toNat (small : i < 0x100000) (field : k < 3) :
    (ppdField i k).toNat = 0xC8000000 + (12 * i + 4 * k) := by
  have base : mmPpdStart.toNat = 0xC8000000 := rfl
  simp only [ppdField, sizeofMmppd, BitVec.toNat_add, BitVec.toNat_ofNat, base]
  omega

theorem ppdWord_inj (field : k < 3) (other : l < 3) : ppdWord i k = ppdWord j l ↔ i = j ∧ k = l := by
  unfold ppdWord
  omega

theorem translate_ppdField (small : i < 0x100000) (field : k < 3) :
    m.translate (ppdField i k) = (frameOf (m.pte (BitVec.ofNat 20 (0xC8000 + (12 * i + 4 * k) / 0x1000)))).map
      fun frame => 1024 * frame + (12 * i + 4 * k) % 0x1000 / 4 := by
  have address := ppdField_toNat small field
  have page : vpn (ppdField i k) = BitVec.ofNat 20 (0xC8000 + (12 * i + 4 * k) / 0x1000) := by
    apply BitVec.eq_of_toNat_eq
    simp only [vpn, BitVec.toNat_setWidth, BitVec.toNat_ushiftRight, address, Nat.shiftRight_eq_div_pow,
      BitVec.toNat_ofNat]
    omega
  have offset : (ppdField i k % 0x1000).toNat = (12 * i + 4 * k) % 0x1000 := by
    rw [BitVec.toNat_umod, address]
    change (0xC8000000 + (12 * i + 4 * k)) % 0x1000 = _
    omega
  rw [translate, page, offset]

theorem Maps.translate (maps : m.Maps args) (inside : i < args.physicalMemoryPages) (field : k < 3) :
    m.translate (ppdField i k) = some (ppdWord i k) := by
  have bound := args.addressed
  have page := maps ((12 * i + 4 * k) / 0x1000) (by unfold sizeofMmppd; omega)
  rw [translate_ppdField (by omega) field, page, Option.map_some, Option.some.injEq, ppdWord]
  omega

/-- Where the words of the descriptors are where they belong, the pages are. -/
theorem maps_of_translate (words : ∀ i < args.physicalMemoryPages, ∀ k < 3,
    m.translate (ppdField i k) = some (ppdWord i k)) : m.Maps args := by
  intro j inside
  have bound := args.addressed
  unfold sizeofMmppd at inside
  have here := words (1024 * j / 3) (by omega) (1024 * j % 3) (by omega)
  have offset : 12 * (1024 * j / 3) + 4 * (1024 * j % 3) = 0x1000 * j := by omega
  rw [translate_ppdField (by omega) (by omega), offset, Nat.mul_div_cancel_left _ (by decide), Nat.mul_mod_right] at here
  obtain ⟨frame, mapped, word⟩ := Option.map_eq_some_iff.mp here
  rw [MapsPage, mapped, Option.some.injEq]
  unfold ppdWord at word
  omega

/-- A write that reaches the word it is meant for. -/
def store (m : Startup) (i k : Nat) (f : BitVec 32 → BitVec 32) : Startup :=
  { m with memory := Function.update m.memory (ppdWord i k) (f (m.memory (ppdWord i k))) }

theorem Maps.modify (maps : m.Maps args) (inside : i < args.physicalMemoryPages) (field : k < 3)
    (f : BitVec 32 → BitVec 32) : m.modify (ppdField i k) f = some (m.store i k f) := by
  rw [Startup.modify, maps.translate inside field, Option.map_some]
  rfl

theorem Maps.store (maps : m.Maps args) (i k : Nat) (f : BitVec 32 → BitVec 32) : (m.store i k f).Maps args := maps

theorem Maps.read (maps : m.Maps args) (inside : i < args.physicalMemoryPages) (field : k < 3) :
    m.read (ppdField i k) = m.memory (ppdWord i k) := by
  rw [Startup.read, maps.translate inside field]

theorem modify_pte {va : BitVec 32} {f : BitVec 32 → BitVec 32} (run : m.modify va f = some t) : t.pte = m.pte := by
  obtain ⟨w, -, rfl⟩ := Option.map_eq_some_iff.mp run
  rfl

end pages

/-- The words of a descriptor, and the slot of the working set with its number. -/
structure Row where
  u1 : BitVec 32
  u2 : BitVec 32
  bits : BitVec 32
  entry : MmWorkingSetEntry

def row (m : Startup) (i : Nat) : Row where
  u1 := m.memory (ppdWord i 0)
  u2 := m.memory (ppdWord i 1)
  bits := m.memory (ppdWord i 2)
  entry := m.workingSet.wsPages i

def Row.active (i : Nat) (r : Row) : Row where
  u1 := BitVec.ofNat 32 i
  u2 := r.u2
  bits := setShareCount (setProcessorMode (setBelongsToSystemWorkingSet (setPageLocation r.bits 4)) 0) 1
  entry := { pageDescriptor := (ppdField i 0).toNat, present := true, lockedInWs := true }

/-- The first page of the list keeps what it has for a back link. -/
def Row.zeroed (args : LoaderArguments) (i : Nat) (r : Row) : Row where
  u1 := if i = args.physicalMemoryPages - 1 then 0 else ppdField (i + 1) 0
  u2 := if initialPageCount < i then ppdField (i - 1) 0 else r.u2
  bits := setShareCount (setPageLocation r.bits 0) 0
  entry := r.entry

def Row.store (k : Nat) (f : BitVec 32 → BitVec 32) (r : Row) : Row :=
  match k with
  | 0 => { r with u1 := f r.u1 }
  | 1 => { r with u2 := f r.u2 }
  | _ => { r with bits := f r.bits }

/-- What the loops over the pages rely on. -/
structure Filling (args : LoaderArguments) (head : BitVec 32) (pages : Nat) (m : Startup) : Prop where
  maps : m.Maps args
  head : m.mmZeroedPageListHead = head
  pages : m.workingSet.totalPageCount = pages

section rows

variable {args : LoaderArguments} {m : Startup} {head : BitVec 32} {pages i j k : Nat}

theorem row_store (field : k < 3) (f : BitVec 32 → BitVec 32) (j : Nat) :
    (m.store i k f).row j = if j = i then (m.row i).store k f else m.row j := by
  have word (l : Nat) (other : l < 3) : (m.store i k f).memory (ppdWord j l) =
      if j = i ∧ l = k then f (m.memory (ppdWord i k)) else m.memory (ppdWord j l) := by
    simp only [Startup.store, Function.update_apply, ppdWord_inj other field]
  simp only [row, word 0 (by decide), word 1 (by decide), word 2 (by decide)]
  by_cases here : j = i
  · subst here
    obtain rfl | rfl | rfl : k = 0 ∨ k = 1 ∨ k = 2 := by omega
    all_goals simp [Row.store, Startup.store]
  · simp [here, Startup.store]

def setSlot (m : Startup) (i : Nat) (entry : MmWorkingSetEntry) : Startup :=
  { m with workingSet := m.workingSet.setEntry i entry }

theorem row_setSlot (entry : MmWorkingSetEntry) (j : Nat) :
    (m.setSlot i entry).row j = if j = i then { m.row i with entry := entry } else m.row j := by
  by_cases here : j = i
  · subst here
    simp [row, setSlot, MmWorkingSet.setEntry]
  · simp [row, setSlot, MmWorkingSet.setEntry, here]

theorem activatePage_edits (inside : i < args.physicalMemoryPages) :
    Sweep.Edits activatePage row Row.active (Filling args head pages) i := by
  intro m filling
  have maps := filling.maps
  let entry : MmWorkingSetEntry :=
    { pageDescriptor := (ppdField i 0).toNat, present := true, lockedInWs := true }
  let located := m.store i 2 (setPageLocation · 4)
  let owned := located.store i 2 setBelongsToSystemWorkingSet
  let kernel := owned.store i 2 (setProcessorMode · 0)
  let slotted := kernel.setSlot i entry
  let numbered := slotted.store i 0 fun _ => BitVec.ofNat 32 i
  let shared := numbered.store i 2 (setShareCount · 1)
  have run : activatePage m i = some shared := by
    have first := maps.modify inside (by decide : 2 < 3) (setPageLocation · 4)
    have second := Maps.modify (m := located) maps inside (by decide : 2 < 3) setBelongsToSystemWorkingSet
    have third := Maps.modify (m := owned) maps inside (by decide : 2 < 3) (setProcessorMode · 0)
    have fourth := Maps.modify (m := slotted) maps inside (by decide : 0 < 3) fun _ => BitVec.ofNat 32 i
    have fifth := Maps.modify (m := numbered) maps inside (by decide : 2 < 3) (setShareCount · 1)
    simp only [activatePage, Option.bind_eq_bind, first, Option.bind_some]
    change (located.modify _ _).bind _ = _
    rw [second]
    change (owned.modify _ _).bind _ = _
    rw [third]
    change (slotted.modify _ _).bind _ = _
    rw [fourth]
    exact fifth
  refine ⟨shared, run, ⟨maps, filling.head, filling.pages⟩, fun j => ?_⟩
  by_cases here : j = i
  · subst here
    simp only [shared, numbered, slotted, kernel, owned, located, row_store, row_setSlot, if_true,
      Nat.reduceLT, Row.store, Row.active, entry]
  · simp only [shared, numbered, slotted, kernel, owned, located, row_store, row_setSlot, here, if_false,
      Nat.reduceLT]

theorem zeroPage_edits (inside : i < args.physicalMemoryPages) :
    Sweep.Edits (zeroPage args) row (Row.zeroed args) (Filling args head pages) i := by
  intro m filling
  have maps := filling.maps
  let located := m.store i 2 (setPageLocation · 0)
  let unshared := located.store i 2 (setShareCount · 0)
  let linked := if initialPageCount < i then unshared.store i 1 fun _ => ppdField (i - 1) 0 else unshared
  let next := linked.store i 0 fun _ => if i = args.physicalMemoryPages - 1 then 0 else ppdField (i + 1) 0
  have linkedMaps : linked.Maps args := by
    unfold linked
    split
    · exact maps
    · exact maps
  have run : zeroPage args m i = some next := by
    have first := maps.modify inside (by decide : 2 < 3) (setPageLocation · 0)
    have second := Maps.modify (m := located) maps inside (by decide : 2 < 3) (setShareCount · 0)
    have third : unshared.setPrevBlink i = some linked := by
      unfold setPrevBlink linked
      split
      · exact Maps.modify (m := unshared) maps inside (by decide : 1 < 3) fun _ => ppdField (i - 1) 0
      · rfl
    have fourth := linkedMaps.modify inside (by decide : 0 < 3)
      fun _ => if i = args.physicalMemoryPages - 1 then 0 else ppdField (i + 1) 0
    simp only [zeroPage, Option.bind_eq_bind, first, Option.bind_some]
    change (located.modify _ _).bind _ = _
    rw [second]
    change (unshared.setPrevBlink i).bind _ = _
    rw [third]
    exact fourth
  refine ⟨next, run, ⟨linkedMaps, ?_, ?_⟩, fun j => ?_⟩
  · unfold next linked
    split
    · exact filling.head
    · exact filling.head
  · unfold next linked
    split
    · exact filling.pages
    · exact filling.pages
  · by_cases here : j = i
    · subst here
      by_cases later : initialPageCount < j
      · simp only [next, linked, later, unshared, located, row_store, if_true, Nat.reduceLT, Row.store, Row.zeroed]
      · simp only [next, linked, later, unshared, located, row_store, if_true, if_false, Nat.reduceLT, Row.store,
          Row.zeroed]
    · by_cases later : initialPageCount < i
      · simp only [next, linked, later, unshared, located, row_store, here, if_true, if_false, Nat.reduceLT]
      · simp only [next, linked, later, unshared, located, row_store, here, if_false, Nat.reduceLT]

/-- The page index is past the two ranges, whatever they hold. -/
theorem initializeRanges_skipped (checked : Bool) (m : Startup) : m.initializeRanges checked initialPageCount = some m :=
  rfl

end rows

/-! The mapping of the database. -/

theorem miMapPages_pte {first : Nat} {pfns : List Nat} (fits : first + pfns.length ≤ pageTableEntries) (s : MmState) :
    ∃ t, miMapPages first pfns s = some t ∧ ∀ j < pageTableEntries, t.pte (BitVec.ofNat 20 j) =
      if first ≤ j ∧ j < first + pfns.length then validKernelPte (pfns.getD (j - first) 0)
      else s.pte (BitVec.ofNat 20 j) := by
  induction pfns generalizing first s with
  | nil =>
    refine ⟨s, rfl, fun j _ => ?_⟩
    rw [if_neg (by simp only [List.length_nil]; omega)]
  | cons pfn pfns ih =>
    rw [List.length_cons] at fits
    obtain ⟨t, run, ptes⟩ := ih (show first + 1 + pfns.length ≤ pageTableEntries by omega)
      (s.setPte (BitVec.ofNat 20 first) (validKernelPte pfn))
    refine ⟨t, ?_, fun j inside => ?_⟩
    · rw [miMapPages, MmState.writePte, if_pos (by omega)]
      exact run
    · have index : BitVec.ofNat 20 j = BitVec.ofNat 20 first ↔ j = first := by
        unfold pageTableEntries at fits inside
        constructor
        · intro same
          have value := congrArg BitVec.toNat same
          simp only [BitVec.toNat_ofNat] at value
          omega
        · rintro rfl
          rfl
      rw [ptes j inside, List.length_cons]
      rcases Nat.lt_trichotomy j first with before | rfl | after
      · rw [if_neg (by omega), if_neg (by omega)]
        exact if_neg fun same => Nat.ne_of_lt before (index.mp same)
      · rw [if_neg (by omega), if_pos (by omega), Nat.sub_self]
        exact if_pos rfl
      · by_cases within : j < first + (pfns.length + 1)
        · rw [if_pos (by omega), if_pos (by omega), show j - first = j - (first + 1) + 1 by omega, List.getD_cons_succ]
        · rw [if_neg (by omega), if_neg (by omega)]
          exact if_neg fun same => Nat.ne_of_gt after (index.mp same)

theorem mapDatabase_eq (args : LoaderArguments) (m : Startup) : ∃ pte, m.mapDatabase args = some { m with pte := pte } ∧
    ∀ j < 0x38000, frameOf (pte (BitVec.ofNat 20 (0xC8000 + j))) =
      if j < sizeofMmppd * args.physicalMemoryPages / 0x1000 then some (0x1000 + j)
      else frameOf (m.pte (BitVec.ofNat 20 (0xC8000 + j))) := by
  have bound := args.addressed
  have count : (BitVec.ofNat 32 args.physicalMemoryPages * BitVec.ofNat 32 sizeofMmppd / 0x1000).toNat =
      sizeofMmppd * args.physicalMemoryPages / 0x1000 := by
    rw [BitVec.toNat_udiv, BitVec.toNat_mul, BitVec.toNat_ofNat, BitVec.toNat_ofNat]
    change args.physicalMemoryPages % 2 ^ 32 * 12 % 2 ^ 32 / 0x1000 = 12 * args.physicalMemoryPages / 0x1000
    omega
  have first : (vpn (alignDown mmPpdStart)).toNat = 0xC8000 := by decide
  have frames (n : Nat) : (physicalFrames mmPpdStartPhys n).length = n := by simp [physicalFrames]
  have fits : 0xC8000 + (physicalFrames mmPpdStartPhys (sizeofMmppd * args.physicalMemoryPages / 0x1000)).length ≤
      pageTableEntries := by
    rw [frames]
    unfold sizeofMmppd pageTableEntries
    omega
  obtain ⟨t, run, ptes⟩ := miMapPages_pte fits (m.state args)
  refine ⟨t.pte, ?_, fun j inside => ?_⟩
  · rw [mapDatabase]
    simp only [miMapPhysicalPages, count, first, run, Option.map_some]
  · rw [ptes _ (by unfold pageTableEntries; omega), frames]
    by_cases mapped : j < sizeofMmppd * args.physicalMemoryPages / 0x1000
    · have start : (mmPpdStartPhys >>> 12).toNat = 0x1000 := by decide
      have frame : (physicalFrames mmPpdStartPhys (sizeofMmppd * args.physicalMemoryPages / 0x1000)).getD j 0 =
          0x1000 + j := by
        rw [physicalFrames, List.getD_eq_getElem?_getD, List.getElem?_map, List.getElem?_range mapped, Option.map_some,
          Option.getD_some, start]
        omega
      rw [if_pos (by omega), if_pos mapped, Nat.add_sub_cancel_left, frame, frameOf_validKernelPte (by omega)]
    · rw [if_neg (by omega), if_neg mapped]
      rfl

/-- The last page of the database, when it is not filled, is mapped beforehand. -/
def LastPageMapped (args : LoaderArguments) (m : Startup) : Prop :=
  sizeofMmppd * args.physicalMemoryPages % 0x1000 = 0 ∨ m.MapsPage (sizeofMmppd * args.physicalMemoryPages / 0x1000)

theorem maps_iff {args : LoaderArguments} {m : Startup} {pte : BitVec 20 → Mmpte} (ptes : ∀ j < 0x38000,
    frameOf (pte (BitVec.ofNat 20 (0xC8000 + j))) =
      if j < sizeofMmppd * args.physicalMemoryPages / 0x1000 then some (0x1000 + j)
      else frameOf (m.pte (BitVec.ofNat 20 (0xC8000 + j)))) :
    Maps args { m with pte := pte } ↔ m.LastPageMapped args := by
  have size : sizeofMmppd * args.physicalMemoryPages ≤ 0xC00000 := Nat.mul_le_mul_left 12 args.addressed
  constructor
  · intro maps
    by_cases full : sizeofMmppd * args.physicalMemoryPages % 0x1000 = 0
    · exact .inl full
    · right
      have last := maps (sizeofMmppd * args.physicalMemoryPages / 0x1000) (by omega)
      have same := ptes (sizeofMmppd * args.physicalMemoryPages / 0x1000) (by omega)
      rw [if_neg (Nat.lt_irrefl _)] at same
      exact same.symm.trans last
  · intro last j inside
    have value := ptes j (by omega)
    rw [MapsPage, value]
    split
    · rfl
    · obtain full | mapped := last
      · omega
      · have here : j = sizeofMmppd * args.physicalMemoryPages / 0x1000 := by omega
        subst here
        exact mapped

theorem mmInitSystemPhase1_rows {args : LoaderArguments} {m : Startup} {pte : BitVec 20 → Mmpte} (checked : Bool)
    (mapped : m.mapDatabase args = some { m with pte := pte }) (maps : Maps args { m with pte := pte })
    (more : initialPageCount < args.physicalMemoryPages) :
    ∃ r, m.mmInitSystemPhase1 checked args = some r ∧
      Filling args (ppdField initialPageCount 0) initialPageCount r ∧
      (∀ i < initialPageCount, r.row i = Row.active i (m.createWorkingSet.row i)) ∧
      ∀ i, initialPageCount ≤ i → i < args.physicalMemoryPages →
        r.row i = Row.zeroed args i (m.createWorkingSet.row i) := by
  let ready : Startup := createWorkingSet { m with pte := pte }
  have filling : Filling args m.mmZeroedPageListHead initialPageCount ready := ⟨maps, rfl, rfl⟩
  have activates (i : Nat) (_ : 0 ≤ i) (inside : i < 0 + initialPageCount) :
      Sweep.Edits activatePage row Row.active (Filling args m.mmZeroedPageListHead initialPageCount) i :=
    activatePage_edits (by omega)
  obtain ⟨t, activated, filled, active⟩ := Sweep.sweep activates filling
  have headed : Filling args (ppdField initialPageCount 0) initialPageCount
      { t with mmZeroedPageListHead := ppdField initialPageCount 0 } := ⟨filled.maps, rfl, filled.pages⟩
  have zeroes (i : Nat) (_ : initialPageCount ≤ i)
      (inside : i < initialPageCount + (args.physicalMemoryPages - initialPageCount)) :
      Sweep.Edits (zeroPage args) row (Row.zeroed args)
        (Filling args (ppdField initialPageCount 0) initialPageCount) i :=
    zeroPage_edits (by omega)
  obtain ⟨r, zeroed, filled, rows⟩ := Sweep.sweep zeroes headed
  have before (j : Nat) : t.row j = if 0 ≤ j ∧ j < 0 + initialPageCount then Row.active j (m.createWorkingSet.row j)
      else m.createWorkingSet.row j := active j
  refine ⟨r, ?_, filled, ?_, ?_⟩
  · have second : ready.activatePages = some t := activated
    have last : (t.setHead args).zeroPages args = some r := by
      rw [setHead, if_neg (Nat.ne_of_gt more)]
      exact zeroed
    rw [mmInitSystemPhase1, mapped, Option.bind_eq_bind, Option.bind_some]
    change ready.activatePages.bind _ = _
    rw [second, Option.bind_some, initializeRanges_skipped, Option.bind_some]
    exact last
  · intro i inside
    rw [rows, if_neg (by omega)]
    change t.row i = _
    rw [before, if_pos (by omega)]
  · intro i low high
    rw [rows, if_pos (by omega)]
    change Row.zeroed args i (t.row i) = _
    rw [before, if_neg (by omega)]

/-! What the start-up leaves. -/

/-- The frames above the initial ones, in ascending order. -/
def zeroedFrames (args : LoaderArguments) (s : MmState) : PageList → List Nat
  | .zeroedPageList => (List.range' initialPageCount (args.physicalMemoryPages - initialPageCount)).map (mmPfnPpd s)
  | _ => []

theorem zeroedFrames_cons {args : LoaderArguments} (s : MmState) (more : initialPageCount < args.physicalMemoryPages) :
    ∃ rest, zeroedFrames args s .zeroedPageList = mmPfnPpd s initialPageCount :: rest := by
  obtain ⟨count, several⟩ := Nat.exists_eq_add_of_lt more
  rw [zeroedFrames, several, show initialPageCount + count + 1 - initialPageCount = count + 1 by omega,
    List.range'_succ]
  exact ⟨_, rfl⟩

structure DatabaseReady (args : LoaderArguments) (m : Startup) : Prop where
  mapped : ∀ i < args.physicalMemoryPages, ∀ k < 3, m.translate (ppdField i k) = some (ppdWord i k)
  active : ∀ i < initialPageCount, let ppd := mmPfnPpd (m.state args) i
    (m.descriptor ppd).pageLocation = .activeAndValid ∧ (m.descriptor ppd).u1 = i ∧
      m.workingSet.wsPages i = { pageDescriptor := ppd, present := true, lockedInWs := true }
  lists : PageListsOk (m.state args) (zeroedFrames args (m.state args))

section ready

variable {args : LoaderArguments} {m t : Startup} {i : Nat}

theorem mmPfnPpd_state (small : i < 0x100000) : mmPfnPpd (m.state args) i = (ppdField i 0).toNat := by
  rw [ppdField_toNat small (by decide)]
  rfl

theorem ppdField_add (i k : Nat) : ppdField i 0 + BitVec.ofNat 32 (4 * k) = ppdField i k := by
  simp only [ppdField, BitVec.add_assoc, Nat.mul_zero, Nat.add_zero, BitVec.ofNat_add]

theorem Maps.descriptor (maps : m.Maps args) (inside : i < args.physicalMemoryPages) :
    m.descriptor (mmPfnPpd (m.state args) i) = mmppdOf (m.row i).u1 (m.row i).u2 (m.row i).bits := by
  have bound := args.addressed
  have second : ppdField i 0 + 4 = ppdField i 1 := ppdField_add i 1
  have third : ppdField i 0 + 8 = ppdField i 2 := ppdField_add i 2
  rw [Startup.descriptor, mmPfnPpd_state (by omega), BitVec.ofNat_toNat, BitVec.setWidth_eq, second, third,
    maps.read inside (by decide), maps.read inside (by decide), maps.read inside (by decide)]
  rfl

theorem and_setField (w mask v field : BitVec 32) :
    ((w &&& mask) ||| v) &&& field = (w &&& (mask &&& field)) ||| (v &&& field) := by
  rw [BitVec.and_or_distrib_right, BitVec.and_assoc]

theorem setShareCount_location (w : BitVec 32) (count : BitVec 32) (apart : (count <<< 27) &&& 7 = 0) :
    setShareCount w count &&& 7 = w &&& 7 := by
  rw [setShareCount, and_setField, apart]
  exact BitVec.or_zero

theorem setPageLocation_location (w location : BitVec 32) : setPageLocation w location &&& 7 = location &&& 7 := by
  rw [setPageLocation, and_setField]
  change (w &&& 0) ||| _ = _
  rw [show w &&& 0 = 0 from BitVec.and_zero]
  exact BitVec.zero_or

theorem pageLocationOf_active (w : BitVec 32) :
    pageLocationOf (setShareCount (setProcessorMode (setBelongsToSystemWorkingSet (setPageLocation w 4)) 0) 1) =
      .activeAndValid := by
  have location : setShareCount (setProcessorMode (setBelongsToSystemWorkingSet (setPageLocation w 4)) 0) 1 &&& 7 =
      4 := by
    rw [setShareCount_location _ _ (by decide), setProcessorMode, and_setField]
    change (setBelongsToSystemWorkingSet (setPageLocation w 4) &&& 7) ||| 0 = _
    rw [setBelongsToSystemWorkingSet, show ∀ x : BitVec 32, x ||| 0 = x from fun _ => BitVec.or_zero,
      BitVec.and_or_distrib_right, setPageLocation_location]
    rfl
  rw [pageLocationOf, location]
  rfl

theorem pageLocationOf_zeroed (w : BitVec 32) :
    pageLocationOf (setShareCount (setPageLocation w 0) 0) = .list .zeroedPageList := by
  have location : setShareCount (setPageLocation w 0) 0 &&& 7 = 0 := by
    rw [setShareCount_location _ _ (by decide), setPageLocation_location]
    rfl
  rw [pageLocationOf, location]
  rfl

/-- The rows as the loops leave them, over the rows they start from. -/
structure Filled (args : LoaderArguments) (before : Nat → Row) (m : Startup) : Prop where
  filling : Filling args (ppdField initialPageCount 0) initialPageCount m
  active : ∀ i < initialPageCount, m.row i = Row.active i (before i)
  zeroed : ∀ i, initialPageCount ≤ i → i < args.physicalMemoryPages → m.row i = Row.zeroed args i (before i)

section filled

variable {before : Nat → Row}

theorem Filled.location (filled : Filled args before m) (inside : i < args.physicalMemoryPages) :
    (m.descriptor (mmPfnPpd (m.state args) i)).pageLocation =
      if i < initialPageCount then .activeAndValid else .list .zeroedPageList := by
  rw [filled.filling.maps.descriptor inside]
  change pageLocationOf (m.row i).bits = _
  by_cases initial : i < initialPageCount
  · rw [if_pos initial, filled.active i initial]
    exact pageLocationOf_active _
  · rw [if_neg initial, filled.zeroed i (Nat.not_lt.mp initial) inside]
    exact pageLocationOf_zeroed _

theorem Filled.flink (filled : Filled args before m) (low : initialPageCount ≤ i) (inside : i < args.physicalMemoryPages) :
    (links (m.state args)).flink (mmPfnPpd (m.state args) i) =
      if i + 1 = args.physicalMemoryPages then 0 else mmPfnPpd (m.state args) (i + 1) := by
  have bound := args.addressed
  change (m.descriptor _).u1 = _
  rw [filled.filling.maps.descriptor inside, filled.zeroed i low inside]
  by_cases last : i + 1 = args.physicalMemoryPages
  · rw [if_pos last]
    simp only [mmppdOf, Row.zeroed, if_pos (show i = args.physicalMemoryPages - 1 by omega)]
    rfl
  · rw [if_neg last, mmPfnPpd_state (by omega)]
    simp only [mmppdOf, Row.zeroed, if_neg (show i ≠ args.physicalMemoryPages - 1 by omega)]

theorem Filled.blink (filled : Filled args before m) (low : initialPageCount ≤ i) (inside : i < args.physicalMemoryPages) :
    (links (m.state args)).blink (mmPfnPpd (m.state args) i) =
      if i = initialPageCount then (before i).u2.toNat else mmPfnPpd (m.state args) (i - 1) := by
  have bound := args.addressed
  change (m.descriptor _).u2 = _
  rw [filled.filling.maps.descriptor inside, filled.zeroed i low inside]
  by_cases first : i = initialPageCount
  · rw [if_pos first]
    simp only [mmppdOf, Row.zeroed, if_neg (show ¬ initialPageCount < i by omega)]
  · rw [if_neg first, mmPfnPpd_state (by omega)]
    simp only [mmppdOf, Row.zeroed, if_pos (show initialPageCount < i by omega)]

/-- The only word of a link that no loop writes is the back link of the first page. -/
theorem Filled.chain_iff (filled : Filled args before m) (more : initialPageCount < args.physicalMemoryPages) :
    Chain 0 (links (m.state args)) (m.mmZeroedPageListHead.toNat) (zeroedFrames args (m.state args) .zeroedPageList) ↔
      (before initialPageCount).u2 = 0 := by
  have bound := args.addressed
  have frames : zeroedFrames args (m.state args) .zeroedPageList =
      (List.range' initialPageCount (args.physicalMemoryPages - initialPageCount)).map (mmPfnPpd (m.state args)) := rfl
  obtain ⟨rest, cons⟩ := zeroedFrames_cons (m.state args) more
  generalize zeroedFrames args (m.state args) .zeroedPageList = xs at frames cons
  have head : m.mmZeroedPageListHead.toNat = mmPfnPpd (m.state args) initialPageCount := by
    rw [filled.filling.head, mmPfnPpd_state (by omega)]
  have first := filled.blink (Nat.le_refl initialPageCount) more
  rw [if_pos rfl] at first
  constructor
  · rintro ⟨-, chain⟩
    rw [cons] at chain
    have null : (before initialPageCount).u2.toNat = 0 := first.symm.trans chain.2.2.1
    exact BitVec.eq_of_toNat_eq null
  · intro null
    rw [null] at first
    refine ⟨?_, ?_⟩
    · rw [frames]
      refine List.Nodup.map ?_ List.nodup_range'
      intro i j same
      simp only [mmPfnPpd, sizeofMmppd] at same
      omega
    · have present (i : Nat) (_ : initialPageCount ≤ i) (_ : i < args.physicalMemoryPages) :
          mmPfnPpd (m.state args) i ≠ 0 := by
        rw [mmPfnPpd_state (by omega), ppdField_toNat (by omega) (by decide)]
        omega
      have backward (i : Nat) (low : initialPageCount ≤ i) (high : i < args.physicalMemoryPages) :
          (links (m.state args)).blink (mmPfnPpd (m.state args) i) =
            if i = initialPageCount then 0 else mmPfnPpd (m.state args) (i - 1) := by
        by_cases start : i = initialPageCount
        · rw [if_pos start, start]
          exact first
        · rw [filled.blink low high, if_neg start, if_neg start]
      have head : m.mmZeroedPageListHead.toNat = xs.headD 0 := by
        rw [head, cons]
        rfl
      rw [head]
      exact chainFrom_numbered frames present backward fun _ => filled.flink

end filled

theorem activatePage_pte (run : activatePage m i = some t) : t.pte = m.pte := by
  simp only [activatePage, Option.bind_eq_bind, Option.bind_eq_some_iff] at run
  obtain ⟨located, first, owned, second, kernel, third, numbered, fourth, last⟩ := run
  rw [modify_pte last, modify_pte fourth, ← modify_pte first, ← modify_pte second, ← modify_pte third]

theorem setPrevBlink_pte (run : setPrevBlink m i = some t) : t.pte = m.pte := by
  unfold setPrevBlink at run
  split at run
  · exact modify_pte run
  · exact congrArg pte (Option.some.inj run).symm

theorem zeroPage_pte (run : zeroPage args m i = some t) : t.pte = m.pte := by
  simp only [zeroPage, Option.bind_eq_bind, Option.bind_eq_some_iff] at run
  obtain ⟨located, first, unshared, second, linked, third, last⟩ := run
  rw [modify_pte last, setPrevBlink_pte third, modify_pte second, modify_pte first]

theorem mmInitSystemPhase1_pte {checked : Bool} {pte : BitVec 20 → Mmpte}
    (mapped : m.mapDatabase args = some { m with pte := pte }) (run : m.mmInitSystemPhase1 checked args = some t) :
    t.pte = pte := by
  rw [mmInitSystemPhase1, mapped, Option.bind_eq_bind, Option.bind_some] at run
  obtain ⟨u, activated, rest⟩ := Option.bind_eq_some_iff.mp run
  rw [initializeRanges_skipped] at rest
  obtain ⟨v, same, zeroed⟩ := Option.bind_eq_some_iff.mp rest
  cases Option.some.inj same
  rw [zeroPages] at zeroed
  rw [activatePages] at activated
  have second : t.pte = (u.setHead args).pte := Sweep.foldlM_keeps zeroPage_pte zeroed
  exact second.trans (Sweep.foldlM_keeps activatePage_pte activated)

theorem Filled.member_iff {before : Nat → Row} (filled : Filled args before m) (l : PageList) (p : Nat) :
    p ∈ zeroedFrames args (m.state args) l ↔
      (m.state args).Mapped p ∧ ((m.state args).ppd p).pageLocation = .list l := by
  constructor
  · intro member
    cases l with
    | zeroedPageList =>
      obtain ⟨i, range, rfl⟩ := List.mem_map.mp member
      rw [List.mem_range'_1] at range
      have inside : i < args.physicalMemoryPages := by omega
      have location := filled.location inside
      rw [if_neg (by omega)] at location
      exact ⟨(mapped_mmPfnPpd _ i).mpr inside, location⟩
    | freePageList => exact absurd member List.not_mem_nil
    | modifiedPageList => exact absurd member List.not_mem_nil
    | standbyPageList => exact absurd member List.not_mem_nil
  · rintro ⟨⟨here, inside⟩, named⟩
    rw [← here] at named ⊢
    change (m.descriptor _).pageLocation = _ at named
    rw [filled.location inside] at named
    split at named
    · exact absurd named (by simp)
    · rename_i above
      cases PageLocation.list.inj named
      refine List.mem_map.mpr ⟨_, ?_, rfl⟩
      rw [List.mem_range'_1]
      have inside : mmGetPpdPfn (m.state args) p < args.physicalMemoryPages := inside
      omega

theorem Filled.ready {before : Nat → Row} (filled : Filled args before m)
    (more : initialPageCount < args.physicalMemoryPages) (null : (before initialPageCount).u2 = 0) :
    DatabaseReady args m := by
  have bound := args.addressed
  refine ⟨fun i inside k field => filled.filling.maps.translate inside field, ?_, ?_, ?_, filled.member_iff⟩
  · intro i initial
    have row := filled.active i initial
    have inside : i < args.physicalMemoryPages := by omega
    have location := filled.location inside
    rw [if_pos initial] at location
    refine ⟨location, ?_, ?_⟩
    · rw [filled.filling.maps.descriptor inside, row]
      change i % 2 ^ 32 = i
      unfold initialPageCount at initial
      omega
    · rw [mmPfnPpd_state (by omega)]
      exact congrArg Row.entry row
  · exact (by decide : mmPpdStart.toNat ≠ 0)
  · intro l
    cases l with
    | zeroedPageList => exact (filled.chain_iff more).mpr null
    | freePageList => exact ⟨List.nodup_nil, rfl⟩
    | modifiedPageList => exact ⟨List.nodup_nil, rfl⟩
    | standbyPageList => exact ⟨List.nodup_nil, rfl⟩

theorem DatabaseReady.lastPageMapped {checked : Bool} (ready : DatabaseReady args t)
    (run : m.mmInitSystemPhase1 checked args = some t) : m.LastPageMapped args := by
  obtain ⟨pte, mapped, ptes⟩ := mapDatabase_eq args m
  have found : t.Maps args := maps_of_translate ready.mapped
  apply (maps_iff ptes).mp
  intro j inside
  have page := found j inside
  rw [MapsPage, mmInitSystemPhase1_pte mapped run] at page
  exact page

theorem DatabaseReady.unlinked {checked : Bool} (ready : DatabaseReady args t)
    (run : m.mmInitSystemPhase1 checked args = some t) (more : initialPageCount < args.physicalMemoryPages) :
    m.memory (ppdWord initialPageCount 1) = 0 := by
  obtain ⟨pte, mapped, ptes⟩ := mapDatabase_eq args m
  have maps := (maps_iff ptes).mpr (ready.lastPageMapped run)
  obtain ⟨r, ends, filling, active, zeroed⟩ := mmInitSystemPhase1_rows checked mapped maps more
  cases Option.some.inj (run.symm.trans ends)
  have filled : Filled args m.createWorkingSet.row t := ⟨filling, active, zeroed⟩
  exact (filled.chain_iff more).mp (ready.lists.chain .zeroedPageList)

/-- The lists that the start-up leaves stay well formed. -/
theorem DatabaseReady.run_wellFormed {checked : Bool} {ops : List MmOp} {s : MmState} (ready : DatabaseReady args m)
    (run : Run (fun s op t => mmStep checked s op = some t) (m.state args) ops s) : WellFormed s :=
  run.invariant (I := WellFormed) (fun ok step => mmStep_wellFormed ok step) ⟨_, ready.lists⟩

end ready

/-- Physical memory with one value everywhere, and empty page tables. -/
def blank (stale : BitVec 32) : Startup where
  memory _ := stale
  pte _ := 0

def megabytes (n : Nat) (addressed : 256 * n ≤ 0x100000) : LoaderArguments := ⟨256 * n, addressed⟩

end Startup

end Gr8os.Mm
