import Gr8os.Mm.Memory
import Gr8os.Mm.PageDatabase

/-! The reserved runs of the BIOS memory map, which mark the table of the first megabyte or move descriptors. -/
namespace Gr8os.Mm

open Partial

def addressRangeReserved : BitVec 32 := 2

/-- What the reservation reads of a run: the high halves of its fields are only printed. -/
structure PhysicalMemoryRun where
  baseAddress : BitVec 32
  length : BitVec 32
  type : BitVec 32
deriving DecidableEq, Repr

/-- The page database, and HalpLowMegBusyForDma with the memory behind it. -/
structure Reservation where
  mm : MmState
  halpLowMegBusyForDma : Nat → BitVec 32

def lowMegPageCount : Nat := 256

/-- The pages from PageStart up to PageEnd. -/
def pageSpan (physStart physEnd : BitVec 32) : List Nat :=
  let pageStart := (alignDown physStart >>> 12).toNat
  let pageEnd := (alignUp physEnd >>> 12).toNat
  List.range' pageStart (pageEnd - pageStart)

def reserveEntries (pages : List Nat) (table : Nat → BitVec 32) : Nat → BitVec 32 :=
  pages.foldl (fun table i => Function.update table i 2) table

def halReservePhysicalLowMegPages (table : Nat → BitVec 32) (physStart physEnd : BitVec 32) : Nat → BitVec 32 :=
  reserveEntries (pageSpan physStart physEnd) table

namespace PhysicalMemoryRun

def physEnd (r : PhysicalMemoryRun) : BitVec 32 := r.baseAddress + r.length

def IsLow (r : PhysicalMemoryRun) : Prop := r.type = addressRangeReserved ∧ r.baseAddress < 0x00100000

/-- The test shifts the page count in 32 bits. -/
def InDatabase (args : LoaderArguments) (r : PhysicalMemoryRun) : Prop :=
  r.type = addressRangeReserved ∧ ¬ r.baseAddress < 0x00100000 ∧
    r.baseAddress < BitVec.ofNat 32 args.physicalMemoryPages <<< 12

instance (r : PhysicalMemoryRun) : Decidable r.IsLow := inferInstanceAs (Decidable (_ ∧ _))

instance (args : LoaderArguments) (r : PhysicalMemoryRun) : Decidable (r.InDatabase args) :=
  inferInstanceAs (Decidable (_ ∧ _ ∧ _))

/-- The entries of the table that the run marks. -/
def lowMegPages (r : PhysicalMemoryRun) : List Nat := if r.IsLow then pageSpan r.baseAddress r.physEnd else []

/-- The descriptors that the run moves. -/
def databasePages (args : LoaderArguments) (r : PhysicalMemoryRun) : List Nat :=
  if r.InDatabase args then pageSpan r.baseAddress r.physEnd else []

end PhysicalMemoryRun

/-- The case of AddressRangeReserved. The runs of the other types reserve nothing. -/
def reserveRun (checked : Bool) (args : LoaderArguments) (s : Reservation) (run : PhysicalMemoryRun) :
    Option Reservation :=
  if run.type = addressRangeReserved then
    if run.baseAddress < 0x00100000 then
      some { s with
        halpLowMegBusyForDma :=
          halReservePhysicalLowMegPages s.halpLowMegBusyForDma run.baseAddress (run.baseAddress + run.length) }
    else if run.baseAddress < BitVec.ofNat 32 args.physicalMemoryPages <<< 12 then
      (mmReservePhysicalAddressRange checked s.mm run.baseAddress (run.baseAddress + run.length)).map
        fun mm => { s with mm := mm }
    else some s
  else some s

def reserveRuns (checked : Bool) (args : LoaderArguments) (s : Reservation) (runs : List PhysicalMemoryRun) :
    Option Reservation :=
  runs.foldlM (reserveRun checked args) s

section moves

variable {checked : Bool} {location : PageLocation} {pfns : List Nat} {s t : MmState}

def located (s : MmState) (pfn : Nat) : PageLocation := (s.ppd (mmPfnPpd s pfn)).pageLocation

theorem mmPfnPpd_inj {p q : Nat} : mmPfnPpd s p = mmPfnPpd s q ↔ p = q := by
  unfold mmPfnPpd sizeofMmppd
  omega

theorem Moved.located {pfn : Nat} (move : Moved s t (mmPfnPpd s pfn) location) (q : Nat) :
    located t q = if q = pfn then location else located s q := by
  have same : mmPfnPpd t q = mmPfnPpd s q := by rw [mmPfnPpd, mmPfnPpd, move.database]
  rw [Mm.located, same, move.location]
  by_cases here : q = pfn
  · rw [if_pos here, if_pos (mmPfnPpd_inj.mpr here)]
  · rw [if_neg here, if_neg fun equal => here (mmPfnPpd_inj.mp equal)]
    rfl

/-- What a sequence of moves needs: in a build with assertions, that no page is at the new location before. -/
structure Movable (checked : Bool) (location : PageLocation) (s : MmState) (pfns : List Nat) : Prop where
  inside : ∀ pfn ∈ pfns, pfn < s.physicalMemoryPages
  once : checked = true → pfns.Nodup
  elsewhere : checked = true → ∀ pfn ∈ pfns, located s pfn ≠ location

structure AllMoved (s t : MmState) (location : PageLocation) (pfns : List Nat) : Prop where
  wellFormed : WellFormed t
  pages : t.physicalMemoryPages = s.physicalMemoryPages
  located : ∀ q, located t q = if q ∈ pfns then location else located s q

theorem changeAll_moved (ok : WellFormed s) (run : changeAll checked location pfns s = some t) :
    Movable checked location s pfns ∧ AllMoved s t location pfns := by
  induction pfns generalizing s with
  | nil =>
    cases Option.some.inj run
    exact ⟨⟨by simp, fun _ => List.nodup_nil, by simp⟩, ok, rfl, by simp⟩
  | cons pfn pfns ih =>
    simp only [changeAll, Option.bind_eq_bind, Option.bind_eq_some_iff] at run
    obtain ⟨u, first, rest⟩ := run
    obtain ⟨lists, ok⟩ := ok
    obtain ⟨after, move⟩ := miChangePageLocation_ok ok first
    obtain ⟨movable, moved⟩ := ih ⟨_, after⟩ rest
    have here : s.Mapped (mmPfnPpd s pfn) := by
      by_contra outside
      simp [miChangePageLocation, outside] at first
    have left (asserts : checked = true) : located s pfn ≠ location := by
      intro there
      have there : (s.ppd (mmPfnPpd s pfn)).pageLocation = location := there
      simp [miChangePageLocation, here, asserts, there] at first
    have others (asserts : checked = true) (q : Nat) (member : q ∈ pfns) : q ≠ pfn ∧ located s q ≠ location := by
      have there := movable.elsewhere asserts q member
      rw [move.located] at there
      by_cases same : q = pfn
      · exact absurd (if_pos same) there
      · rw [if_neg same] at there
        exact ⟨same, there⟩
    refine ⟨⟨?_, ?_, ?_⟩, moved.wellFormed, moved.pages.trans move.pages, fun q => ?_⟩
    · intro q member
      rcases List.mem_cons.mp member with rfl | later
      · exact (mapped_mmPfnPpd s q).mp here
      · exact move.pages ▸ movable.inside q later
    · intro asserts
      exact List.nodup_cons.mpr ⟨fun member => (others asserts pfn member).1 rfl, movable.once asserts⟩
    · intro asserts q member
      rcases List.mem_cons.mp member with rfl | later
      · exact left asserts
      · exact (others asserts q later).2
    · rw [moved.located, move.located]
      by_cases later : q ∈ pfns
      · rw [if_pos later, if_pos (List.mem_cons_of_mem _ later)]
      · rw [if_neg later]
        by_cases same : q = pfn
        · rw [if_pos same, if_pos (List.mem_cons.mpr (.inl same))]
        · rw [if_neg same, if_neg fun member => (List.mem_cons.mp member).elim same later]

theorem changeAll_moves (ok : WellFormed s) (movable : Movable checked location s pfns) :
    ∃ t, changeAll checked location pfns s = some t := by
  induction pfns generalizing s with
  | nil => exact ⟨s, rfl⟩
  | cons pfn pfns ih =>
    obtain ⟨lists, ok⟩ := ok
    have passes : (checked && decide ((s.ppd (mmPfnPpd s pfn)).pageLocation = location)) = false := by
      cases checked with
      | false => rfl
      | true =>
        have away : (s.ppd (mmPfnPpd s pfn)).pageLocation ≠ location := movable.elsewhere rfl pfn List.mem_cons_self
        simpa using away
    obtain ⟨u, first, after, move⟩ := miChangePageLocation_moves ok
      ((mapped_mmPfnPpd s pfn).mpr (movable.inside pfn (List.mem_cons_self ..))) passes
    have rest : Movable checked location u pfns := by
      refine ⟨?_, fun asserts => (List.nodup_cons.mp (movable.once asserts)).2, ?_⟩
      · intro q member
        rw [move.pages]
        exact movable.inside q (List.mem_cons_of_mem _ member)
      · intro asserts q member
        have other : q ≠ pfn := fun same => (List.nodup_cons.mp (movable.once asserts)).1 (same ▸ member)
        rw [move.located, if_neg other]
        exact movable.elsewhere asserts q (List.mem_cons_of_mem _ member)
    obtain ⟨t, last⟩ := ih ⟨_, after⟩ rest
    exact ⟨t, by simp [changeAll, first, last]⟩

theorem changeAll_append (pfns others : List Nat) : changeAll checked location (pfns ++ others) s =
    (changeAll checked location pfns s).bind (changeAll checked location others) := by
  induction pfns generalizing s with
  | nil => rfl
  | cons pfn pfns ih =>
    simp only [List.cons_append, changeAll, Option.bind_eq_bind, Option.bind_assoc, ih]

end moves

section runs

variable {checked : Bool} {args : LoaderArguments} {s t : Reservation} {runs : List PhysicalMemoryRun}

theorem reserveEntries_append (pages others : List Nat) (table : Nat → BitVec 32) :
    reserveEntries (pages ++ others) table = reserveEntries others (reserveEntries pages table) :=
  List.foldl_append

theorem reserveEntries_apply (pages : List Nat) (table : Nat → BitVec 32) (i : Nat) :
    reserveEntries pages table i = if i ∈ pages then 2 else table i := by
  induction pages generalizing table with
  | nil => rfl
  | cons p pages ih =>
    change reserveEntries pages (Function.update table p 2) i = _
    rw [ih]
    by_cases later : i ∈ pages
    · rw [if_pos later, if_pos (List.mem_cons_of_mem _ later)]
    · rw [if_neg later]
      by_cases here : i = p
      · rw [here, Function.update_self, if_pos List.mem_cons_self]
      · rw [Function.update_of_ne here, if_neg fun member => (List.mem_cons.mp member).elim here later]

theorem reserveRun_eq (run : PhysicalMemoryRun) : reserveRun checked args s run =
    (changeAll checked .reservedOrBadPage (run.databasePages args) s.mm).map fun mm =>
      { mm := mm, halpLowMegBusyForDma := reserveEntries run.lowMegPages s.halpLowMegBusyForDma } := by
  unfold reserveRun PhysicalMemoryRun.databasePages PhysicalMemoryRun.lowMegPages
  by_cases reserved : run.type = addressRangeReserved
  · by_cases low : run.baseAddress < 0x00100000
    · have isLow : run.IsLow := ⟨reserved, low⟩
      have outside : ¬ run.InDatabase args := fun both => both.2.1 low
      rw [if_pos reserved, if_pos low, if_pos isLow, if_neg outside]
      rfl
    · have notLow : ¬ run.IsLow := fun both => low both.2
      rw [if_pos reserved, if_neg low, if_neg notLow]
      by_cases inside : run.baseAddress < BitVec.ofNat 32 args.physicalMemoryPages <<< 12
      · have inDatabase : run.InDatabase args := ⟨reserved, low, inside⟩
        rw [if_pos inside, if_pos inDatabase]
        rfl
      · have outside : ¬ run.InDatabase args := fun both => inside both.2.2
        rw [if_neg inside, if_neg outside]
        rfl
  · have notLow : ¬ run.IsLow := fun both => reserved both.1
    have outside : ¬ run.InDatabase args := fun both => reserved both.1
    rw [if_neg reserved, if_neg notLow, if_neg outside]
    rfl

/-- All runs together move the pages of each, one after the other. -/
theorem reserveRuns_eq : reserveRuns checked args s runs =
    (changeAll checked .reservedOrBadPage (runs.flatMap (·.databasePages args)) s.mm).map fun mm =>
      { mm := mm
        halpLowMegBusyForDma := reserveEntries (runs.flatMap (·.lowMegPages)) s.halpLowMegBusyForDma } := by
  unfold reserveRuns
  induction runs generalizing s with
  | nil => rfl
  | cons run runs ih =>
    rw [List.foldlM_cons, Option.bind_eq_bind, reserveRun_eq, List.flatMap_cons, List.flatMap_cons, changeAll_append,
      reserveEntries_append]
    cases changeAll checked .reservedOrBadPage (run.databasePages args) s.mm with
    | none => rfl
    | some mm => exact ih

end runs

theorem mem_pageSpan {physStart physEnd : BitVec 32} {p : Nat} : p ∈ pageSpan physStart physEnd ↔
    physStart.toNat / 0x1000 ≤ p ∧ p < (physEnd.toNat + 0xFFF) / 0x1000 % 2 ^ 20 := by
  have first : (alignDown physStart >>> 12).toNat = physStart.toNat / 0x1000 := by
    rw [BitVec.toNat_ushiftRight, Nat.shiftRight_eq_div_pow, toNat_alignDown]
    omega
  have last : (alignUp physEnd >>> 12).toNat = (physEnd.toNat + 0xFFF) / 0x1000 % 2 ^ 20 := by
    rw [BitVec.toNat_ushiftRight, Nat.shiftRight_eq_div_pow, toNat_alignUp]
    omega
  simp only [pageSpan, first, last, List.mem_range'_1]
  omega

theorem pageSpan_nodup (physStart physEnd : BitVec 32) : (pageSpan physStart physEnd).Nodup := List.nodup_range'

namespace PhysicalMemoryRun

/-- The end of the run as a number, which may be past the 32 bits of an address. -/
def limit (r : PhysicalMemoryRun) : Nat := r.baseAddress.toNat + r.length.toNat

/-- Some byte of the run is in the page. -/
def Touches (r : PhysicalMemoryRun) (p : Nat) : Prop :=
  ∃ address, r.baseAddress.toNat ≤ address ∧ address < r.limit ∧ address / 0x1000 = p

/-- The run ends within the table or the database that its base address selects, or it is past them. The last
case is a run of almost 4 GB that wraps around into the page it starts in, the last one. -/
def Fits (args : LoaderArguments) (r : PhysicalMemoryRun) : Prop :=
  if r.baseAddress < 0x00100000 then r.limit ≤ 0x00100000
  else if args.physicalMemoryPages = 0x100000 then r.length = 0
  else 0x1000 * args.physicalMemoryPages ≤ r.baseAddress.toNat ∨ r.limit ≤ 0x1000 * args.physicalMemoryPages ∨
    (0x1000 * (args.physicalMemoryPages - 1) ≤ r.baseAddress.toNat ∧
      2 ^ 32 + 0x1000 * (args.physicalMemoryPages - 1) < r.limit)

instance (args : LoaderArguments) (r : PhysicalMemoryRun) : Decidable (r.Fits args) :=
  inferInstanceAs (Decidable (ite ..))

variable {args : LoaderArguments} {r : PhysicalMemoryRun} {p : Nat}

theorem touches_iff : r.Touches p ↔
    r.baseAddress.toNat / 0x1000 ≤ p ∧ 0x1000 * p < r.limit ∧ r.baseAddress.toNat < r.limit := by
  constructor
  · rintro ⟨address, low, high, rfl⟩
    omega
  · rintro ⟨low, high, some⟩
    by_cases first : 0x1000 * p ≤ r.baseAddress.toNat
    · exact ⟨r.baseAddress.toNat, Nat.le_refl _, some, by omega⟩
    · exact ⟨0x1000 * p, by omega, high, by omega⟩

theorem toNat_physEnd (r : PhysicalMemoryRun) : r.physEnd.toNat = r.limit % 2 ^ 32 := BitVec.toNat_add ..

theorem low_iff : r.baseAddress < 0x00100000 ↔ r.baseAddress.toNat < 0x00100000 := BitVec.lt_def

theorem inDatabase_iff : r.InDatabase args ↔ r.type = addressRangeReserved ∧ 0x00100000 ≤ r.baseAddress.toNat ∧
    r.baseAddress.toNat < 0x1000 * args.physicalMemoryPages % 2 ^ 32 := by
  have bound := args.addressed
  have shifted : (BitVec.ofNat 32 args.physicalMemoryPages <<< 12).toNat =
      0x1000 * args.physicalMemoryPages % 2 ^ 32 := by
    rw [BitVec.toNat_shiftLeft, BitVec.toNat_ofNat, Nat.shiftLeft_eq]
    omega
  rw [InDatabase, low_iff, BitVec.lt_def, shifted, Nat.not_lt]

theorem mem_lowMegPages : p ∈ r.lowMegPages ↔ r.type = addressRangeReserved ∧ r.baseAddress.toNat < 0x00100000 ∧
    r.baseAddress.toNat / 0x1000 ≤ p ∧ p < (r.limit % 2 ^ 32 + 0xFFF) / 0x1000 % 2 ^ 20 := by
  unfold lowMegPages
  rw [← low_iff]
  by_cases low : r.IsLow
  · rw [if_pos low, mem_pageSpan, toNat_physEnd]
    exact ⟨fun span => ⟨low.1, low.2, span⟩, fun both => both.2.2⟩
  · rw [if_neg low]
    exact iff_of_false List.not_mem_nil fun both => low ⟨both.1, both.2.1⟩

theorem mem_databasePages : p ∈ r.databasePages args ↔ r.InDatabase args ∧
    r.baseAddress.toNat / 0x1000 ≤ p ∧ p < (r.limit % 2 ^ 32 + 0xFFF) / 0x1000 % 2 ^ 20 := by
  unfold databasePages
  by_cases inside : r.InDatabase args
  · rw [if_pos inside, mem_pageSpan, toNat_physEnd]
    exact ⟨fun span => ⟨inside, span⟩, fun both => both.2⟩
  · rw [if_neg inside]
    exact iff_of_false List.not_mem_nil fun both => inside both.1

/-- The run marks and moves what it should, and nothing else. -/
structure Confined (args : LoaderArguments) (r : PhysicalMemoryRun) : Prop where
  table : ∀ i ∈ r.lowMegPages, i < lowMegPageCount
  database : ∀ pfn ∈ r.databasePages args, pfn < args.physicalMemoryPages
  covered : r.type = addressRangeReserved → ∀ p, r.Touches p →
    (p < lowMegPageCount → p ∈ r.lowMegPages) ∧
      (lowMegPageCount ≤ p → p < args.physicalMemoryPages → p ∈ r.databasePages args)

theorem confined_of_fits (more : initialPageCount < args.physicalMemoryPages)
    (fits : r.type = addressRangeReserved → r.Fits args) : r.Confined args := by
  have bound := args.addressed
  have base := r.baseAddress.isLt
  have length := r.length.isLt
  have empty : r.length = 0 ↔ r.length.toNat = 0 := by rw [← BitVec.toNat_inj]; rfl
  simp only [Fits, low_iff, empty] at fits
  refine ⟨fun i member => ?_, fun pfn member => ?_, fun reserved p touched => ⟨fun low => ?_, fun high inside => ?_⟩⟩
  · obtain ⟨reserved, low, first, last⟩ := mem_lowMegPages.mp member
    have ends := fits reserved
    rw [if_pos low] at ends
    unfold lowMegPageCount
    omega
  · obtain ⟨database, first, last⟩ := mem_databasePages.mp member
    obtain ⟨reserved, high, below⟩ := inDatabase_iff.mp database
    have ends := fits reserved
    rw [if_neg (Nat.not_lt.mpr high), if_neg (by omega)] at ends
    unfold limit at *
    omega
  · obtain ⟨first, last, some⟩ := touches_iff.mp touched
    unfold lowMegPageCount at low
    have ends := fits reserved
    rw [if_pos (by omega)] at ends
    exact mem_lowMegPages.mpr ⟨reserved, by omega, first, by omega⟩
  · obtain ⟨first, last, some⟩ := touches_iff.mp touched
    have ends := fits reserved
    unfold lowMegPageCount at high
    rw [mem_databasePages, inDatabase_iff]
    unfold limit at *
    split at ends
    · omega
    · split at ends
      · omega
      · refine ⟨⟨reserved, by omega, by omega⟩, first, by omega⟩

theorem fits_of_confined (more : initialPageCount < args.physicalMemoryPages) (confined : r.Confined args)
    (reserved : r.type = addressRangeReserved) : r.Fits args := by
  have bound := args.addressed
  have base := r.baseAddress.isLt
  have length := r.length.isLt
  have empty : r.length = 0 ↔ r.length.toNat = 0 := by rw [← BitVec.toNat_inj]; rfl
  have limit : r.limit = r.baseAddress.toNat + r.length.toNat := rfl
  have megabyte : initialPageCount = 0x3000 := rfl
  have reached (p : Nat) (touched : r.Touches p) (high : lowMegPageCount ≤ p) (inside : p < args.physicalMemoryPages) :=
    mem_databasePages.mp ((confined.covered reserved p touched).2 high inside)
  unfold lowMegPageCount at reached
  simp only [Fits, low_iff, empty]
  split
  · -- The first page of the database is touched, but such a run moves nothing.
    rename_i low
    by_contra past
    have page := reached 256 (touches_iff.mpr ⟨by omega, by omega, by omega⟩) (Nat.le_refl _) (by omega)
    have high := (inDatabase_iff.mp page.1).2.1
    omega
  · rename_i high
    split
    · -- The shifted page count is 0.
      rename_i all
      by_contra some
      have page := reached (r.baseAddress.toNat / 0x1000) (touches_iff.mpr ⟨Nat.le_refl _, by omega, by omega⟩)
        (by omega) (by omega)
      have below := (inDatabase_iff.mp page.1).2.2
      omega
    · by_contra past
      by_cases wraps : r.limit + 0xFFF < 2 ^ 32
      · -- The first page past the database is moved.
        have member : args.physicalMemoryPages ∈ r.databasePages args :=
          mem_databasePages.mpr ⟨inDatabase_iff.mpr ⟨reserved, by omega, by omega⟩, by omega, by omega⟩
        exact Nat.lt_irrefl _ (confined.database _ member)
      · -- The end is in front of the run: a page is left out.
        by_cases last : r.baseAddress.toNat / 0x1000 + 1 < args.physicalMemoryPages
        · have page := reached (r.baseAddress.toNat / 0x1000 + 1) (touches_iff.mpr ⟨by omega, by omega, by omega⟩)
            (by omega) last
          omega
        · have page := reached (r.baseAddress.toNat / 0x1000) (touches_iff.mpr ⟨by omega, by omega, by omega⟩)
            (by omega) (by omega)
          omega

/-- The run has a byte in the page, or starts in it, and is handled as one of the database. -/
def Reaches (args : LoaderArguments) (r : PhysicalMemoryRun) (p : Nat) : Prop :=
  r.InDatabase args ∧ r.baseAddress.toNat / 0x1000 ≤ p ∧ 0x1000 * p < r.limit

theorem reaches_iff (fits : r.type = addressRangeReserved → r.Fits args) (inside : p < args.physicalMemoryPages) :
    r.Reaches args p ↔ p ∈ r.databasePages args := by
  have bound := args.addressed
  have base := r.baseAddress.isLt
  have length := r.length.isLt
  have limit : r.limit = r.baseAddress.toNat + r.length.toNat := rfl
  simp only [Fits, low_iff] at fits
  rw [mem_databasePages, Reaches]
  apply and_congr_right
  intro database
  obtain ⟨reserved, high, below⟩ := inDatabase_iff.mp database
  have ends := fits reserved
  rw [if_neg (Nat.not_lt.mpr high), if_neg (by omega)] at ends
  omega

end PhysicalMemoryRun

namespace Reservation

variable {checked : Bool} {args : LoaderArguments} {s t : Reservation} {runs : List PhysicalMemoryRun}

/-- The database as the start-up leaves it. -/
structure Ready (args : LoaderArguments) (s : Reservation) : Prop where
  more : initialPageCount < args.physicalMemoryPages
  wellFormed : WellFormed s.mm
  pages : s.mm.physicalMemoryPages = args.physicalMemoryPages
  unreserved : ∀ pfn < args.physicalMemoryPages, located s.mm pfn ≠ .reservedOrBadPage

structure Safe (args : LoaderArguments) (runs : List PhysicalMemoryRun) (s t : Reservation) : Prop where
  confined : ∀ r ∈ runs, r.Confined args
  once : ∀ pfn, located s.mm pfn = .activeAndValid → (runs.flatMap (·.databasePages args)).count pfn ≤ 1
  marked : ∀ i, t.halpLowMegBusyForDma i = if i ∈ runs.flatMap (·.lowMegPages) then 2 else s.halpLowMegBusyForDma i
  moved : ∀ pfn, located t.mm pfn =
    if pfn ∈ runs.flatMap (·.databasePages args) then .reservedOrBadPage else located s.mm pfn
  unwritten : ∀ p, ¬ s.mm.Mapped p → t.mm.ppd p = s.mm.ppd p

/-- Two runs share no page that must not be moved twice: in a build with assertions no page may be. -/
def Apart (checked : Bool) (args : LoaderArguments) (s : Reservation) (r q : PhysicalMemoryRun) : Prop :=
  ∀ pfn < args.physicalMemoryPages, r.Reaches args pfn → q.Reaches args pfn →
    checked = false ∧ located s.mm pfn ≠ .activeAndValid

/-- The pages that must not be moved twice. -/
def guarded (checked : Bool) (s : Reservation) (pfn : Nat) : Bool := checked || located s.mm pfn = .activeAndValid

theorem guarded_filter (runs : List PhysicalMemoryRun) :
    (runs.flatMap (·.databasePages args)).filter (guarded checked s) =
      runs.flatMap fun r => (r.databasePages args).filter (guarded checked s) := List.filter_flatMap

theorem apart_iff (fits : ∀ r ∈ runs, r.type = addressRangeReserved → r.Fits args)
    (confined : ∀ r ∈ runs, r.Confined args) :
    ((runs.flatMap (·.databasePages args)).filter (guarded checked s)).Nodup ↔ runs.Pairwise (Apart checked args s) := by
  have each (r : PhysicalMemoryRun) : ((r.databasePages args).filter (guarded checked s)).Nodup := by
    apply List.Nodup.filter
    unfold PhysicalMemoryRun.databasePages
    split
    · exact pageSpan_nodup ..
    · exact List.nodup_nil
  rw [guarded_filter, List.nodup_flatMap, and_iff_right fun r _ => each r]
  apply List.Pairwise.iff_of_mem
  intro r q first second
  constructor
  · intro disjoint pfn inside one two
    by_contra guard
    have kept : guarded checked s pfn = true := by
      unfold guarded
      cases checked <;> simp_all
    have left := (PhysicalMemoryRun.reaches_iff (fits r first) inside).mp one
    have right := (PhysicalMemoryRun.reaches_iff (fits q second) inside).mp two
    exact disjoint (List.mem_filter.mpr ⟨left, kept⟩) (List.mem_filter.mpr ⟨right, kept⟩)
  · intro apart pfn one two
    obtain ⟨left, kept⟩ := List.mem_filter.mp one
    obtain ⟨right, -⟩ := List.mem_filter.mp two
    have inside := (confined r first).database pfn left
    obtain ⟨unchecked, inactive⟩ := apart pfn inside ((PhysicalMemoryRun.reaches_iff (fits r first) inside).mpr left)
      ((PhysicalMemoryRun.reaches_iff (fits q second) inside).mpr right)
    simp [guarded, unchecked, inactive] at kept

/-- A write to a descriptor of the database leaves all other memory alone. -/
theorem kept_unwritten (s : MmState) : Kept fun u => u.physicalMemoryPages = s.physicalMemoryPages ∧
    u.mmPpdDatabase = s.mmPpdDatabase ∧ ∀ p, ¬ s.Mapped p → u.ppd p = s.ppd p where
  update := by
    rintro u p f ⟨pages, database, same⟩
    refine ⟨fun run => ?_⟩
    unfold MmState.update at run
    split at run
    · rename_i here
      cases Option.some.inj run
      refine ⟨pages, database, fun q outside => ?_⟩
      have other : q ≠ p := by
        rintro rfl
        exact outside ((mapped_congr pages database q).mp here)
      exact (if_neg other).trans (same q outside)
    · exact absurd run (by simp)
  setHead _ _ holds := holds

theorem memory_runs_safe_iff (checked : Bool) (runs : List PhysicalMemoryRun) (ready : s.Ready args) :
    (∃ t, reserveRuns checked args s runs = some t ∧ Safe args runs s t) ↔
      (∀ r ∈ runs, r.type = addressRangeReserved → r.Fits args) ∧ runs.Pairwise (Apart checked args s) := by
  constructor
  · rintro ⟨t, run, safe⟩
    have fits : ∀ r ∈ runs, r.type = addressRangeReserved → r.Fits args :=
      fun r member => PhysicalMemoryRun.fits_of_confined ready.more (safe.confined r member)
    refine ⟨fits, (apart_iff fits safe.confined).mp ?_⟩
    rw [reserveRuns_eq] at run
    obtain ⟨mm, moves, -⟩ := Option.map_eq_some_iff.mp run
    obtain ⟨movable, -⟩ := changeAll_moved ready.wellFormed moves
    cases checked with
    | true => exact (movable.once rfl).filter _
    | false =>
      rw [List.nodup_iff_count_le_one]
      intro pfn
      by_cases active : located s.mm pfn = .activeAndValid
      · exact Nat.le_trans (List.Sublist.count_le pfn List.filter_sublist) (safe.once pfn active)
      · rw [List.count_eq_zero_of_not_mem]
        · exact Nat.zero_le _
        · intro member
          simp [guarded, active] at member
  · rintro ⟨fits, apart⟩
    have confined : ∀ r ∈ runs, r.Confined args :=
      fun r member => PhysicalMemoryRun.confined_of_fits ready.more (fits r member)
    have guards := (apart_iff fits confined).mpr apart
    have inside : ∀ pfn ∈ runs.flatMap (·.databasePages args), pfn < args.physicalMemoryPages := by
      intro pfn member
      obtain ⟨r, here, member⟩ := List.mem_flatMap.mp member
      exact (confined r here).database pfn member
    have movable : Movable checked .reservedOrBadPage s.mm (runs.flatMap (·.databasePages args)) := by
      refine ⟨fun pfn member => ready.pages ▸ inside pfn member, fun asserts => ?_,
        fun _ pfn member => ready.unreserved pfn (inside pfn member)⟩
      rw [List.filter_eq_self.mpr (by simp [guarded, asserts])] at guards
      exact guards
    obtain ⟨mm, moves⟩ := changeAll_moves ready.wellFormed movable
    obtain ⟨-, moved⟩ := changeAll_moved ready.wellFormed moves
    refine ⟨⟨mm, reserveEntries (runs.flatMap (·.lowMegPages)) s.halpLowMegBusyForDma⟩, ?_, confined, ?_,
      reserveEntries_apply _ _, moved.located, ?_⟩
    · rw [reserveRuns_eq, moves, Option.map_some]
    · intro pfn active
      have guard : guarded checked s pfn = true := by simp [guarded, active]
      rw [← List.count_filter guard]
      exact List.nodup_iff_count_le_one.mp guards pfn
    · exact (((kept_unwritten s.mm).changeAll ⟨rfl, rfl, fun _ _ => rfl⟩ _ _).of_eq moves).2.2

/-- The state that the first part of MmInitSystemPhase1 leaves is one from which runs can be reserved. -/
theorem ready_of_database {m : Startup} (database : Startup.DatabaseReady args m)
    (more : initialPageCount < args.physicalMemoryPages) (table : Nat → BitVec 32) :
    Ready args { mm := m.state args, halpLowMegBusyForDma := table } where
  more := more
  wellFormed := ⟨_, database.lists⟩
  pages := rfl
  unreserved := by
    intro pfn inside reserved
    by_cases initial : pfn < initialPageCount
    · have active := (database.active pfn initial).1
      exact absurd (active.symm.trans reserved) (by decide)
    · have member : mmPfnPpd (m.state args) pfn ∈ Startup.zeroedFrames args (m.state args) .zeroedPageList := by
        refine List.mem_map.mpr ⟨pfn, ?_, rfl⟩
        rw [List.mem_range'_1]
        omega
      have listed := ((database.lists.member .zeroedPageList _).mp member).2
      exact absurd (listed.symm.trans reserved) (by simp)

end Reservation

/-- 52 megabytes, all of whose pages are in use. -/
def busyMemory : Reservation where
  mm :=
    { physicalMemoryPages := 0x3400
      mmPpdDatabase := 0xC8000000
      ppd := fun _ => { u1 := 0, u2 := 0, pageLocation := .activeAndValid, modified := false }
      pageListHead := fun _ => 0
      pte := fun _ => 0 }
  halpLowMegBusyForDma _ := 0

def busyArguments : LoaderArguments := ⟨0x3400, by decide⟩

theorem busyMemory_ready : busyMemory.Ready busyArguments where
  more := by decide
  wellFormed := by
    refine ⟨fun _ => [], (by decide : 0xC8000000 ≠ 0), fun _ => ⟨List.nodup_nil, rfl⟩, fun l p => ?_⟩
    refine iff_of_false List.not_mem_nil ?_
    rintro ⟨-, listed⟩
    exact PageLocation.noConfusion listed
  pages := rfl
  unreserved _ _ reserved := PageLocation.noConfusion reserved

/-- The extended data area of the BIOS, its code below the first megabyte, and memory of a device. -/
def biosRuns : List PhysicalMemoryRun := [⟨0x9FC00, 0x400, 2⟩, ⟨0xE8000, 0x18000, 2⟩, ⟨0x33F0000, 0x10000, 2⟩]

theorem biosRuns_safe : ∃ t, reserveRuns true busyArguments busyMemory biosRuns = some t ∧
    Reservation.Safe busyArguments biosRuns busyMemory t := by
  refine (Reservation.memory_runs_safe_iff true biosRuns busyMemory_ready).mpr ⟨by decide, ?_⟩
  refine .cons (fun q _ pfn _ first => absurd first.1 (by decide)) ?_
  refine .cons (fun q _ pfn _ first => absurd first.1 (by decide)) ?_
  exact .cons (by simp) .nil

/-- A run across the end of the first megabyte writes past the table; of two runs over the same page each moves it. -/
theorem crossingRun_unsafe :
    (∃ t, reserveRuns true busyArguments busyMemory [⟨0xF0000, 0x20000, 2⟩] = some t ∧
      t.halpLowMegBusyForDma 256 = 2 ∧ ¬Reservation.Safe busyArguments [⟨0xF0000, 0x20000, 2⟩] busyMemory t) ∧
    ∀ t, ¬Reservation.Safe busyArguments [⟨0x200000, 0x1000, 2⟩, ⟨0x200000, 0x1000, 2⟩] busyMemory t := by
  constructor
  · refine ⟨_, rfl, rfl, fun safe => ?_⟩
    have past := (safe.confined _ List.mem_cons_self).table 256 (by decide)
    exact Nat.lt_irrefl _ past
  · intro t safe
    exact absurd (safe.once 0x200 rfl) (by decide)

end Gr8os.Mm
