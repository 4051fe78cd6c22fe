import Gr8os.Lib.Translation
import Gr8os.Mm.PageRuns
import Gr8os.Mm.ShareCount

/-! The contents of the pages that MiZeroPageThread clears. Each is mapped to the hyperspace page in its turn, and
the processor may go on using the translation of that page that it holds. -/
namespace Gr8os.Mm

open Runs Translation

def mmHyperspaceStart : BitVec 32 := 0xFFFFE000

/-- The physical pages by frame and byte, seen through the hyperspace page. The database and the page tables are
kept apart from them. -/
structure ZeroState where
  mm : MmState
  pages : Memory Nat Nat (BitVec 8)

namespace ZeroState

/-- The two writes to the PTE, with no access between them. The translation is not invalidated. -/
def miMapPageToHyperSpace (s : ZeroState) (pfn : Nat) : ZeroState :=
  { s with mm := s.mm.setPte (vpn mmHyperspaceStart) (validKernelPte pfn) }

def pageBytes : List Nat := List.range 0x1000

/-- memset over the hyperspace page. -/
inductive Memset (s : ZeroState) : ZeroState → Prop
  | filled {pfn : Nat} {pages : Memory Nat Nat (BitVec 8)} :
    frameOf (s.mm.pte (vpn mmHyperspaceStart)) = some pfn → Memory.Fills pageBytes 0 s.pages pfn pages →
    Memset s { s with pages := pages }

/-- The loop of the thread over the free list, from one descriptor on. -/
inductive Zeroing (checked : Bool) : Nat → ZeroState → ZeroState → Prop
  | done {s : ZeroState} : Zeroing checked 0 s s
  | page {ppd : Nat} {s u t : ZeroState} {mm : MmState} :
    ppd ≠ 0 → Memset (s.miMapPageToHyperSpace (mmGetPpdPfn s.mm ppd)) u →
    miChangePageLocation checked u.mm ppd (.list .zeroedPageList) = some mm →
    Zeroing checked (s.mm.ppd ppd).u1 { u with mm := mm } t → Zeroing checked ppd s t

/-- One pass between two delays. -/
def MiZeroPageThread (checked : Bool) (s t : ZeroState) : Prop :=
  Zeroing checked (s.mm.pageListHead .freePageList) { s with pages := s.pages.start } t

section pass

variable {checked : Bool} {s t : ZeroState} {lists : PageList → List Nat}

/-- The frames of a list, in its order. -/
def frames (mm : MmState) (ppds : List Nat) : List Nat := ppds.map (mmGetPpdPfn mm)

theorem pageListsOk_setPte {mm : MmState} (ok : PageListsOk mm lists) (i : BitVec 20) (p : Mmpte) :
    PageListsOk (mm.setPte i p) lists := ⟨ok.placed, ok.chain, ok.member⟩

theorem frame_lt {ppd : Nat} {rest : List Nat} (ok : PageListsOk s.mm lists) (list : lists .freePageList = ppd :: rest) :
    mmGetPpdPfn s.mm ppd < s.mm.physicalMemoryPages :=
  ((ok.member .freePageList ppd).mp (by rw [list]; exact List.mem_cons_self)).1.2

/-- The PTE of the hyperspace page, while a page is filled. -/
theorem memset_iff {pfn : Nat} (addressed : pfn < 2 ^ 20) {u : ZeroState} : Memset (s.miMapPageToHyperSpace pfn) u ↔
    ∃ pages, Memory.Fills pageBytes 0 s.pages pfn pages ∧ u = { s.miMapPageToHyperSpace pfn with pages := pages } := by
  have mapped : frameOf ((s.miMapPageToHyperSpace pfn).mm.pte (vpn mmHyperspaceStart)) = some pfn := by
    have pte : (s.miMapPageToHyperSpace pfn).mm.pte (vpn mmHyperspaceStart) = validKernelPte pfn := by
      simp [miMapPageToHyperSpace, MmState.setPte]
    rw [pte, frameOf_validKernelPte addressed]
  constructor
  · rintro @⟨frame, pages, here, fills⟩
    cases Option.some.inj (mapped.symm.trans here)
    exact ⟨pages, fills, rfl⟩
  · rintro ⟨pages, fills, rfl⟩
    exact .filled mapped fills

/-- The fill of one page, and the move of its descriptor. -/
theorem zeroing_cons (checked : Bool) {ppd : Nat} {rest : List Nat} (ok : PageListsOk s.mm lists)
    (addressed : s.mm.physicalMemoryPages ≤ 2 ^ 20) (list : lists .freePageList = ppd :: rest) :
    ∃ mm others, PageListsOk mm others ∧ others .freePageList = rest ∧ frames mm rest = frames s.mm rest ∧
      mm.physicalMemoryPages = s.mm.physicalMemoryPages ∧ ∀ t, Zeroing checked (s.mm.pageListHead .freePageList) s t ↔
        ∃ pages, Memory.Fills pageBytes 0 s.pages (mmGetPpdPfn s.mm ppd) pages ∧
          Zeroing checked (mm.pageListHead .freePageList) { mm := mm, pages := pages } t := by
  have small : mmGetPpdPfn s.mm ppd < 2 ^ 20 := Nat.lt_of_lt_of_le (frame_lt ok list) addressed
  have chain := ok.chain .freePageList
  rw [list] at chain
  obtain ⟨first, present, -, -⟩ := chain.2
  let mapped := (s.miMapPageToHyperSpace (mmGetPpdPfn s.mm ppd)).mm
  have okMapped : PageListsOk mapped lists := pageListsOk_setPte ok _ _
  have head : mapped.pageListHead .freePageList = ppd := first
  have filled : mapped.pageListHead .freePageList ≠ 0 := head.symm ▸ present
  obtain ⟨mm, code, after, next, -⟩ := first_moves checked okMapped filled
    (by simp : PageLocation.list .zeroedPageList ≠ .list .freePageList)
  rw [head] at code after next
  have move := (miChangePageLocation_ok okMapped code).2
  have tail : moved lists ppd (.list .zeroedPageList) .freePageList = rest := by simp [moved, list]
  refine ⟨mm, _, after, tail, ?_, move.pages, fun t => ?_⟩
  · apply List.map_congr_left
    intro p _
    rw [mmGetPpdPfn, mmGetPpdPfn, move.database]
    rfl
  · rw [first]
    have link : mm.pageListHead .freePageList = (s.mm.ppd ppd).u1 := next
    constructor
    · intro pass
      cases pass with
      | done => exact absurd rfl present
      | page _ fill changed rest =>
        obtain ⟨pages, fills, rfl⟩ := (memset_iff small).mp fill
        cases Option.some.inj (code.symm.trans changed)
        exact ⟨pages, fills, link ▸ rest⟩
    · rintro ⟨pages, fills, rest⟩
      exact .page present ((memset_iff small).mpr ⟨pages, fills, rfl⟩) code (link ▸ rest)

/-- What a pass makes of the pages is what a run of fills makes of them, over the frames of the free list. -/
theorem zeroing_iff (checked : Bool) {ppds : List Nat} (pages : Memory Nat Nat (BitVec 8))
    (ok : PageListsOk s.mm lists) (addressed : s.mm.physicalMemoryPages ≤ 2 ^ 20) (list : lists .freePageList = ppds) :
    (∃ mm, Zeroing checked (s.mm.pageListHead .freePageList) s { mm := mm, pages := pages }) ↔
      Run (Memory.Fills pageBytes 0) s.pages (frames s.mm ppds) pages := by
  induction ppds generalizing s lists with
  | nil =>
    have chain := ok.chain .freePageList
    rw [list] at chain
    have empty : s.mm.pageListHead .freePageList = 0 := chain.2
    rw [empty]
    constructor
    · rintro ⟨mm, pass⟩
      cases pass with
      | done => exact .done _
      | page filled => exact absurd rfl filled
    · intro run
      cases run
      exact ⟨s.mm, .done⟩
  | cons ppd rest ih =>
    obtain ⟨mm, others, after, tail, same, count, step⟩ := zeroing_cons checked ok addressed list
    have later (filled : Memory Nat Nat (BitVec 8)) := ih (s := ⟨mm, filled⟩) after (count ▸ addressed) tail
    simp only [same] at later
    constructor
    · rintro ⟨last, pass⟩
      obtain ⟨filled, fills, pass⟩ := (step _).mp pass
      exact .next fills ((later filled).mp ⟨last, pass⟩)
    · intro run
      cases run with
      | next fills run =>
        obtain ⟨last, pass⟩ := (later _).mpr run
        exact ⟨last, (step _).mpr ⟨_, fills, pass⟩⟩

theorem frames_nodup (ok : PageListsOk s.mm lists) (l : PageList) : (frames s.mm (lists l)).Nodup := by
  refine List.Nodup.map_on ?_ (ok.chain l).1
  intro p here q there same
  have first := ((ok.member l p).mp here).1.1
  have second := ((ok.member l q).mp there).1.1
  rw [← first, ← second, same]

/-- Every page of the free list holds zeroes in each of its bytes, and no other page was written to. -/
def Zeroed (pfns : List Nat) (t : ZeroState) : Prop := t.pages.FilledExactly pageBytes 0 pfns

theorem zeroed_iff_run (checked : Bool) (ok : PageListsOk s.mm lists) (addressed : s.mm.physicalMemoryPages ≤ 2 ^ 20) :
    (∀ t, MiZeroPageThread checked s t → Zeroed (frames s.mm (lists .freePageList)) t) ↔
      ∀ pages, Run (Memory.Fills pageBytes 0) s.pages.start (frames s.mm (lists .freePageList)) pages →
        pages.FilledExactly pageBytes 0 (frames s.mm (lists .freePageList)) := by
  let begun : ZeroState := { s with pages := s.pages.start }
  have fills (pages : Memory Nat Nat (BitVec 8)) := zeroing_iff (s := begun) checked pages ok addressed rfl
  constructor
  · intro zeroed pages run
    obtain ⟨mm, pass⟩ := (fills pages).mpr run
    exact zeroed _ pass
  · intro filled t pass
    exact filled t.pages ((fills t.pages).mp ⟨t.mm, pass⟩)

theorem pageBytes_some : pageBytes ≠ [] := by
  intro none
  have length := congrArg List.length none
  rw [pageBytes, List.length_range] at length
  exact absurd length (by decide)

/-- The thread can make its pass from every well-formed database. -/
theorem exists_pass (checked : Bool) (ok : PageListsOk s.mm lists)
    (addressed : s.mm.physicalMemoryPages ≤ 2 ^ 20) : ∃ t, MiZeroPageThread checked s t := by
  let begun : ZeroState := { s with pages := s.pages.start }
  obtain ⟨pages, run⟩ :=
    Memory.exists_run begun.pages (frames begun.mm (lists .freePageList)) (0 : BitVec 8) pageBytes_some
  obtain ⟨mm, pass⟩ := (zeroing_iff (s := begun) checked pages ok addressed rfl).mpr run
  exact ⟨_, pass⟩

/-- A pass zeroes the free pages, for whatever the processor does, only where at most the first page needs it. -/
theorem pages_zeroed_iff (checked : Bool) (ok : PageListsOk s.mm lists)
    (addressed : s.mm.physicalMemoryPages ≤ 2 ^ 20) :
    (∀ t, MiZeroPageThread checked s t → Zeroed (frames s.mm (lists .freePageList)) t) ↔
      s.pages.Settled pageBytes 0 (frames s.mm (lists .freePageList)) := by
  rw [zeroed_iff_run checked ok addressed, Memory.filledExactly_iff (frames_nodup ok .freePageList) pageBytes_some rfl]
  cases frames s.mm (lists .freePageList) with
  | nil => exact Iff.rfl
  | cons first rest => exact Iff.rfl

end pass

/-- 52 megabytes with two free pages, of which the second holds `content` in every byte. No translation is held. -/
def twoFreePages (content : BitVec 8) : ZeroState where
  mm :=
    { physicalMemoryPages := 0x3400
      mmPpdDatabase := 0xC8000000
      ppd := fun p =>
        if p = 0xC8024000 then { u1 := 0xC802400C, u2 := 0, pageLocation := .list .freePageList, modified := false }
        else if p = 0xC802400C then
          { u1 := 0, u2 := 0xC8024000, pageLocation := .list .freePageList, modified := false }
        else { u1 := 0, u2 := 0, pageLocation := .activeAndValid, modified := false }
      pageListHead := fun l => if l = .freePageList then 0xC8024000 else 0
      pte := fun _ => 0 }
  pages :=
    { contents := fun pfn _ => if pfn = 0x3001 then content else 0xFF
      held := none
      written := [] }

def twoFreeLists : PageList → List Nat
  | .freePageList => [0xC8024000, 0xC802400C]
  | _ => []

theorem twoFreePages_ok (content : BitVec 8) : PageListsOk (twoFreePages content).mm twoFreeLists where
  placed := (by decide : 0xC8000000 ≠ 0)
  chain l := by
    cases l with
    | freePageList => exact ⟨by decide, rfl, by decide, rfl, rfl, by decide, rfl, rfl⟩
    | zeroedPageList => exact ⟨List.nodup_nil, rfl⟩
    | modifiedPageList => exact ⟨List.nodup_nil, rfl⟩
    | standbyPageList => exact ⟨List.nodup_nil, rfl⟩
  member l p := by
    have located : ((twoFreePages content).mm.ppd p).pageLocation =
        if p = 0xC8024000 ∨ p = 0xC802400C then .list .freePageList else .activeAndValid := by
      simp only [twoFreePages]
      split
      · simp [*]
      · split <;> simp [*]
    rw [located]
    by_cases free : p = 0xC8024000 ∨ p = 0xC802400C
    · have here : (twoFreePages content).mm.Mapped p := by
        have address (pfn : Nat) : mmPfnPpd (twoFreePages content).mm pfn = 0xC8000000 + 12 * pfn := rfl
        rcases free with rfl | rfl
        · have first := (mapped_mmPfnPpd (twoFreePages content).mm 0x3000).mpr (by decide : 0x3000 < 0x3400)
          rwa [address] at first
        · have second := (mapped_mmPfnPpd (twoFreePages content).mm 0x3001).mpr (by decide : 0x3001 < 0x3400)
          rwa [address] at second
      rw [if_pos free]
      cases l with
      | freePageList => simpa [twoFreeLists, here] using free
      | zeroedPageList => simp [twoFreeLists]
      | modifiedPageList => simp [twoFreeLists]
      | standbyPageList => simp [twoFreeLists]
    · rw [if_neg free]
      refine iff_of_false ?_ fun both => absurd both.2 (by simp)
      cases l with
      | freePageList => simpa [twoFreeLists] using free
      | zeroedPageList => exact List.not_mem_nil
      | modifiedPageList => exact List.not_mem_nil
      | standbyPageList => exact List.not_mem_nil

theorem cleanSecond_zeroed : (∃ t, MiZeroPageThread true (twoFreePages 0) t) ∧
    ∀ t, MiZeroPageThread true (twoFreePages 0) t →
      Zeroed (frames (twoFreePages 0).mm (twoFreeLists .freePageList)) t := by
  refine ⟨exists_pass true (twoFreePages_ok 0) (by decide), ?_⟩
  refine (pages_zeroed_iff true (twoFreePages_ok 0) (by decide)).mpr ⟨fun pfn member => ?_, .inl rfl⟩
  rw [List.mem_singleton.mp member]
  intro byte _
  rfl

/-- The translation of the first page may be used for the second one. -/
theorem dirtySecond_not_zeroed : ∃ t, MiZeroPageThread true (twoFreePages 1) t ∧
    ¬Zeroed (frames (twoFreePages 1).mm (twoFreeLists .freePageList)) t := by
  have some : ¬∀ t, MiZeroPageThread true (twoFreePages 1) t →
      Zeroed (frames (twoFreePages 1).mm (twoFreeLists .freePageList)) t := by
    intro zeroed
    have runs := (zeroed_iff_run true (twoFreePages_ok 1) (by decide)).mp zeroed
    have settled := Memory.settled_of_filledExactly (frames_nodup (twoFreePages_ok 1) .freePageList) pageBytes_some
      runs
    have second := settled.1 0x3001 (List.mem_singleton.mpr rfl) 0 (List.mem_range.mpr (by decide))
    exact absurd second (by decide)
  obtain ⟨t, both⟩ := Classical.not_forall.mp some
  exact ⟨t, Classical.not_imp.mp both⟩

end ZeroState

end Gr8os.Mm
