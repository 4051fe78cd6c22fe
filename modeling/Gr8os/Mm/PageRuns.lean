import Gr8os.Lib.Partial
import Gr8os.Mm.PageLists

/-! Every operation on physical pages keeps the page lists, and none gets stuck in them. -/
namespace Gr8os.Mm

open Intrusive Partial Runs

/-- A property that no write to a descriptor or to a list head changes. -/
structure Kept (P : MmState → Prop) : Prop where
  update : ∀ {s : MmState} {p : Nat} (f : Mmppd → Mmppd), P s → Ends (s.update p f) P
  setHead : ∀ {s : MmState} (l : PageList) (p : Nat), P s → P (s.setHead l p)

namespace Kept

variable {P : MmState → Prop} {s : MmState} (kept : Kept P)
include kept

theorem miUnlinkPpd (holds : P s) (p : Nat) (l : PageList) : Ends (miUnlinkPpd s p l) P := by
  unfold Mm.miUnlinkPpd
  simp only [Option.bind_eq_bind]
  generalize (s.ppd p).u1 = next
  generalize (s.ppd p).u2 = prev
  have last (u : MmState) (holds : P u) : Ends (if prev ≠ 0 ∧ next ≠ 0 then
      (u.setNextFlink prev next).bind fun u => u.setPrevBlink next prev else some u) P :=
    .ite (fun _ => .bind (kept.update _ holds) fun v holds => kept.update _ holds) fun _ => .some holds
  have second (u : MmState) (holds : P u) : Ends (if next = 0 then
      if prev ≠ 0 then (u.setNextFlink prev 0).bind fun u => if prev ≠ 0 ∧ next ≠ 0 then
          (u.setNextFlink prev next).bind fun u => u.setPrevBlink next prev else some u
      else (some u).bind fun u => if prev ≠ 0 ∧ next ≠ 0 then
          (u.setNextFlink prev next).bind fun u => u.setPrevBlink next prev else some u
      else (some u).bind fun u => if prev ≠ 0 ∧ next ≠ 0 then
          (u.setNextFlink prev next).bind fun u => u.setPrevBlink next prev else some u) P :=
    .ite (fun _ => .ite (fun _ => .bind (kept.update _ holds) last) fun _ => last u holds) fun _ => last u holds
  apply Ends.ite
  · intro _
    apply Ends.ite
    · intro _
      exact .bind (kept.update _ (kept.setHead l next holds)) second
    · intro _
      exact second _ (kept.setHead l next holds)
  · intro _
    exact second _ holds

theorem miLinkPpd (holds : P s) (l : PageList) (p : Nat) : Ends (miLinkPpd s l p) P := by
  unfold Mm.miLinkPpd
  simp only [Option.bind_eq_bind]
  apply Ends.bind (kept.update _ holds)
  intro v holds
  apply Ends.bind (kept.update _ holds)
  intro w holds
  apply Ends.ite
  · intro _
    exact .bind (kept.update _ holds) fun x holds => .some (kept.setHead l p holds)
  · intro _
    exact .some (kept.setHead l p holds)

theorem miChangePageLocation {checked : Bool} (holds : P s) (p : Nat) (location : PageLocation) :
    Ends (miChangePageLocation checked s p location) P := by
  unfold Mm.miChangePageLocation
  apply Ends.ite
  · intro _
    exact .none
  · intro _
    apply Ends.ite
    · intro _
      exact .none
    · intro _
      have left : Ends (leaveLists s p) P := by
        unfold leaveLists
        split
        · exact kept.miUnlinkPpd holds ..
        · exact .some holds
      apply Ends.bind left
      intro v holds
      have joined : Ends (joinLists v p location) P := by
        unfold joinLists
        split
        · exact kept.miLinkPpd holds ..
        · exact kept.update _ holds
      exact .bind joined fun w holds => kept.update _ holds

theorem changeAll {checked : Bool} (holds : P s) (location : PageLocation) (pfns : List Nat) :
    Ends (changeAll checked location pfns s) P := by
  induction pfns generalizing s with
  | nil => exact .some holds
  | cons pfn pfns ih => exact .bind (kept.miChangePageLocation holds ..) fun v holds => ih holds

end Kept

theorem miChangePageLocation_ok {checked : Bool} {s t : MmState} {lists : PageList → List Nat} {p : Nat}
    {newLocation : PageLocation} (ok : PageListsOk s lists)
    (code : miChangePageLocation checked s p newLocation = some t) :
    PageListsOk t (moved lists p newLocation) ∧ Moved s t p newLocation := by
  by_cases here : s.Mapped p
  · cases passes : (checked && decide ((s.ppd p).pageLocation = newLocation)) with
    | true => simp [miChangePageLocation, here, passes] at code
    | false =>
      obtain ⟨u, ran, after⟩ := miChangePageLocation_moves ok here passes
      cases Option.some.inj (code.symm.trans ran)
      exact after
  · simp [miChangePageLocation, here] at code

theorem miChangePageLocation_wellFormed {checked : Bool} {s t : MmState} {p : Nat}
    {newLocation : PageLocation} (ok : WellFormed s)
    (code : miChangePageLocation checked s p newLocation = some t) : WellFormed t := by
  obtain ⟨lists, ok⟩ := ok
  exact ⟨_, (miChangePageLocation_ok ok code).1⟩

theorem changeAll_wellFormed {checked : Bool} {newLocation : PageLocation} {pfns : List Nat}
    {s t : MmState} (ok : WellFormed s) (code : changeAll checked newLocation pfns s = some t) :
    WellFormed t := by
  induction pfns generalizing s with
  | nil =>
    cases Option.some.inj code
    exact ok
  | cons pfn pfns ih =>
    simp only [changeAll, Option.bind_eq_bind, Option.bind_eq_some_iff] at code
    obtain ⟨u, first, rest⟩ := code
    exact ih (miChangePageLocation_wellFormed ok first) rest

theorem takePages_wellFormed {checked : Bool} {n ppd : Nat} {pages : List Nat} {s : MmState}
    {r : List Nat × MmState} (ok : WellFormed s) (code : takePages checked n ppd pages s = some r) :
    WellFormed r.2 := by
  induction n generalizing ppd pages s with
  | zero =>
    cases ppd with
    | zero =>
      cases Option.some.inj code
      exact ok
    | succ ppd => contradiction
  | succ n ih =>
    cases ppd with
    | zero =>
      cases Option.some.inj code
      exact ok
    | succ ppd =>
      simp only [takePages, Option.bind_eq_bind, Option.bind_eq_some_iff] at code
      obtain ⟨t, first, rest⟩ := code
      have okt := miChangePageLocation_wellFormed ok first
      split at rest
      · cases Option.some.inj rest
        exact okt
      · exact ih okt rest

theorem miZeroPages_wellFormed {checked : Bool} {fuel ppd : Nat} {s t : MmState} (ok : WellFormed s)
    (code : miZeroPages checked fuel ppd s = some t) : WellFormed t := by
  induction fuel generalizing ppd s with
  | zero =>
    cases ppd with
    | zero =>
      cases Option.some.inj code
      exact ok
    | succ ppd => contradiction
  | succ fuel ih =>
    cases ppd with
    | zero =>
      cases Option.some.inj code
      exact ok
    | succ ppd =>
      simp only [miZeroPages, Option.bind_eq_bind, Option.bind_eq_some_iff] at code
      obtain ⟨u, first, rest⟩ := code
      exact ih (miChangePageLocation_wellFormed ok first) rest

/-- A write that keeps links and locations keeps the lists. -/
theorem PageListsOk.congr {s t : MmState} {lists : PageList → List Nat} (ok : PageListsOk s lists)
    (same : SameFrames s t) (sameLinks : links t = links s) (heads : t.pageListHead = s.pageListHead) :
    PageListsOk t lists := by
  refine ⟨same.database ▸ ok.placed, fun l => ?_, fun l p => ?_⟩
  · rw [sameLinks, heads]
    exact ok.chain l
  · rw [ok.member, mapped_congr same.pages same.database, same.location]

theorem setPte_wellFormed {s : MmState} (ok : WellFormed s) (i : BitVec 20) (p : Mmpte) :
    WellFormed (s.setPte i p) := by
  obtain ⟨lists, ok⟩ := ok
  exact ⟨lists, ok.congr ⟨rfl, rfl, fun _ => rfl⟩ rfl rfl⟩

theorem setModified_wellFormed {s t : MmState} {p : Nat} (ok : WellFormed s)
    (code : (s.update p fun d => { d with modified := true }) = some t) : WellFormed t := by
  obtain ⟨lists, ok⟩ := ok
  by_cases here : s.Mapped p
  · rw [update_eq here] at code
    cases Option.some.inj code
    refine ⟨lists, ok.congr ⟨rfl, rfl, fun q => ?_⟩ ?_ rfl⟩
    · by_cases hq : q = p <;> simp [hq]
    · simp only [links, Links.mk.injEq]
      constructor
      · funext q
        by_cases hq : q = p <;> simp [hq]
      · funext q
        by_cases hq : q = p <;> simp [hq]
  · simp [MmState.update, here] at code

theorem mmAllocatePhysicalPages_wellFormed {checked : Bool} {s : MmState} {n : Nat} {a m : Bool}
    {r : Status × Option Mmd × MmState} (ok : WellFormed s)
    (code : mmAllocatePhysicalPages checked s n a m = some r) : WellFormed r.2.2 := by
  unfold mmAllocatePhysicalPages at code
  split at code
  · cases Option.some.inj code
    exact ok
  · split at code
    · cases Option.some.inj code
      exact ok
    · simp only [Option.bind_eq_bind, Option.bind_eq_some_iff] at code
      obtain ⟨first, free, code⟩ := code
      have okFree := takePages_wellFormed ok free
      split at code
      · simp only [Option.bind_eq_some_iff] at code
        obtain ⟨second, zeroed, code⟩ := code
        cases Option.some.inj code
        exact takePages_wellFormed okFree zeroed
      · cases Option.some.inj code
        exact okFree

theorem mmTrimPage_wellFormed {checked : Bool} {s t : MmState} {va : BitVec 32} (ok : WellFormed s)
    (code : mmTrimPage checked s va = some t) : WellFormed t := by
  unfold mmTrimPage at code
  dsimp only at code
  split at code
  · contradiction
  · split at code
    · contradiction
    · split at code
      · simp only [Option.bind_eq_bind, Option.bind_eq_some_iff] at code
        obtain ⟨v, mark, u, move, code⟩ := code
        cases Option.some.inj code
        exact setPte_wellFormed (miChangePageLocation_wellFormed (setModified_wellFormed ok mark) move) _ _
      · simp only [Option.bind_eq_bind, Option.bind_eq_some_iff] at code
        obtain ⟨u, move, code⟩ := code
        cases Option.some.inj code
        exact setPte_wellFormed (miChangePageLocation_wellFormed ok move) _ _

theorem mmAccessFault_wellFormed {checked : Bool} {s t : MmState} {va : BitVec 32} {w : Bool}
    (ok : WellFormed s) (code : mmAccessFault checked s va w = some t) : WellFormed t := by
  unfold mmAccessFault at code
  dsimp only at code
  split at code
  · contradiction
  · split at code
    · contradiction
    · exact miChangePageLocation_wellFormed (setPte_wellFormed ok _ _) code

theorem mmStep_wellFormed {checked : Bool} {s t : MmState} {op : MmOp} (ok : WellFormed s)
    (code : mmStep checked s op = some t) : WellFormed t := by
  cases op with
  | allocate n a m =>
    obtain ⟨r, ran, rfl⟩ := Option.map_eq_some_iff.mp code
    exact mmAllocatePhysicalPages_wellFormed ok ran
  | free mmd =>
    obtain ⟨r, ran, rfl⟩ := Option.map_eq_some_iff.mp code
    simp only [mmFreePhysicalPages, Option.bind_eq_bind, Option.bind_eq_some_iff] at ran
    obtain ⟨u, freed, last⟩ := ran
    cases Option.some.inj last
    exact changeAll_wellFormed ok freed
  | reserve a b => exact changeAll_wellFormed ok code
  | zero => exact miZeroPages_wellFormed ok code
  | trim va => exact mmTrimPage_wellFormed ok code
  | fault va w => exact mmAccessFault_wellFormed ok code

/-- Moving the first descriptor of a list elsewhere makes its successor the first. -/
theorem first_moves (checked : Bool) {s : MmState} {lists : PageList → List Nat} {l : PageList}
    {newLocation : PageLocation} (ok : PageListsOk s lists) (filled : s.pageListHead l ≠ 0)
    (other : newLocation ≠ .list l) :
    ∃ t, miChangePageLocation checked s (s.pageListHead l) newLocation = some t ∧
      PageListsOk t (moved lists (s.pageListHead l) newLocation) ∧
      t.pageListHead l = (s.ppd (s.pageListHead l)).u1 ∧
      (lists l).length = (moved lists (s.pageListHead l) newLocation l).length + 1 := by
  have chain := ok.chain l
  cases h : lists l with
  | nil =>
    rw [h] at chain
    exact absurd chain.2 filled
  | cons p ps =>
    rw [h] at chain
    obtain ⟨first, _, _, rest⟩ := chain.2
    have member : s.pageListHead l ∈ lists l := by simp [h, first]
    obtain ⟨here, place⟩ := (ok.member l _).mp member
    have passes : (checked && decide ((s.ppd (s.pageListHead l)).pageLocation = newLocation)) = false := by
      simp [place, Ne.symm other]
    obtain ⟨t, code, after, _⟩ := miChangePageLocation_moves ok here passes
    have tail : moved lists (s.pageListHead l) newLocation l = ps := by
      simp [moved, other, h, first]
    have head := chainFrom_first (after.chain l).2
    have next : (s.ppd p).u1 = ps.headD 0 := chainFrom_first rest
    refine ⟨t, code, after, ?_, ?_⟩
    · rw [head, tail, first, next]
    · rw [tail, List.length_cons]

theorem takePages_total (checked : Bool) (l : PageList) {n : Nat} (pages : List Nat) {s : MmState}
    (ok : WellFormed s) (room : n = 0 → s.pageListHead l = 0) :
    ∃ r, takePages checked n (s.pageListHead l) pages s = some r := by
  induction n generalizing pages s with
  | zero => exact ⟨_, by rw [room rfl, takePages]⟩
  | succ n ih =>
    cases h : s.pageListHead l with
    | zero => exact ⟨_, by rw [takePages]⟩
    | succ ppd =>
      obtain ⟨lists, ok⟩ := ok
      have filled : s.pageListHead l ≠ 0 := by rw [h]; exact Nat.succ_ne_zero ppd
      have leaves : PageLocation.activeAndValid ≠ .list l := by simp
      obtain ⟨t, code, after, next, _⟩ := first_moves checked ok filled leaves
      rw [h] at code next
      simp only [takePages, code, Option.bind_eq_bind, Option.bind_some, ← next]
      by_cases hn : n = 0
      · exact ⟨_, by rw [if_pos hn]⟩
      · rw [if_neg hn]
        exact ih _ ⟨_, after⟩ fun hz => absurd hz hn

theorem miZeroPages_total (checked : Bool) {fuel : Nat} {s : MmState} {lists : PageList → List Nat}
    (ok : PageListsOk s lists) (room : (lists .freePageList).length ≤ fuel) :
    ∃ t, miZeroPages checked fuel (s.pageListHead .freePageList) s = some t := by
  induction fuel generalizing s lists with
  | zero =>
    have none : lists .freePageList = [] := List.eq_nil_of_length_eq_zero (Nat.le_zero.mp room)
    have head := (chain_empty_iff (ok.chain .freePageList)).mpr none
    exact ⟨s, by rw [head, miZeroPages]⟩
  | succ fuel ih =>
    cases h : s.pageListHead .freePageList with
    | zero => exact ⟨s, by rw [miZeroPages]⟩
    | succ ppd =>
      have filled : s.pageListHead .freePageList ≠ 0 := by rw [h]; exact Nat.succ_ne_zero ppd
      have leaves : PageLocation.list .zeroedPageList ≠ .list .freePageList := by simp
      obtain ⟨t, code, after, next, shorter⟩ := first_moves checked ok filled leaves
      rw [h] at code next shorter after
      simp only [miZeroPages, code, Option.bind_eq_bind, Option.bind_some, ← next]
      exact ih after (by omega)

/-- A list holds no more descriptors than there are pages. -/
theorem list_length_le {s : MmState} {lists : PageList → List Nat} (ok : PageListsOk s lists) (l : PageList) :
    (lists l).length ≤ s.physicalMemoryPages := by
  have inside : lists l ⊆ (List.range s.physicalMemoryPages).map (mmPfnPpd s) := by
    intro p hp
    have here := ((ok.member l p).mp hp).1
    exact List.mem_map.mpr ⟨mmGetPpdPfn s p, List.mem_range.mpr here.2, here.1⟩
  simpa using (ok.chain l).1.length_le_of_subset inside

theorem frame_moves {s : MmState} (ok : WellFormed s) {pfn : Nat} (inside : pfn < s.physicalMemoryPages)
    (newLocation : PageLocation) :
    ∃ t, miChangePageLocation false s (mmPfnPpd s pfn) newLocation = some t ∧ WellFormed t ∧
      t.physicalMemoryPages = s.physicalMemoryPages := by
  obtain ⟨lists, ok⟩ := ok
  obtain ⟨t, code, after, move⟩ :=
    miChangePageLocation_moves ok ((mapped_mmPfnPpd s pfn).mpr inside) (Bool.false_and _)
  exact ⟨t, code, ⟨_, after⟩, move.pages⟩

theorem changeAll_total (newLocation : PageLocation) {pfns : List Nat} {s : MmState} (ok : WellFormed s)
    (inside : ∀ pfn ∈ pfns, pfn < s.physicalMemoryPages) :
    ∃ t, changeAll false newLocation pfns s = some t := by
  induction pfns generalizing s with
  | nil => exact ⟨s, rfl⟩
  | cons pfn pfns ih =>
    obtain ⟨t, code, after, pages⟩ := frame_moves ok (inside pfn (by simp)) newLocation
    obtain ⟨u, last⟩ := ih after fun q hq => pages ▸ inside q (by simp [hq])
    exact ⟨u, by simp [changeAll, code, last]⟩

/-- The operations that name existing frames and, for a fault, a trimmed page. -/
def Admissible (s : MmState) : MmOp → Prop
  | .allocate n _ _ => 0 < n
  | .free mmd => ∀ pfn ∈ mmd.pfnList, pfn < s.physicalMemoryPages
  | .reserve _ physEnd => (alignUp physEnd >>> 12).toNat ≤ s.physicalMemoryPages
  | .zero => True
  | .trim va => (s.pte (vpn va)).pageFrameNumber < s.physicalMemoryPages
  | .fault va w => (s.pte (vpn va)).pteType = pteTypeTrimmed ∧ (w && (s.pte (vpn va)).valid) = false ∧
      (s.pte (vpn va)).pageFrameNumber < s.physicalMemoryPages

theorem mmAllocatePhysicalPages_total (checked : Bool) {s : MmState} {n : Nat} (a m : Bool)
    (ok : WellFormed s) (asked : 0 < n) : ∃ r, mmAllocatePhysicalPages checked s n a m = some r := by
  unfold mmAllocatePhysicalPages
  split
  · exact ⟨_, rfl⟩
  · split
    · exact ⟨_, rfl⟩
    · obtain ⟨⟨pages, t⟩, free⟩ :=
        takePages_total checked .freePageList [] ok (fun hn => absurd hn (Nat.ne_of_gt asked))
      simp only [free, Option.bind_eq_bind, Option.bind_some]
      by_cases short : pages.length < n
      · obtain ⟨second, zeroed⟩ := takePages_total checked .zeroedPageList pages
          (takePages_wellFormed ok free) (fun hn => absurd hn (Nat.sub_ne_zero_of_lt short))
        simp only [if_pos short, zeroed, Option.bind_some]
        exact ⟨_, rfl⟩
      · simp only [if_neg short]
        exact ⟨_, rfl⟩

theorem mmTrimPage_total {s : MmState} {va : BitVec 32} (ok : WellFormed s)
    (inside : (s.pte (vpn va)).pageFrameNumber < s.physicalMemoryPages) :
    ∃ t, mmTrimPage false s va = some t := by
  have here := (mapped_mmPfnPpd s _).mpr inside
  unfold mmTrimPage
  dsimp only
  rw [if_neg (by simp), if_neg (by simp)]
  by_cases dirty : (s.pte (vpn va)).dirty = true
  · have marked := update_eq (f := fun d => { d with modified := true }) here
    obtain ⟨t, code, _⟩ := frame_moves (setModified_wellFormed ok marked) inside (.list .modifiedPageList)
    have move := code
    simp only [mmPfnPpd] at move marked
    simp [dirty, marked, mmPfnPpd, move]
  · obtain ⟨t, code, _⟩ := frame_moves ok inside (.list .standbyPageList)
    simp [dirty, code]

/-- Without assertions no admissible operation stops on a well-formed state. -/
theorem mmStep_total {s : MmState} {op : MmOp} (ok : WellFormed s) (fits : Admissible s op) :
    ∃ t, mmStep false s op = some t := by
  cases op with
  | allocate n a m =>
    obtain ⟨r, ran⟩ := mmAllocatePhysicalPages_total false a m ok fits
    exact ⟨r.2.2, by simp [mmStep, ran]⟩
  | free mmd =>
    obtain ⟨t, ran⟩ := changeAll_total (.list .freePageList) ok fits
    exact ⟨t, by simp [mmStep, mmFreePhysicalPages, ran]⟩
  | reserve a b =>
    apply changeAll_total _ ok
    intro pfn hp
    have bounds := List.mem_range'_1.mp hp
    simp only [Admissible] at fits
    omega
  | zero =>
    obtain ⟨lists, ok⟩ := ok
    exact miZeroPages_total false ok (list_length_le ok .freePageList)
  | trim va => exact mmTrimPage_total ok fits
  | fault va w =>
    obtain ⟨trimmed, reads, inside⟩ := fits
    have inside' : (s.pte (vpn va)).pageFrameNumber <
        (s.setPte (vpn va) (((s.pte (vpn va)).setWrite (decide ((s.pte (vpn va)).protection = mmReadwrite ∨
          (s.pte (vpn va)).protection = mmExecuteReadwrite))).setValid true)).physicalMemoryPages := inside
    obtain ⟨t, code, _⟩ := frame_moves (setPte_wellFormed ok _ _) inside' .activeAndValid
    refine ⟨t, ?_⟩
    simp only [mmStep, mmAccessFault, reads, trimmed, ne_eq, not_true_eq_false, if_false, Bool.false_eq_true]
    exact code

/-- From a well-formed state every run of page operations ends in a well-formed state. -/
theorem page_lists_partition {checked : Bool} {s t : MmState} {ops : List MmOp}
    (initial : WellFormed s) (run : Run (fun s op t => mmStep checked s op = some t) s ops t) :
    WellFormed t :=
  run.invariant (fun ok code => mmStep_wellFormed ok code) initial

/-- Four zeroed pages and a descriptor database at 1200; every PTE maps the third page, dirty. -/
def fourPages : MmState where
  physicalMemoryPages := 4
  mmPpdDatabase := 1200
  ppd := fun p => {
    u1 := if p = 1236 then 0 else p + 12
    u2 := if p = 1200 then 0 else p - 12
    pageLocation := .list .zeroedPageList
    modified := false }
  pageListHead := fun l => if l = .zeroedPageList then 1200 else 0
  pte := fun _ => 0x2043

def fourPagesRun : List MmOp :=
  [.allocate 3 true true, .trim 0, .fault 0 false, .free { flags := 1, pfnList := [1, 0] },
    .reserve 0x1000 0x1001, .zero, .allocate 4 true true]

theorem fourPages_wellFormed : WellFormed fourPages := by
  refine ⟨fun l => if l = .zeroedPageList then [1200, 1212, 1224, 1236] else [], by decide, ?_, ?_⟩
  · intro l
    cases l <;> simp [Chain, ChainFrom, links, fourPages]
  · intro l p
    have here : fourPages.Mapped p ↔ p = 1200 ∨ p = 1212 ∨ p = 1224 ∨ p = 1236 := by
      simp only [MmState.Mapped, mmPfnPpd, mmGetPpdPfn, fourPages, sizeofMmppd]
      omega
    rw [here]
    cases l <;> simp [fourPages]

theorem fourPages_partition : ∃ t, exec (mmStep true) fourPages fourPagesRun = some t ∧ WellFormed t := by
  have runs : (exec (mmStep true) fourPages fourPagesRun).isSome = true := by decide
  obtain ⟨t, code⟩ := Option.isSome_iff_exists.mp runs
  exact ⟨t, code, page_lists_partition fourPages_wellFormed (exec_run.mp code)⟩

end Gr8os.Mm
