import Gr8os.Mm.TrimRoundTrip
import Gr8os.Mm.ViewRuns
import Gr8os.Ob.Handles

/-! Faults on the pages of views: which page of the file each of them maps, in whatever order they come. -/
namespace Gr8os.Mm

open Runs Ob

/-- One entry of the cache of a file. -/
structure CcfileCachedPage where
  cached : Bool
  pageNumber : BitVec 32
  buffer : BitVec 32
deriving DecidableEq, Repr

/-- A mapping object with its views and the cache of its file. -/
structure FileMapping where
  file : MappedFile
  viewList : List MappedView
  pageCacheMap : List CcfileCachedPage

/-- The machine and the mapping objects, each under its number. -/
structure FileViews where
  machine : MmState
  mapping : Nat → FileMapping

structure ViewRequest where
  hMapping : BitVec 32
  offsetStart : BitVec 32
  offsetStartHigh : BitVec 32
  viewSize : BitVec 32
  protection : BitVec 8
  virtualAddress : BitVec 32
  viewAllocated : Bool

namespace ViewRequest

/-- The byte of the file that the request puts at the start of the view. -/
def offset (r : ViewRequest) : Nat := r.offsetStartHigh.toNat * 2 ^ 32 + r.offsetStart.toNat

end ViewRequest

def obMaxHandles : Nat := 65536

/-- Either use of a mapping handle asks for any access. -/
def mappingOf (objects : ObjectManager) (process : Nat) (handle : BitVec 32) : Option (Except Status Nat) :=
  (obpMapHandleToPointer objects process handle 0xFFFFFFFF false).map fun
    | (_, some o, _) => .ok o
    | (status, none, _) => .error status

namespace FileViews

def setViews (m : FileViews) (o : Nat) (r : MmViews) : FileViews where
  machine := r.machine
  mapping p := if p = o then { m.mapping o with viewList := r.views } else m.mapping p

def mapView (checked : Bool) (objects : ObjectManager) (process : Nat) (m : FileViews) (r : ViewRequest) :
    Option (Status × BitVec 32 × FileViews) :=
  (mappingOf objects process r.hMapping).bind fun
    | .error status => some (status, r.virtualAddress, m)
    | .ok o =>
      (mmMapViewOfFile checked ⟨m.machine, (m.mapping o).viewList⟩ (.ok (m.mapping o).file) r.hMapping r.offsetStart
        r.offsetStartHigh r.viewSize r.protection r.virtualAddress r.viewAllocated).map fun
          | (status, va, views) => (status, va, m.setViews o views)

end FileViews

def bufferOf (pages : List CcfileCachedPage) (pageNumber : BitVec 32) : Option (BitVec 32) :=
  (pages.find? fun page => page.cached && page.pageNumber = pageNumber).map CcfileCachedPage.buffer

namespace MappedView

def covers (v : MappedView) (virtualAddress : BitVec 32) : Bool :=
  v.startVa ≤ virtualAddress && virtualAddress < v.startVa + v.viewSize

/-- The offset at which the view starts in the file is not looked at. -/
def pageNumber (v : MappedView) (virtualAddress : BitVec 32) : BitVec 32 :=
  (alignDown virtualAddress - v.startVa) >>> 12

end MappedView

namespace FileViews

/-- The whole fault. A view is looked for in the mapping that the PTE names; without one the machine stops. -/
def accessFault (checked : Bool) (objects : ObjectManager) (process : Nat) (m : FileViews)
    (virtualAddress : BitVec 32) (writeFault : Bool) : Option FileViews :=
  let pte := m.machine.pte (vpn virtualAddress)
  if pte.pteType ≠ pteTypeView then
    (mmAccessFault checked m.machine virtualAddress writeFault).map fun s => { m with machine := s }
  else if writeFault && pte.valid then none
  else
    (mappingOf objects process (pte.fileDescriptorNumber.setWidth 32)).bind fun
      | .error _ => none
      | .ok o =>
        ((m.mapping o).viewList.find? fun view => view.covers virtualAddress).bind fun view =>
          (mmViewFault checked m.machine virtualAddress writeFault
            (bufferOf (m.mapping o).pageCacheMap (view.pageNumber virtualAddress)) (view.protection.setWidth 32)
            (m.mapping o).file.targetMode).map fun s => { m with machine := s }

end FileViews

inductive TouchOp
  | mmMapViewOfFile (r : ViewRequest)
  | mmAccessFault (virtualAddress : BitVec 32) (writeFault : Bool)
  /-- The cache of one file holds other pages from now on. -/
  | cache (o : Nat) (pages : List CcfileCachedPage)

def touchStep (checked : Bool) (objects : ObjectManager) (process : Nat) (m : FileViews) : TouchOp → Option FileViews
  | .mmMapViewOfFile r => (m.mapView checked objects process r).map fun r => r.2.2
  | .mmAccessFault va writeFault => m.accessFault checked objects process va writeFault
  | .cache o pages =>
    some { m with mapping := fun p => if p = o then { m.mapping o with pageCacheMap := pages } else m.mapping p }

/-- No view with pages is put at an address that the caller chose. -/
def AddressLeft (objects : ObjectManager) (process : Nat) (m : FileViews) : TouchOp → Prop
  | .mmMapViewOfFile r => ∀ o, mappingOf objects process r.hMapping = some (.ok o) →
      NotChosen m.machine (m.mapping o).file.targetMode r.virtualAddress (pageCountOf r.viewSize)
  | _ => True

/-! What is to hold. -/

/-- Page `n` of the mapped file is cached, and its buffer lies in `frame`. -/
def PageCached (checked : Bool) (m : FileViews) (o n frame : Nat) : Prop :=
  ∃ number buffer, number.toNat = n ∧ bufferOf (m.mapping o).pageCacheMap number = some buffer ∧
    (checked = true → (m.machine.pte (vpn buffer)).valid = true) ∧
      (m.machine.pte (vpn buffer)).pageFrameNumber = frame

/-- The fault returns, and its page is mapped to `frame`. -/
def MapsFrame (checked : Bool) (objects : ObjectManager) (process : Nat) (m : FileViews) (x : BitVec 32)
    (writeFault : Bool) (frame : Nat) : Prop :=
  ∃ t, m.accessFault checked objects process x writeFault = some t ∧ (t.machine.pte (vpn x)).valid = true ∧
    (t.machine.pte (vpn x)).pageFrameNumber = frame

/-! What every step keeps of a view. -/

structure ViewKept (objects : ObjectManager) (process : Nat) (s : MmState) (o : Nat) (v : MappedView) : Prop where
  handle : mappingOf objects process v.hMapping = some (.ok o)
  first : v.startPte = (vpn v.startVa).toNat
  whole : v.viewSize.toNat = 0x1000 * v.pages
  aligned : 0 < v.pages → v.startVa.toNat % 0x1000 = 0
  inTable : ∀ j < v.pages, v.startPte + j < pageTableEntries
  typed : ∀ j < v.pages, (s.pte (BitVec.ofNat 20 (v.startPte + j))).pteType = pteTypeView
  named : ∀ j < v.pages, (s.pte (BitVec.ofNat 20 (v.startPte + j))).valid = false →
    (s.pte (BitVec.ofNat 20 (v.startPte + j))).fileDescriptorNumber = v.hMapping.setWidth 16

/-- The page of the address `x` is one of the view's. -/
def Holds (v : MappedView) (x : BitVec 32) : Prop := ∃ j < v.pages, (vpn x).toNat = v.startPte + j

def Apart (u v : MappedView) : Prop := ∀ j < u.pages, ∀ k < v.pages, u.startPte + j ≠ v.startPte + k

structure ViewsKept (objects : ObjectManager) (process : Nat) (m : FileViews) : Prop where
  kept : ∀ o, ∀ v ∈ (m.mapping o).viewList, ViewKept objects process m.machine o v
  apart : ∀ o, (m.mapping o).viewList.Pairwise Apart

/-- A PTE of a view stays what it was, or becomes valid. -/
def PtesKept (s t : MmState) : Prop := ∀ i, (s.pte i).pteType = pteTypeView →
  t.pte i = s.pte i ∨ (t.pte i).pteType = pteTypeView ∧ (t.pte i).valid = true

section Kept

variable {checked : Bool} {objects : ObjectManager} {process : Nat} {s t : MmState} {o : Nat} {v : MappedView}
  {x : BitVec 32}

theorem ViewKept.carry (kept : ViewKept objects process s o v) (ptes : PtesKept s t) :
    ViewKept objects process t o v where
  handle := kept.handle
  first := kept.first
  whole := kept.whole
  aligned := kept.aligned
  inTable := kept.inTable
  typed j less := by
    rcases ptes _ (kept.typed j less) with same | ⟨typed, -⟩
    · rw [same]
      exact kept.typed j less
    · exact typed
  named j less untouched := by
    rcases ptes _ (kept.typed j less) with same | ⟨-, valid⟩
    · rw [same] at untouched ⊢
      exact kept.named j less untouched
    · rw [valid] at untouched
      exact absurd untouched (by simp)

theorem ViewKept.page_lt (kept : ViewKept objects process s o v) (pages : 0 < v.pages) :
    v.startVa.toNat / 0x1000 + v.pages ≤ 2 ^ 20 := by
  have last := kept.inTable (v.pages - 1) (by omega)
  have index := vpn_pageAt v.startVa 0
  have low := v.startVa.isLt
  rw [pageAt_zero] at index
  rw [kept.first] at last
  unfold pageTableEntries at last
  omega

/-- An address that lies in the view by its numbers is covered, unless the view ends with the address space. -/
theorem ViewKept.covers_iff (kept : ViewKept objects process s o v) : v.covers x = true ↔
    Holds v x ∧ v.startVa.toNat + v.viewSize.toNat < 2 ^ 32 := by
  have whole := kept.whole
  have first := kept.first
  have index := vpn_pageAt v.startVa 0
  have page := vpn_pageAt x 0
  have small := v.startVa.isLt
  have bound := x.isLt
  rw [pageAt_zero] at index page
  simp only [MappedView.covers, Bool.and_eq_true, decide_eq_true_eq, BitVec.le_def, BitVec.lt_def, BitVec.toNat_add]
  constructor
  · rintro ⟨above, below⟩
    rcases Nat.eq_zero_or_pos v.pages with empty | pages
    · omega
    · have aligned := kept.aligned pages
      have inTable := kept.page_lt pages
      refine ⟨⟨x.toNat / 0x1000 - v.startVa.toNat / 0x1000, ?_, ?_⟩, ?_⟩ <;> omega
  · rintro ⟨⟨j, less, here⟩, room⟩
    have aligned := kept.aligned (by omega)
    have inTable := kept.page_lt (by omega)
    constructor <;> omega

theorem PtesKept.setPte {i : BitVec 20} {p : Mmpte} (typed : (s.pte i).pteType = pteTypeView → p.pteType = pteTypeView)
    (valid : p.valid = true) : PtesKept s (s.setPte i p) := by
  intro j view
  change (if j = i then p else s.pte j) = s.pte j ∨ Mmpte.pteType (if j = i then p else s.pte j) = _ ∧
    Mmpte.valid (if j = i then p else s.pte j) = true
  split
  case isTrue same =>
    rw [same] at view
    exact .inr ⟨typed view, valid⟩
  case isFalse => exact .inl rfl

/-- What a resolved fault writes: three flags, the type and the frame of the buffer. -/
theorem getLsbD_viewPte (pte temp flags : BitVec 32) (small : flags < 8) (i : Nat) (inside : i < 32) :
    ((pte &&& 0xF98) ||| flags ||| (temp &&& 0xFFFFF000)).getLsbD i =
      if i < 3 then flags.getLsbD i else if 12 ≤ i then temp.getLsbD i else
        pte.getLsbD i && (0xF98 : BitVec 32).getLsbD i := by
  have flagsHigh : ∀ i, 3 ≤ i → flags.getLsbD i = false := by
    intro i past
    exact Bits.getLsbD_of_small (k := 3) (BitVec.lt_def.mp small) past
  have lowMask : ∀ i < 32, i < 3 ∨ 12 ≤ i → (0xF98 : BitVec 32).getLsbD i = false := by decide
  have highMask : ∀ i < 32, (0xFFFFF000 : BitVec 32).getLsbD i = decide (12 ≤ i) := by decide
  rw [BitVec.getLsbD_or, BitVec.getLsbD_or, BitVec.getLsbD_and, BitVec.getLsbD_and, highMask i inside]
  split
  case isTrue low =>
    rw [lowMask i inside (.inl low), decide_eq_false (by omega)]
    simp
  case isFalse past =>
    rw [flagsHigh i (by omega)]
    split
    case isTrue high =>
      rw [lowMask i inside (.inr high), decide_eq_true high]
      simp
    case isFalse middle =>
      rw [decide_eq_false middle]
      simp

/-- The PTE is mapped to the frame of the PTE of the buffer and stays that of a view. -/
structure ViewResolved (pte temp new : Mmpte) : Prop where
  valid : new.valid = true
  frame : new.pageFrameNumber = temp.pageFrameNumber
  typed : new.pteType = pte.pteType

theorem viewPte_resolved {pte temp flags : BitVec 32} (small : flags < 8) (valid : flags.getLsbD 0 = true) :
    ViewResolved pte temp ((pte &&& 0xF98) ||| flags ||| (temp &&& 0xFFFFF000)) := by
  have bits := getLsbD_viewPte pte temp flags small
  constructor
  · rw [Mmpte.valid, bits 0 (by decide), if_pos (by decide), valid]
  · apply Mmpte.pageFrameNumber_eq
    intro i high inside
    rw [bits i inside, if_neg (by omega), if_pos high]
  · apply Mmpte.pteType_eq
    · rw [bits 9 (by decide), if_neg (by decide), if_neg (by decide)]
      exact Bool.and_true _
    · rw [bits 10 (by decide), if_neg (by decide), if_neg (by decide)]
      exact Bool.and_true _

variable {writeFault : Bool} {cached : Option (BitVec 32)} {protection : BitVec 32} {mode : ProcessorMode}

theorem mmViewFault_inv (code : mmViewFault checked s x writeFault cached protection mode = some t) :
    cached = none ∧ t = s ∨ ∃ buffer new, cached = some buffer ∧
      (checked = true → (s.pte (vpn buffer)).valid = true) ∧
      ViewResolved (s.pte (vpn x)) (s.pte (vpn buffer)) new ∧ t = s.setPte (vpn x) new := by
  unfold mmViewFault at code
  dsimp only at code
  split at code
  · cases code
  · split at code
    · cases code
    · cases cached with
      | none =>
        cases checked with
        | true => cases code
        | false => exact .inl ⟨rfl, (Option.some.inj code).symm⟩
      | some buffer =>
        dsimp only at code
        split at code
        · cases code
        case isFalse temp =>
          refine .inr ⟨buffer, _, rfl, ?_, ?_, (Option.some.inj code).symm⟩
          · intro on
            simpa [on] using temp
          · apply viewPte_resolved
            · split <;> split <;> decide
            · split <;> split <;> decide

theorem mmViewFault_some {buffer : BitVec 32} (typed : (s.pte (vpn x)).pteType = pteTypeView)
    (untouched : (s.pte (vpn x)).valid = false) (temp : checked = true → (s.pte (vpn buffer)).valid = true) :
    ∃ t, mmViewFault checked s x writeFault (some buffer) protection mode = some t := by
  have resolved : (checked && !(s.pte (vpn buffer)).valid) = false := by
    cases checked with
    | false => rfl
    | true => rw [temp rfl]; rfl
  simp [mmViewFault, untouched, resolved, typed]

theorem mmViewFault_ptes (code : mmViewFault checked s x writeFault cached protection mode = some t) :
    PtesKept s t := by
  obtain ⟨-, rfl⟩ | ⟨buffer, new, -, -, resolved, rfl⟩ := mmViewFault_inv code
  · exact fun i _ => .inl rfl
  · exact .setPte (fun view => resolved.typed.trans view) resolved.valid

theorem mmAccessFault_ptes (other : (s.pte (vpn x)).pteType ≠ pteTypeView)
    (code : mmAccessFault checked s x writeFault = some t) : PtesKept s t := by
  unfold mmAccessFault at code
  dsimp only at code
  split at code
  · cases code
  · split at code
    · cases code
    · intro i view
      refine .inl ?_
      rw [(miChangePageLocation_pte rfl _ _).of_eq code]
      have apart : i ≠ vpn x := by
        rintro rfl
        exact other view
      exact if_neg apart

end Kept

/-! Steps. -/

section Steps

variable {checked : Bool} {objects : ObjectManager} {process : Nat} {m m' : FileViews} {o : Nat} {r : ViewRequest}
  {va x : BitVec 32} {status : Status} {writeFault : Bool}

theorem accessFault_inv (code : m.accessFault checked objects process x writeFault = some m') :
    ∃ t, m' = { m with machine := t } ∧ PtesKept m.machine t := by
  unfold FileViews.accessFault at code
  dsimp only at code
  split at code
  case isTrue other =>
    obtain ⟨t, fault, rfl⟩ := Option.map_eq_some_iff.mp code
    exact ⟨t, rfl, mmAccessFault_ptes other fault⟩
  case isFalse =>
    split at code
    · cases code
    · obtain ⟨found, -, code⟩ := Option.bind_eq_some_iff.mp code
      cases found with
      | error status => cases code
      | ok o =>
        obtain ⟨view, -, code⟩ := Option.bind_eq_some_iff.mp code
        obtain ⟨t, fault, rfl⟩ := Option.map_eq_some_iff.mp code
        exact ⟨t, rfl, mmViewFault_ptes fault⟩

/-- The view that a successful call puts into the list. -/
def newView (r : ViewRequest) (va : BitVec 32) : MappedView where
  startOffsetInFile := (LargeInteger.setLowPart ⟨0⟩ r.offsetStart).setHighPart r.offsetStartHigh
  viewSize := alignUp r.viewSize
  startPte := (vpn va).toNat
  startVa := va
  hMapping := r.hMapping
  protection := r.protection &&& mmMaximumProtection

theorem mmMapViewOfFile_views {v v' : MmViews} {file : MappedFile}
    (code : mmMapViewOfFile checked v (.ok file) r.hMapping r.offsetStart r.offsetStartHigh r.viewSize r.protection
      r.virtualAddress r.viewAllocated = some (status, va, v')) :
    status ≠ .success ∧ v'.views = v.views ∨ status = .success ∧ v'.views = v.views ++ [newView r va] := by
  simp only [mmMapViewOfFile, Option.bind_eq_bind] at code
  split at code
  · cases Option.some.inj code
    exact .inl ⟨by simp, rfl⟩
  · split at code
    · cases Option.some.inj code
      exact .inl ⟨by simp, rfl⟩
    · obtain ⟨⟨found, s⟩, search, rest⟩ := Option.bind_eq_some_iff.mp code
      cases found with
      | error status =>
        obtain ⟨failed, -⟩ := refused_inv search
        cases Option.some.inj rest
        exact .inl ⟨failed, rfl⟩
      | ok address =>
        cases allocated : r.viewAllocated with
        | false =>
          rw [allocated] at rest
          cases Option.some.inj rest
          exact .inl ⟨by simp, rfl⟩
        | true =>
          rw [allocated] at rest
          obtain ⟨t, -, last⟩ := Option.bind_eq_some_iff.mp rest
          cases Option.some.inj last
          exact .inr ⟨rfl, rfl⟩

theorem used_of_view {p : Mmpte} (view : p.pteType = pteTypeView) : mmPteIsFree p = false := by
  apply not_free_of_type
  rw [view]
  decide

theorem Found.ptes {s t : MmState} {mode : ProcessorMode} {n : Nat} {startAddress : BitVec 32}
    (found : Found s mode n startAddress va t) : PtesKept s t :=
  fun _ view => .inl (found.used (used_of_view view))

theorem FirstRun.apart {s : MmState} {n left k : Nat} {start finish : BitVec 32} {i : BitVec 20}
    (first : FirstRun s n start finish left va) (view : (s.pte i).pteType = pteTypeView) (less : k < n) :
    i ≠ vpn (pageAt va k) := by
  rintro rfl
  obtain ⟨-, -, -, -, free, -⟩ := first
  have page := viewIsFree_page free less
  rw [used_of_view view] at page
  cases page

theorem Viewed.ptes {v v' : MmViews} {file : MappedFile} {s : MmState} {view : MappedView}
    (h : Viewed v v' file r.hMapping r.viewSize r.protection r.virtualAddress va s view)
    (allowed : NotChosen v.machine file.targetMode r.virtualAddress (pageCountOf r.viewSize)) :
    PtesKept v.machine v'.machine := by
  intro i typed
  have apart : ∀ k < pageCountOf r.viewSize, i ≠ vpn (pageAt va k) := by
    intro k less
    rcases h.found.pages_of_notChosen allowed with empty | ⟨first, -⟩
    · omega
    · exact first.apart typed less
  exact .inl ((h.initialized.pte_outside apart).trans (h.found.used (used_of_view typed)))

theorem FirstRun.aligned {s : MmState} {mode : ProcessorMode} {n left : Nat}
    (first : FirstRun s n (miStartAddress mode) (miEndAddress mode) left va) : va.toNat % 0x1000 = 0 := by
  obtain ⟨k, -, rfl, -⟩ := first
  have start : (miStartAddress mode).toNat % 0x1000 = 0 := by
    cases mode <;> decide
  rw [toNat_pageAt]
  omega

theorem Viewed.kept {v v' : MmViews} {file : MappedFile} {s : MmState}
    (h : Viewed v v' file r.hMapping r.viewSize r.protection r.virtualAddress va s (newView r va))
    (allowed : NotChosen v.machine file.targetMode r.virtualAddress (pageCountOf r.viewSize))
    (named : mappingOf objects process r.hMapping = some (.ok o)) :
    ViewKept objects process v'.machine o (newView r va) := by
  have pages := h.pages
  have searched := h.found.pages_of_notChosen allowed
  have written : ∀ j < (newView r va).pages,
      v'.machine.pte (BitVec.ofNat 20 ((newView r va).startPte + j)) =
        viewPte r.hMapping r.protection reservedViewPte := by
    intro j less
    rw [pages] at less
    rcases searched with empty | ⟨-, reserved⟩
    · omega
    · exact (h.initialized.here j less).trans (congrArg _ (reserved.here j less))
  constructor
  case handle => exact named
  case first => rfl
  case whole =>
    have aligned := alignUp_aligned r.viewSize
    change (alignUp r.viewSize).toNat = 0x1000 * (alignUp r.viewSize >>> 12).toNat
    rw [BitVec.toNat_ushiftRight, Nat.shiftRight_eq_div_pow]
    omega
  case aligned =>
    intro some
    rcases searched with empty | ⟨first, -⟩
    · omega
    · exact first.aligned
  case inTable =>
    intro j less
    rw [pages] at less
    exact h.initialized.inTable j less
  case typed =>
    intro j less
    rw [written j less, viewPte_type, reservedViewPte_type]
  case named =>
    intro j less _
    rw [written j less]
    exact viewPte_handle ..

theorem Viewed.apart {v v' : MmViews} {file : MappedFile} {s : MmState} {u : MappedView}
    (h : Viewed v v' file r.hMapping r.viewSize r.protection r.virtualAddress va s (newView r va))
    (allowed : NotChosen v.machine file.targetMode r.virtualAddress (pageCountOf r.viewSize))
    (kept : ViewKept objects process v.machine o u) : Apart u (newView r va) := by
  intro j inside k less same
  rw [h.pages] at less
  rcases h.found.pages_of_notChosen allowed with empty | ⟨first, -⟩
  · omega
  · apply first.apart (kept.typed j inside) less
    rw [vpn_pageAt_ofNat, same]
    rfl

/-- Steps only add views. -/
def ViewsGrow (m m' : FileViews) : Prop := ∀ o, ∀ v ∈ (m.mapping o).viewList, v ∈ (m'.mapping o).viewList

theorem ViewsKept.same (ok : ViewsKept objects process m) (ptes : PtesKept m.machine m'.machine)
    (lists : ∀ o, (m'.mapping o).viewList = (m.mapping o).viewList) : ViewsKept objects process m' where
  kept o v member := by
    rw [lists] at member
    exact (ok.kept o v member).carry ptes
  apart o := by
    rw [lists]
    exact ok.apart o

theorem setViews_list (m : FileViews) (o : Nat) (r : MmViews) (p : Nat) :
    ((m.setViews o r).mapping p).viewList = if p = o then r.views else (m.mapping p).viewList := by
  change (if p = o then { m.mapping o with viewList := r.views } else m.mapping p).viewList = _
  split <;> rfl

theorem ViewsKept.add {t : MmState} {v : MappedView} (ok : ViewsKept objects process m)
    (ptes : PtesKept m.machine t) (new : ViewKept objects process t o v)
    (apart : ∀ u ∈ (m.mapping o).viewList, Apart u v) :
    ViewsKept objects process (m.setViews o ⟨t, (m.mapping o).viewList ++ [v]⟩) where
  kept p u member := by
    rw [setViews_list] at member
    split at member
    case isTrue same =>
      rw [same]
      rcases List.mem_append.mp member with old | last
      · exact (ok.kept o u old).carry ptes
      · rw [List.mem_singleton.mp last]
        exact new
    case isFalse => exact (ok.kept p u member).carry ptes
  apart p := by
    rw [setViews_list]
    split
    case isTrue =>
      apply List.pairwise_append.mpr
      refine ⟨ok.apart o, List.pairwise_singleton .., ?_⟩
      intro u old w last
      rw [List.mem_singleton.mp last]
      exact apart u old
    case isFalse => exact ok.apart p

theorem setViews_grow {u : MmViews} (more : ∀ v ∈ (m.mapping o).viewList, v ∈ u.views) :
    ViewsGrow m (m.setViews o u) := by
  intro p v member
  rw [setViews_list]
  split
  case isTrue same =>
    rw [same] at member
    exact more v member
  case isFalse => exact member

/-- A call that succeeds has put its view into the list of its mapping. -/
theorem mapView_kept (ok : ViewsKept objects process m) (allowed : AddressLeft objects process m (.mmMapViewOfFile r))
    (code : m.mapView checked objects process r = some (status, va, m')) :
    ViewsKept objects process m' ∧ ViewsGrow m m' ∧
      (status = .success → mappingOf objects process r.hMapping = some (.ok o) →
        newView r va ∈ (m'.mapping o).viewList) := by
  obtain ⟨found, named, code⟩ := Option.bind_eq_some_iff.mp code
  cases found with
  | error failure =>
    cases Option.some.inj code
    refine ⟨ok, fun _ _ member => member, ?_⟩
    intro _ here
    cases Option.some.inj (named.symm.trans here)
  | ok p =>
    obtain ⟨⟨status, va, u⟩, call, same⟩ := Option.map_eq_some_iff.mp code
    cases same
    obtain ⟨failed, lists⟩ | ⟨done, lists⟩ := mmMapViewOfFile_views call
    · have ptes : PtesKept m.machine u.machine := by
        obtain ⟨-, rfl | ⟨address, s, found, rfl⟩⟩ | ⟨s, view, viewed⟩ := mmMapViewOfFile_inv call
        · exact fun _ _ => .inl rfl
        · exact found.ptes
        · have length := congrArg List.length (lists.symm.trans viewed.views)
          simp at length
      refine ⟨ok.same ptes ?_, setViews_grow ?_, fun success => absurd success failed⟩
      · intro q
        rw [setViews_list]
        split
        case isTrue same => rw [lists, same]
        case isFalse => rfl
      · intro v member
        rw [lists]
        exact member
    · obtain ⟨failed, -⟩ | ⟨s, view, viewed⟩ := mmMapViewOfFile_inv call
      · exact absurd done failed
      · have last := List.append_cancel_left (viewed.views.symm.trans lists)
        cases List.singleton_inj.mp last
        have left := allowed p named
        obtain ⟨t, views⟩ := u
        cases lists
        refine ⟨ok.add (viewed.ptes left) (viewed.kept left named) ?_, setViews_grow ?_, ?_⟩
        · exact fun v member => viewed.apart left (ok.kept p v member)
        · exact fun v member => List.mem_append_left _ member
        · intro _ here
          cases Option.some.inj (named.symm.trans here)
          rw [setViews_list, if_pos rfl]
          exact List.mem_append_right _ (List.mem_singleton.mpr rfl)

theorem touchStep_kept {op : TouchOp} (ok : ViewsKept objects process m) (allowed : AddressLeft objects process m op)
    (step : touchStep checked objects process m op = some m') : ViewsKept objects process m' ∧ ViewsGrow m m' := by
  cases op with
  | mmMapViewOfFile r =>
    obtain ⟨⟨status, va, u⟩, call, rfl⟩ := Option.map_eq_some_iff.mp step
    obtain ⟨kept, grow, -⟩ := @mapView_kept _ _ _ _ _ 0 _ _ _ ok allowed call
    exact ⟨kept, grow⟩
  | mmAccessFault va writeFault =>
    obtain ⟨t, rfl, ptes⟩ := accessFault_inv step
    exact ⟨ok.same ptes fun _ => rfl, fun _ _ member => member⟩
  | cache o pages =>
    cases Option.some.inj step
    have lists : ∀ p, (if p = o then { m.mapping o with pageCacheMap := pages } else m.mapping p).viewList =
        (m.mapping p).viewList := by
      intro p
      split
      case isTrue same => rw [same]
      case isFalse => rfl
    refine ⟨ok.same (fun _ _ => .inl rfl) lists, ?_⟩
    intro p v member
    exact (lists p).symm ▸ member

instance : Std.Symm Apart where
  symm _ _ apart j inside k less same := apart k less j inside same.symm

theorem ViewsKept.unique {u v : MappedView} (ok : ViewsKept objects process m) (first : u ∈ (m.mapping o).viewList)
    (second : v ∈ (m.mapping o).viewList) (here : Holds u x) (there : Holds v x) : u = v := by
  apply Decidable.byContradiction
  intro distinct
  have apart := (ok.apart o).forall first second distinct
  obtain ⟨j, inside, left⟩ := here
  obtain ⟨k, less, right⟩ := there
  exact apart j inside k less (left.symm.trans right)

/-- The search through the views comes to the one that holds the page, unless that ends with the address space. -/
theorem ViewsKept.find {v : MappedView} (ok : ViewsKept objects process m) (member : v ∈ (m.mapping o).viewList)
    (here : Holds v x) (u : MappedView) : ((m.mapping o).viewList.find? fun view => view.covers x) = some u ↔
      u = v ∧ v.startVa.toNat + v.viewSize.toNat < 2 ^ 32 := by
  have covers := (ok.kept o v member).covers_iff (x := x)
  constructor
  · intro found
    have found_covers : u.covers x = true := List.find?_some (p := fun view : MappedView => view.covers x) found
    have found_member := List.mem_of_find?_eq_some found
    obtain ⟨there, room⟩ := (ok.kept o u found_member).covers_iff.mp found_covers
    cases ok.unique found_member member there here
    exact ⟨rfl, room⟩
  · rintro ⟨rfl, room⟩
    cases found : (m.mapping o).viewList.find? fun view => view.covers x with
    | none => exact absurd (covers.mpr ⟨here, room⟩) (List.find?_eq_none.mp found u member)
    | some w =>
      have found_covers : w.covers x = true := List.find?_some (p := fun view : MappedView => view.covers x) found
      have found_member := List.mem_of_find?_eq_some found
      obtain ⟨there, -⟩ := (ok.kept o w found_member).covers_iff.mp found_covers
      rw [ok.unique found_member member there here]

theorem ViewKept.pageNumber {s : MmState} {v : MappedView} (kept : ViewKept objects process s o v) (here : Holds v x) :
    (v.pageNumber x).toNat = (x.toNat - v.startVa.toNat) / 0x1000 := by
  obtain ⟨j, less, index⟩ := here
  have aligned := kept.aligned (by omega)
  have first := kept.first
  have inTable := kept.page_lt (by omega)
  have start := vpn_pageAt v.startVa 0
  have page := vpn_pageAt x 0
  have low := v.startVa.isLt
  have bound := x.isLt
  rw [pageAt_zero] at start page
  rw [MappedView.pageNumber, BitVec.toNat_ushiftRight, BitVec.toNat_sub, toNat_alignDown, Nat.shiftRight_eq_div_pow]
  omega

/-- The fault on a page of a view that is not there yet, by what the PTE and the mapping lead it to. -/
theorem accessFault_view {v : MappedView} (kept : ViewKept objects process m.machine o v) (here : Holds v x)
    (small : v.hMapping.toNat < 2 ^ 16) (untouched : (m.machine.pte (vpn x)).valid = false) :
    (m.machine.pte (vpn x)).pteType = pteTypeView ∧ m.accessFault checked objects process x writeFault =
      ((m.mapping o).viewList.find? fun view => view.covers x).bind fun view =>
        (mmViewFault checked m.machine x writeFault (bufferOf (m.mapping o).pageCacheMap (view.pageNumber x))
          (view.protection.setWidth 32) (m.mapping o).file.targetMode).map fun s => { m with machine := s } := by
  obtain ⟨j, less, index⟩ := here
  have pte : BitVec.ofNat 20 (v.startPte + j) = vpn x := by
    rw [← index, BitVec.ofNat_toNat, BitVec.setWidth_eq]
  have typed := kept.typed j less
  have named := kept.named j less
  rw [pte] at typed named
  have handle : (m.machine.pte (vpn x)).fileDescriptorNumber.setWidth 32 = v.hMapping := by
    rw [named untouched]
    apply BitVec.eq_of_toNat_eq
    rw [BitVec.toNat_setWidth, BitVec.toNat_setWidth]
    omega
  refine ⟨typed, ?_⟩
  rw [FileViews.accessFault, handle, kept.handle, untouched, typed, Bool.and_false]
  rfl

/-- Which frame a page of a view is mapped to: that of the page whose number is the one in the view. -/
theorem mapsFrame_iff {v : MappedView} {frame : Nat} (ok : ViewsKept objects process m)
    (member : v ∈ (m.mapping o).viewList) (here : Holds v x) (small : v.hMapping.toNat < 2 ^ 16)
    (untouched : (m.machine.pte (vpn x)).valid = false) :
    MapsFrame checked objects process m x writeFault frame ↔ v.startVa.toNat + v.viewSize.toNat < 2 ^ 32 ∧
      PageCached checked m o ((x.toNat - v.startVa.toNat) / 0x1000) frame := by
  have kept := ok.kept o v member
  obtain ⟨typed, fault⟩ := @accessFault_view checked _ _ _ _ _ writeFault _ kept here small untouched
  have pageNumber := kept.pageNumber here
  rw [MapsFrame, fault]
  constructor
  · rintro ⟨t, code, valid, mapped⟩
    obtain ⟨u, found, code⟩ := Option.bind_eq_some_iff.mp code
    obtain ⟨rfl, room⟩ := (ok.find member here u).mp found
    obtain ⟨s, resolved, rfl⟩ := Option.map_eq_some_iff.mp code
    obtain ⟨-, rfl⟩ | ⟨buffer, new, cached, temp, written, rfl⟩ := mmViewFault_inv resolved
    · exact absurd (untouched.symm.trans valid) (by simp)
    · have pte : (m.machine.setPte (vpn x) new).pte (vpn x) = new := if_pos rfl
      refine ⟨room, u.pageNumber x, buffer, pageNumber, cached, temp, ?_⟩
      rw [← written.frame, ← mapped]
      exact congrArg Mmpte.pageFrameNumber pte.symm
  · rintro ⟨room, number, buffer, same, cached, temp, frame⟩
    cases BitVec.eq_of_toNat_eq (same.trans pageNumber.symm)
    obtain ⟨t, resolved⟩ := @mmViewFault_some checked m.machine x writeFault (v.protection.setWidth 32)
      (m.mapping o).file.targetMode buffer typed untouched temp
    rw [(ok.find member here v).mpr ⟨rfl, room⟩, Option.bind_some, cached, resolved]
    obtain ⟨absent, -⟩ | ⟨buffer', new, there, -, written, rfl⟩ := mmViewFault_inv resolved
    · cases absent
    · cases Option.some.inj there
      have pte : (m.machine.setPte (vpn x) new).pte (vpn x) = new := if_pos rfl
      refine ⟨_, rfl, ?_, ?_⟩
      · exact (congrArg Mmpte.valid pte).trans written.valid
      · exact (congrArg Mmpte.pageFrameNumber pte).trans (written.frame.trans frame)

/-- Not even the last entry of a full table has a handle of more bits than a PTE keeps. -/
theorem mappingOf_small {handle : BitVec 32} (table : (objects.table process).length ≤ obMaxHandles)
    (named : mappingOf objects process handle = some (.ok o)) : handle.toNat < 2 ^ 16 := by
  obtain ⟨result, code, last⟩ := Option.map_eq_some_iff.mp named
  unfold obpMapHandleToPointer at code
  split at code
  · cases Option.some.inj code
    cases last
  case isFalse inRange =>
    split at code
    · cases code
    · obtain ⟨entry, there, -⟩ := Option.map_eq_some_iff.mp code
      have inTable : (handle - 1).toNat < (objects.table process).length :=
        (List.getElem?_eq_some_iff.mp there).1
      have mask : (handle &&& 0xFFFFFFF).toNat = handle.toNat % 2 ^ 28 :=
        (BitVec.toNat_and ..).trans (Nat.and_two_pow_sub_one_eq_mod handle.toNat 28)
      rw [BitVec.not_lt, BitVec.le_def, mask] at inRange
      rw [BitVec.toNat_sub] at inTable
      have limit : (0xFFFF : BitVec 32).toNat = 0xFFFF := rfl
      have one : (1 : BitVec 32).toNat = 1 := rfl
      have bound := handle.isLt
      unfold obMaxHandles at table
      omega

/-- The steps of runs in which no view is put at a chosen address. -/
abbrev TouchStep (checked : Bool) (objects : ObjectManager) (process : Nat) : FileViews → TouchOp → FileViews → Prop :=
  Guarded (AddressLeft objects process) fun m op m' => touchStep checked objects process m op = some m'

theorem touchRun_kept {ops : List TouchOp} (ok : ViewsKept objects process m)
    (run : Run (TouchStep checked objects process) m ops m') : ViewsKept objects process m' ∧ ViewsGrow m m' := by
  induction run with
  | done => exact ⟨ok, fun _ _ member => member⟩
  | next first _ ih =>
    obtain ⟨kept, grow⟩ := touchStep_kept ok first.1 first.2
    obtain ⟨later, more⟩ := ih kept
    exact ⟨later, fun p v member => more p v (grow p v member)⟩

theorem view_maps_file_page_iff {m₀ m₁ : FileViews} {before after : List TouchOp} {frame : Nat}
    (table : (objects.table process).length ≤ obMaxHandles) (fresh : ∀ o, (m₀.mapping o).viewList = [])
    (earlier : Run (TouchStep checked objects process) m₀ before m)
    (left : AddressLeft objects process m (.mmMapViewOfFile r))
    (named : mappingOf objects process r.hMapping = some (.ok o))
    (mapped : m.mapView checked objects process r = some (.success, va, m₁))
    (later : Run (TouchStep checked objects process) m₁ after m')
    (above : va.toNat ≤ x.toNat) (below : x.toNat < va.toNat + (alignUp r.viewSize).toNat)
    (untouched : (m'.machine.pte (vpn x)).valid = false)
    (page : PageCached checked m' o ((r.offset + (x.toNat - va.toNat)) / 0x1000) frame) :
    MapsFrame checked objects process m' x writeFault frame ↔ va.toNat + (alignUp r.viewSize).toNat < 2 ^ 32 ∧
      (r.offset = 0 ∨ PageCached checked m' o ((x.toNat - va.toNat) / 0x1000) frame) := by
  have initial : ViewsKept objects process m₀ := by
    constructor
    · intro o v member
      rw [fresh] at member
      cases member
    · intro o
      rw [fresh]
      exact .nil
  obtain ⟨ok, -⟩ := touchRun_kept initial earlier
  obtain ⟨ok, -, new⟩ := mapView_kept ok left mapped
  obtain ⟨ok, grow⟩ := touchRun_kept ok later
  have member := grow o _ (new rfl named)
  have kept := ok.kept o _ member
  have here : Holds (newView r va) x := by
    have whole := kept.whole
    change (alignUp r.viewSize).toNat = _ at whole
    have start := vpn_pageAt va 0
    have index := vpn_pageAt x 0
    have low := va.isLt
    have bound := x.isLt
    have aligned := kept.aligned (by omega)
    change va.toNat % 0x1000 = 0 at aligned
    rw [pageAt_zero] at start index
    refine ⟨x.toNat / 0x1000 - va.toNat / 0x1000, by omega, ?_⟩
    change _ = (vpn va).toNat + _
    omega
  rw [mapsFrame_iff ok member here (mappingOf_small table named) untouched]
  constructor
  · rintro ⟨room, cached⟩
    exact ⟨room, .inr cached⟩
  · rintro ⟨room, start | cached⟩
    · rw [start, Nat.zero_add] at page
      exact ⟨room, page⟩
    · exact ⟨room, cached⟩

end Steps

/-- A machine with two buffers, which lie in frames 5 and 6. -/
def twoBuffers : MmState :=
  { unmapped with pte := fun i => if i = 0xD4000 then 0x5003 else if i = 0xD4001 then 0x6003 else 0 }

/-- One mapping, whose file has its first two pages cached. -/
def twoPages : FileViews where
  machine := twoBuffers
  mapping _ := { file := userFile, viewList := [], pageCacheMap := [⟨true, 0, 0xD4000000⟩, ⟨true, 1, 0xD4001000⟩] }

def oneMapping : ObjectManager := { freshTables 1 with handleTables := [[some ⟨0, 0xFFFFFFFF⟩]] }

def viewAt (offsetStart viewSize : BitVec 32) : ViewRequest where
  hMapping := 1
  offsetStart := offsetStart
  offsetStartHigh := 0
  viewSize := viewSize
  protection := 1
  virtualAddress := 0
  viewAllocated := true

/-- The second page is touched first. -/
theorem two_pages_mapped : ∃ m m', twoPages.mapView true oneMapping 0 (viewAt 0 0x2000) = some (.success, 0x10000, m) ∧
    Run (TouchStep true oneMapping 0) m [.mmAccessFault 0x11000 false] m' ∧
    MapsFrame true oneMapping 0 m' 0x10000 false 5 := by
  have finishes : (twoPages.mapView true oneMapping 0 (viewAt 0 0x2000)).bind (fun r =>
      (touchStep true oneMapping 0 r.2.2 (.mmAccessFault 0x11000 false)).map fun m' =>
        (r.1, r.2.1, (m'.machine.pte (vpn 0x10000)).valid, bufferOf (m'.mapping 0).pageCacheMap 0,
          m'.machine.pte (vpn 0xD4000000))) =
      some (.success, 0x10000, false, some 0xD4000000, 0x5003) := by decide
  obtain ⟨⟨status, va, m⟩, mapped, ends⟩ := Option.bind_eq_some_iff.mp finishes
  obtain ⟨m', touched, ends⟩ := Option.map_eq_some_iff.mp ends
  simp only [Prod.mk.injEq] at ends
  obtain ⟨rfl, rfl, untouched, cached, buffer⟩ := ends
  have later : Run (TouchStep true oneMapping 0) m [.mmAccessFault 0x11000 false] m' := .next ⟨trivial, touched⟩ (.done _)
  have page : PageCached true m' 0 0 5 := by
    refine ⟨0, 0xD4000000, rfl, cached, ?_, ?_⟩
    · intro _
      rw [buffer]
      decide
    · rw [buffer]
      decide
  refine ⟨m, m', mapped, later, ?_⟩
  exact (view_maps_file_page_iff (by decide) (fun _ => rfl) (.done _) (fun _ _ => .inl rfl) (by decide) mapped later
    (by decide) (by decide) untouched page).mpr ⟨by decide, .inl rfl⟩

/-- A view of the second page is given the first one. -/
theorem second_page_not_mapped : ∃ m, twoPages.mapView true oneMapping 0 (viewAt 0x1000 0x1000) =
      some (.success, 0x10000, m) ∧ (m.machine.pte (vpn 0x10000)).valid = false ∧
    PageCached true m 0 (((viewAt 0x1000 0x1000).offset + 0) / 0x1000) 6 ∧
    ¬ MapsFrame true oneMapping 0 m 0x10000 false 6 := by
  have finishes : (twoPages.mapView true oneMapping 0 (viewAt 0x1000 0x1000)).map (fun r =>
      (r.1, r.2.1, (r.2.2.machine.pte (vpn 0x10000)).valid, r.2.2.machine.pte (vpn 0xD4001000),
        decide (bufferOf (r.2.2.mapping 0).pageCacheMap 1 = some 0xD4001000 ∧
          (r.2.2.accessFault true oneMapping 0 0x10000 false).map (fun t =>
            (t.machine.pte (vpn 0x10000)).pageFrameNumber) = some 5))) =
      some (.success, 0x10000, false, 0x6003, true) := by decide
  obtain ⟨⟨status, va, m⟩, mapped, ends⟩ := Option.map_eq_some_iff.mp finishes
  simp only [Prod.mk.injEq, decide_eq_true_eq] at ends
  obtain ⟨rfl, rfl, untouched, buffer, cached, fault⟩ := ends
  refine ⟨m, mapped, untouched, ⟨1, 0xD4001000, rfl, cached, ?_, ?_⟩, ?_⟩
  · intro _
    rw [buffer]
    decide
  · rw [buffer]
    decide
  · rintro ⟨t, code, -, frame⟩
    rw [code, Option.map_some, frame] at fault
    cases fault

end Gr8os.Mm
