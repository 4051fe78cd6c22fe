import Gr8os.Mm.Memory
import Gr8os.Mm.Views

/-! What mapping a view does to the PTEs, and when that is a view. -/
namespace Gr8os.Mm

/-! Runs of PTEs. -/

/-- `n` PTEs from `i` on are changed by `f`. -/
structure Changed (f : Mmpte → Mmpte) (i n : Nat) (s t : MmState) : Prop where
  inTable : ∀ k < n, i + k < pageTableEntries
  here : ∀ k < n, t.pte (BitVec.ofNat 20 (i + k)) = f (s.pte (BitVec.ofNat 20 (i + k)))
  outside : ∀ k < pageTableEntries, k < i ∨ i + n ≤ k → t.pte (BitVec.ofNat 20 k) = s.pte (BitVec.ofNat 20 k)

theorem changePtes_inv {f : Mmpte → Mmpte} {i n : Nat} {s t : MmState} (h : changePtes f i n s = some t) :
    Changed f i n s t := by
  induction n generalizing i s with
  | zero =>
    cases Option.some.inj h
    exact ⟨by simp, by simp, fun _ _ _ => rfl⟩
  | succ n ih =>
    simp only [changePtes, Option.bind_eq_bind, Option.bind_eq_some_iff] at h
    obtain ⟨s₁, first, rest⟩ := h
    obtain ⟨inside, rfl⟩ := writePte_inv first
    have later := ih rest
    have written : (s.setPte (BitVec.ofNat 20 i) (f (s.pte (BitVec.ofNat 20 i)))).pte (BitVec.ofNat 20 i) =
        f (s.pte (BitVec.ofNat 20 i)) := if_pos rfl
    have other {k : Nat} (bound : k < pageTableEntries) (ne : k ≠ i) :
        (s.setPte (BitVec.ofNat 20 i) (f (s.pte (BitVec.ofNat 20 i)))).pte (BitVec.ofNat 20 k) =
          s.pte (BitVec.ofNat 20 k) := if_neg (ofNat_ne inside bound ne)
    constructor
    · intro k less
      cases k with
      | zero => exact inside
      | succ k =>
        have := later.inTable k (by omega)
        omega
    · intro k less
      cases k with
      | zero =>
        rw [Nat.add_zero, later.outside i inside (by omega), written]
      | succ k =>
        have bound := later.inTable k (by omega)
        have here := later.here k (by omega)
        rwa [other bound (by omega), Nat.add_assoc, Nat.add_comm 1 k] at here
    · intro k bound apart
      rw [later.outside k bound (by omega), other bound (by omega)]

/-- The first run of free pages that a search comes to, before the end of its area. -/
def FirstRun (s : MmState) (viewPages : Nat) (start finish : BitVec 32) (left : Nat) (va : BitVec 32) : Prop :=
  ∃ k < left, va = pageAt start k ∧ va < finish ∧ viewIsFree s va viewPages = true ∧
    ∀ j < k, pageAt start j < finish ∧ viewIsFree s (pageAt start j) viewPages = false

theorem findView_iff (s : MmState) (viewPages : Nat) (start finish : BitVec 32) (left : Nat) (va : BitVec 32) :
    findView s viewPages finish left start = some va ↔ FirstRun s viewPages start finish left va := by
  induction left generalizing start with
  | zero => simp [findView, FirstRun]
  | succ left ih =>
    rw [findView]
    constructor
    · intro found
      split at found
      case isTrue inArea =>
        cases free : viewIsFree s start viewPages with
        | true =>
          rw [if_pos free] at found
          cases Option.some.inj found
          exact ⟨0, by omega, (pageAt_zero _).symm, inArea, free, fun j less => absurd less (Nat.not_lt_zero j)⟩
        | false =>
          rw [if_neg (by simp [free])] at found
          obtain ⟨k, less, rfl, inside, run, before⟩ := (ih _).mp found
          refine ⟨k + 1, by omega, (pageAt_succ start k).symm, inside, run, ?_⟩
          intro j low
          cases j with
          | zero =>
            rw [pageAt_zero]
            exact ⟨inArea, free⟩
          | succ j =>
            rw [pageAt_succ]
            exact before j (by omega)
      case isFalse => exact absurd found (by simp)
    · rintro ⟨k, less, rfl, inside, run, before⟩
      cases k with
      | zero =>
        rw [pageAt_zero] at inside run ⊢
        rw [if_pos inside, if_pos run]
      | succ k =>
        have first := before 0 (by omega)
        rw [pageAt_zero] at first
        rw [if_pos first.1, if_neg (by simp [first.2]), ih]
        refine ⟨k, by omega, pageAt_succ start k, inside, run, ?_⟩
        intro j low
        rw [← pageAt_succ]
        exact before (j + 1) (by omega)

theorem mmIsAddressValidEx_free {s : MmState} {va : BitVec 32} :
    mmIsAddressValidEx s va = .free ↔ mmPteIsFree (s.pte (vpn va)) = true := by
  rw [mmIsAddressValidEx, miIsAddressValidEx, mmPteIsFree]
  cases (s.pte (vpn va)).valid with
  | true =>
    rw [if_pos rfl]
    split <;> simp
  | false =>
    rcases Decidable.em ((s.pte (vpn va)).pteType = pteTypeNormalOrNotmapped) with free | used
    · simp [free]
    · rw [if_neg (by simp), if_neg used]
      split
      · simp [used]
      · split <;> simp [used]

theorem viewIsFree_page {s : MmState} {va : BitVec 32} {n : Nat} (free : viewIsFree s va n = true) {k : Nat}
    (less : k < n) : mmPteIsFree (s.pte (vpn (pageAt va k))) = true := by
  simp only [viewIsFree, Bool.and_eq_true, decide_eq_true_eq, List.all_eq_true] at free
  obtain ⟨first, rest⟩ := free
  rw [← mmIsAddressValidEx_free]
  cases k with
  | zero =>
    rw [pageAt_zero]
    exact first
  | succ k => exact rest (k + 1) (List.mem_range'_1.mpr ⟨by omega, by omega⟩)

theorem not_free_of_valid {p : Mmpte} (valid : p.valid = true) : mmPteIsFree p = false := by
  simp [mmPteIsFree, valid]

theorem not_free_of_type {p : Mmpte} (used : p.pteType ≠ pteTypeNormalOrNotmapped) : mmPteIsFree p = false := by
  simp [mmPteIsFree, used]

/-! The call. -/

def viewPte (hMapping : BitVec 32) (protection : BitVec 8) (p : Mmpte) : Mmpte :=
  (p.setFileDescriptorNumber (hMapping.setWidth 16)).setProtection
    ((protection &&& mmMaximumProtection).setWidth 32)

/-- The two ways to an address, and what each does to the machine. -/
inductive Found (s : MmState) (mode : ProcessorMode) (viewPages : Nat) :
    BitVec 32 → BitVec 32 → MmState → Prop
  | chosen {va : BitVec 32} : va ≠ 0 → miStartAddress mode ≤ va → va < miEndAddress mode →
      rangeIsFree s (pageAt va viewPages) viewPages va = true → Found s mode viewPages va va s
  | searched {va : BitVec 32} {t : MmState} :
      FirstRun s viewPages (miStartAddress mode) (miEndAddress mode) pageTableEntries va →
      Changed (fun _ => reservedViewPte) (vpn va).toNat viewPages s t → Found s mode viewPages 0 va t

theorem found_inv {checked : Bool} {s t : MmState} {startAddress va : BitVec 32} {mode : ProcessorMode}
    {viewPages : Nat}
    (h : miFindAndReserveVirtualAddressesForFileView checked s startAddress mode viewPages = some (.ok va, t)) :
    Found s mode viewPages startAddress va t := by
  unfold miFindAndReserveVirtualAddressesForFileView at h
  split at h
  · exact absurd h (by simp)
  · split at h
    case isTrue given =>
      split at h
      · exact absurd h (by simp)
      case isFalse inArea =>
        split at h
        case isTrue free =>
          cases Option.some.inj h
          simp only [not_or, BitVec.not_lt, BitVec.not_le] at inArea
          exact .chosen given inArea.1 inArea.2 free
        · exact absurd h (by simp)
    case isFalse absent =>
      cases Decidable.not_not.mp absent
      split at h
      · exact absurd h (by simp)
      case h_2 found =>
        obtain ⟨u, reserved, same⟩ := Option.map_eq_some_iff.mp h
        cases same
        exact .searched ((findView_iff ..).mp found) (changePtes_inv reserved)

theorem refused_inv {checked : Bool} {s t : MmState} {startAddress : BitVec 32} {mode : ProcessorMode}
    {viewPages : Nat} {status : Status}
    (h : miFindAndReserveVirtualAddressesForFileView checked s startAddress mode viewPages =
      some (.error status, t)) : status ≠ .success ∧ t = s := by
  unfold miFindAndReserveVirtualAddressesForFileView at h
  split at h
  · exact absurd h (by simp)
  · split at h
    · split at h
      · cases Option.some.inj h
        exact ⟨by simp, rfl⟩
      · split at h
        · exact absurd h (by simp)
        · cases Option.some.inj h
          exact ⟨by simp, rfl⟩
    · split at h
      · cases Option.some.inj h
        exact ⟨by simp, rfl⟩
      · exact absurd h (by simp)

/-- What a successful call has done. -/
structure Viewed (m m' : MmViews) (file : MappedFile) (hMapping viewSize : BitVec 32) (protection : BitVec 8)
    (startAddress va : BitVec 32) (s : MmState) (view : MappedView) : Prop where
  granted : protection ≤ file.strongestProtection
  found : Found m.machine file.targetMode (pageCountOf viewSize) startAddress va s
  initialized : Changed (viewPte hMapping protection) (vpn va).toNat (pageCountOf viewSize) s m'.machine
  views : m'.views = m.views ++ [view]
  first : view.startPte = (vpn va).toNat
  pages : view.pages = pageCountOf viewSize

theorem mmMapViewOfFile_inv {checked : Bool} {m m' : MmViews} {file : MappedFile} {status : Status}
    {hMapping offset offsetHigh viewSize startAddress va : BitVec 32} {protection : BitVec 8} {allocated : Bool}
    (h : mmMapViewOfFile checked m (.ok file) hMapping offset offsetHigh viewSize protection startAddress
      allocated = some (status, va, m')) :
    (status ≠ .success ∧ (m' = m ∨ ∃ address s,
      Found m.machine file.targetMode (pageCountOf viewSize) startAddress address s ∧
        m' = { m with machine := s })) ∨
      ∃ s view, Viewed m m' file hMapping viewSize protection startAddress va s view := by
  simp only [mmMapViewOfFile, Option.bind_eq_bind] at h
  split at h
  · cases Option.some.inj h
    exact .inl ⟨by simp, .inl rfl⟩
  · split at h
    · cases Option.some.inj h
      exact .inl ⟨by simp, .inl rfl⟩
    case isFalse granted =>
      obtain ⟨⟨found, s⟩, search, rest⟩ := Option.bind_eq_some_iff.mp h
      cases found with
      | error status =>
        obtain ⟨failed, same⟩ := refused_inv search
        cases Option.some.inj rest
        exact .inl ⟨failed, .inl (by rw [same])⟩
      | ok address =>
        cases allocated with
        | false =>
          cases Option.some.inj rest
          exact .inl ⟨by simp, .inr ⟨address, s, found_inv search, rfl⟩⟩
        | true =>
          obtain ⟨t, done, last⟩ := Option.bind_eq_some_iff.mp rest
          cases Option.some.inj last
          exact .inr ⟨s, _, BitVec.not_lt.mp granted, found_inv search, changePtes_inv done, rfl, rfl, rfl⟩

theorem vpn_pageAt_ofNat (va : BitVec 32) (k : Nat) :
    vpn (pageAt va k) = BitVec.ofNat 20 ((vpn va).toNat + k) := by
  apply BitVec.eq_of_toNat_eq
  have here := vpn_pageAt va k
  have first := vpn_pageAt va 0
  rw [pageAt_zero] at first
  rw [BitVec.toNat_ofNat]
  omega

theorem Changed.pte_outside {f : Mmpte → Mmpte} {va : BitVec 32} {n : Nat} {s t : MmState}
    (h : Changed f (vpn va).toNat n s t) {i : BitVec 20} (outside : ∀ k < n, i ≠ vpn (pageAt va k)) :
    t.pte i = s.pte i := by
  have named : BitVec.ofNat 20 i.toNat = i := by simp
  rw [← named]
  apply h.outside i.toNat i.isLt
  apply Decidable.byContradiction
  intro inside
  apply outside (i.toNat - (vpn va).toNat) (by omega)
  rw [vpn_pageAt_ofNat, Nat.add_sub_cancel' (by omega), named]

theorem Changed.pte_here {f : Mmpte → Mmpte} {va : BitVec 32} {n : Nat} {s t : MmState}
    (h : Changed f (vpn va).toNat n s t) {k : Nat} (less : k < n) :
    t.pte (vpn (pageAt va k)) = f (s.pte (vpn (pageAt va k))) := by
  rw [vpn_pageAt_ofNat]
  exact h.here k less

theorem Found.used {s t : MmState} {mode : ProcessorMode} {n : Nat} {startAddress va : BitVec 32}
    (h : Found s mode n startAddress va t) {i : BitVec 20} (used : mmPteIsFree (s.pte i) = false) :
    t.pte i = s.pte i := by
  cases h with
  | chosen => rfl
  | searched first reserved =>
    obtain ⟨-, -, -, -, free, -⟩ := first
    apply reserved.pte_outside
    rintro k less rfl
    rw [viewIsFree_page free less] at used
    exact absurd used (by simp)

/-! What a view is to be. -/

structure ViewMapped (m m' : MmViews) (mode : ProcessorMode) (hMapping viewSize : BitVec 32)
    (protection : BitVec 8) (va : BitVec 32) : Prop where
  typed : ∀ k < pagesOf viewSize, (m'.machine.pte (vpn (pageAt va k))).pteType = pteTypeView
  handle : ∀ k < pagesOf viewSize,
    (m'.machine.pte (vpn (pageAt va k))).fileDescriptorNumber.setWidth 32 = hMapping
  rights : ∀ k < pagesOf viewSize,
    (m'.machine.pte (vpn (pageAt va k))).protection = protection.setWidth 32
  free : ∀ k < pagesOf viewSize, mmPteIsFree (m.machine.pte (vpn (pageAt va k))) = true
  inside : ∀ k < pagesOf viewSize, miStartAddress mode ≤ pageAt va k ∧ pageAt va k < miEndAddress mode
  disjoint : ∀ v ∈ m.views, ∀ k < pagesOf viewSize, ∀ j < v.pages,
    (vpn (pageAt va k)).toNat ≠ v.startPte + j
  others : ∀ i, (∀ k < pagesOf viewSize, i ≠ vpn (pageAt va k)) → m'.machine.pte i = m.machine.pte i

/-- The size can be rounded up, and a view with pages is searched for, its handle has as many bits as a PTE
keeps, and the first run of free pages ends inside the area. -/
def ViewFits (s : MmState) (mode : ProcessorMode) (hMapping viewSize startAddress : BitVec 32) : Prop :=
  viewSize ≤ 0xFFFFF000 ∧ (viewSize = 0 ∨ startAddress = 0 ∧ hMapping.toNat < 2 ^ 16 ∧
    ∀ va, FirstRun s (pagesOf viewSize) (miStartAddress mode) (miEndAddress mode) pageTableEntries va →
      va.toNat + 0x1000 * (pagesOf viewSize - 1) < (miEndAddress mode).toNat)

theorem areas (mode : ProcessorMode) :
    ((miEndAddress mode).toNat = 0 ∨ 0x10000 ≤ (miStartAddress mode).toNat) ∧
      (miEndAddress mode).toNat ≤ 0xFFFFDFFF := by
  cases mode <;> decide

theorem area_bounds {mode : ProcessorMode} {va : BitVec 32} (low : miStartAddress mode ≤ va)
    (high : va < miEndAddress mode) : 0x10000 ≤ va.toNat ∧ va.toNat < 0xFFFFDFFF := by
  have constants := areas mode
  rw [BitVec.le_def] at low
  rw [BitVec.lt_def] at high
  omega

theorem toNat_pageAt (va : BitVec 32) (k : Nat) : (pageAt va k).toNat = (va.toNat + 0x1000 * k) % 2 ^ 32 := by
  have pageSize : (0x1000 : BitVec 32).toNat = 0x1000 := rfl
  simp only [pageAt, BitVec.toNat_add, BitVec.toNat_mul, BitVec.toNat_ofNat, pageSize]
  omega

theorem FirstRun.inArea {s : MmState} {mode : ProcessorMode} {n left : Nat} {va : BitVec 32}
    (h : FirstRun s n (miStartAddress mode) (miEndAddress mode) left va) :
    miStartAddress mode ≤ va ∧ va < miEndAddress mode := by
  obtain ⟨k, -, rfl, inside, -, before⟩ := h
  refine ⟨?_, inside⟩
  have above : ∀ j ≤ k, miStartAddress mode ≤ pageAt (miStartAddress mode) j := by
    intro j upTo
    induction j with
    | zero =>
      rw [pageAt_zero]
      exact BitVec.le_refl _
    | succ j ih =>
      have last := ih (by omega)
      have bounds := area_bounds last (before j (by omega)).1
      rw [BitVec.le_def] at last ⊢
      rw [toNat_pageAt] at last bounds ⊢
      omega
  exact above k (Nat.le_refl k)

theorem FirstRun.unique {s : MmState} {n left : Nat} {start finish va va' : BitVec 32}
    (h : FirstRun s n start finish left va) (h' : FirstRun s n start finish left va') : va = va' := by
  have first := (findView_iff ..).mpr h
  have second := (findView_iff ..).mpr h'
  exact Option.some.inj (first.symm.trans second)

theorem maximum_protection : ∀ p : BitVec 8, p ≤ 3 → p &&& mmMaximumProtection = p := by decide

theorem field_le (p : BitVec 8) : (p &&& mmMaximumProtection).setWidth 32 ≤ 7 := by
  revert p
  decide

theorem viewPte_type (hMapping : BitVec 32) (protection : BitVec 8) (p : Mmpte) :
    (viewPte hMapping protection p).pteType = p.pteType := by
  rw [viewPte, Mmpte.pteType_setProtection _ _ (field_le protection), Mmpte.pteType_setFileDescriptorNumber]

theorem viewPte_handle (hMapping : BitVec 32) (protection : BitVec 8) (p : Mmpte) :
    (viewPte hMapping protection p).fileDescriptorNumber = hMapping.setWidth 16 := by
  rw [viewPte, Mmpte.fileDescriptorNumber_setProtection _ _ (field_le protection),
    Mmpte.fileDescriptorNumber_setFileDescriptorNumber]

theorem viewPte_protection (hMapping : BitVec 32) (protection : BitVec 8) (p : Mmpte) :
    (viewPte hMapping protection p).protection = (protection &&& mmMaximumProtection).setWidth 32 :=
  Mmpte.protection_setProtection _ _ (field_le protection)

theorem reservedViewPte_type : reservedViewPte.pteType = pteTypeView := by decide

/-- The PTEs of every view are in use. -/
def Taken (m : MmViews) : Prop :=
  ∀ v ∈ m.views, ∀ j < v.pages, v.startPte + j < pageTableEntries ∧
    mmPteIsFree (m.machine.pte (BitVec.ofNat 20 (v.startPte + j))) = false

theorem pagesOf_lt_iff (viewSize : BitVec 32) : pagesOf viewSize < 2 ^ 20 ↔ viewSize ≤ 0xFFFFF000 := by
  have limit : (0xFFFFF000 : BitVec 32).toNat = 0xFFFFF000 := rfl
  rw [BitVec.le_def, limit, pagesOf]
  have := viewSize.isLt
  omega

theorem pagesOf_pos {viewSize : BitVec 32} (some : viewSize ≠ 0) : 0 < pagesOf viewSize := by
  have zero : (0 : BitVec 32).toNat = 0 := rfl
  rw [ne_eq, ← BitVec.toNat_inj, zero] at some
  rw [pagesOf]
  omega

theorem ViewMapped.small {m m' : MmViews} {mode : ProcessorMode} {hMapping viewSize va : BitVec 32}
    {protection : BitVec 8} (h : ViewMapped m m' mode hMapping viewSize protection va) :
    viewSize ≤ 0xFFFFF000 := by
  rw [← pagesOf_lt_iff]
  apply Decidable.byContradiction
  intro all
  have first := h.inside 0 (by omega)
  rw [pageAt_zero] at first
  have bounds := area_bounds first.1 first.2
  have wrapped := h.inside (2 ^ 20 - va.toNat / 0x1000) (by omega)
  have low := (area_bounds wrapped.1 wrapped.2).1
  rw [toNat_pageAt] at low
  omega

section Call

variable {m m' : MmViews} {file : MappedFile} {hMapping viewSize startAddress va : BitVec 32}
  {protection : BitVec 8} {s : MmState} {view : MappedView}

theorem Viewed.count (h : Viewed m m' file hMapping viewSize protection startAddress va s view)
    (small : viewSize ≤ 0xFFFFF000) :
    Found m.machine file.targetMode (pagesOf viewSize) startAddress va s ∧
      Changed (viewPte hMapping protection) (vpn va).toNat (pagesOf viewSize) s m'.machine := by
  have count : pageCountOf viewSize = pagesOf viewSize := by
    rw [pageCountOf_eq, Nat.mod_eq_of_lt ((pagesOf_lt_iff viewSize).mpr small)]
  rw [← count]
  exact ⟨h.found, h.initialized⟩

theorem Viewed.fits (h : Viewed m m' file hMapping viewSize protection startAddress va s view)
    (mapped : ViewMapped m m' file.targetMode hMapping viewSize protection va) :
    ViewFits m.machine file.targetMode hMapping viewSize startAddress := by
  refine ⟨mapped.small, ?_⟩
  rcases Decidable.em (viewSize = 0) with empty | pages
  · exact .inl empty
  · have pos := pagesOf_pos pages
    obtain ⟨found, initialized⟩ := h.count mapped.small
    cases found with
    | chosen =>
      -- the type of the PTE is not written
      have typed := mapped.typed 0 pos
      have free := mapped.free 0 pos
      rw [initialized.pte_here pos, viewPte_type] at typed
      rw [not_free_of_type (by rw [typed]; decide)] at free
      exact absurd free (by simp)
    | searched first reserved =>
      refine .inr ⟨rfl, ?_, ?_⟩
      · have handle := congrArg BitVec.toNat (mapped.handle 0 pos)
        rw [initialized.pte_here pos, viewPte_handle] at handle
        simp only [BitVec.toNat_setWidth] at handle
        omega
      · intro va' first'
        cases first.unique first'
        have last := (mapped.inside (pagesOf viewSize - 1) (by omega)).2
        have inTable := initialized.inTable (pagesOf viewSize - 1) (by omega)
        have index := vpn_pageAt va 0
        rw [pageAt_zero] at index
        rw [BitVec.lt_def, toNat_pageAt] at last
        have := va.isLt
        unfold pageTableEntries at inTable
        omega

theorem ViewFits.mapped (fits : ViewFits m.machine file.targetMode hMapping viewSize startAddress)
    (taken : Taken m) (h : Viewed m m' file hMapping viewSize protection startAddress va s view) :
    ViewMapped m m' file.targetMode hMapping viewSize protection va := by
  obtain ⟨found, initialized⟩ := h.count fits.1
  obtain ⟨-, rfl | ⟨rfl, handle, ends⟩⟩ := fits
  · have nothing {P : Nat → Prop} : ∀ k < pagesOf 0, P k := fun k less => absurd less (Nat.not_lt_zero k)
    have others : m'.machine.pte = m.machine.pte := by
      funext i
      rw [initialized.pte_outside nothing]
      cases found with
      | chosen => rfl
      | searched first reserved => rw [reserved.pte_outside nothing]
    exact ⟨nothing, nothing, nothing, nothing, nothing, fun _ _ => nothing, fun _ _ => by rw [others]⟩
  · cases found with
    | chosen given => exact absurd rfl given
    | searched first reserved =>
      have area := first.inArea
      have last := ends va first
      have pte {k : Nat} (less : k < pagesOf viewSize) :
          m'.machine.pte (vpn (pageAt va k)) = viewPte hMapping protection reservedViewPte := by
        rw [initialized.pte_here less, reserved.pte_here less]
      have free {k : Nat} (less : k < pagesOf viewSize) :
          mmPteIsFree (m.machine.pte (vpn (pageAt va k))) = true := by
        obtain ⟨-, -, -, -, run, -⟩ := first
        exact viewIsFree_page run less
      constructor
      · intro k less
        rw [pte less, viewPte_type, reservedViewPte_type]
      · intro k less
        apply BitVec.eq_of_toNat_eq
        rw [pte less, viewPte_handle]
        simp only [BitVec.toNat_setWidth]
        omega
      · intro k less
        rw [pte less, viewPte_protection, maximum_protection _ (BitVec.le_trans h.granted file.granted)]
      · intro k less
        exact free less
      · intro k less
        have low := area.1
        rw [BitVec.le_def] at low ⊢
        rw [BitVec.lt_def, toNat_pageAt]
        have := (miEndAddress file.targetMode).isLt
        constructor <;> omega
      · intro v member k less j inside same
        obtain ⟨inTable, used⟩ := taken v member j inside
        rw [← same, BitVec.ofNat_toNat, BitVec.setWidth_eq, free less] at used
        exact absurd used (by simp)
      · intro i outside
        rw [initialized.pte_outside outside, reserved.pte_outside outside]

end Call

end Gr8os.Mm
