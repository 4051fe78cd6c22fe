import Gr8os.Mm.MappingWrites
import Gr8os.Mm.ShareCount

/-! Whether the pages of a mapping call stay inside the range they were asked for. -/
namespace Gr8os.Mm

/-- The PTEs the scan looks at, the free one at which it ends among them. -/
def scanned (s : MmState) (virtual : BitVec 32) : Nat → List (BitVec 20)
  | 0 => []
  | left + 1 =>
    vpn virtual :: if mmPteIsFree (s.pte (vpn virtual)) then [] else scanned s (virtual + 0x1000) left

/-- The PTEs of `count` pages from one address on. -/
def pageRun (virtual : BitVec 32) (count : Nat) : List (BitVec 20) :=
  (List.range' (vpn virtual).toNat count).map fun i => BitVec.ofNat 20 i

namespace MapCall

/-- The pages of the range, its last one included where the range ends within it. -/
def range : MapCall → Option (BitVec 32 × Nat)
  | inRange a b _ _ _ _ => some (alignDown a, pagesBetween (alignDown a) (alignUp b))
  | locked _ mode isImage _ =>
    (lockedPagesArea mode isImage).map fun area =>
      (alignDown area.1, pagesBetween (alignDown area.1) (alignUp area.2))

/-- What is added to the address of the first page. -/
def offset : MapCall → BitVec 32
  | inRange _ _ _ _ _ _ => 0
  | locked mmd _ _ _ => mmd.offset

/-- Every PTE that is read or written. -/
def accessed (c : MapCall) (s : MmState) : List (BitVec 20) :=
  (match c.scan with
    | some (start, pages) => scanned s start pages
    | none => []) ++
  match c.firstFree s with
    | some virtual => pageRun virtual c.frames.length
    | none => []

def Inside (c : MapCall) (i : BitVec 20) : Prop :=
  ∃ start pages, c.range = some (start, pages) ∧ ∃ k < pages, i = vpn (pageAt start k)

/-- A run of as many free pages as the call maps. -/
def RangeHoldsRun (c : MapCall) (s : MmState) : Prop :=
  ∃ start pages, c.range = some (start, pages) ∧ ∃ k, k + c.frames.length ≤ pages ∧
    ∀ j < c.frames.length, mmPteIsFree (s.pte (vpn (pageAt start (k + j)))) = true

end MapCall

structure RangeConfined (c : MapCall) (s : MmState) (r : MapResult) : Prop where
  run : r.address ≠ 0 → ∀ i ∈ pageRun (r.address - c.offset) c.frames.length, c.Inside i
  accessed : ∀ i ∈ c.accessed s, c.Inside i
  null : r.address = 0 ↔ ¬ c.RangeHoldsRun s

/-- The pages from one address of the range on end with it or before it. -/
def MapCall.EndsInside (c : MapCall) (virtual : BitVec 32) : Prop :=
  ∃ start pages, c.range = some (start, pages) ∧ ∃ k, virtual = pageAt start k ∧ k + c.frames.length ≤ pages

theorem findFree_count (s : MmState) (start : BitVec 32) (n m pages : Nat) :
    findFree s start n pages = findFree s start m pages := by
  apply Option.ext
  intro virtual
  rw [findFree_iff, findFree_iff]

theorem MapCall.run_address {heap : Nat → Bool} {s : MmState} {c : MapCall} {r : MapResult}
    (returned : c.run heap s = some r) :
    (c.firstFree s = none ∧ r.address = 0) ∨
      ∃ virtual, c.firstFree s = some virtual ∧ r.address = virtual + c.offset := by
  cases c with
  | inRange a b pa n add mode =>
    simp only [MapCall.run, mmMapPhysicalPagesInRange] at returned
    simp only [firstFree, scan, Option.bind_some, findFree_count s _ 1 n.toNat]
    split at returned
    case h_1 missed =>
      cases Option.some.inj returned
      exact .inl ⟨missed, rfl⟩
    case h_2 virtual found =>
      simp only [Option.bind_eq_bind, Option.bind_eq_some_iff] at returned
      obtain ⟨⟨replaced, t⟩, -, last⟩ := returned
      cases Option.some.inj last
      exact .inr ⟨virtual, found, (BitVec.add_zero virtual).symm⟩
  | locked mmd mode isImage add =>
    obtain ⟨⟨r', mmd'⟩, code, rfl⟩ := Option.map_eq_some_iff.mp returned
    obtain ⟨start, finish, area, ⟨missed, same⟩ | ⟨virtual, found, -, address⟩⟩ := mmMapLockedPages_inv code
    · refine .inl ⟨?_, by rw [same]⟩
      rw [firstFree, scan, area]
      apply Option.eq_none_iff_forall_ne_some.mpr
      intro virtual found
      exact missed virtual ((findFree_iff ..).mp found)
    · refine .inr ⟨virtual, ?_, address⟩
      rw [firstFree, scan, area]
      exact (findFree_iff ..).mpr found

/-- A scan begins with the range, and it may end a page short of it. -/
theorem MapCall.scan_range {c : MapCall} {start : BitVec 32} {n : Nat} (scan : c.scan = some (start, n)) :
    ∃ pages, c.range = some (start, pages) ∧ n ≤ pages ∧ pages < 2 ^ 20 := by
  have small (a b : BitVec 32) : pagesBetween a b < 2 ^ 20 := by
    rw [pagesBetween, BitVec.toNat_ushiftRight, Nat.shiftRight_eq_div_pow]
    have := (b - a).isLt
    omega
  cases c with
  | inRange a b pa n add mode =>
    cases Option.some.inj scan
    exact ⟨_, rfl, Nat.le_refl _, small ..⟩
  | locked mmd mode isImage add =>
    obtain ⟨⟨a, b⟩, area, same⟩ := Option.map_eq_some_iff.mp scan
    cases same
    have aligned : alignDown a = a ∧ pagesBetween a b ≤ pagesBetween (alignDown a) (alignUp b) := by
      cases mode <;> cases isImage <;> simp only [lockedPagesArea, reduceCtorEq, Bool.false_eq_true, if_true,
        if_false, Option.some.injEq, Prod.mk.injEq] at area
      all_goals
        obtain ⟨rfl, rfl⟩ := area
        decide
    refine ⟨_, ?_, aligned.2, small ..⟩
    rw [range, area, Option.map_some, aligned.1]

theorem scanned_inside {s : MmState} {start : BitVec 32} {n : Nat} :
    ∀ i ∈ scanned s start n, ∃ k < n, i = vpn (pageAt start k) := by
  induction n generalizing start with
  | zero =>
    intro i member
    exact absurd member (by simp [scanned])
  | succ n ih =>
    intro i member
    rw [scanned] at member
    rcases List.mem_cons.mp member with rfl | later
    · exact ⟨0, by omega, by rw [pageAt_zero]⟩
    · split at later
      · exact absurd later (by simp)
      · obtain ⟨k, less, rfl⟩ := ih i later
        exact ⟨k + 1, by omega, by rw [pageAt_succ]⟩

/-- As long as no page is past the table, a run stays inside a range exactly when it ends with the range
or before. -/
theorem pageRun_inside_iff {c : MapCall} {start : BitVec 32} {pages k : Nat}
    (range : c.range = some (start, pages)) (small : pages < 2 ^ 20) (within : k < pages)
    (inTable : ∀ j < c.frames.length, (vpn (pageAt start k)).toNat + j < pageTableEntries) :
    (∀ i ∈ pageRun (pageAt start k) c.frames.length, c.Inside i) ↔ c.EndsInside (pageAt start k) := by
  have value {j : Nat} (less : j < c.frames.length) :
      BitVec.ofNat 20 ((vpn (pageAt start k)).toNat + j) = vpn (pageAt start (k + j)) := by
    apply BitVec.eq_of_toNat_eq
    have fits := inTable j less
    unfold pageTableEntries at fits
    rw [vpn_pageAt] at fits ⊢
    rw [vpn_pageAt, BitVec.toNat_ofNat]
    omega
  constructor
  · intro inside
    refine ⟨start, pages, range, k, rfl, ?_⟩
    by_contra past
    have last : pages - k < c.frames.length := by omega
    have member : BitVec.ofNat 20 ((vpn (pageAt start k)).toNat + (pages - k)) ∈
        pageRun (pageAt start k) c.frames.length :=
      List.mem_map_of_mem (List.mem_range'_1.mpr ⟨by omega, by omega⟩)
    obtain ⟨start', pages', range', k', less, same⟩ := inside _ member
    cases Option.some.inj (range.symm.trans range')
    -- the page after the range is none of the range, since the range is not the whole table
    rw [value last] at same
    have values := congrArg BitVec.toNat same
    rw [vpn_pageAt, vpn_pageAt] at values
    omega
  · rintro ⟨start', pages', range', k', same, ends⟩ i member
    cases Option.some.inj (range.symm.trans range')
    obtain ⟨n, inRun, rfl⟩ := List.mem_map.mp member
    obtain ⟨low, high⟩ := List.mem_range'_1.mp inRun
    have less : n - (vpn (pageAt start k)).toNat < c.frames.length := by omega
    have here := value less
    rw [Nat.add_sub_cancel' low] at here
    refine ⟨start, pages, range, k' + (n - (vpn (pageAt start k)).toNat), by omega, ?_⟩
    rw [here]
    apply BitVec.eq_of_toNat_eq
    have values := congrArg (fun x => (vpn x).toNat) same
    simp only [vpn_pageAt] at values ⊢
    omega

theorem range_confined_iff {heap : Nat → Bool} {s : MmState} {c : MapCall} {r : MapResult}
    (returned : c.run heap s = some r) :
    RangeConfined c s r ↔
      (c.firstFree s = none ∧ ¬ c.RangeHoldsRun s) ∨
      ∃ virtual, c.firstFree s = some virtual ∧ c.EndsInside virtual ∧
        (c.RangeHoldsRun s ↔ virtual + c.offset ≠ 0) := by
  obtain ⟨start, n, scan, rest⟩ := c.run_inv returned
  obtain ⟨pages, range, shorter, small⟩ := c.scan_range scan
  have looked : ∀ i ∈ scanned s start n, c.Inside i := by
    intro i member
    obtain ⟨k, less, rfl⟩ := scanned_inside i member
    exact ⟨start, pages, range, k, by omega, rfl⟩
  rcases c.run_address returned with ⟨missed, null⟩ | ⟨virtual, found, address⟩
  · constructor
    · intro confined
      exact .inl ⟨missed, confined.null.mp null⟩
    · rintro (⟨-, noRun⟩ | ⟨virtual, found, -⟩)
      · constructor
        · intro notNull
          exact absurd null notNull
        · intro i member
          rw [MapCall.accessed, scan, missed, List.append_nil] at member
          exact looked i member
        · exact iff_of_true null noRun
      · exact absurd (missed.symm.trans found) (by simp)
  · have first : FirstFree s start n virtual := by
      rw [MapCall.firstFree, scan] at found
      exact (findFree_iff ..).mp found
    obtain ⟨full, -⟩ | ⟨virtual', first', mapped⟩ := rest
    · exact absurd first (full virtual)
    cases firstFree_unique first first'
    obtain ⟨k, less, rfl, -⟩ := first
    have inside_iff := pageRun_inside_iff range small (by omega) (mapPages_inTable mapped)
    constructor
    · intro confined
      refine .inr ⟨_, found, inside_iff.mp ?_, ?_⟩
      · intro i member
        apply confined.accessed
        rw [MapCall.accessed, found]
        exact List.mem_append_right _ member
      · rw [← address]
        exact (not_congr confined.null).trans not_not |>.symm
    · rintro (⟨missed, -⟩ | ⟨virtual, found', ends, holds⟩)
      · exact absurd (missed.symm.trans found) (by simp)
      · cases Option.some.inj (found.symm.trans found')
        have inside := inside_iff.mpr ends
        constructor
        · intro _
          rw [address, BitVec.add_sub_cancel]
          exact inside
        · intro i member
          rw [MapCall.accessed, scan, found] at member
          exact (List.mem_append.mp member).elim (looked i) (inside i)
        · rw [holds, address, not_not]

theorem pastHole_confined :
    ∃ r, pastHole.run (fun _ => true) holed = some r ∧ RangeConfined pastHole holed r := by
  have returns : (pastHole.run (fun _ => true) holed).isSome = true := by decide
  obtain ⟨r, returned⟩ := Option.isSome_iff_exists.mp returns
  refine ⟨r, returned, (range_confined_iff returned).mpr (.inr ⟨0xFF002000, by decide, ?_, ?_⟩)⟩
  · exact ⟨0xFF002000, 14, by decide, 0, by decide, by decide⟩
  · exact iff_of_true ⟨0xFF002000, 14, by decide, 0, by decide, by decide⟩ (by decide)

/-- Three pages for a range of two. -/
def pastEnd : MapCall := .inRange 0xFF004000 0xFF006000 0 3 false .kernelMode

theorem pastEnd_unconfined : ∃ r, pastEnd.run (fun _ => true) holed = some r ∧
    holed.pte 0xFF006 = 0 ∧ r.state.pte 0xFF006 = validKernelPte 2 ∧ ¬ pastEnd.Inside 0xFF006 ∧
    ¬ RangeConfined pastEnd holed r := by
  have mapped : (pastEnd.run (fun _ => true) holed).map (fun r => (r.address, r.state.pte 0xFF006)) =
      some (0xFF004000, validKernelPte 2) := by decide
  obtain ⟨r, returned, ends⟩ := Option.map_eq_some_iff.mp mapped
  obtain ⟨address, written⟩ := Prod.mk.inj ends
  have outside : ¬ pastEnd.Inside 0xFF006 := by
    rintro ⟨start, pages, range, k, less, same⟩
    cases Option.some.inj range
    have others : ∀ k < pagesBetween (alignDown 0xFF004000) (alignUp 0xFF006000),
        0xFF006 ≠ vpn (pageAt (alignDown 0xFF004000) k) := by decide
    exact others k less same
  refine ⟨r, returned, rfl, written, outside, ?_⟩
  intro confined
  apply outside
  apply confined.run (by rw [address]; decide)
  rw [address]
  decide

end Gr8os.Mm
