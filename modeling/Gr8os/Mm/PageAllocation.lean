import Gr8os.Mm.PageRuns

/-! Which pages an allocation takes from the lists, and what it does to the descriptors of all pages. -/
namespace Gr8os.Mm

open Intrusive Runs

/-- The descriptor of a page that is in use and on no list. -/
def Mmppd.active (d : Mmppd) : Mmppd := { d with u1 := 0, u2 := 0, pageLocation := .activeAndValid }

/-- The descriptor of the first page of a list. -/
def Mmppd.first (d : Mmppd) : Mmppd := { d with u2 := 0 }

@[simp] theorem active_active (d : Mmppd) : d.active.active = d.active := rfl
@[simp] theorem active_first (d : Mmppd) : d.active.first = d.active := rfl
@[simp] theorem first_active (d : Mmppd) : d.first.active = d.active := rfl
@[simp] theorem first_first (d : Mmppd) : d.first.first = d.first := rfl

/-- The pages `xs` at the front of a list become active, and `ys` stay on it. -/
def MmState.taken (s : MmState) (l : PageList) (xs ys : List Nat) : MmState :=
  { s with
    ppd := fun p => if p ∈ xs then (s.ppd p).active else if ys.head? = some p then (s.ppd p).first else s.ppd p
    pageListHead := fun k => if k = l then ys.headD 0 else s.pageListHead k }

section steps

variable {s : MmState} {lists : PageList → List Nat} {l : PageList} {p n : Nat} {xs ys pages : List Nat}

theorem taken_ppd (s : MmState) (l : PageList) (xs ys : List Nat) (p : Nat) : (s.taken l xs ys).ppd p =
    if p ∈ xs then (s.ppd p).active else if ys.head? = some p then (s.ppd p).first else s.ppd p := rfl

theorem taken_head (s : MmState) (l k : PageList) (xs ys : List Nat) :
    (s.taken l xs ys).pageListHead k = if k = l then ys.headD 0 else s.pageListHead k := rfl

theorem first_back (ok : PageListsOk s lists) (start : (lists l).head? = some p) : (s.ppd p).first = s.ppd p := by
  have chain := (ok.chain l).2
  cases whole : lists l with
  | nil =>
    rw [whole] at start
    contradiction
  | cons q qs =>
    rw [whole] at start chain
    obtain rfl := Option.some.inj start
    have back : (s.ppd q).u2 = 0 := chain.2.2.1
    unfold Mmppd.first
    rw [← back]

theorem taken_nil (ok : PageListsOk s lists) : s.taken l [] (lists l) = s := by
  refine MmState.ext rfl rfl (funext fun p => ?_) (funext fun k => ?_) rfl rfl
  · rw [taken_ppd, if_neg List.not_mem_nil]
    split
    · rename_i start
      exact first_back ok start
    · rfl
  · rw [taken_head]
    split
    · rename_i same
      rw [same]
      exact (chainFrom_first (ok.chain l).2).symm
    · rfl

theorem taken_cons {x : Nat} (distinct : (x :: (xs ++ ys)).Nodup) :
    (s.taken l [x] (xs ++ ys)).taken l xs ys = s.taken l (x :: xs) ys := by
  have notLater : x ∉ ys := fun later => (List.nodup_cons.mp distinct).1 (List.mem_append_right _ later)
  refine MmState.ext rfl rfl (funext fun p => ?_) (funext fun k => ?_) rfl rfl
  · simp only [taken_ppd, List.mem_cons, List.not_mem_nil, or_false]
    by_cases same : p = x
    · subst same
      have notFirst : ys.head? ≠ some p := fun start => notLater (List.mem_of_head? start)
      simp only [notFirst, true_or, if_true, if_false, active_active, ite_self]
    · simp only [same, false_or, if_false]
      by_cases inside : p ∈ xs
      · simp only [inside, if_true]
        split
        · exact first_active _
        · rfl
      · have behind : (xs ++ ys).head? = some p → ys.head? = some p := by
          intro start
          cases xs with
          | nil => exact start
          | cons x' xs => exact absurd (Option.some.inj start ▸ List.mem_cons_self) inside
        simp only [inside, if_false]
        by_cases start : ys.head? = some p
        · simp only [start, if_true]
          split
          · exact first_first _
          · rfl
        · simp only [start, if_false, if_neg fun early => start (behind early)]
  · simp only [taken_head]
    by_cases same : k = l
    · simp only [same, if_true]
    · simp only [same, if_false]

/-- A step of either loop: the page that a list starts with is unlinked and made active. -/
theorem first_taken (checked : Bool) (ok : PageListsOk s lists) (split : lists l = p :: ys) :
    miChangePageLocation checked s p .activeAndValid = some (s.taken l [p] ys) ∧
      PageListsOk (s.taken l [p] ys) fun k => if k = l then ys else lists k := by
  have chain := ok.chain l
  rw [split] at chain
  have member : p ∈ lists l := by
    rw [split]
    exact List.mem_cons_self
  obtain ⟨here, place⟩ := (ok.member l p).mp member
  have next : (s.ppd p).u1 = ys.headD 0 := chainFrom_first chain.2.2.2.2
  have back : (s.ppd p).u2 = 0 := chain.2.2.2.1
  have near := chain_neighbours chain List.mem_cons_self
  have inList : ∀ q ∈ p :: ys, s.Mapped q := fun q inside => ((ok.member l q).mp (split ▸ inside)).1
  have unlinks := miUnlinkPpd_eq (l := l) (near.2.imp_right (inList _)) (near.1.imp_right (inList _))
  let left := s.relink ((links s).detach 0 p)
    fun k => if k = l ∧ (s.ppd p).u2 = 0 then (s.ppd p).u1 else s.pageListHead k
  have leaves : leaveLists s p = some left := by
    unfold leaveLists
    rw [place]
    exact unlinks
  have passes : (checked && decide ((s.ppd p).pageLocation = .activeAndValid)) = false := by simp [place]
  let joined : MmState := { left with
    ppd := fun q => if q = p then { left.ppd q with u1 := 0, u2 := 0 } else left.ppd q }
  have joins : joinLists left p .activeAndValid = some joined :=
    update_eq (s := left) (f := fun d => { d with u1 := 0, u2 := 0 }) here
  have start : ∀ q, (q = ys.headD 0 ∧ q ≠ 0) ↔ ys.head? = some q := by
    intro q
    have notNull := chainFrom_null chain.2
    cases ys with
    | nil => simp
    | cons y ys =>
      simp only [List.headD_cons, List.head?_cons, Option.some.injEq, eq_comm (a := q)]
      apply and_iff_left_of_imp
      rintro rfl rfl
      exact notNull (List.mem_cons_of_mem _ List.mem_cons_self)
  have others : ∀ q, left.ppd q = if ys.head? = some q then (s.ppd q).first else s.ppd q := by
    intro q
    have forth : ((links s).detach 0 p).flink q = (s.ppd q).u1 := by
      rw [detach_flink, links_blink, back, if_neg fun null => null.2 null.1]
      rfl
    have aback : ((links s).detach 0 p).blink q = if ys.head? = some q then 0 else (s.ppd q).u2 := by
      rw [detach_blink, links_flink, links_blink, next, back]
      simp only [start]
      rfl
    change { s.ppd q with u1 := ((links s).detach 0 p).flink q, u2 := ((links s).detach 0 p).blink q } = _
    rw [forth, aback]
    split <;> rfl
  have marks : (joined.update p fun d => { d with pageLocation := .activeAndValid }) = some (s.taken l [p] ys) := by
    rw [update_eq (show joined.Mapped p from here)]
    refine congrArg some (MmState.ext rfl rfl (funext fun q => ?_) (funext fun k => ?_) rfl rfl)
    · rw [taken_ppd]
      simp only [List.mem_singleton, joined]
      split
      · rfl
      · exact others q
    · rw [taken_head]
      simp only [joined, left, relink_head, back, and_true, next]
  have code : miChangePageLocation checked s p .activeAndValid = some (s.taken l [p] ys) := by
    unfold miChangePageLocation
    simp only [here, passes, decide_true, Bool.not_true, Bool.false_eq_true, if_false, Option.bind_eq_bind]
    rw [leaves, Option.bind_some, joins, Option.bind_some, marks]
  refine ⟨code, ?_⟩
  have after := (miChangePageLocation_ok ok code).1
  have same : moved lists p .activeAndValid = fun k => if k = l then ys else lists k := by
    funext k
    change (lists k).erase p = _
    split
    · rename_i here
      rw [here, split, List.erase_cons_head]
    · rename_i other
      exact List.erase_of_not_mem fun inside => other (ok.chains.disjoint inside member)
  rw [same] at after
  exact after

/-- What a loop does that stops when it has as many pages as it needs, or when its list ends. -/
theorem takePages_taken (checked : Bool) (pages : List Nat) (ok : PageListsOk s lists) (split : lists l = xs ++ ys)
    (stops : xs.length = n ∨ xs.length < n ∧ ys = []) (entered : n = 0 → ys = []) :
    takePages checked n (s.pageListHead l) pages s = some (pages ++ xs.map (mmGetPpdPfn s), s.taken l xs ys) ∧
      PageListsOk (s.taken l xs ys) fun k => if k = l then ys else lists k := by
  induction xs generalizing s lists n pages with
  | nil =>
    have whole : lists l = ys := split
    have none : ys = [] := by
      rcases stops with same | short
      · exact entered same.symm
      · exact short.2
    have head : s.pageListHead l = 0 := (chain_empty_iff (ok.chain l)).mpr (whole.trans none)
    have lists' : (fun k => if k = l then ys else lists k) = lists := by
      funext k
      split
      · rename_i same
        rw [same, whole]
      · rfl
    have same : s.taken l [] ys = s := by
      rw [← whole]
      exact taken_nil ok
    rw [same, lists', head]
    refine ⟨?_, ok⟩
    cases n <;> simp [takePages]
  | cons x xs ih =>
    have chain := ok.chain l
    rw [List.cons_append] at split
    rw [split] at chain
    have head : s.pageListHead l = x := chain.2.1
    have notNull : x ≠ 0 := chain.2.2.1
    have next : (s.ppd x).u1 = (xs ++ ys).headD 0 := chainFrom_first chain.2.2.2.2
    obtain ⟨moves, after⟩ := first_taken checked ok split
    obtain ⟨m, rfl⟩ : ∃ m, n = m + 1 := by
      apply Nat.exists_eq_succ_of_ne_zero
      rw [List.length_cons] at stops
      omega
    obtain ⟨a, rfl⟩ := Nat.exists_eq_succ_of_ne_zero notNull
    have step : takePages checked (m + 1) (a + 1) pages s =
        if m = 0 then some (pages ++ [mmGetPpdPfn s (a + 1)], s.taken l [a + 1] (xs ++ ys))
        else takePages checked m ((xs ++ ys).headD 0) (pages ++ [mmGetPpdPfn s (a + 1)])
          (s.taken l [a + 1] (xs ++ ys)) := by
      simp only [takePages, moves, Option.bind_eq_bind, Option.bind_some, next]
      rfl
    rw [head, step]
    by_cases last : m = 0
    · have none : xs = [] := by
        rw [List.length_cons] at stops
        apply List.eq_nil_of_length_eq_zero
        omega
      subst none
      rw [if_pos last]
      exact ⟨rfl, after⟩
    · have tail : (if l = l then xs ++ ys else lists l) = xs ++ ys := if_pos rfl
      have stops' : xs.length = m ∨ xs.length < m ∧ ys = [] :=
        stops.imp Nat.succ.inj fun short => ⟨Nat.lt_of_succ_lt_succ short.1, short.2⟩
      obtain ⟨runs, rest⟩ := ih (pages ++ [mmGetPpdPfn s (a + 1)]) after tail stops' fun zero => absurd zero last
      rw [taken_cons chain.1] at runs rest
      rw [taken_head, if_pos rfl] at runs
      have lists' : (fun k => if k = l then ys else if k = l then xs ++ ys else lists k) =
          fun k => if k = l then ys else lists k := by
        funext k
        split <;> rfl
      rw [lists'] at rest
      rw [if_neg last, runs]
      refine ⟨?_, rest⟩
      rw [List.map_cons, List.append_assoc]
      rfl

end steps

/-- The pages that a request gets: those of the free list, and after them those of the zeroed one. -/
def allocatedPages (lists : PageList → List Nat) (pageCount : Nat) : List Nat :=
  (lists .freePageList ++ lists .zeroedPageList).take pageCount

/-- The pages that stay on each list. -/
def remainingPages (lists : PageList → List Nat) (pageCount : Nat) : PageList → List Nat
  | .freePageList => (lists .freePageList).drop pageCount
  | .zeroedPageList => (lists .zeroedPageList).drop (pageCount - (lists .freePageList).length)
  | l => lists l

/-- A memory descriptor of some pages. -/
def mmdOf (s : MmState) (ps : List Nat) : Mmd where
  flags := mdlAllocated
  pfnList := ps.map (mmGetPpdPfn s)

/-- What an allocation is to do. Of the other descriptors only those that a list now starts with change, by their link
back to the page in front. -/
structure Allocates (s : MmState) (lists : PageList → List Nat) (pageCount : Nat) (status : Status) (mmd : Option Mmd)
    (t : MmState) : Prop where
  distinct : ((allocatedPages lists pageCount).map (mmGetPpdPfn s)).Nodup
  active : ∀ p ∈ allocatedPages lists pageCount, t.ppd p = (s.ppd p).active
  others : ∀ p, p ∉ allocatedPages lists pageCount → t.ppd p = s.ppd p ∨
    (∃ l, (remainingPages lists pageCount l).head? = some p) ∧ t.ppd p = (s.ppd p).first
  remaining : PageListsOk t (remainingPages lists pageCount)
  mmd : mmd = some (mmdOf s (allocatedPages lists pageCount))
  status : status = .success ↔ (allocatedPages lists pageCount).length = pageCount

section allocation

variable {s : MmState} {lists : PageList → List Nat} {pageCount : Nat}

theorem allocatedPages_eq : allocatedPages lists pageCount = (lists .freePageList).take pageCount ++
    (lists .zeroedPageList).take (pageCount - (lists .freePageList).length) := List.take_append

theorem available_nodup (ok : PageListsOk s lists) : (lists .freePageList ++ lists .zeroedPageList).Nodup := by
  apply List.nodup_append.mpr
  refine ⟨(ok.chain .freePageList).1, (ok.chain .zeroedPageList).1, ?_⟩
  rintro p free q zeroed rfl
  exact absurd (ok.chains.disjoint free zeroed) (by decide)

theorem allocated_distinct (ok : PageListsOk s lists) :
    ((allocatedPages lists pageCount).map (mmGetPpdPfn s)).Nodup := by
  have mapped : ∀ p ∈ allocatedPages lists pageCount, s.Mapped p := by
    intro p inside
    rcases List.mem_append.mp (List.mem_of_mem_take inside) with free | zeroed
    · exact ((ok.member _ p).mp free).1
    · exact ((ok.member _ p).mp zeroed).1
  have apart : (allocatedPages lists pageCount).Nodup := (available_nodup ok).sublist (List.take_sublist _ _)
  apply List.pairwise_map.mpr
  apply apart.imp_of_mem
  intro p q here there ne same
  apply ne
  rw [← (mapped p here).1, same, (mapped q there).1]

/-- The state in which an allocation ends. -/
def MmState.allocated (s : MmState) (lists : PageList → List Nat) (pageCount : Nat) : MmState :=
  let missing := pageCount - (lists .freePageList).length
  (s.taken .freePageList ((lists .freePageList).take pageCount) ((lists .freePageList).drop pageCount)).taken
    .zeroedPageList ((lists .zeroedPageList).take missing) ((lists .zeroedPageList).drop missing)

theorem free_loop (checked : Bool) (ok : PageListsOk s lists) (entered : pageCount = 0 → lists .freePageList = []) :
    let t := s.taken .freePageList ((lists .freePageList).take pageCount) ((lists .freePageList).drop pageCount)
    takePages checked pageCount (s.pageListHead .freePageList) [] s =
      some (((lists .freePageList).take pageCount).map (mmGetPpdPfn s), t) ∧
      PageListsOk t fun k => if k = .freePageList then (lists .freePageList).drop pageCount else lists k := by
  apply takePages_taken checked _ ok (List.take_append_drop _ _).symm
  · rw [List.length_take, List.drop_eq_nil_iff]
    omega
  · intro zero
    rw [entered zero]
    exact List.drop_nil

/-- The loop over the zeroed list, which runs if there are pages missing. -/
theorem zeroed_loop (checked : Bool) (missing : Nat) (pages : List Nat) (ok : PageListsOk s lists) :
    let t := s.taken .zeroedPageList ((lists .zeroedPageList).take missing) ((lists .zeroedPageList).drop missing)
    (if 0 < missing then takePages checked missing (s.pageListHead .zeroedPageList) pages s else some (pages, s)) =
      some (pages ++ ((lists .zeroedPageList).take missing).map (mmGetPpdPfn s), t) ∧
      PageListsOk t fun k => if k = .zeroedPageList then (lists .zeroedPageList).drop missing else lists k := by
  by_cases short : 0 < missing
  · simp only [if_pos short]
    apply takePages_taken checked _ ok (List.take_append_drop _ _).symm
    · rw [List.length_take, List.drop_eq_nil_iff]
      omega
    · exact fun zero => absurd zero (Nat.ne_of_gt short)
  · have none : missing = 0 := Nat.eq_zero_of_not_pos short
    subst none
    have lists' : (fun k => if k = .zeroedPageList then lists .zeroedPageList else lists k) = lists := by
      funext k
      split
      · rename_i same
        rw [same]
      · rfl
    simp only [if_neg short, List.take_zero, List.drop_zero, List.map_nil, List.append_nil, lists', taken_nil ok]
    exact ⟨trivial, ok⟩

/-- An allocation that got its memory, of pages or from a free list that is empty. -/
theorem mmAllocatePhysicalPages_eq (checked mmdAllocated : Bool) (ok : PageListsOk s lists)
    (fits : pageCount ≤ s.physicalMemoryPages) (entered : pageCount = 0 → lists .freePageList = []) :
    mmAllocatePhysicalPages checked s pageCount true mmdAllocated =
      some (if (allocatedPages lists pageCount).length < pageCount then .partialCompletion else .success,
        if mmdAllocated then some (mmdOf s (allocatedPages lists pageCount)) else none,
        s.allocated lists pageCount) ∧
      PageListsOk (s.allocated lists pageCount) (remainingPages lists pageCount) := by
  let pages := ((lists .freePageList).take pageCount).map (mmGetPpdPfn s)
  let missing := pageCount - (lists .freePageList).length
  obtain ⟨first, after⟩ := free_loop checked ok entered
  obtain ⟨second, last⟩ := zeroed_loop checked missing pages after
  have length : pages.length = min pageCount (lists .freePageList).length := by
    rw [List.length_map, List.length_take]
  have lists' : (fun k => if k = .zeroedPageList then (lists .zeroedPageList).drop missing
      else if k = .freePageList then (lists .freePageList).drop pageCount else lists k) =
      remainingPages lists pageCount := by
    funext k
    cases k <;> rfl
  have all : pages ++ ((lists .zeroedPageList).take missing).map (mmGetPpdPfn s) =
      (allocatedPages lists pageCount).map (mmGetPpdPfn s) := by
    rw [allocatedPages_eq, List.map_append]
  refine ⟨?_, lists' ▸ last⟩
  unfold mmAllocatePhysicalPages
  rw [if_neg (Nat.not_lt.mpr fits), if_neg (by simp)]
  simp only [first, Option.bind_eq_bind, Option.bind_some]
  have total : (allocatedPages lists pageCount).length = ((allocatedPages lists pageCount).map (mmGetPpdPfn s)).length :=
    (List.length_map _).symm
  unfold mmdOf
  rw [total, ← all]
  by_cases short : pages.length < pageCount
  · have rest : pageCount - pages.length = missing := by omega
    rw [if_pos short, rest]
    rw [if_pos (by omega)] at second
    exact (congrArg (Option.bind · _) second).trans rfl
  · have same := second
    rw [if_neg (by omega)] at same
    obtain ⟨noMore, there⟩ := Prod.mk.inj (Option.some.inj same)
    have whole : pages ++ ((lists .zeroedPageList).take missing).map (mmGetPpdPfn s) = pages := noMore.symm
    have ends : s.allocated lists pageCount = _ := there.symm
    rw [if_neg short, whole, ends]

theorem allocated_ppd (s : MmState) (lists : PageList → List Nat) (pageCount p : Nat) :
    (s.allocated lists pageCount).ppd p =
      let missing := pageCount - (lists .freePageList).length
      let d := if p ∈ (lists .freePageList).take pageCount then (s.ppd p).active
        else if ((lists .freePageList).drop pageCount).head? = some p then (s.ppd p).first else s.ppd p
      if p ∈ (lists .zeroedPageList).take missing then d.active
      else if ((lists .zeroedPageList).drop missing).head? = some p then d.first else d := rfl

theorem allocated_active {p : Nat} (inside : p ∈ allocatedPages lists pageCount) :
    (s.allocated lists pageCount).ppd p = (s.ppd p).active := by
  rw [allocatedPages_eq, List.mem_append] at inside
  rw [allocated_ppd]
  simp only
  rcases inside with free | zeroed
  · simp only [if_pos free, active_active, active_first, ite_self]
  · rw [if_pos zeroed]
    split
    · exact active_active _
    · split
      · exact first_active _
      · rfl

theorem allocated_others {p : Nat} (outside : p ∉ allocatedPages lists pageCount) :
    (s.allocated lists pageCount).ppd p = s.ppd p ∨
      (∃ l, (remainingPages lists pageCount l).head? = some p) ∧
        (s.allocated lists pageCount).ppd p = (s.ppd p).first := by
  rw [allocatedPages_eq, List.mem_append, not_or] at outside
  rw [allocated_ppd]
  simp only [if_neg outside.1, if_neg outside.2]
  by_cases zeroed : ((lists .zeroedPageList).drop (pageCount - (lists .freePageList).length)).head? = some p
  · right
    refine ⟨⟨.zeroedPageList, zeroed⟩, ?_⟩
    rw [if_pos zeroed]
    split
    · exact first_first _
    · rfl
  · rw [if_neg zeroed]
    by_cases free : ((lists .freePageList).drop pageCount).head? = some p
    · right
      exact ⟨⟨.freePageList, free⟩, if_pos free⟩
    · left
      exact if_neg free

/-- Asked for no page, the first loop takes one before it looks at the count. -/
theorem mmAllocatePhysicalPages_overrun (checked mmdAllocated : Bool) (ok : PageListsOk s lists)
    (filled : lists .freePageList ≠ []) : mmAllocatePhysicalPages checked s 0 true mmdAllocated = none := by
  have head : s.pageListHead .freePageList ≠ 0 := fun null => filled ((chain_empty_iff (ok.chain .freePageList)).mp null)
  obtain ⟨p, first⟩ := Nat.exists_eq_succ_of_ne_zero head
  unfold mmAllocatePhysicalPages
  rw [first]
  rfl

/-- An allocation does what it is to do where it has memory for its array and its descriptor, unless it is asked for
no page while there are free ones. -/
theorem mmAllocatePhysicalPages_allocates_iff (checked arrayAllocated mmdAllocated : Bool) (ok : PageListsOk s lists)
    (fits : pageCount ≤ s.physicalMemoryPages) :
    (∃ status mmd t, mmAllocatePhysicalPages checked s pageCount arrayAllocated mmdAllocated = some (status, mmd, t) ∧
      Allocates s lists pageCount status mmd t) ↔
      arrayAllocated = true ∧ mmdAllocated = true ∧ (0 < pageCount ∨ lists .freePageList = []) := by
  constructor
  · rintro ⟨status, mmd, t, runs, allocates⟩
    cases arrayAllocated with
    | false =>
      have refused : mmAllocatePhysicalPages checked s pageCount false mmdAllocated =
          some (.insufficientResources, none, s) := by
        unfold mmAllocatePhysicalPages
        rw [if_neg (Nat.not_lt.mpr fits)]
        rfl
      rw [refused] at runs
      obtain ⟨_, rest⟩ := Prod.mk.inj (Option.some.inj runs)
      obtain ⟨noMmd, _⟩ := Prod.mk.inj rest
      rw [allocates.mmd] at noMmd
      contradiction
    | true =>
      by_cases entered : pageCount = 0 → lists .freePageList = []
      · have asked : 0 < pageCount ∨ lists .freePageList = [] := (Nat.eq_zero_or_pos pageCount).elim
          (fun zero => .inr (entered zero)) .inl
        rw [(mmAllocatePhysicalPages_eq checked mmdAllocated ok fits entered).1] at runs
        obtain ⟨_, rest⟩ := Prod.mk.inj (Option.some.inj runs)
        obtain ⟨given, _⟩ := Prod.mk.inj rest
        cases mmdAllocated with
        | false =>
          rw [allocates.mmd] at given
          contradiction
        | true => exact ⟨rfl, rfl, asked⟩
      · obtain ⟨zero, filled⟩ := Classical.not_imp.mp entered
        subst zero
        rw [mmAllocatePhysicalPages_overrun checked mmdAllocated ok filled] at runs
        contradiction
  · rintro ⟨rfl, rfl, asked⟩
    have entered : pageCount = 0 → lists .freePageList = [] := by
      rintro rfl
      exact asked.resolve_left (Nat.lt_irrefl 0)
    obtain ⟨runs, remaining⟩ := mmAllocatePhysicalPages_eq checked true ok fits entered
    refine ⟨_, _, _, runs, allocated_distinct ok, fun p => allocated_active, fun p => allocated_others, remaining, rfl, ?_⟩
    have most : (allocatedPages lists pageCount).length ≤ pageCount := List.length_take_le _ _
    split
    · rename_i short
      exact iff_of_false nofun (Nat.ne_of_lt short)
    · rename_i full
      exact iff_of_true rfl (Nat.le_antisymm most (Nat.le_of_not_lt full))

end allocation

/-- Four zeroed pages, of which three are asked for. -/
theorem fourPages_allocates : ∃ lists status mmd t, PageListsOk fourPages lists ∧
    mmAllocatePhysicalPages true fourPages 3 true true = some (status, mmd, t) ∧
    Allocates fourPages lists 3 status mmd t := by
  obtain ⟨lists, ok⟩ := fourPages_wellFormed
  have fits : 3 ≤ fourPages.physicalMemoryPages := by decide
  obtain ⟨status, mmd, t, runs, allocates⟩ :=
    (mmAllocatePhysicalPages_allocates_iff true true true ok fits).mpr ⟨rfl, rfl, .inl (by decide)⟩
  exact ⟨lists, status, mmd, t, ok, runs, allocates⟩

/-- A page is freed, and then none is asked for. -/
theorem freedPage_overrun : ∃ s lists,
    exec (mmStep true) fourPages [.allocate 1 true true, .free { flags := 1, pfnList := [0] }] = some s ∧
    PageListsOk s lists ∧ ∀ checked : Bool, ¬∃ status mmd t,
      mmAllocatePhysicalPages checked s 0 true true = some (status, mmd, t) ∧ Allocates s lists 0 status mmd t := by
  let calls : List MmOp := [.allocate 1 true true, .free { flags := 1, pfnList := [0] }]
  have returns : (exec (mmStep true) fourPages calls).map (fun s => s.pageListHead .freePageList) = some 1200 := by decide
  obtain ⟨s, code, head⟩ := Option.map_eq_some_iff.mp returns
  have run : Run (fun s op t => mmStep true s op = some t) fourPages calls s := exec_run.mp code
  obtain ⟨lists, ok⟩ := run.invariant (fun ok step => mmStep_wellFormed ok step) fourPages_wellFormed
  have filled : lists .freePageList ≠ [] := by
    intro none
    have null := (chain_empty_iff (ok.chain .freePageList)).mpr none
    rw [head] at null
    contradiction
  refine ⟨s, lists, code, ok, ?_⟩
  rintro checked ⟨status, mmd, t, runs, _⟩
  rw [mmAllocatePhysicalPages_overrun checked true ok filled] at runs
  contradiction

end Gr8os.Mm
