import Gr8os.Ob.DirectoryCreation

/-! What lookups can find while ObCreateDirectory is under way on other threads. -/
namespace Gr8os.Ob.Publication

open Ke Intrusive Runs

/-- An object that the thread made and whose lock it has not initialised. -/
structure Raw (s : State) (t o : Nat) : Prop where
  created : o < s.created
  unready : s.mutexReady o = false
  owned : s.owner o = t

def JobOk (s : State) (t directory : Nat) : Job → Prop
  | .insert o => Raw s t o ∧ s.parentDirectory o = none
  | .find _ => True
  | .query none => True
  | .query (some previous) => s.parentDirectory previous = some directory

/-- The entry is the head of the list or an object of the directory. -/
def OnList (s : State) (directory : Nat) (obj : Entry) : Prop :=
  obj = .objectList directory ∨ ∃ o, obj = .directoryList o ∧ s.parentDirectory o = some directory

def PcOk (s : State) (t : Nat) : Pc → Prop
  | .idle => True
  | .acquireMutex directory job => s.mutexReady directory = true ∧ JobOk s t directory job
  | .locked directory job => s.mutexReady directory = true ∧ JobOk s t directory job
  | .compare directory _ obj => s.mutexReady directory = true ∧ OnList s directory obj
  | .releaseMutex _ (.inserted o) => Raw s t o
  | .releaseMutex directory (.found o) => s.parentDirectory o = some directory
  | .releaseMutex _ .nothing => True
  | .initializeListHead o => Raw s t o ∧ s.isDirectory o = true
  | .initializeMutex o => Raw s t o ∧ s.isDirectory o = true ∧ Ring s.links (.objectList o) []

/-- The list of a directory, in memory and as the parent pointers give it. -/
def Listed (s : State) (directory : Nat) : Prop :=
  ∃ os : List Nat, Ring s.links (.objectList directory) (os.map .directoryList) ∧
    ∀ o, o ∈ os ↔ s.parentDirectory o = some directory

structure Inv (s : State) : Prop where
  lists : ∀ d, s.mutexReady d = true → d < s.created ∧ Listed s d
  parents : ∀ o d, s.parentDirectory o = some d → o < s.created ∧ s.mutexReady d = true
  published : ∀ o d, s.parentDirectory o = some d → s.isDirectory o = true → s.mutexReady o = true ∨ s.Publishing o
  handed : ∀ o ∈ s.handed, o < s.created ∧ (s.isDirectory o = true → s.mutexReady o = true)
  pcs : ∀ t, PcOk s t (s.pc t)

/-- What a step of another thread leaves to a thread. -/
structure Frame (s s' : State) (t : Nat) : Prop where
  ready : ∀ d, s.mutexReady d = true → s'.mutexReady d = true
  parent : ∀ o d, s.parentDirectory o = some d → s'.parentDirectory o = some d
  raw : ∀ o, Raw s t o → Raw s' t o
  kind : ∀ o, Raw s t o → s'.isDirectory o = s.isDirectory o
  unlinked : ∀ o, Raw s t o → s.parentDirectory o = none → s'.parentDirectory o = none
  forward : ∀ o, Raw s t o → s'.links.flink (.objectList o) = s.links.flink (.objectList o)
  backward : ∀ o, Raw s t o → s'.links.blink (.objectList o) = s.links.blink (.objectList o)

section Framing

variable {s s' : State} {t d : Nat}

theorem JobOk.frame {job : Job} (ok : JobOk s t d job) (frame : Frame s s' t) : JobOk s' t d job := by
  cases job with
  | insert o => exact ⟨frame.raw o ok.1, frame.unlinked o ok.1 ok.2⟩
  | find => trivial
  | query previous =>
    cases previous with
    | none => trivial
    | some o => exact frame.parent o d ok

theorem OnList.frame {obj : Entry} (ok : OnList s d obj) (frame : Frame s s' t) : OnList s' d obj := by
  rcases ok with head | ⟨o, rfl, parent⟩
  · exact .inl head
  · exact .inr ⟨o, rfl, frame.parent o d parent⟩

theorem PcOk.frame {pc : Pc} (ok : PcOk s t pc) (frame : Frame s s' t) : PcOk s' t pc := by
  cases pc with
  | idle => trivial
  | acquireMutex d job => exact ⟨frame.ready d ok.1, ok.2.frame frame⟩
  | locked d job => exact ⟨frame.ready d ok.1, ok.2.frame frame⟩
  | compare d name obj => exact ⟨frame.ready d ok.1, ok.2.frame frame⟩
  | releaseMutex d outcome =>
    cases outcome with
    | inserted o => exact frame.raw o ok
    | found o => exact frame.parent o d ok
    | nothing => trivial
  | initializeListHead o => exact ⟨frame.raw o ok.1, (frame.kind o ok.1).trans ok.2⟩
  | initializeMutex o =>
    obtain ⟨raw, directory, ring⟩ := ok
    have forward := (frame.forward o raw).trans ring.2.1
    have backward := (frame.backward o raw).trans ring.2.2
    exact ⟨frame.raw o raw, (frame.kind o raw).trans directory, ring_nil forward backward⟩

/-- The moving thread shows its own part; the others keep theirs. -/
theorem pcs_move {pc : Pc} (inv : Inv s) (moved : s'.pc = Function.update s.pc t pc)
    (frames : ∀ u ≠ t, Frame s s' u) (ok : PcOk s' t pc) (u : Nat) : PcOk s' u (s'.pc u) := by
  rw [moved]
  by_cases same : u = t
  · subst same
    rw [Function.update_self]
    exact ok
  · rw [Function.update_of_ne same]
    exact (inv.pcs u).frame (frames u same)

/-- Who is publishing an object has yet to initialise its lock. -/
theorem PcOk.publishing_raw {pc : Pc} {o : Nat} (ok : PcOk s t pc) (publishing : pc.publishing = some o) :
    Raw s t o := by
  cases pc with
  | releaseMutex d outcome =>
    cases outcome with
    | inserted p =>
      cases Option.some.inj publishing
      exact ok
    | found p => contradiction
    | nothing => contradiction
  | initializeListHead p =>
    cases Option.some.inj publishing
    exact ok.1
  | initializeMutex p =>
    cases Option.some.inj publishing
    exact ok.1
  | idle => contradiction
  | acquireMutex d job => contradiction
  | locked d job => contradiction
  | compare d name obj => contradiction

theorem publishing_move {pc : Pc} {o : Nat} (moved : s'.pc = Function.update s.pc t pc)
    (owner : s'.owner o = s.owner o) (publishing : s.Publishing o)
    (own : (s.pc t).publishing = some o → pc.publishing = some o) : s'.Publishing o := by
  rw [State.Publishing, owner, moved]
  by_cases same : s.owner o = t
  · rw [same, Function.update_self]
    apply own
    rw [← same]
    exact publishing
  · rw [Function.update_of_ne same]
    exact publishing

theorem Inv.unready (inv : Inv s) {o : Nat} (publishing : s.Publishing o) : s.mutexReady o = false :=
  ((inv.pcs (s.owner o)).publishing_raw publishing).unready

theorem Inv.initialised (inv : Inv s) (ready : s.mutexReady d = true) : s.Initialised d := by
  obtain ⟨_, os, ring, _⟩ := inv.lists d ready
  exact ⟨⟨os, ring⟩, ready⟩

/-- An object in a directory is initialised exactly once its creator is through with it. -/
theorem Inv.initialised_iff (inv : Inv s) {o : Nat} (parent : s.parentDirectory o = some d)
    (directory : s.isDirectory o = true) : s.Initialised o ↔ ¬s.Publishing o := by
  constructor
  · intro initialised publishing
    have unready := inv.unready publishing
    rw [initialised.2] at unready
    contradiction
  · intro settled
    rcases inv.published o d parent directory with ready | publishing
    · exact inv.initialised ready
    · exact absurd publishing settled

/-- From an entry of a list the links lead to the head or to another object of the directory. -/
theorem Inv.onList_next (inv : Inv s) (ready : s.mutexReady d = true) {obj : Entry} (on : OnList s d obj) :
    OnList s d (s.links.flink obj) := by
  obtain ⟨_, os, ring, members⟩ := inv.lists d ready
  have inside : s.links.flink obj ∈ Entry.objectList d :: os.map .directoryList := by
    rcases on with rfl | ⟨o, rfl, parent⟩
    · exact (ring_ends ring).1
    · exact (ring_neighbours ring (List.mem_map_of_mem ((members o).mpr parent))).1
  rcases mem_entries.mp inside with head | ⟨o, member, same⟩
  · exact .inl head
  · exact .inr ⟨o, same, (members o).mp member⟩

end Framing

section Creation

variable {s : State} {d : Nat} (t : Nat) (isDirectory : Bool) (objectName : List WChar)

theorem Inv.ready_ne (inv : Inv s) (ready : s.mutexReady d = true) : d ≠ s.created := by
  have := (inv.lists d ready).1
  omega

theorem Inv.child_ne (inv : Inv s) {o : Nat} (parent : s.parentDirectory o = some d) : o ≠ s.created := by
  have := (inv.parents o d parent).1
  omega

theorem obCreateObject_flink {x : Entry} (list : x ≠ .directoryList s.created) (head : x ≠ .objectList s.created) :
    (obCreateObject s t isDirectory objectName).links.flink x = s.links.flink x := by
  simp [obCreateObject, initializeListHead, list, head]

theorem obCreateObject_blink {x : Entry} (list : x ≠ .directoryList s.created) (head : x ≠ .objectList s.created) :
    (obCreateObject s t isDirectory objectName).links.blink x = s.links.blink x := by
  simp [obCreateObject, initializeListHead, list, head]

theorem obCreateObject_ready :
    (obCreateObject s t isDirectory objectName).mutexReady d = true ↔ d ≠ s.created ∧ s.mutexReady d = true := by
  change Function.update s.mutexReady s.created false d = true ↔ _
  by_cases same : d = s.created
  · simp [same]
  · simp [same]

theorem obCreateObject_parent {o : Nat} :
    (obCreateObject s t isDirectory objectName).parentDirectory o = some d ↔
      o ≠ s.created ∧ s.parentDirectory o = some d := by
  change Function.update s.parentDirectory s.created none o = some d ↔ _
  by_cases same : o = s.created
  · simp [same]
  · simp [same]

theorem Inv.created_listed (inv : Inv s) (ready : s.mutexReady d = true) :
    Listed (obCreateObject s t isDirectory objectName) d := by
  obtain ⟨_, os, ring, members⟩ := inv.lists d ready
  have outside : ∀ o ∈ os, o ≠ s.created := fun o member => inv.child_ne ((members o).mp member)
  have older : ∀ x ∈ Entry.objectList d :: os.map .directoryList,
      x ≠ .directoryList s.created ∧ x ≠ .objectList s.created := by
    intro x member
    rcases mem_entries.mp member with rfl | ⟨o, inside, rfl⟩
    · exact ⟨by simp, fun same => inv.ready_ne ready (Entry.objectList.inj same)⟩
    · exact ⟨fun same => outside o inside (Entry.directoryList.inj same), by simp⟩
  refine ⟨os, ring_congr ?_ ?_ ring, fun o => ?_⟩
  · intro x member
    exact obCreateObject_flink t isDirectory objectName (older x member).1 (older x member).2
  · intro x member
    exact obCreateObject_blink t isDirectory objectName (older x member).1 (older x member).2
  · constructor
    · intro member
      exact (obCreateObject_parent t isDirectory objectName).mpr ⟨outside o member, (members o).mp member⟩
    · intro parent
      exact (members o).mpr ((obCreateObject_parent t isDirectory objectName).mp parent).2

theorem Inv.created_frame (inv : Inv s) (pc : Pc) (u : Nat) :
    Frame s ((obCreateObject s t isDirectory objectName).goto t pc) u := by
  have apart : ∀ o, Raw s u o → o ≠ s.created := by
    intro o raw same
    have := raw.created
    omega
  refine ⟨fun d ready => (obCreateObject_ready t isDirectory objectName).mpr ⟨inv.ready_ne ready, ready⟩,
    fun o d parent => (obCreateObject_parent t isDirectory objectName).mpr ⟨inv.child_ne parent, parent⟩,
    fun o raw => ?_, fun o raw => ?_, fun o raw none => ?_,
    fun o raw => obCreateObject_flink t isDirectory objectName (by simp) (by simp [apart o raw]),
    fun o raw => obCreateObject_blink t isDirectory objectName (by simp) (by simp [apart o raw])⟩
  · have other := apart o raw
    exact ⟨Nat.lt_succ_of_lt raw.created, (Function.update_of_ne other _ _).trans raw.unready,
      (Function.update_of_ne other _ _).trans raw.owned⟩
  · exact Function.update_of_ne (apart o raw) _ _
  · exact (Function.update_of_ne (apart o raw) _ _).trans none

/-- A new object is in no list and its lock is not initialised. -/
theorem Inv.createStep (inv : Inv s) (idle : s.pc t = .idle) (ready : s.mutexReady d = true) :
    Inv ((obCreateObject s t isDirectory objectName).goto t (.acquireMutex d (.insert s.created))) := by
  refine ⟨?_, ?_, ?_, ?_, pcs_move inv rfl (fun u _ => inv.created_frame t isDirectory objectName _ u) ?_⟩
  · intro d now
    have before := ((obCreateObject_ready t isDirectory objectName).mp now).2
    exact ⟨Nat.lt_succ_of_lt (inv.lists d before).1, inv.created_listed t isDirectory objectName before⟩
  · intro o d now
    obtain ⟨bound, ready⟩ := inv.parents o d ((obCreateObject_parent t isDirectory objectName).mp now).2
    exact ⟨Nat.lt_succ_of_lt bound, (obCreateObject_ready t isDirectory objectName).mpr ⟨inv.ready_ne ready, ready⟩⟩
  · intro o d now directory
    obtain ⟨other, parent⟩ := (obCreateObject_parent t isDirectory objectName).mp now
    have before : s.isDirectory o = true := (Function.update_of_ne other _ _).symm.trans directory
    rcases inv.published o d parent before with ready | publishing
    · exact .inl ((obCreateObject_ready t isDirectory objectName).mpr ⟨other, ready⟩)
    · right
      refine publishing_move (s := s) rfl (Function.update_of_ne other _ _) publishing ?_
      rw [idle]
      exact nofun
  · intro o member
    obtain ⟨bound, known⟩ := inv.handed o member
    have other : o ≠ s.created := by omega
    refine ⟨Nat.lt_succ_of_lt bound, fun directory => ?_⟩
    have before : s.isDirectory o = true := (Function.update_of_ne other _ _).symm.trans directory
    exact (obCreateObject_ready t isDirectory objectName).mpr ⟨other, known before⟩
  · refine ⟨(obCreateObject_ready t isDirectory objectName).mpr ⟨inv.ready_ne ready, ready⟩, ⟨Nat.lt_succ_self _, ?_, ?_⟩, ?_⟩
    · exact Function.update_self ..
    · exact Function.update_self ..
    · exact Function.update_self ..

end Creation

section Insertion

variable {s : State} {t d o : Nat}

/-- The state behind InsertTailList and the store of ParentDirectory. -/
def State.insert (s : State) (directory o : Nat) : State :=
  { s with
    links := insertTailList s.links (.objectList directory) (.directoryList o)
    parentDirectory := Function.update s.parentDirectory o (some directory) }

theorem directoryList_notMem {d' : Nat} {os : List Nat} (unlinked : s.parentDirectory o = none)
    (members : ∀ p, p ∈ os ↔ s.parentDirectory p = some d') :
    Entry.directoryList o ∉ Entry.objectList d' :: os.map .directoryList := by
  intro member
  rcases mem_entries.mp member with head | ⟨p, inside, same⟩
  · contradiction
  · cases same
    have parent := (members o).mp inside
    rw [unlinked] at parent
    contradiction

theorem objectList_notMem {d' : Nat} {os : List Nat} (other : d' ≠ d) :
    Entry.objectList d' ∉ Entry.objectList d :: os.map .directoryList := by
  intro member
  rcases mem_entries.mp member with same | ⟨q, _, wrong⟩
  · exact other (Entry.objectList.inj same)
  · contradiction

theorem insert_parent_of_ne {p : Nat} (other : p ≠ o) : (s.insert d o).parentDirectory p = s.parentDirectory p :=
  Function.update_of_ne other _ _

theorem insert_parent_kept {p d' : Nat} (unlinked : s.parentDirectory o = none) (parent : s.parentDirectory p = some d') :
    (s.insert d o).parentDirectory p = some d' := by
  have other : p ≠ o := by
    rintro rfl
    rw [unlinked] at parent
    contradiction
  exact (insert_parent_of_ne other).trans parent

/-- The objects of a directory, in the order of its list. -/
def ListedAs (s : State) (directory : Nat) (os : List Nat) : Prop :=
  Ring s.links (.objectList directory) (os.map .directoryList) ∧ ∀ o, o ∈ os ↔ s.parentDirectory o = some directory

/-- The new object goes to the tail of its directory's list. -/
theorem ListedAs.insert {os : List Nat} (listed : ListedAs s d os) (unlinked : s.parentDirectory o = none) :
    ListedAs (s.insert d o) d (os ++ [o]) := by
  obtain ⟨ring, members⟩ := listed
  refine ⟨?_, fun p => ?_⟩
  · rw [List.map_append]
    exact ring_insertTail ring (directoryList_notMem unlinked members)
  · by_cases new : p = o
    · subst new
      simp [State.insert]
    · rw [insert_parent_of_ne new, ← members p]
      simp [new]

theorem ListedAs.insert_elsewhere {d' : Nat} {os os' : List Nat} (listed' : ListedAs s d' os') (listed : ListedAs s d os)
    (other : d' ≠ d) (unlinked : s.parentDirectory o = none) : ListedAs (s.insert d o) d' os' := by
  obtain ⟨ring, members⟩ := listed
  obtain ⟨ring', members'⟩ := listed'
  refine ⟨ring_insertBefore_frame ring ring' ?_ (directoryList_notMem unlinked members'), fun p => ?_⟩
  · intro x inside' inside
    rcases mem_entries.mp inside' with rfl | ⟨p, member', rfl⟩
    · exact objectList_notMem other inside
    · rcases mem_entries.mp inside with head | ⟨q, member, equal⟩
      · contradiction
      · cases equal
        have one := (members' p).mp member'
        have two := (members p).mp member
        exact other (Option.some.inj (one.symm.trans two))
  · by_cases new : p = o
    · subst new
      simp [State.insert, members', unlinked, Ne.symm other]
    · rw [insert_parent_of_ne new]
      exact members' p

theorem insert_listed (listed : Listed s d) (unlinked : s.parentDirectory o = none) {d' : Nat} (listed' : Listed s d') :
    Listed (s.insert d o) d' := by
  obtain ⟨os, list⟩ := listed
  obtain ⟨os', list'⟩ := listed'
  by_cases same : d' = d
  · subst same
    exact ⟨os ++ [o], ListedAs.insert list unlinked⟩
  · exact ⟨os', ListedAs.insert_elsewhere list' list same unlinked⟩

theorem Inv.insert_frame (inv : Inv s) (ready : s.mutexReady d = true) (raw : Raw s t o)
    (unlinked : s.parentDirectory o = none) (pc : Pc) {u : Nat} (other : u ≠ t) :
    Frame s ((s.insert d o).goto t pc) u := by
  obtain ⟨_, os, ring, _⟩ := inv.lists d ready
  have elsewhere : ∀ p, Raw s u p → p ≠ d := by
    rintro p mine rfl
    rw [mine.unready] at ready
    contradiction
  refine ⟨fun _ h => h, fun p d' parent => insert_parent_kept unlinked parent,
    fun p mine => ⟨mine.created, mine.unready, mine.owned⟩, fun _ _ => rfl, fun p mine none => ?_,
    fun p mine => ?_, fun p mine => ?_⟩
  · have apart : p ≠ o := by
      rintro rfl
      exact other (mine.owned.symm.trans raw.owned)
    exact (insert_parent_of_ne apart).trans none
  · have far : Entry.objectList p ≠ s.links.blink (.objectList d) := by
      intro same
      exact objectList_notMem (elsewhere p mine) (same ▸ (ring_ends ring).2)
    change (s.links.insertBefore (.objectList d) (.directoryList o)).flink (.objectList p) = _
    rw [insertBefore_flink, if_neg far, if_neg (by simp)]
  · have far : Entry.objectList p ≠ .objectList d := fun same => elsewhere p mine (Entry.objectList.inj same)
    change (s.links.insertBefore (.objectList d) (.directoryList o)).blink (.objectList p) = _
    rw [insertBefore_blink, if_neg far, if_neg (by simp)]

/-- The creator has published its object when it gives the lock back. -/
theorem Inv.insertStep (inv : Inv s) (here : s.pc t = .locked d (.insert o)) :
    Inv ((s.insert d o).goto t (.releaseMutex d (.inserted o))) := by
  have ok := inv.pcs t
  rw [here] at ok
  obtain ⟨ready, raw, unlinked⟩ := ok
  refine ⟨?_, ?_, ?_, inv.handed, pcs_move inv rfl (fun u other => inv.insert_frame ready raw unlinked _ other) ?_⟩
  · intro d' ready'
    exact ⟨(inv.lists d' ready').1, insert_listed (inv.lists d ready).2 unlinked (inv.lists d' ready').2⟩
  · intro p d' parent
    by_cases new : p = o
    · subst new
      change Function.update s.parentDirectory p (some d) p = some d' at parent
      rw [Function.update_self] at parent
      cases parent
      exact ⟨raw.created, ready⟩
    · exact inv.parents p d' ((insert_parent_of_ne new).symm.trans parent)
  · intro p d' parent directory
    by_cases new : p = o
    · subst new
      right
      change ((Function.update s.pc t _) (s.owner p)).publishing = some p
      rw [raw.owned, Function.update_self]
      rfl
    · rcases inv.published p d' ((insert_parent_of_ne new).symm.trans parent) directory with ready | publishing
      · exact .inl ready
      · right
        refine publishing_move (s := s) rfl rfl publishing ?_
        rw [here]
        exact nofun
  · exact ⟨raw.created, raw.unready, raw.owned⟩

end Insertion

section Moves

variable {s : State} {t : Nat}

theorem Inv.goto (inv : Inv s) (pc : Pc) (holder : Nat → Option Nat) (handed : List Nat) (ok : PcOk s t pc)
    (known : ∀ o ∈ handed, o < s.created ∧ (s.isDirectory o = true → s.mutexReady o = true))
    (kept : ∀ o, (s.pc t).publishing = some o → s.isDirectory o = true → pc.publishing = some o) :
    Inv { s.goto t pc with holder := holder, handed := handed } := by
  have frames : ∀ u ≠ t, Frame s { s.goto t pc with holder := holder, handed := handed } u := fun u _ =>
    ⟨fun _ h => h, fun _ _ h => h, fun _ raw => ⟨raw.created, raw.unready, raw.owned⟩, fun _ _ => rfl, fun _ _ h => h,
      fun _ _ => rfl, fun _ _ => rfl⟩
  have own : PcOk { s.goto t pc with holder := holder, handed := handed } t pc := by
    refine ok.frame ⟨fun _ h => h, fun _ _ h => h, fun _ raw => ⟨raw.created, raw.unready, raw.owned⟩, fun _ _ => rfl,
      fun _ _ h => h, fun _ _ => rfl, fun _ _ => rfl⟩
  refine ⟨inv.lists, inv.parents, ?_, known, pcs_move inv rfl frames own⟩
  intro o d parent directory
  rcases inv.published o d parent directory with ready | publishing
  · exact .inl ready
  · exact .inr (publishing_move (s := s) rfl rfl publishing fun mine => kept o mine directory)

/-- A step on a thread that publishes nothing, with the lists and the handed objects as they were. -/
theorem Inv.pass (inv : Inv s) (pc : Pc) (holder : Nat → Option Nat) (ok : PcOk s t pc)
    (quiet : (s.pc t).publishing = none) : Inv { s.goto t pc with holder := holder } := by
  apply inv.goto pc holder s.handed ok inv.handed
  intro o publishing
  rw [quiet] at publishing
  contradiction

/-- The list head of a directory whose lock is not initialised is in no list. -/
theorem Inv.listHeadStep (inv : Inv s) {o : Nat} (here : s.pc t = .initializeListHead o) :
    Inv { s.goto t (.initializeMutex o) with links := initializeListHead s.links (.objectList o) } := by
  have ok := inv.pcs t
  rw [here] at ok
  obtain ⟨raw, directory⟩ := ok
  have away : ∀ {d : Nat} {os : List Nat}, s.mutexReady d = true →
      ∀ x ∈ Entry.objectList d :: os.map .directoryList, x ≠ .objectList o := by
    rintro d os ready x member rfl
    have other : o ≠ d := by
      rintro rfl
      rw [raw.unready] at ready
      contradiction
    exact objectList_notMem other member
  refine ⟨?_, inv.parents, ?_, inv.handed, pcs_move inv rfl ?_ ?_⟩
  · intro d ready
    obtain ⟨bound, os, ring, members⟩ := inv.lists d ready
    refine ⟨bound, os, ring_congr ?_ ?_ ring, members⟩
    · intro x member
      simp [initializeListHead, away ready x member]
    · intro x member
      simp [initializeListHead, away ready x member]
  · intro p d parent directory
    rcases inv.published p d parent directory with ready | publishing
    · exact .inl ready
    · right
      refine publishing_move (s := s) rfl rfl publishing ?_
      rw [here]
      exact id
  · intro u other
    have apart : ∀ p, Raw s u p → p ≠ o := by
      rintro p mine rfl
      exact other (mine.owned.symm.trans raw.owned)
    exact ⟨fun _ h => h, fun _ _ h => h, fun p mine => ⟨mine.created, mine.unready, mine.owned⟩, fun _ _ => rfl,
      fun _ _ h => h, fun p mine => by simp [initializeListHead, apart p mine],
      fun p mine => by simp [initializeListHead, apart p mine]⟩
  · refine ⟨⟨raw.created, raw.unready, raw.owned⟩, directory, ring_nil ?_ ?_⟩
    · simp [initializeListHead]
    · simp [initializeListHead]

/-- The directory gets its lock while its list is still empty, for nothing was inserted into it. -/
theorem Inv.mutexStep (inv : Inv s) {o : Nat} (here : s.pc t = .initializeMutex o) :
    Inv { s.goto t .idle with mutexReady := Function.update s.mutexReady o true, handed := o :: s.handed } := by
  have ok := inv.pcs t
  rw [here] at ok
  obtain ⟨raw, _, ring⟩ := ok
  have self : Function.update s.mutexReady o true o = true := Function.update_self ..
  have kept : ∀ d, s.mutexReady d = true → Function.update s.mutexReady o true d = true := by
    intro d ready
    by_cases same : d = o
    · rw [same]
      exact self
    · exact (Function.update_of_ne same _ _).trans ready
  refine ⟨?_, ?_, ?_, ?_, pcs_move inv rfl ?_ trivial⟩
  · intro d ready
    by_cases same : d = o
    · subst same
      refine ⟨raw.created, [], ring, fun p => ?_⟩
      constructor
      · intro member
        contradiction
      · intro parent
        have wrong := (inv.parents p d parent).2
        rw [raw.unready] at wrong
        contradiction
    · exact inv.lists d ((Function.update_of_ne same _ _).symm.trans ready)
  · intro p d parent
    obtain ⟨bound, ready⟩ := inv.parents p d parent
    exact ⟨bound, kept d ready⟩
  · intro p d parent directory
    by_cases same : p = o
    · exact .inl (same ▸ self)
    · rcases inv.published p d parent directory with ready | publishing
      · exact .inl (kept p ready)
      · right
        refine publishing_move (s := s) rfl rfl publishing ?_
        rw [here]
        exact fun mine => absurd (Option.some.inj mine).symm same
  · intro p member
    rcases List.mem_cons.mp member with rfl | old
    · exact ⟨raw.created, fun _ => self⟩
    · obtain ⟨bound, known⟩ := inv.handed p old
      exact ⟨bound, fun directory => kept p (known directory)⟩
  · intro u other
    refine ⟨kept, fun _ _ h => h, fun p mine => ⟨mine.created, ?_, mine.owned⟩, fun _ _ => rfl, fun _ _ h => h,
      fun _ _ => rfl, fun _ _ => rfl⟩
    have apart : p ≠ o := by
      rintro rfl
      exact other (mine.owned.symm.trans raw.owned)
    exact (Function.update_of_ne apart _ _).trans mine.unready

/-- Giving the lock back: the creator of a directory goes on, and a walk hands out what it found. -/
theorem Inv.releaseStep (inv : Inv s) {s' : State} {d : Nat} {outcome : Outcome}
    (here : s.pc t = .releaseMutex d outcome) (settled : (s.pc t).Settled s) (run : s.step t = some s') : Inv s' := by
  have ok := inv.pcs t
  rw [here] at ok settled
  cases outcome with
  | inserted o =>
    simp only [State.step, here] at run
    split at run
    · rename_i directory
      cases Option.some.inj run
      refine inv.goto (.initializeListHead o) _ s.handed ⟨⟨ok.created, ok.unready, ok.owned⟩, directory⟩ inv.handed ?_
      intro p publishing _
      rw [here] at publishing
      exact publishing
    · rename_i plain
      cases Option.some.inj run
      refine inv.goto .idle _ s.handed trivial inv.handed ?_
      intro p publishing directory
      rw [here] at publishing
      cases Option.some.inj publishing
      exact absurd directory plain
  | found o =>
    simp only [State.step, here] at run
    cases Option.some.inj run
    refine inv.goto .idle _ (o :: s.handed) trivial ?_ ?_
    · intro p member
      rcases List.mem_cons.mp member with rfl | old
      · refine ⟨(inv.parents p d ok).1, fun directory => ?_⟩
        rcases inv.published p d ok directory with ready | publishing
        · exact ready
        · exact absurd publishing (settled directory)
      · exact inv.handed p old
    · intro p publishing _
      rw [here] at publishing
      contradiction
  | nothing =>
    simp only [State.step, here] at run
    cases Option.some.inj run
    refine inv.pass .idle _ trivial ?_
    rw [here]
    rfl

theorem Inv.step (inv : Inv s) {s' : State} (settled : (s.pc t).Settled s) (run : s.step t = some s') : Inv s' := by
  have ok := inv.pcs t
  cases here : s.pc t with
  | idle => simp [State.step, here] at run
  | acquireMutex d job =>
    rw [here] at ok
    simp only [State.step, here] at run
    split at run
    · cases Option.some.inj run
      exact inv.pass (.locked d job) _ ok (by rw [here]; rfl)
    · contradiction
  | locked d job =>
    rw [here] at ok
    cases job with
    | insert o =>
      simp only [State.step, here] at run
      cases Option.some.inj run
      exact inv.insertStep here
    | find objectName =>
      simp only [State.step, here] at run
      cases Option.some.inj run
      exact inv.pass _ s.holder ⟨ok.1, inv.onList_next ok.1 (.inl rfl)⟩ (by rw [here]; rfl)
    | query previous =>
      have on : OnList s d (s.links.flink (queryEntry d previous)) := by
        apply inv.onList_next ok.1
        cases previous with
        | none => exact .inl rfl
        | some o => exact .inr ⟨o, rfl, ok.2⟩
      simp only [State.step, here] at run
      rcases on with head | ⟨o, same, parent⟩
      · simp only [head, if_true] at run
        cases Option.some.inj run
        exact inv.pass _ s.holder trivial (by rw [here]; rfl)
      · simp only [same] at run
        cases Option.some.inj run
        exact inv.pass _ s.holder parent (by rw [here]; rfl)
  | compare d objectName obj =>
    rw [here] at ok
    obtain ⟨ready, on⟩ := ok
    simp only [State.step, here] at run
    rcases on with rfl | ⟨o, rfl, parent⟩
    · simp only [if_true] at run
      cases Option.some.inj run
      exact inv.pass _ s.holder trivial (by rw [here]; rfl)
    · simp only at run
      split at run
      · cases Option.some.inj run
        exact inv.pass _ s.holder parent (by rw [here]; rfl)
      · cases Option.some.inj run
        exact inv.pass _ s.holder ⟨ready, inv.onList_next ready (.inr ⟨o, rfl, parent⟩)⟩ (by rw [here]; rfl)
  | releaseMutex d outcome => exact inv.releaseStep here settled run
  | initializeListHead o =>
    simp only [State.step, here] at run
    cases Option.some.inj run
    exact inv.listHeadStep here
  | initializeMutex o =>
    simp only [State.step, here] at run
    cases Option.some.inj run
    exact inv.mutexStep here

theorem Inv.call (inv : Inv s) (idle : s.pc t = .idle) {call : Call} (valid : call.Valid s) : Inv (s.call t call) := by
  have quiet : (s.pc t).publishing = none := by
    rw [idle]
    rfl
  have ready : ∀ d, s.Known d → s.mutexReady d = true := fun d known => (inv.handed d known.1).2 known.2
  cases call with
  | create isDirectory objectName insertInto allocated =>
    cases allocated with
    | true => exact inv.createStep t isDirectory objectName idle (ready _ valid)
    | false => exact inv
  | find d objectName => exact inv.pass _ s.holder ⟨ready d valid, trivial⟩ quiet
  | query d previous =>
    cases previous with
    | none => exact inv.pass _ s.holder ⟨ready d valid, trivial⟩ quiet
    | some o => exact inv.pass _ s.holder ⟨ready d valid.1, valid.2⟩ quiet

end Moves

theorem start_inv : Inv start := by
  have ready : ∀ d, start.mutexReady d = true ↔ d = 0 := by
    intro d
    by_cases root : d = 0 <;> simp [start, obCreateObject, obRootObjectDirectory, root]
  have parent : ∀ o, start.parentDirectory o = none := by
    intro o
    by_cases root : o = 0 <;> simp [start, obCreateObject, root]
  refine ⟨?_, ?_, ?_, ?_, fun t => trivial⟩
  · intro d now
    cases (ready d).mp now
    refine ⟨Nat.zero_lt_one, [], ring_nil rfl rfl, fun o => ?_⟩
    simp [parent o]
  · intro o d now
    rw [parent o] at now
    contradiction
  · intro o d now
    rw [parent o] at now
    contradiction
  · intro o member
    have root : o = 0 := List.mem_singleton.mp member
    subst root
    exact ⟨Nat.zero_lt_one, fun _ => (ready 0).mpr rfl⟩

theorem next_inv {s s' : State} {a : Action} (inv : Inv s)
    (run : Guarded (fun s a => Promised s a ∧ Undisturbed s a) (fun s a s' => next s a = some s') s a s') : Inv s' := by
  obtain ⟨⟨promised, undisturbed⟩, moved⟩ := run
  cases a with
  | call t call =>
    simp only [next] at moved
    split at moved
    · rename_i idle
      cases Option.some.inj moved
      exact inv.call idle promised
    · contradiction
  | step t => exact inv.step undisturbed moved

/-- While no walk ends on a directory that its creator has yet to initialise, every directory handed out has an
object list and a lock; and what a walk has found is initialised exactly if its creator is through with it. -/
theorem obCreateDirectory_initialised {s : State} {as : List Action}
    (run : Run (Guarded (fun s a => Promised s a ∧ Undisturbed s a) fun s a s' => next s a = some s') start as s) :
    (∀ d ∈ s.handed, s.isDirectory d = true → s.Initialised d) ∧
    ∀ t d o, s.pc t = .releaseMutex d (.found o) → s.isDirectory o = true → (s.Initialised o ↔ ¬s.Publishing o) := by
  have inv : Inv s := run.invariant (fun inv first => next_inv inv first) start_inv
  constructor
  · intro d member directory
    exact inv.initialised ((inv.handed d member).2 directory)
  · intro t d o here directory
    have parent := inv.pcs t
    rw [here] at parent
    exact inv.initialised_iff parent directory

/-- Thread 0 creates a directory and inserts it into the root, where thread 1 then looks it up. -/
def lookupBehindInsertion : List Action :=
  [.call 0 (.create true [0x41] none true), .step 0, .step 0, .step 0,
    .call 1 (.find 0 [0x41]), .step 1, .step 1, .step 1, .step 1]

/-- The lookup returns a directory without an object list and without a lock. -/
theorem foundDirectory_raw : ∃ s, exec (guarded Promised next) start lookupBehindInsertion = some s ∧
    1 ∈ s.handed ∧ s.isDirectory 1 = true ∧ ¬s.Initialised 1 ∧ s.links.flink (.objectList 1) = .null ∧
    s.mutexReady 1 = false := by
  refine ⟨(exec (guarded Promised next) start lookupBehindInsertion).get (by decide), ?_, ?_, ?_, ?_, ?_, ?_⟩
  · exact (Option.some_get _).symm
  · decide
  · decide
  · intro initialised
    have unready : ((exec (guarded Promised next) start lookupBehindInsertion).get (by decide)).mutexReady 1 =
        false := by decide
    have ready := initialised.2
    rw [unready] at ready
    contradiction
  · decide
  · decide

/-- The lookup waits until thread 0 is through. -/
def lookupAfterCreation : List Action :=
  [.call 0 (.create true [0x41] none true), .step 0, .step 0, .step 0, .step 0, .step 0,
    .call 1 (.find 0 [0x41]), .step 1, .step 1, .step 1, .step 1]

theorem foundDirectory_initialised : ∃ s : State, 1 ∈ s.handed ∧ s.Initialised 1 := by
  refine ⟨(exec (guarded (fun s a => Promised s a ∧ Undisturbed s a) next) start lookupAfterCreation).get
    (by decide), by decide, ?_⟩
  exact (obCreateDirectory_initialised (guarded_run (Option.some_get _).symm)).1 1 (by decide) (by decide)

end Gr8os.Ob.Publication
