import Gr8os.Ex.Callback
import Gr8os.Ob.Release

/-! The callback lists over every order of loads, creations, deletions and dispatches. -/
namespace Gr8os.Ex.Callbacks

open Ke Intrusive Ob Runs

/-- The header of an object that nobody references but its creator. -/
structure Plain (h : ObjectHeader) : Prop where
  referenceCount : h.referenceCount = 1
  handleCount : h.handleCount = 0
  flags : h.flags = 0
  references : h.references = []
  parentDirectory : h.parentDirectory = none

/-- One object is given back to the heap, and the others are as they were. -/
structure Freed (s s' : ObjectManager) (o : Nat) : Prop where
  created : s'.created = s.created
  header : ∀ p, p ≠ o → s'.header p = s.header p
  freed : ∀ p, s'.freed p = if p = o then true else s.freed p

theorem obpDeleteObject_plain (checked : Bool) {s : ObjectManager} {o : Nat} (plain : Plain (s.header o)) :
    ∃ s', obpDeleteObject checked 1 s o = some (.success, s') ∧ Freed s s' o := by
  have less : ¬1 < (s.header o).referenceCount := by
    rw [plain.referenceCount]
    decide
  have unused : ((s.decrement o).header o).Unused := by
    simp only [ObjectManager.decrement, header_modify_self]
    constructor
    · rw [plain.referenceCount]
      rfl
    · left
      rw [plain.flags]
      rfl
  have handles : ¬(checked = true ∧ ((s.decrement o).header o).handleCount ≠ 0) := by
    simp [ObjectManager.decrement, plain.handleCount]
  let marked := (s.decrement o).modify o fun h => { h with flags := h.flags ||| objDeleteInProgress }
  have apart : marked.unlink o = marked := by
    simp [marked, ObjectManager.unlink, ObjectManager.decrement, plain.parentDirectory]
  have childless : (marked.header o).references = [] := by
    simp [marked, ObjectManager.decrement, plain.references]
  have internal : obpDeleteObjectInternal checked 1 (s.decrement o) o = some (.success, marked.free o) := by
    show (if _ then _ else Option.map _ (List.foldlM _ (marked.unlink o) ((marked.unlink o).header o).references)) = _
    rw [if_neg (not_not.mpr unused.1), apart, childless]
    rfl
  refine ⟨marked.free o, ?_, rfl, fun p other => ?_, fun p => rfl⟩
  · unfold obpDeleteObject obDereferenceObject dereferenceWith
    rw [if_neg less, if_pos unused, if_neg handles, internal]
    rfl
  · show marked.header p = s.header p
    exact (header_modify_of_ne _ _ other).trans (header_modify_of_ne _ _ other)

/-- A new object, and the others as they were. -/
structure Created (s s' : ObjectManager) : Prop where
  created : s'.created = s.created + 1
  header : ∀ p, p ≠ s.created → s'.header p = s.header p
  freed : s'.freed = s.freed
  plain : Plain (s'.header s.created)

theorem obCreateObject_created (s : ObjectManager) (objectType : ObjectType) :
    ∃ s', obCreateObject true s objectType [] = (.success, some s.created, s') ∧ Created s s' ∧
      (s'.header s.created).body = objectType.zeroed := by
  refine ⟨_, rfl, ⟨rfl, fun p other => ?_, rfl, ?_⟩, ?_⟩
  · exact header_modify_of_ne s (fun _ => { objectName := [], referenceCount := 1, body := objectType.zeroed }) other
  · have here := header_modify_self s s.created fun _ => { objectName := [], referenceCount := 1, body := objectType.zeroed }
    constructor
    · exact congrArg ObjectHeader.referenceCount here
    · exact congrArg ObjectHeader.handleCount here
    · exact congrArg ObjectHeader.flags here
    · exact congrArg ObjectHeader.references here
    · exact congrArg ObjectHeader.parentDirectory here
  · exact congrArg ObjectHeader.body
      (header_modify_self s s.created fun _ => { objectName := [], referenceCount := 1, body := objectType.zeroed })

/-- Where a walk may be: behind the callbacks it has called, all of them from the front of the list. -/
def WalkOk (list : CallbackList) (cs called : List Nat) : Option Walk → Prop
  | none => True
  | some (.compare e) =>
    ∃ rest : List Nat, cs = called ++ rest ∧ e = (rest.map Entry.callback ++ [Entry.head list]).headD (.head list)
  | some (.inside c) => ∃ before rest, called = before ++ [c] ∧ cs = before ++ c :: rest

def Listed (s : CallbackState) (list : CallbackList) : Prop :=
  ∃ cs, s.Holds list cs ∧ (∀ c, c ∈ cs ↔ s.place c = .listed list) ∧ WalkOk list cs (s.called list) (s.dispatch list)

/-- The insertions that a loader has still to make. -/
def Waiting (s : CallbackState) (loader : Nat) : Prop :=
  ((s.loading loader).map (·.2)).Nodup ∧ ∀ c ∈ (s.loading loader).map (·.2), s.place c = .waiting loader

structure Inv (s : CallbackState) : Prop where
  lists : ∀ list, Listed s list
  waiting : ∀ loader, Waiting s loader
  live : ∀ c, s.place c ≠ .free → s.Live c
  fresh : ∀ o, s.objects.created ≤ o → s.objects.freed o = false
  plain : ∀ o, s.Live o → Plain (s.objects.header o)
  uninserted : ∀ c, s.inserted c = false

theorem start_inv : Inv start := by
  refine ⟨fun list => ?_, fun loader => ?_, ?_, fun _ _ => rfl, ?_, fun _ => rfl⟩
  · refine ⟨[], ring_nil rfl rfl, fun c => ?_, trivial⟩
    simp [start]
  · refine ⟨List.nodup_nil, fun c member => ?_⟩
    exact absurd member List.not_mem_nil
  · intro c placed
    exact absurd rfl placed
  · intro o live
    exact absurd live.1 (Nat.not_lt_zero o)

section Steps

variable {checked : Bool} {s s' : CallbackState}

theorem Inv.listed_live (inv : Inv s) {list : CallbackList} {c : Nat} (listed : s.place c = .listed list) : s.Live c := by
  apply inv.live c
  rw [listed]
  exact Place.noConfusion

/-- Only new or deleted objects: the lists and the walks stand. -/
theorem Inv.objects (inv : Inv s) (objects : ObjectManager)
    (live : ∀ c, s.place c ≠ .free → c < objects.created ∧ objects.freed c = false)
    (fresh : ∀ o, objects.created ≤ o → objects.freed o = false)
    (plain : ∀ o, o < objects.created → objects.freed o = false → Plain (objects.header o)) :
    Inv { s with objects := objects } where
  lists := inv.lists
  waiting := inv.waiting
  live := live
  fresh := fresh
  plain o alive := plain o alive.1 alive.2
  uninserted := inv.uninserted

theorem Inv.objectCreated (inv : Inv s) {objects : ObjectManager} (created : Created s.objects objects) :
    Inv { s with objects := objects } := by
  have bound := created.created
  apply inv.objects
  · intro c placed
    obtain ⟨below, kept⟩ := inv.live c placed
    rw [created.freed]
    exact ⟨by omega, kept⟩
  · intro o above
    rw [created.freed]
    exact inv.fresh o (by omega)
  · intro o below kept
    by_cases same : o = s.objects.created
    · rw [same]
      exact created.plain
    · rw [created.header o same]
      rw [created.freed] at kept
      exact inv.plain o ⟨by omega, kept⟩

theorem Inv.objectFreed (inv : Inv s) {objects : ObjectManager} {o : Nat} (freed : Freed s.objects objects o)
    (below : o < s.objects.created) (unplaced : s.place o = .free) : Inv { s with objects := objects } := by
  have others : ∀ p, p ≠ o → objects.freed p = s.objects.freed p := fun p other => (freed.freed p).trans (if_neg other)
  apply inv.objects
  · intro c placed
    obtain ⟨below, kept⟩ := inv.live c placed
    have other : c ≠ o := by
      rintro rfl
      exact placed unplaced
    rw [freed.created, others c other]
    exact ⟨below, kept⟩
  · intro p above
    rw [freed.created] at above
    have other : p ≠ o := by omega
    rw [others p other]
    exact inv.fresh p above
  · intro p below kept
    rw [freed.created] at below
    have other : p ≠ o := by
      rintro rfl
      rw [freed.freed, if_pos rfl] at kept
      contradiction
    rw [others p other] at kept
    rw [freed.header p other]
    exact inv.plain p ⟨below, kept⟩

theorem Listed.congr {links : Links Entry} {list : CallbackList} (listed : Listed s list) {c : Nat}
    (absent : s.place c ≠ .listed list)
    (forward : ∀ x, x ≠ .callback c → links.flink x = s.links.flink x)
    (backward : ∀ x, x ≠ .callback c → links.blink x = s.links.blink x) :
    Listed { s with links := links } list := by
  obtain ⟨cs, ring, members, walk⟩ := listed
  have away : ∀ x ∈ Entry.head list :: cs.map .callback, x ≠ .callback c := by
    intro x member same
    subst same
    rcases mem_entries.mp member with head | ⟨d, inside, equal⟩
    · contradiction
    · cases equal
      exact absent ((members c).mp inside)
  exact ⟨cs, ring_congr (fun x member => forward x (away x member)) (fun x member => backward x (away x member)) ring,
    members, walk⟩

theorem Inv.createStep (inv : Inv s) (allocated : Bool) : Inv (exCreateCallback allocated s) := by
  cases allocated with
  | false => exact inv
  | true =>
    obtain ⟨objects, run, created, _⟩ := obCreateObject_created s.objects exCallbackObjectType
    have free : s.place s.objects.created = .free := by
      apply Decidable.byContradiction
      intro placed
      exact absurd (inv.live _ placed).1 (Nat.lt_irrefl _)
    have next := inv.objectCreated created
    unfold exCreateCallback
    rw [run]
    refine ⟨fun list => ?_, next.waiting, next.live, next.fresh, next.plain, fun c => ?_⟩
    · apply Listed.congr (inv.lists list) (c := s.objects.created)
      · rw [free]
        exact Place.noConfusion
      · intro x other
        simp [initializeListHead, other]
      · intro x other
        simp [initializeListHead, other]
    · show Function.update s.inserted s.objects.created false c = false
      by_cases same : c = s.objects.created
      · rw [same, Function.update_self]
      · rw [Function.update_of_ne same]
        exact inv.uninserted c

/-- What a deletion does: the object is freed, and the links are as they were, for Inserted is never set. -/
theorem Inv.delete_cases (inv : Inv s) {o : Nat} (live : s.Live o) (run : next checked s (.delete o) = some s') :
    ((s.objects.header o).objectType ≠ exCallbackObjectType ∧ s' = s) ∨
      ∃ objects, Freed s.objects objects o ∧ s' = { s with objects := objects } := by
  obtain ⟨r, deleted, rfl⟩ := Option.map_eq_some_iff.mp run
  unfold exDeleteCallback at deleted
  split at deleted
  · rename_i other
    cases Option.some.inj deleted
    exact .inl ⟨other, rfl⟩
  · right
    obtain ⟨objects, gone, freed⟩ := obpDeleteObject_plain checked (inv.plain o live)
    rw [gone] at deleted
    cases Option.some.inj deleted
    refine ⟨objects, freed, ?_⟩
    have now : objects.freed o = true := (freed.freed o).trans (if_pos rfl)
    simp [now, expDeleteCallback, inv.uninserted o]

theorem Inv.deleteStep (inv : Inv s) {o : Nat} (live : s.Live o) (unplaced : s.place o = .free)
    (run : next checked s (.delete o) = some s') : Inv s' := by
  rcases inv.delete_cases live run with ⟨_, rfl⟩ | ⟨objects, freed, rfl⟩
  · exact inv
  · exact inv.objectFreed freed live.1 unplaced

theorem Inv.loadStep (inv : Inv s) {allocated : Bool} {entry : Status} {loader : Nat} {e : Extender}
    (promised : Promised s (.load allocated entry loader e))
    (run : miCreateExtenderObject checked allocated entry s loader e = some s') : Inv s' := by
  obtain ⟨idle, distinct, named⟩ := promised
  cases allocated with
  | false =>
    cases Option.some.inj run
    exact inv
  | true =>
    obtain ⟨objects, made, created, _⟩ := obCreateObject_created s.objects mmExtenderObjectType
    have next := inv.objectCreated created
    have free : s.place s.objects.created = .free := by
      apply Decidable.byContradiction
      intro placed
      exact absurd (inv.live _ placed).1 (Nat.lt_irrefl _)
    unfold miCreateExtenderObject at run
    rw [made] at run
    dsimp only at run
    split at run
    · obtain ⟨objects', gone, freed⟩ := obpDeleteObject_plain checked created.plain
      rw [gone] at run
      cases Option.some.inj run
      exact next.objectFreed freed (by rw [created.created]; omega) free
    · cases Option.some.inj run
      have placed : ∀ c list, (if c ∈ e.insertions.map (·.2) then Place.waiting loader else s.place c) = .listed list ↔
          s.place c = .listed list := by
        intro c list
        split
        · rename_i member
          rw [(named c member).2.2]
          simp
        · rfl
      refine ⟨fun list => ?_, fun other => ?_, fun c mine => ?_, next.fresh, next.plain, inv.uninserted⟩
      · obtain ⟨cs, ring, members, walk⟩ := inv.lists list
        exact ⟨cs, ring, fun c => (members c).trans (placed c list).symm, walk⟩
      · show (((Function.update s.loading loader e.insertions) other).map (·.2)).Nodup ∧ _
        by_cases same : other = loader
        · subst same
          simp only [Function.update_self]
          exact ⟨distinct, fun c member => if_pos member⟩
        · simp only [Function.update_of_ne same]
          obtain ⟨nodup, waiting⟩ := inv.waiting other
          refine ⟨nodup, fun c member => ?_⟩
          have absent : c ∉ e.insertions.map (·.2) := by
            intro inside
            have place := waiting c member
            rw [(named c inside).2.2] at place
            contradiction
          exact (if_neg absent).trans (waiting c member)
      · by_cases member : c ∈ e.insertions.map (·.2)
        · obtain ⟨below, kept⟩ := (named c member).1
          refine ⟨Nat.lt_of_lt_of_le below ?_, ?_⟩
          · rw [created.created]
            exact Nat.le_succ _
          · exact (congrFun created.freed c).trans kept
        · exact next.live c fun unplaced => mine ((if_neg member).trans unplaced)

/-- The callback at the head of the list is new, and the walks of other lists do not see it. -/
theorem Inv.insertStep (inv : Inv s) {loader : Nat} (run : insertNext s loader = some s') : Inv s' := by
  obtain ⟨nodup, waiting⟩ := inv.waiting loader
  unfold insertNext at run
  split at run
  · contradiction
  · rename_i list c rest loading
    rw [loading] at nodup waiting
    obtain ⟨absent, nodup⟩ := List.nodup_cons.mp nodup
    have here : s.place c = .waiting loader := waiting c List.mem_cons_self
    split at run
    · rename_i unlocked
      cases Option.some.inj run
      obtain ⟨cs, ring, members, walk⟩ := inv.lists list
      have unlisted : ∀ l, s.place c ≠ .listed l := by
        intro l listed
        rw [here] at listed
        contradiction
      have fresh : ∀ {l : CallbackList} {ds : List Nat}, (∀ d, d ∈ ds ↔ s.place d = .listed l) →
          Entry.callback c ∉ Entry.head l :: ds.map .callback := by
        intro l ds members member
        rcases mem_entries.mp member with head | ⟨d, inside, equal⟩
        · contradiction
        · cases equal
          exact unlisted l ((members c).mp inside)
      have place' : ∀ d, d ≠ c → Function.update s.place c (.listed list) d = s.place d :=
        fun d other => Function.update_of_ne other _ _
      refine ⟨fun l => ?_, fun other => ?_, fun d placed => ?_, inv.fresh, inv.plain, inv.uninserted⟩
      · by_cases same : l = list
        · subst same
          refine ⟨c :: cs, ring_insertHead ring (fresh members), fun d => ?_, ?_⟩
          · show d ∈ c :: cs ↔ Function.update s.place c (.listed l) d = .listed l
            by_cases new : d = c
            · simp [new]
            · rw [place' d new, ← members d]
              simp [new]
          · show WalkOk l (c :: cs) (s.called l) (s.dispatch l)
            rw [unlocked]
            trivial
        · obtain ⟨ds, ring', members', walk'⟩ := inv.lists l
          refine ⟨ds, ring_insertAfter_frame ring List.mem_cons_self ring' ?_ (fresh members'), fun d => ?_, walk'⟩
          · intro x inside' inside
            rcases mem_entries.mp inside' with rfl | ⟨d, member', rfl⟩
            · rcases mem_entries.mp inside with head | ⟨d, _, wrong⟩
              · exact same (Entry.head.inj head)
              · contradiction
            · rcases mem_entries.mp inside with head | ⟨b, member, equal⟩
              · contradiction
              · cases equal
                have one := (members' d).mp member'
                rw [(members d).mp member] at one
                cases one
                exact same rfl
          · show d ∈ ds ↔ Function.update s.place c (.listed list) d = .listed l
            by_cases new : d = c
            · subst new
              rw [Function.update_self, members' d, here]
              simp [Ne.symm same]
            · rw [place' d new]
              exact members' d
      · show (((Function.update s.loading loader rest) other).map (·.2)).Nodup ∧
          ∀ d ∈ ((Function.update s.loading loader rest) other).map (·.2),
            Function.update s.place c (.listed list) d = .waiting other
        by_cases same : other = loader
        · subst same
          rw [Function.update_self]
          refine ⟨nodup, fun d member => ?_⟩
          have other : d ≠ c := by
            rintro rfl
            exact absent member
          rw [place' d other]
          exact waiting d (List.mem_cons_of_mem _ member)
        · rw [Function.update_of_ne same]
          obtain ⟨nodup', waiting'⟩ := inv.waiting other
          refine ⟨nodup', fun d member => ?_⟩
          have distinct : d ≠ c := by
            rintro rfl
            have place := waiting' d member
            rw [here] at place
            cases place
            exact same rfl
          rw [place' d distinct]
          exact waiting' d member
      · by_cases new : d = c
        · apply inv.live d
          rw [new, here]
          exact Place.noConfusion
        · apply inv.live d
          intro unplaced
          exact placed ((place' d new).trans unplaced)
    · contradiction

/-- A step of one dispatch, or its beginning: the other walks are as they were. -/
theorem Inv.walkStep (inv : Inv s) (list : CallbackList) (walk : Option Walk) (called : List Nat)
    (ok : ∀ cs, s.Holds list cs → WalkOk list cs (s.called list) (s.dispatch list) → WalkOk list cs called walk) :
    Inv { s with
      dispatch := Function.update s.dispatch list walk
      called := Function.update s.called list called } where
  lists l := by
    obtain ⟨cs, ring, members, before⟩ := inv.lists l
    refine ⟨cs, ring, members, ?_⟩
    show WalkOk l cs (Function.update s.called list called l) (Function.update s.dispatch list walk l)
    by_cases same : l = list
    · subst same
      rw [Function.update_self, Function.update_self]
      exact ok cs ring before
    · rw [Function.update_of_ne same, Function.update_of_ne same]
      exact before
  waiting := inv.waiting
  live := inv.live
  fresh := inv.fresh
  plain := inv.plain
  uninserted := inv.uninserted

theorem Inv.processStep (inv : Inv s) {list : CallbackList} (run : exProcessCallbackList s list = some s') : Inv s' := by
  unfold exProcessCallbackList at run
  split at run
  · cases Option.some.inj run
    apply inv.walkStep
    intro cs ring _
    exact ⟨cs, rfl, segment_first ring.2⟩
  · contradiction

theorem Inv.nextStep (inv : Inv s) {list : CallbackList} (run : processNext s list = some s') : Inv s' := by
  have same : Function.update s.called list (s.called list) = s.called := Function.update_eq_self ..
  unfold processNext at run
  split at run
  · contradiction
  · split at run
    · cases Option.some.inj run
      have step := inv.walkStep list none (s.called list) fun _ _ _ => trivial
      rw [same] at step
      exact step
    · contradiction
  · rename_i c walk
    cases Option.some.inj run
    apply inv.walkStep
    intro cs ring before
    rw [walk] at before
    obtain ⟨rest, shape, first⟩ := before
    cases rest with
    | nil => contradiction
    | cons d rest =>
      have here : c = d := Entry.callback.inj first
      exact ⟨s.called list, rest, rfl, here ▸ shape⟩
  · rename_i c walk
    cases Option.some.inj run
    have step := inv.walkStep list (some (.compare (s.links.flink (.callback c)))) (s.called list) ?_
    · rw [same] at step
      exact step
    · intro cs ring before
      rw [walk] at before
      obtain ⟨done, rest, called, shape⟩ := before
      refine ⟨rest, by simp [shape, called], ?_⟩
      have whole : Ring s.links (.head list) (done.map Entry.callback ++ .callback c :: rest.map Entry.callback) := by
        have ring' := ring
        rw [shape] at ring'
        simpa [CallbackState.Holds] using ring'
      have after := ((segment_append (done.map Entry.callback) (Entry.head list)).mp whole.2).2
      exact segment_first after

theorem Inv.step {a : Action} (inv : Inv s) (promised : Promised s a) (unlisted : Unlisted s a)
    (run : next checked s a = some s') : Inv s' := by
  cases a with
  | create allocated =>
    cases Option.some.inj run
    exact inv.createStep allocated
  | delete o => exact inv.deleteStep promised unlisted run
  | load allocated entry loader e => exact inv.loadStep promised run
  | insert loader => exact inv.insertStep run
  | process list => exact inv.processStep run
  | walk list => exact inv.nextStep run

theorem CallbackState.Holds.unique {list : CallbackList} {cs ds : List Nat} (one : s.Holds list cs)
    (other : s.Holds list ds) : cs = ds := by
  have same : cs.map Entry.callback = ds.map Entry.callback := ring_unique one other
  exact List.map_injective_iff.mpr (fun _ _ => Entry.callback.inj) same

/-- A dispatch that comes to the head of the list has called what the list holds, in its order. -/
theorem Inv.called (inv : Inv s) {list : CallbackList} {cs : List Nat} (ring : s.Holds list cs)
    (ended : s.dispatch list = some (.compare (.head list))) : s.called list = cs := by
  obtain ⟨ds, ring', _, walk⟩ := inv.lists list
  have equal := ring'.unique ring
  rw [ended] at walk
  obtain ⟨rest, shape, first⟩ := walk
  cases rest with
  | nil => rw [← equal, shape, List.append_nil]
  | cons c rest => contradiction

theorem Inv.sound (inv : Inv s) : s.Sound := by
  intro list
  obtain ⟨cs, ring, members, _⟩ := inv.lists list
  exact ⟨cs, ring, fun c member => (inv.listed_live ((members c).mp member)).2⟩

/-- The deletion of a callback leaves the lists without deleted callbacks exactly if the callback is in none. -/
theorem Inv.delete_sound_iff (inv : Inv s) {o : Nat} (live : s.Live o)
    (callback : (s.objects.header o).objectType = exCallbackObjectType)
    (run : next checked s (.delete o) = some s') : s'.Sound ↔ ∀ list, s.place o ≠ .listed list := by
  rcases inv.delete_cases live run with ⟨other, _⟩ | ⟨objects, freed, rfl⟩
  · exact absurd callback other
  · constructor
    · intro sound list listed
      obtain ⟨cs, ring, members, _⟩ := inv.lists list
      obtain ⟨ds, ring', kept⟩ := sound list
      have equal : ds = cs := ring'.unique ring
      have gone : objects.freed o = true := (freed.freed o).trans (if_pos rfl)
      have here := kept o (equal ▸ (members o).mpr listed)
      change objects.freed o = false at here
      rw [gone] at here
      contradiction
    · intro unlisted list
      obtain ⟨cs, ring, members, _⟩ := inv.lists list
      refine ⟨cs, ring, fun c member => ?_⟩
      have other : c ≠ o := by
        rintro rfl
        exact unlisted list ((members c).mp member)
      exact ((freed.freed c).trans (if_neg other)).trans (inv.listed_live ((members c).mp member)).2

end Steps

/-- An extender registers a callback, which is deleted afterwards. -/
def deleteRegistered : List Action :=
  [.create true, .load true .success 0 { createThread := some 0 }, .insert 0, .delete 0]

/-- An extender registers a callback, which a dispatch calls. -/
def dispatchRegistered : List Action :=
  [.create true, .load true .success 0 { createThread := some 0 }, .insert 0, .process .psCreateThread,
    .walk .psCreateThread, .walk .psCreateThread]

/-- The state at the end of this run. -/
def dispatched : CallbackState :=
  (exec (guarded (fun s a => Promised s a ∧ Unlisted s a) (next true)) start dispatchRegistered).get (by decide)

end Gr8os.Ex.Callbacks
