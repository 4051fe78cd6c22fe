import Gr8os.FsFat.MountUndo
import Gr8os.Io.FailedCreation

/-! The names that a mount adds and a dismount takes away are those of the object manager's directory \Global. -/
namespace Gr8os.FsFat.Mounts

open Ob Io

def namesIn (m : ObjectManager) (directory : Nat) : List (List WChar) :=
  (m.listed directory).map fun o => (m.header o).objectName

/-- The first objects have their names and lists still. -/
structure NamesKept (n : Nat) (s t : ObjectManager) : Prop where
  names : ∀ p < n, (t.header p).objectName = (s.header p).objectName
  listed : ∀ p < n, t.listed p = s.listed p

section kept

variable {n : Nat} {s t u : ObjectManager} {o d : Nat}

theorem NamesKept.refl (n : Nat) (s : ObjectManager) : NamesKept n s s := ⟨fun _ _ => rfl, fun _ _ => rfl⟩

theorem NamesKept.trans (first : NamesKept n s t) (second : NamesKept n t u) : NamesKept n s u where
  names p below := (second.names p below).trans (first.names p below)
  listed p below := (second.listed p below).trans (first.listed p below)

theorem NamesKept.edit (n : Nat) (s : ObjectManager) (o : Nat) {f : ObjectHeader → ObjectHeader}
    (name : ∀ h, (f h).objectName = h.objectName) (entries : ∀ h, (f h).body.entries = h.body.entries) :
    NamesKept n s (s.modify o f) where
  names p _ := header_modify_same s o ObjectHeader.objectName name p
  listed p _ := header_modify_same s o (fun h => h.body.entries) entries p

theorem namesIn_edit (s : ObjectManager) (o : Nat) {f : ObjectHeader → ObjectHeader}
    (name : ∀ h, (f h).objectName = h.objectName) (entries : ∀ h, (f h).body.entries = h.body.entries) :
    namesIn (s.modify o f) d = namesIn s d := by
  have kept := fun n => NamesKept.edit n s o name entries
  rw [namesIn, namesIn, (kept (d + 1)).listed d (Nat.lt_succ_self d)]
  refine List.map_congr_left ?_
  intro p _
  exact (kept (p + 1)).names p (Nat.lt_succ_self p)

theorem namesIn_decrement (s : ObjectManager) (o : Nat) : namesIn (s.decrement o) d = namesIn s d :=
  namesIn_edit s o (fun _ => rfl) fun _ => rfl

theorem NamesKept.reference (n : Nat) (s : ObjectManager) (o : Nat) : NamesKept n s (s.obReferenceObject o) := by
  rw [reference_modify]
  exact .edit n s o (fun _ => rfl) fun _ => rfl

theorem NamesKept.decrement (n : Nat) (s : ObjectManager) (o : Nat) : NamesKept n s (s.decrement o) :=
  .edit n s o (fun _ => rfl) fun _ => rfl

theorem NamesKept.store (n : Nat) (s : ObjectManager) (holder o : Nat) (target : List WChar) :
    NamesKept n s (storePointer s holder o target) :=
  .edit n s holder (fun _ => rfl) fun h => entries_retarget h.body target

theorem NamesKept.create (inside : n ≤ s.created) (type : ObjectType) (name : List WChar) :
    NamesKept n s (fresh s type name) where
  names p below := by rw [header_fresh type name (Nat.lt_of_lt_of_le below inside)]
  listed p below := by
    rw [ObjectManager.listed, ObjectManager.listed, header_fresh type name (Nat.lt_of_lt_of_le below inside)]

theorem NamesKept.namesIn (kept : NamesKept s.created s t) (settled : Settled s) (alive : d ∈ s.alive) :
    namesIn t d = namesIn s d := by
  rw [Mounts.namesIn, Mounts.namesIn, kept.listed d (mem_alive.mp alive).1]
  refine List.map_congr_left ?_
  intro o listed
  exact kept.names o (mem_alive.mp (settled.listed d o listed)).1

end kept

section links

variable {checked : Bool} {fuel : Nat} {s t : ObjectManager} {allocated : LinkAllocations}
  {symlinkName targetPath : List WChar} {status : Status}

/-- Where ObCreateSymbolicLink puts the link. -/
def PlacedIn (allocated : LinkAllocations) (fuel : Nat) (s : ObjectManager) (symlinkName : List WChar) (d : Nat) : Prop :=
  if lastBackslash symlinkName = 0 then d = s.space.obRootObjectDirectory
  else leadsTo allocated.directoryLookup fuel s (symlinkName.take (lastBackslash symlinkName)) (some .directory) 0 =
    some (some d)

/-- The directory of a link is looked for, and either there is none or it is referenced. -/
theorem linkDirectory_placed {u : ObjectManager} {directory : Option Nat} (same : SameNames s.created s.space t.space)
    (run : linkDirectory allocated fuel t symlinkName (lastBackslash symlinkName) = some (status, directory, u)) :
    directory = none ∧ status.isSuccess = false ∧ u = t ∨
      ∃ d, directory = some d ∧ PlacedIn allocated fuel s symlinkName d ∧ u = t.obReferenceObject d := by
  by_cases root : lastBackslash symlinkName = 0
  · rw [linkDirectory, if_neg (not_not_intro root)] at run
    cases run
    exact .inr ⟨_, rfl, by rw [PlacedIn, if_pos root, same.root], rfl⟩
  · rw [linkDirectory, if_pos root] at run
    split at run
    · have leads : leadsTo allocated.directoryLookup fuel t (symlinkName.take (lastBackslash symlinkName))
          (some .directory) 0 = some directory := by
        rw [leadsTo, run]
        rfl
      cases directory with
      | none =>
        obtain ⟨other, looked, failed⟩ := leadsTo_none leads
        rw [looked] at run
        cases run
        exact .inl ⟨rfl, failed, rfl⟩
      | some d =>
        obtain ⟨other, looked⟩ := leadsTo_some leads
        rw [looked] at run
        cases run
        rw [leadsTo_same same] at leads
        exact .inr ⟨d, rfl, by rwa [PlacedIn, if_neg root], rfl⟩
    · cases run

theorem PlacedIn.alive {d : Nat} (placed : PlacedIn allocated fuel s symlinkName d) (settled : Settled s) : d ∈ s.alive := by
  unfold PlacedIn at placed
  split at placed
  · rw [placed]
    exact settled.root
  · exact settled.found_alive placed

def lastName (path : List WChar) : List WChar := path.drop (lastBackslash path + 1)

theorem insert_namesIn {d e : Nat} {u : ObjectManager} {o : Nat} {name : List WChar} (settled : Settled s)
    (kept : NamesKept s.created s u) (new : s.created ≤ o) (named : (u.header o).objectName = name)
    (directory : (u.header d).objectType = .directory) (alive : e ∈ s.alive) :
    namesIn (obInsertObject u d o) e = namesIn s e ++ if e = d then [name] else [] := by
  have below := (mem_alive.mp alive).1
  have apart : e ≠ o := by omega
  have names : ∀ p, ((obInsertObject u d o).header p).objectName = (u.header p).objectName := by
    intro p
    rw [obInsertObject]
    refine (header_modify_same _ o (f := fun h => { h with parentDirectory := some d }) ObjectHeader.objectName
      (fun _ => rfl) p).trans ?_
    exact header_modify_same u d (f := fun h => { h with body := h.body.insertTail o }) ObjectHeader.objectName
      (fun _ => rfl) p
  have older : ∀ p ∈ s.listed e, ((obInsertObject u d o).header p).objectName = (s.header p).objectName := by
    intro p listed
    exact (names p).trans (kept.names p (mem_alive.mp (settled.listed e p listed)).1)
  have list : (obInsertObject u d o).listed e = s.listed e ++ if e = d then [o] else [] := by
    rw [← kept.listed e below, ObjectManager.listed, ObjectManager.listed, obInsertObject, header_modify_of_ne _ _ apart]
    by_cases here : e = d
    · subst here
      rw [header_modify_self, if_pos rfl]
      obtain ⟨l, body⟩ : ∃ l, (u.header e).body = .directory l := by
        unfold ObjectHeader.objectType at directory
        cases body : (u.header e).body with
        | directory l => exact ⟨l, rfl⟩
        | _ => rw [body] at directory; cases directory
      rw [body]
      rfl
    · rw [header_modify_of_ne _ _ here, if_neg here, List.append_nil]
  rw [namesIn, list, List.map_append, List.map_congr_left older, namesIn]
  by_cases here : e = d
  · rw [if_pos here, if_pos here, List.map_singleton, names, named]
  · rw [if_neg here, if_neg here, List.map_nil]

theorem linked_names {o e : Nat} (settled : Settled s) {new : ObjectManager} (kept : NamesKept s.created s new)
    (named : (new.header s.created).objectName = lastName symlinkName) {d : Nat} (inside : d < s.created)
    (directory : ((new.obReferenceObject d).header d).objectType = .directory) (alive : e ∈ s.alive) :
    namesIn ((obInsertObject (storePointer (new.obReferenceObject d) s.created o targetPath) d s.created).decrement d) e =
      namesIn s e ++ if e = d then [lastName symlinkName] else [] := by
  have before : NamesKept s.created s (storePointer (new.obReferenceObject d) s.created o targetPath) :=
    (kept.trans (.reference _ _ d)).trans (.store _ _ _ _ _)
  have stored := (NamesKept.store (s.created + 1) (new.obReferenceObject d) s.created o targetPath).names
    s.created (Nat.lt_succ_self _)
  have referenced := (NamesKept.reference (s.created + 1) new d).names s.created (Nat.lt_succ_self _)
  have type : ((storePointer (new.obReferenceObject d) s.created o targetPath).header d).objectType = .directory := by
    rw [storePointer, header_modify_of_ne _ _ (Nat.ne_of_lt inside)]
    exact directory
  rw [namesIn_decrement]
  exact insert_namesIn settled before (Nat.le_refl _) (stored.trans (referenced.trans named)) type alive

/-- A link that is created has its name at the end of the directory, and one that is not created leaves no name. -/
theorem obCreateSymbolicLink_names (settled : Settled s)
    (run : obCreateSymbolicLink checked allocated fuel s symlinkName targetPath = some (status, t)) :
    (status.isSuccess = false ∧ ∀ e ∈ s.alive, namesIn t e = namesIn s e) ∨
      status.isSuccess = true ∧ ∃ d, PlacedIn allocated fuel s symlinkName d ∧
        ∀ e ∈ s.alive, namesIn t e = namesIn s e ++ if e = d then [lastName symlinkName] else [] := by
  obtain ⟨⟨looked, object, s₁⟩, target, rest⟩ := Option.bind_eq_some_iff.mp run
  have leads : leadsTo allocated.targetLookup fuel s targetPath none 0 = some object := by
    rw [leadsTo, target]
    rfl
  cases object with
  | none =>
    obtain ⟨other, nothing, failed⟩ := leadsTo_none leads
    rw [nothing] at target
    cases target
    cases rest
    exact .inl ⟨failed, fun _ _ => rfl⟩
  | some object =>
    obtain ⟨other, found⟩ := leadsTo_some leads
    rw [found] at target
    cases target
    have alive := settled.found_alive leads
    have used := settled.used object alive
    cases room : allocated.object with
    | false =>
      dsimp only at rest
      rw [room] at rest
      change ((obDereferenceObject checked fuel (s.obReferenceObject object) object).bind fun u =>
        some (Status.insufficientResources, u)) = _ at rest
      rw [dereference_some (referenced_more used.1), decrement_reference] at rest
      cases rest
      exact .inl ⟨by decide, fun _ _ => rfl⟩
    | true =>
      dsimp only at rest
      rw [room] at rest
      let new := fresh (s.obReferenceObject object) .symbolicLink (lastName symlinkName)
      have kept : NamesKept s.created s new :=
        (NamesKept.reference s.created s object).trans
          (NamesKept.create (s := s.obReferenceObject object) (Nat.le_refl s.created) _ _)
      have same : SameNames s.created s.space new.space :=
        (settled.sameNames.reference object).fresh (Nat.le_refl _) _ _
      have stays : Stays s.created new := stays_fresh (s.obReferenceObject object) _ _
      have older : ∀ p < s.created, new.header p = (s.obReferenceObject object).header p := fun p below =>
        header_fresh (s := s.obReferenceObject object) _ _ below
      obtain ⟨⟨status₁, directory, s₂⟩, placed, rest⟩ := Option.bind_eq_some_iff.mp rest
      change linkDirectory allocated fuel new symlinkName (lastBackslash symlinkName) = _ at placed
      rcases linkDirectory_placed same placed with ⟨rfl, failed, rfl⟩ | ⟨d, rfl, place, rfl⟩
      · obtain ⟨⟨status₂, s₃⟩, deleted, rest⟩ := Option.bind_eq_some_iff.mp rest
        have gone : s₃ = new := stays.not_deleted deleted
        subst gone
        have more : (new.header object).referenceCount ≠ 1 := by
          rw [older _ (mem_alive.mp alive).1]
          exact referenced_more used.1
        change ((obDereferenceObject checked fuel new object).bind fun u => some (status₁, u)) = _ at rest
        rw [dereference_some more] at rest
        cases rest
        exact .inl ⟨failed, fun e he => (kept.trans (.decrement _ _ _)).namesIn settled he⟩
      · dsimp only at rest
        split at rest
        · cases rest
        · next suits =>
          simp only [Bool.or_eq_true, not_or, decide_eq_true_eq, ne_eq, not_not] at suits
          have type : ((new.obReferenceObject d).header d).objectType = .directory := suits.2
          have inside := (mem_alive.mp (place.alive settled)).1
          have low := (settled.used d (place.alive settled))
          let linked := obInsertObject (storePointer (new.obReferenceObject d) s.created object targetPath) d s.created
          have more : (linked.header d).referenceCount ≠ 1 := by
            rw [insert_count, store_count]
            refine referenced_more ?_
            rw [older _ inside]
            exact reference_used low.1 low.2
          change ((obDereferenceObject checked fuel linked d).bind fun u => some (Status.success, u)) = _ at rest
          rw [dereference_some more] at rest
          cases rest
          refine .inr ⟨by decide, d, place, ?_⟩
          intro e he
          exact linked_names settled kept (congrArg ObjectHeader.objectName (if_pos rfl)) inside type he

end links

section deletions

variable {checked : Bool} {fuel : Nat} {s t : ObjectManager} {allocated : Nat → Bool} {path : List WChar}
  {status : Status} {o p d : Nat}

theorem obDeleteObject_found (found : leadsTo allocated fuel s path none 1 = some (some o)) :
    obDeleteObject checked allocated fuel s (rtlInitUnicodeString path) =
      deleteReferenced checked fuel (s.obReferenceObject o) o := by
  obtain ⟨other, looked⟩ := leadsTo_some found
  rw [obDeleteObject, looked]
  rfl

theorem obDeleteObject_missing (nothing : leadsTo allocated fuel s path none 1 = some none)
    (run : obDeleteObject checked allocated fuel s (rtlInitUnicodeString path) = some (status, t)) : t = s := by
  obtain ⟨other, looked, -⟩ := leadsTo_none nothing
  rw [obDeleteObject, looked] at run
  cases run
  rfl

theorem namesIn_reference (s : ObjectManager) (o e : Nat) : namesIn (s.obReferenceObject o) e = namesIn s e := by
  rw [reference_modify]
  exact namesIn_edit s o (fun _ => rfl) fun _ => rfl

theorem namesIn_pending (s : ObjectManager) (o e : Nat) : namesIn (markDeletePending s o) e = namesIn s e :=
  namesIn_edit s o (fun _ => rfl) fun _ => rfl

theorem namesIn_dereferenceEx (s : ObjectManager) (o e : Nat) (count : BitVec 32) :
    namesIn (obDereferenceObjectEx s o count) e = namesIn s e :=
  namesIn_edit s o (fun _ => rfl) fun _ => rfl

/-- An object that is referenced elsewhere keeps its name. -/
theorem obDeleteObject_inUse (settled : Settled s) (found : leadsTo allocated fuel s path none 1 = some (some o))
    (more : (s.header o).referenceCount ≠ 1)
    (run : obDeleteObject checked allocated fuel s (rtlInitUnicodeString path) = some (status, t)) (e : Nat) :
    namesIn t e = namesIn s e := by
  have used := settled.used o (settled.found_alive found)
  have three : 2 < ((s.obReferenceObject o).header o).referenceCount := by
    rw [reference_modify, header_modify_self]
    dsimp only
    bv_omega
  rw [obDeleteObject_found found, deleteReferenced, if_pos three] at run
  cases run
  rw [namesIn_dereferenceEx, namesIn_pending, namesIn_reference]

theorem listed_unlinked (s : ObjectManager) (parent : (s.header o).parentDirectory = some d) (e : Nat) :
    (s.begin o).listed e = if e = d then (s.listed e).erase o else s.listed e := by
  have kept : NamesKept (e + 1) s (s.mark o) := .edit _ s o (fun _ => rfl) fun _ => rfl
  have list : ((s.mark o).header e).body.entries = s.listed e := kept.listed e (Nat.lt_succ_self e)
  have same : ((s.mark o).header o).parentDirectory = some d := by
    rw [ObjectManager.mark, header_modify_self]
    exact parent
  rw [ObjectManager.begin, ObjectManager.unlink, same, ObjectManager.listed]
  dsimp only
  by_cases here : e = d
  · subst here
    rw [if_pos rfl, header_modify_self, entries_removeEntry, list]
  · rw [if_neg here, header_modify_of_ne _ _ here]
    exact list

theorem obpDeleteObjectInternal_unlinks {r : Status × ObjectManager} (unused : (s.header o).referenceCount = 0)
    (target : (s.header o).references = [p]) (held : (s.header p).referenceCount ≠ 1)
    (run : obpDeleteObjectInternal checked fuel s o = some r) : r.2 = ((s.begin o).decrement p).free o := by
  have references : ((s.begin o).header o).references = [p] :=
    (header_begin_same s o ObjectHeader.references (fun _ _ => rfl) (fun _ _ => rfl) o).trans target
  have more : ((s.begin o).header p).referenceCount ≠ 1 := by
    rw [header_begin_same s o ObjectHeader.referenceCount (fun _ _ => rfl) fun _ _ => rfl]
    exact held
  cases fuel with
  | zero => cases run
  | succ fuel =>
    unfold obpDeleteObjectInternal at run
    obtain ⟨t, dereferenced, same⟩ := Option.map_eq_some_iff.mp ((if_neg (not_not_intro unused)).symm.trans run)
    cases same
    change ((s.begin o).header o).references.foldlM _ (s.begin o) = some t at dereferenced
    rw [references] at dereferenced
    obtain ⟨u, dropped, same⟩ := Option.bind_eq_some_iff.mp dereferenced
    cases same
    rw [dereference_more more dropped]

/-- With the reference of the lookup the two that are dropped leave one less than before. -/
theorem header_released (s : ObjectManager) (o q : Nat) :
    (obDereferenceObjectEx (s.obReferenceObject o) o 2).header q =
      if q = o then { s.header q with referenceCount := (s.header q).referenceCount + 1 - 2 } else s.header q := by
  rw [obDereferenceObjectEx, reference_modify]
  by_cases here : q = o
  · rw [if_pos here, here, header_modify_self, header_modify_self]
  · rw [if_neg here, header_modify_of_ne _ _ here, header_modify_of_ne _ _ here]

/-- A link that nothing refers to goes from its directory. What it links to has another reference. -/
theorem obDeleteObject_unlinks (found : leadsTo allocated fuel s path none 1 = some (some o))
    (last : (s.header o).referenceCount = 1) (target : (s.header o).references = [p])
    (parent : (s.header o).parentDirectory = some d) (other : p ≠ o) (held : (s.header p).referenceCount ≠ 1)
    (run : obDeleteObject checked allocated fuel s (rtlInitUnicodeString path) = some (status, t)) (e : Nat) :
    t.listed e = (if e = d then (s.listed e).erase o else s.listed e) ∧
      ∀ q, (t.header q).objectName = (s.header q).objectName := by
  have two : ¬2 < ((s.obReferenceObject o).header o).referenceCount := by
    rw [reference_modify, header_modify_self, last]
    exact (by decide : ¬(2 : BitVec 32) < 1 + 1)
  let released := obDereferenceObjectEx (s.obReferenceObject o) o 2
  have edited : ∀ q, released.header q = _ := header_released s o
  have unused : (released.header o).referenceCount = 0 := by
    rw [edited, if_pos rfl, last]
    exact (by decide : (1 : BitVec 32) + 1 - 2 = 0)
  have references : (released.header o).references = [p] := by
    rw [edited, if_pos rfl]
    exact target
  have inside : (released.header o).parentDirectory = some d := by
    rw [edited, if_pos rfl]
    exact parent
  have more : (released.header p).referenceCount ≠ 1 := by
    rw [edited, if_neg other]
    exact held
  rw [obDeleteObject_found found, deleteReferenced, if_neg two] at run
  obtain ⟨r, deleted, same⟩ := Option.map_eq_some_iff.mp run
  cases same
  rw [obpDeleteObjectInternal_unlinks unused references more deleted]
  have kept : ∀ n, NamesKept n (released.begin o) ((released.begin o).decrement p) := fun n => .decrement n _ p
  constructor
  · change ((released.begin o).decrement p).listed e = _
    have lists : released.listed e = s.listed e := by
      rw [ObjectManager.listed, edited]
      split <;> rfl
    rw [(kept (e + 1)).listed e (Nat.lt_succ_self e), listed_unlinked released inside, lists]
  · intro q
    change (((released.begin o).decrement p).header q).objectName = _
    rw [(kept (q + 1)).names q (Nat.lt_succ_self q),
      header_begin_same released o ObjectHeader.objectName (fun _ _ => rfl) fun _ _ => rfl, edited]
    split <;> rfl

end deletions

section global

variable {checked unlinks : Bool} {fuel : Nat} {m m' : ObjectManager} {status : Status} {letter : BitVec 8} {o p d : Nat}
  {s t : MountState}

def globalPath : List WChar := [backslash, 0x47, 0x6C, 0x6F, 0x62, 0x61, 0x6C]

def linkPath (driveLetter : BitVec 8) : List WChar := globalPath ++ backslash :: linkName driveLetter

/-- A letter is no backslash, so that the link goes to \Global under its two characters. -/
theorem linkPath_split {mask mask' : BitVec 32} (given : ioAllocateMountDriveLetter mask = some (letter, mask')) :
    lastBackslash (linkPath letter) = 7 := by
  obtain ⟨i, inside, rfl, -⟩ := allocate_some given
  have all : ∀ k : Fin 26, lastBackslash (linkPath (0x41 + BitVec.ofNat 8 k)) = 7 := by decide
  exact all ⟨i, inside⟩

/-- What the mount does to the names, ObCreateSymbolicLink does to \Global. -/
theorem linkVolume_refines {r : MountRequest} {mask mask' : BitVec 32} {allocated : LinkAllocations}
    {targetPath : List WChar} (settled : Settled m) (given : ioAllocateMountDriveLetter mask = some (letter, mask'))
    (global : leadsTo allocated.directoryLookup fuel m globalPath (some .directory) 0 = some (some d))
    (run : obCreateSymbolicLink checked allocated fuel m (linkPath letter) targetPath = some (status, m'))
    (query : succeeded r.queryName = true) (answer : succeeded r.createLink = status.isSuccess)
    (shown : (namesIn m d).Perm s.globalNames) : (namesIn m' d).Perm (s.linkVolume r letter).globalNames := by
  have split := linkPath_split given
  have alive := settled.found_alive global
  rw [MountState.linkVolume, query, answer, Bool.true_and]
  rcases obCreateSymbolicLink_names settled run with ⟨failed, names⟩ | ⟨success, e, placed, names⟩
  · rw [names d alive, failed]
    exact shown
  · rw [PlacedIn, split, if_neg (by decide)] at placed
    change leadsTo allocated.directoryLookup fuel m globalPath (some .directory) 0 = _ at placed
    rw [global] at placed
    cases placed
    rw [names d alive, success, if_pos rfl, if_pos rfl, lastName, split]
    exact shown.append_right _

theorem map_erase_perm {α β : Type} [BEq α] [LawfulBEq α] [BEq β] [LawfulBEq β] {l : List α} {x : α} (f : α → β)
    (member : x ∈ l) : ((l.erase x).map f).Perm ((l.map f).erase (f x)) := by
  have removed := ((List.perm_cons_erase member).map f).erase (f x)
  rw [List.map_cons, List.erase_cons_head] at removed
  exact removed.symm

theorem fsFatDismount_names {realDevice volume : Nat} {answer : BitVec 32}
    (attached : (s.devices realDevice).attachedDevice = some volume) (lettered : s.driveLetter volume ≠ 0)
    (run : fsFatDismount checked unlinks s realDevice = some (answer, t)) :
    t.globalNames = if unlinks then s.globalNames.erase (linkName (s.driveLetter volume)) else s.globalNames := by
  have ran := run
  rw [fsFatDismount, attached] at run
  by_cases there : volume ∈ s.volumes
  · simp only [Option.bind_eq_bind, Option.bind_some, there, not_true_eq_false, if_false] at run
    obtain ⟨devices, detached, rest⟩ := Option.bind_eq_some_iff.mp run
    rw [if_pos lettered] at rest
    obtain ⟨u, freed, -⟩ := Option.bind_eq_some_iff.mp rest
    obtain ⟨mask, freed, -⟩ := Option.map_eq_some_iff.mp freed
    rw [fsFatDismount_lettered attached there detached lettered freed] at ran
    have same := (Prod.mk.inj (Option.some.inj ran)).2
    rw [← same]
    exact dismount_names.2
  · simp [there] at run

/-- The answer of ObDeleteObject that a dismount is given. -/
def unlinksName (m : ObjectManager) (found : Option Nat) : Bool :=
  found.any fun o => decide ((m.header o).referenceCount = 1)

/-- What a link in a directory is: it refers to its target only, which something else refers to as well. -/
structure LinkIn (m : ObjectManager) (directory : Nat) (name : List WChar) (o p : Nat) : Prop where
  listed : o ∈ m.listed directory
  named : (m.header o).objectName = name
  target : (m.header o).references = [p]
  parent : (m.header o).parentDirectory = some directory
  apart : p ≠ o
  held : (m.header p).referenceCount ≠ 1

/-- What the dismount does to the names, ObDeleteObject does to \Global. -/
theorem fsFatDismount_refines {realDevice volume : Nat} {answer : BitVec 32} {allocated : Nat → Bool} {found : Option Nat}
    (settled : Settled m) (attached : (s.devices realDevice).attachedDevice = some volume)
    (lettered : s.driveLetter volume ≠ 0)
    (looked : leadsTo allocated fuel m (linkPath (s.driveLetter volume)) none 1 = some found)
    (link : ∀ o, found = some o → ∃ p, LinkIn m d (linkName (s.driveLetter volume)) o p)
    (deleted : obDeleteObject checked allocated fuel m (rtlInitUnicodeString (linkPath (s.driveLetter volume))) =
      some (status, m'))
    (run : fsFatDismount checked (unlinksName m found) s realDevice = some (answer, t))
    (shown : (namesIn m d).Perm s.globalNames) : (namesIn m' d).Perm t.globalNames := by
  rw [fsFatDismount_names attached lettered run]
  cases found with
  | none =>
    rw [obDeleteObject_missing looked deleted]
    exact shown
  | some o =>
    obtain ⟨p, link⟩ := link o rfl
    by_cases last : (m.header o).referenceCount = 1
    · have unlinked := obDeleteObject_unlinks looked last link.target link.parent link.apart link.held deleted d
      rw [unlinksName, Option.any_some, decide_eq_true last, if_pos rfl]
      rw [namesIn, unlinked.1, if_pos rfl, List.map_congr_left fun q _ => unlinked.2 q]
      have erased := map_erase_perm (fun q => (m.header q).objectName) link.listed
      rw [link.named] at erased
      exact erased.trans (shown.erase _)
    · rw [obDeleteObject_inUse settled looked last deleted, unlinksName, Option.any_some, decide_eq_false last]
      exact shown

end global

end Gr8os.FsFat.Mounts
