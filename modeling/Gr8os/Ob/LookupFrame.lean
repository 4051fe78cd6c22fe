import Gr8os.Ob.Lifecycle
import Gr8os.Ob.NameTypes

/-! What a lookup comes to depends neither on counts nor on objects that no directory lists. -/
namespace Gr8os.Ob

section lookups

/-- Up to a bound the objects are named and filled alike, and the directories list none above it. -/
structure SameNames (n : Nat) (s t : ObjectSpace) : Prop where
  root : t.obRootObjectDirectory = s.obRootObjectDirectory
  rootInside : s.obRootObjectDirectory < n
  names : ∀ o < n, (t.object o).objectName = (s.object o).objectName
  bodies : ∀ o < n, (t.object o).body = (s.object o).body
  listed : ∀ d, ∀ o ∈ s.objectList d, o < n

variable {n : Nat} {s t : ObjectSpace} {allocated : Nat → Bool} {parseContext : BitVec 32} {path : UnicodeString}
  {fuel heapCalls : Nat}

theorem SameNames.find (same : SameNames n s t) {d : Nat} (inside : d < n) (name : List WChar) :
    obpFindObjectInDirectory t d name = obpFindObjectInDirectory s d name := by
  have list : t.objectList d = s.objectList d := by
    unfold ObjectSpace.objectList
    rw [same.bodies d inside]
  have names : ∀ o ∈ s.objectList d, (t.object o).objectName = (s.object o).objectName :=
    fun o member => same.names o (same.listed d o member)
  unfold obpFindObjectInDirectory
  rw [list]
  revert names
  generalize s.objectList d = objects
  intro names
  induction objects with
  | nil => rfl
  | cons o objects ih =>
    rw [findObject, findObject, names o List.mem_cons_self, ih fun p member => names p (List.mem_cons_of_mem o member)]

theorem nameLoop_same (same : SameNames n s t) {d prevslash wc : Nat} (inside : d < n) :
    nameLoop allocated t parseContext path fuel d prevslash wc heapCalls =
      nameLoop allocated s parseContext path fuel d prevslash wc heapCalls := by
  induction fuel generalizing d prevslash wc heapCalls with
  | zero => rfl
  | succ fuel ih =>
    rw [nameLoop, nameLoop, ih inside]
    dsimp only
    rw [same.find inside]
    cases found : obpFindObjectInDirectory s d
      (wcssubstr (path.buffer.drop (prevslash + 1)) 0 ((2 * wc - 2 * prevslash) / 2 - 1)) with
    | none => rfl
    | some o =>
      have below : o < n := same.listed d o (findObject_mem found)
      have parsed : ∀ remaining room, parseRoutine (t.object o) remaining parseContext room =
          parseRoutine (s.object o) remaining parseContext room := by
        intro remaining room
        rw [parseRoutine, parseRoutine, same.bodies o below]
      have type : (t.object o).objectType = (s.object o).objectType := by
        rw [ObjectHeader.objectType, ObjectHeader.objectType, same.bodies o below]
      simp only [parsed, type, ih below]

theorem reparseName_same (same : SameNames n s t) {objectType : Option ObjectType} {requestorMode : ProcessorMode} :
    (reparseName allocated t objectType requestorMode parseContext fuel path heapCalls).map (·.object) =
      (reparseName allocated s objectType requestorMode parseContext fuel path heapCalls).map (·.object) := by
  induction fuel generalizing path heapCalls with
  | zero => rfl
  | succ fuel ih =>
    rw [reparseName, reparseName, same.root, nameLoop_same same same.rootInside]
    split
    · rfl
    · cases ends : nameLoop allocated s parseContext path (path.buffer.length + 1) s.obRootObjectDirectory 0 1 heapCalls with
      | returned status => rfl
      | reparse next calls => exact ih
      | fuel => rfl
      | finish o packet =>
        obtain ⟨d, member⟩ := nameLoop_listed ends
        have type : (t.object o).objectType = (s.object o).objectType := by
          rw [ObjectHeader.objectType, ObjectHeader.objectType, same.bodies o (same.listed d o member)]
        dsimp only [Option.map_some]
        rw [finishName, finishName, type]
        split <;> rfl

end lookups

/-- What a lookup for the kernel comes to, if it ends: an object or none. -/
def leadsTo (allocated : Nat → Bool) (fuel : Nat) (s : ObjectManager) (path : List WChar) (objectType : Option ObjectType)
    (parseContext : BitVec 32) : Option (Option Nat) :=
  (referenceByName allocated fuel s (rtlInitUnicodeString path) objectType .kernelMode parseContext).map fun r => r.2.1

section fresh

variable {fuel : Nat} {s t : ObjectManager} {o : Nat} {allocated : Nat → Bool} {path : List WChar}
  {objectType : Option ObjectType} {parseContext : BitVec 32}

/-- The state with one more object. -/
def fresh (s : ObjectManager) (objectType : ObjectType) (objectName : List WChar) : ObjectManager :=
  (obCreateObject true s objectType objectName).2.2

theorem create_fresh (s : ObjectManager) (type : ObjectType) (name : List WChar) :
    obCreateObject true s type name = (.success, some s.created, fresh s type name) := rfl

theorem header_fresh (type : ObjectType) (name : List WChar) (older : o < s.created) :
    (fresh s type name).header o = s.header o := if_neg (Nat.ne_of_lt older)

theorem SameNames.reference {n : Nat} {space : ObjectSpace} (same : SameNames n space t.space) (o : Nat) :
    SameNames n space (t.obReferenceObject o).space where
  root := same.root
  rootInside := same.rootInside
  names p below := by
    have kept := header_modify_same t o (f := fun h => { h with referenceCount := h.referenceCount + 1 })
      ObjectHeader.objectName (fun _ => rfl) p
    exact kept.trans (same.names p below)
  bodies p below := by
    have kept := header_modify_same t o (f := fun h => { h with referenceCount := h.referenceCount + 1 })
      ObjectHeader.body (fun _ => rfl) p
    exact kept.trans (same.bodies p below)
  listed := same.listed

theorem SameNames.fresh {n : Nat} {space : ObjectSpace} (same : SameNames n space t.space) (above : n ≤ t.created)
    (type : ObjectType) (name : List WChar) : SameNames n space (fresh t type name).space where
  root := same.root
  rootInside := same.rootInside
  names p below := by
    have older : (Ob.fresh t type name).space.object p = t.space.object p :=
      header_fresh type name (Nat.lt_of_lt_of_le below above)
    rw [older]
    exact same.names p below
  bodies p below := by
    have older : (Ob.fresh t type name).space.object p = t.space.object p :=
      header_fresh type name (Nat.lt_of_lt_of_le below above)
    rw [older]
    exact same.bodies p below
  listed := same.listed

theorem leadsTo_same (same : SameNames s.created s.space t.space) :
    leadsTo allocated fuel t path objectType parseContext = leadsTo allocated fuel s path objectType parseContext := by
  have object : ∀ u : ObjectManager, leadsTo allocated fuel u path objectType parseContext =
      (reparseName allocated u.space objectType .kernelMode parseContext fuel (rtlInitUnicodeString path) 0).map
        (·.object) := fun u => Option.map_map ..
  rw [object, object]
  exact reparseName_same same

theorem leadsTo_none (nothing : leadsTo allocated fuel t path objectType parseContext = some none) : ∃ status,
    referenceByName allocated fuel t (rtlInitUnicodeString path) objectType .kernelMode parseContext =
      some (status, none, t) ∧ status.isSuccess = false := by
  obtain ⟨⟨status, object, u⟩, run, rfl⟩ := Option.map_eq_some_iff.mp nothing
  obtain ⟨result, looked, same⟩ := Option.map_eq_some_iff.mp run
  rcases referenceByName_quiet run with ⟨_, rfl⟩ | ⟨o, found, _⟩
  · refine ⟨status, run, ?_⟩
    rcases reparseName_walk looked with failed | ⟨o, packet, walk⟩
    · have first : result.status = status := (Prod.mk.inj same).1
      rwa [← first]
    · cases Option.some.inj (looked.symm.trans (walk objectType .kernelMode))
      have found : (finishName u.space objectType .kernelMode o packet).object = some o := by
        rw [finishName, if_neg (fun user => ProcessorMode.noConfusion user.1)]
      cases found.symm.trans (Prod.mk.inj (Prod.mk.inj same).2).1
  · cases found

theorem leadsTo_some (found : leadsTo allocated fuel t path objectType parseContext = some (some o)) : ∃ status,
    referenceByName allocated fuel t (rtlInitUnicodeString path) objectType .kernelMode parseContext =
      some (status, some o, t.obReferenceObject o) := by
  obtain ⟨⟨status, object, u⟩, run, same⟩ := Option.map_eq_some_iff.mp found
  cases same
  rcases referenceByName_quiet run with ⟨none, _⟩ | ⟨p, same, rfl⟩
  · cases none
  · cases Option.some.inj same
    exact ⟨status, run⟩

end fresh

end Gr8os.Ob
