import Gr8os.Ob.ReferenceRuns
import Gr8os.Ob.Resolution

/-! Name resolution over runs of creations, insertions and deletions: when it ends. -/
namespace Gr8os.Ob

open PathWalk Runs

/-! The calls. -/

inductive NameOp
  | obCreateObject (objectType : ObjectType) (objectName : List WChar) (allocated : Bool)
  | obCreateDirectory (name : List WChar) (insertInto : Option Nat) (allocated : Bool)
  | obInsertObject (directory : Option Nat) (o : Nat)
  | obCreateSymbolicLink (symlinkName targetPath : List WChar) (allocated : LinkAllocations) (fuel : Nat)
  | obDeleteObject (objectName : List WChar) (allocated : Nat → Bool) (fuel : Nat)

def nameStep (checked : Bool) (m : ObjectManager) : NameOp → Option ObjectManager
  | .obCreateObject objectType objectName allocated => some (obCreateObject allocated m objectType objectName).2.2
  | .obCreateDirectory name insertInto allocated => some (obCreateDirectory allocated m name insertInto).2
  | .obInsertObject directory o => some (obInsertObject m (directory.getD m.space.obRootObjectDirectory) o)
  | .obCreateSymbolicLink symlinkName targetPath allocated fuel =>
    (obCreateSymbolicLink checked allocated fuel m symlinkName targetPath).map Prod.snd
  | .obDeleteObject objectName allocated fuel =>
    (obDeleteObject checked allocated fuel m (rtlInitUnicodeString objectName)).map Prod.snd

/-- Links come from ObCreateSymbolicLink only, with a target whose resolution builds no string that is too long;
an object is inserted once. -/
def Allowed (m : ObjectManager) : NameOp → Prop
  | .obCreateObject objectType _ _ => objectType ≠ .symbolicLink
  | .obCreateDirectory _ _ _ => True
  | .obInsertObject _ o =>
    o < m.created ∧ (m.header o).parentDirectory = none ∧ (m.header o).objectType ≠ .symbolicLink
  | .obCreateSymbolicLink _ targetPath _ _ =>
    Fits m.space.tree m.space.obRootObjectDirectory (components targetPath)
  | .obDeleteObject _ _ _ => True

structure NamesStep (checked : Bool) (m : ObjectManager) (op : NameOp) (m' : ObjectManager) : Prop where
  code : nameStep checked m op = some m'
  allowed : Allowed m op
  spares : Spares m.space m'.space

theorem nameEdit_of_edited {m m' : ObjectManager} (edited : Edited m.created [] m.space m'.space)
    (created : m.created ≤ m'.created) : NameEdit m m' [] where
  edited := edited
  created := created
  single := .nil
  bounded := by simp
  parent := by simp
  unlisted := by simp
  links := by simp

theorem Trimmed.nameEdit {m m' : ObjectManager} (trimmed : Trimmed m.created m m') : NameEdit m m' [] :=
  nameEdit_of_edited trimmed.edited trimmed.created.ge

theorem edited_create {n : Nat} {m m' : ObjectManager} {allocated : Bool} {objectType : ObjectType}
    {objectName : List WChar} {status : Status} {o : Nat} (below : n ≤ m.created)
    (created : obCreateObject allocated m objectType objectName = (status, some o, m')) :
    Edited n [] m.space m'.space ∧ o = m.created ∧ m'.created = m.created + 1 ∧
      (m'.space.object o).body = objectType.zeroed := by
  cases allocated with
  | false => exact absurd created (by simp [obCreateObject])
  | true =>
    obtain ⟨-, rest⟩ := Prod.mk.inj created
    obtain ⟨same, rfl⟩ := Prod.mk.inj rest
    cases Option.some.inj same
    refine ⟨?_, rfl, rfl, congrArg ObjectHeader.body (if_pos rfl)⟩
    let header : ObjectHeader := { objectName, referenceCount := 1, body := objectType.zeroed }
    change Edited n [] m.space (m.modify m.created fun _ => header).space
    apply edited_above below
    intro h
    rw [show header.body.entries = [] from entries_zeroed objectType]
    exact List.nil_sublist _

theorem create_none {m m' : ObjectManager} {allocated : Bool} {objectType : ObjectType} {objectName : List WChar}
    {status : Status} (failed : obCreateObject allocated m objectType objectName = (status, none, m')) : m' = m := by
  cases allocated with
  | false => exact (Prod.mk.inj (Prod.mk.inj failed).2).2.symm
  | true => exact absurd failed (by simp [obCreateObject])

theorem edited_insert {n : Nat} (m : ObjectManager) (directory o : Nat) :
    Edited n [o] m.space (obInsertObject m directory o).space ∧
      ((obInsertObject m directory o).space.object o).parentDirectory ≠ none := by
  constructor
  · have tail : Edited n [o] m.space (m.modify directory fun h => { h with body := h.body.insertTail o }).space := by
      apply edited_modify
      · exact fun _ _ => rfl
      · exact fun _ h => h.body.alike_insertTail o
      · exact fun _ _ h => h
      · intro h
        cases body : h.body with
        | directory l => exact ⟨[o], .refl _, by simp [Body.insertTail, Body.entries]⟩
        | _ => exact ⟨[], List.nil_sublist _, by simp [Body.insertTail, Body.entries]⟩
    have parent : Edited n [] (m.modify directory fun h => { h with body := h.body.insertTail o }).space
        (obInsertObject m directory o).space := by
      apply edited_modify
      · exact fun _ _ => rfl
      · exact fun _ _ => .inl rfl
      · exact fun _ _ _ => by simp
      · exact fun h => ⟨[], .slnil, by rw [List.append_nil]⟩
    exact tail.trans parent
  · have self : (obInsertObject m directory o).space.object o = _ := if_pos rfl
    rw [self]
    simp

theorem edited_reference (n : Nat) (m : ObjectManager) (o : Nat) :
    Trimmed n m (m.obReferenceObject o) := by
  rw [reference_modify]
  exact ⟨edited_counts (fun _ => rfl) (fun _ => rfl) fun _ => rfl, rfl⟩

/-- A lookup references what it returns, which is in a directory. -/
theorem referenceByName_trimmed {allocated : Nat → Bool} {fuel : Nat} {m m' : ObjectManager}
    {objectName : UnicodeString} {objectType : Option ObjectType} {requestorMode : ProcessorMode}
    {parseContext : BitVec 32} {status : Status} {object : Option Nat} (n : Nat)
    (run : referenceByName allocated fuel m objectName objectType requestorMode parseContext =
      some (status, object, m')) : Trimmed n m m' := by
  obtain ⟨result, looked, same⟩ := Option.map_eq_some_iff.mp run
  cases same
  rcases reparseName_listed looked with ⟨-, same⟩ | ⟨o, -, same, -⟩
  · rw [same]
    exact .refl n m
  · rw [same]
    exact edited_reference n m o

theorem edited_store {n holder o : Nat} {target : List WChar} (m : ObjectManager) (above : n ≤ holder) :
    Edited n [] m.space (storePointer m holder o target).space ∧
      ((storePointer m holder o target).space.object holder).body = (m.space.object holder).body.retarget target := by
  constructor
  · apply edited_above above
    intro h
    rw [entries_retarget]
  · exact congrArg ObjectHeader.body (if_pos rfl)

/-- An object comes to the end of a list, and deletions may follow. -/
theorem nameEdit_of_insert {m m₁ m' : ObjectManager} {directory o : Nat}
    (before : Edited m.created [] m.space m₁.space) (above : m.created ≤ m₁.created)
    (after : Trimmed m₁.created (obInsertObject m₁ directory o) m') (inside : o < m₁.created)
    (unlisted : ∀ d, o ∉ m.space.objectList d)
    (links : ∀ target, (m₁.space.object o).body = .symbolicLink target → Found m.space target) :
    NameEdit m m' [o] := by
  obtain ⟨inserted, parent⟩ := edited_insert (n := m₁.created) m₁ directory o
  have created : m'.created = m₁.created := after.created
  have later := inserted.trans after.edited
  constructor
  · have whole := before.trans (later.mono above)
    rwa [List.append_nil] at whole
  · omega
  · exact List.nodup_singleton o
  · intro p member
    cases List.mem_singleton.mp member
    omega
  · intro p member
    cases List.mem_singleton.mp member
    exact after.edited.parent o inside parent
  · intro p member
    cases List.mem_singleton.mp member
    exact unlisted
  · intro p member target link
    cases List.mem_singleton.mp member
    exact links target (((later.alike o inside).link target).mp link)

theorem Resolvable.fresh {m : ObjectManager} (ok : Resolvable m) (d : Nat) : m.created ∉ m.space.objectList d :=
  fun member => Nat.lt_irrefl _ (ok.bounded d _ member)

theorem obCreateDirectory_edit {m : ObjectManager} (ok : Resolvable m) (allocated : Bool) (name : List WChar)
    (insertInto : Option Nat) : ∃ added, NameEdit m (obCreateDirectory allocated m name insertInto).2 added := by
  unfold obCreateDirectory
  split
  case h_1 status m₁ failed =>
    rw [create_none failed]
    exact ⟨[], (Trimmed.refl _ m).nameEdit⟩
  case h_2 status o m₁ created =>
    obtain ⟨edited, rfl, next, body⟩ := edited_create (Nat.le_refl _) created
    refine ⟨_, nameEdit_of_insert edited (by omega) (.refl _ _) (by omega) ok.fresh ?_⟩
    intro target link
    exact absurd (body.symm.trans link) (by simp [ObjectType.zeroed])

theorem obDeleteObject_trimmed {checked : Bool} {allocated : Nat → Bool} {fuel : Nat} {m : ObjectManager}
    {objectName : UnicodeString} {r : Status × ObjectManager} (n : Nat)
    (run : obDeleteObject checked allocated fuel m objectName = some r) : Trimmed n m r.2 := by
  obtain ⟨⟨status, object, m₁⟩, looked, rest⟩ := Option.bind_eq_some_iff.mp run
  have referenced := referenceByName_trimmed n looked
  cases object with
  | none =>
    cases Option.some.inj rest
    exact referenced
  | some o =>
    refine referenced.trans ?_
    change deleteReferenced checked fuel m₁ o = some r at rest
    unfold deleteReferenced at rest
    split at rest
    · cases Option.some.inj rest
      exact (trimmed_pending m₁ o).trans (trimmed_dereferenceEx _ o 2)
    · obtain ⟨result, gone, rfl⟩ := Option.map_eq_some_iff.mp rest
      have deleted := (obpDeleteObjectInternal_trimmed (n := n) (obDereferenceObjectEx m₁ o 2) o).of_eq gone
      exact (trimmed_dereferenceEx m₁ o 2).trans deleted

theorem linkDirectory_trimmed {allocated : LinkAllocations} {fuel : Nat} {m m' : ObjectManager}
    {symlinkName : List WChar} {rel : Nat} {status : Status} {directory : Option Nat} (n : Nat)
    (run : linkDirectory allocated fuel m symlinkName rel = some (status, directory, m')) : Trimmed n m m' := by
  unfold linkDirectory at run
  split at run
  · split at run
    · exact referenceByName_trimmed n run
    · contradiction
  · cases Option.some.inj run
    exact edited_reference n m _

theorem obCreateSymbolicLink_edit {checked : Bool} {allocated : LinkAllocations} {fuel : Nat} {m : ObjectManager}
    {symlinkName targetPath : List WChar} {r : Status × ObjectManager} (ok : Resolvable m)
    (fits : Fits m.space.tree m.space.obRootObjectDirectory (components targetPath))
    (run : obCreateSymbolicLink checked allocated fuel m symlinkName targetPath = some r) :
    ∃ added, NameEdit m r.2 added := by
  obtain ⟨⟨status, object, m₁⟩, looked, rest⟩ := Option.bind_eq_some_iff.mp run
  have referenced := referenceByName_trimmed m.created looked
  cases object with
  | none =>
    cases Option.some.inj rest
    exact ⟨[], referenced.nameEdit⟩
  | some object =>
    have target : Found m.space targetPath := by
      obtain ⟨result, lookup, same⟩ := Option.map_eq_some_iff.mp looked
      obtain ⟨isObject, -⟩ := Prod.mk.inj (Prod.mk.inj same).2
      exact ok.found fits lookup isObject
    dsimp only at rest
    split at rest
    case h_1 status m₂ failed =>
      obtain ⟨m₃, dropped, last⟩ := Option.bind_eq_some_iff.mp rest
      cases Option.some.inj last
      cases create_none failed
      exact ⟨[], (referenced.trans ((obDereferenceObject_trimmed _ object).of_eq dropped)).nameEdit⟩
    case h_2 status symlink m₂ created =>
      obtain ⟨edited, rfl, next, body⟩ := edited_create (Nat.le_refl _) created
      have old := referenced.created
      obtain ⟨⟨status, directory, m₃⟩, place, rest⟩ := Option.bind_eq_some_iff.mp rest
      have placed : ∀ n, Trimmed n m₂ m₃ := fun n => linkDirectory_trimmed n place
      have before : Edited m.created [] m.space m₃.space :=
        (referenced.edited.trans (edited.mono (by omega))).trans (placed _).edited
      have count := (placed 0).created
      cases directory with
      | none =>
        obtain ⟨⟨refused, m₄⟩, deleted, rest⟩ := Option.bind_eq_some_iff.mp rest
        obtain ⟨m₅, dropped, last⟩ := Option.bind_eq_some_iff.mp rest
        cases Option.some.inj last
        have gone := (obpDeleteObjectInternal_trimmed (n := m.created) m₃ m₁.created).of_eq deleted
        have after := gone.trans ((obDereferenceObject_trimmed m₄ object).of_eq dropped)
        have kept : m.created ≤ m₅.created := by
          have same := after.created
          omega
        exact ⟨[], nameEdit_of_edited (before.trans after.edited) kept⟩
      | some directory =>
        dsimp only at rest
        split at rest
        · contradiction
        · obtain ⟨m₄, dropped, last⟩ := Option.bind_eq_some_iff.mp rest
          cases Option.some.inj last
          obtain ⟨store, link⟩ := @edited_store m.created m₁.created object targetPath m₃ old.ge
          have whole := before.trans store
          refine ⟨_, nameEdit_of_insert whole ?_ ((obDereferenceObject_trimmed _ directory).of_eq dropped) ?_ ?_ ?_⟩
          · change m.created ≤ m₃.created
            omega
          · change m₁.created < m₃.created
            omega
          · rw [old]
            exact ok.fresh
          · intro string isLink
            have zeroed := (placed (m₁.created + 1)).edited.alike m₁.created (by omega)
            rw [link, (zeroed.link []).mpr body] at isLink
            cases isLink
            exact target

theorem nameStep_edit {checked : Bool} {m m' : ObjectManager} {op : NameOp} (ok : Resolvable m)
    (allowed : Allowed m op) (code : nameStep checked m op = some m') : ∃ added, NameEdit m m' added := by
  cases op with
  | obCreateObject objectType objectName allocated =>
    cases Option.some.inj code
    rcases created : obCreateObject allocated m objectType objectName with ⟨status, object, m₁⟩
    cases object with
    | none =>
      cases create_none created
      exact ⟨[], (Trimmed.refl _ m).nameEdit⟩
    | some o =>
      obtain ⟨edited, -, next, -⟩ := edited_create (Nat.le_refl _) created
      have above : m.created ≤ m₁.created := by omega
      exact ⟨[], nameEdit_of_edited edited above⟩
  | obCreateDirectory name insertInto allocated =>
    cases Option.some.inj code
    exact obCreateDirectory_edit ok allocated name insertInto
  | obInsertObject directory o =>
    cases Option.some.inj code
    obtain ⟨inside, apart, notLink⟩ := allowed
    refine ⟨[o], nameEdit_of_insert (.refl _ _) (Nat.le_refl _) (.refl _ _) inside ?_ ?_⟩
    · intro d member
      exact ok.parent d o member apart
    · intro target link
      have type : (m.header o).objectType = .symbolicLink := by
        unfold ObjectHeader.objectType ObjectManager.header
        rw [link]
      exact absurd type notLink
  | obCreateSymbolicLink symlinkName targetPath allocated fuel =>
    obtain ⟨r, run, rfl⟩ := Option.map_eq_some_iff.mp code
    exact obCreateSymbolicLink_edit ok allowed run
  | obDeleteObject objectName allocated fuel =>
    obtain ⟨r, run, rfl⟩ := Option.map_eq_some_iff.mp code
    exact ⟨[], (obDeleteObject_trimmed m.created run).nameEdit⟩

theorem step_resolvable {checked : Bool} {m m' : ObjectManager} {op : NameOp} (ok : Resolvable m)
    (step : NamesStep checked m op m') : Resolvable m' := by
  obtain ⟨added, edit⟩ := nameStep_edit ok step.allowed step.code
  exact edit.resolvable ok step.spares

theorem init_resolvable (processes : Nat) : Resolvable (World.init processes).manager where
  bounded _ _ member := absurd member (by simp [World.init, ObjectSpace.objectList])
  nodup _ := by simp [World.init, ObjectSpace.objectList]
  parent _ _ member := absurd member (by simp [World.init, ObjectSpace.objectList])
  links _ _ member := absurd member (by simp [World.init, ObjectSpace.objectList])

theorem afterParse_link {o k : Nat} {h : ObjectHeader} {remaining : List WChar} {ok : Bool} {e : LoopEnd}
    (ends : afterParse o k (parseRoutine h remaining 1 ok) = some e) : ∃ packet, e = .finish o packet := by
  cases body : h.body with
  | symbolicLink target =>
    simp [parseRoutine, body, obpParseSymbolicLink, afterParse, Status.isSuccess, Status.code] at ends
  | device =>
    simp [parseRoutine, body, iopParseDevice, afterParse, Status.isSuccess, Status.code] at ends
    exact ⟨_, ends.symm⟩
  | _ => simp [parseRoutine, body, afterParse] at ends

/-- A caller who asks for links themselves gets no reparse, and the loop comes to the end of the string. -/
theorem nameLoop_ends {allocated : Nat → Bool} {s : ObjectSpace} {path : UnicodeString}
    {fuel d prevslash wc heapCalls : Nat} (enough : path.length.toNat + 1 < 2 * (wc + fuel)) (started : 0 < fuel) :
    (∃ status, nameLoop allocated s 1 path fuel d prevslash wc heapCalls = .returned status) ∨
      ∃ o packet, nameLoop allocated s 1 path fuel d prevslash wc heapCalls = .finish o packet := by
  induction fuel generalizing d prevslash wc heapCalls with
  | zero => omega
  | succ fuel ih =>
    rw [nameLoop]
    split
    case isTrue stop =>
      split
      · exact .inl ⟨_, rfl⟩
      · dsimp only
        split
        · exact .inl ⟨_, rfl⟩
        · split
          case h_1 e parsed =>
            obtain ⟨packet, same⟩ := afterParse_link parsed
            exact .inr ⟨_, packet, same⟩
          case h_2 =>
            split
            · exact .inr ⟨_, _, rfl⟩
            · split
              · exact .inl ⟨_, rfl⟩
              · exact ih (by omega) (by omega)
    case isFalse inside => exact ih (by omega) (by omega)

/-- The loop comes to a link, from wherever it stands; the induction is on the names that are left. -/
theorem nameLoop_endless {s : ObjectSpace} {parseContext : BitVec 32} (targets : s.PlainTargets)
    (notLink : parseContext ≠ 1) {d : Nat} {cs : List (List WChar)}
    (endless : ∀ y, Reach s.tree (d, cs) y → (s.tree.next y).isSome = true) (fits : Fits s.tree d cs)
    {path : UnicodeString} {prevslash : Nat} (k fuel : Nat) (pos : Position path prevslash cs)
    (room : (pathString cs).length ≤ fuel) :
    ∃ bs next calls, nameLoop (fun _ => true) s parseContext path fuel d prevslash (prevslash + 1) k =
        .reparse next calls ∧ Reach s.tree (d, cs) (s.obRootObjectDirectory, bs) ∧ Position next 0 bs := by
  induction cs generalizing d prevslash k fuel with
  | nil => exact absurd rfl pos.plain.1
  | cons c cs ih =>
    obtain ⟨fuel, rfl⟩ : ∃ f, fuel = f + 1 + c.length := ⟨fuel - 1 - c.length, by simp at room; omega⟩
    obtain ⟨y, goes⟩ := Option.isSome_iff_exists.mp (endless _ .refl)
    rw [nameLoop_component pos]
    cases entry : s.tree.lookup d c with
    | branch e =>
      obtain ⟨o, found, kind⟩ := lookup_some entry (by simp)
      obtain ⟨type, rfl⟩ := entry_branch kind
      have step : Reach s.tree (d, c :: cs) (o, cs) := .single (.branch entry)
      have more : cs ≠ [] := by
        rintro rfl
        exact absurd (endless _ step) (by simp [Tree.next])
      simp only [Bool.not_true, Bool.false_eq_true, if_false, found, parseRoutine_none (.inl type), afterParse, type,
        ne_eq, not_true_eq_false, if_neg more]
      obtain ⟨bs, next, calls, ends, reached, start⟩ := @ih o (fun y reached => endless y (step.trans reached))
        (fits.step (.branch entry)) (prevslash + 1 + c.length) (k + 1) fuel (pos.next more) (by
          simp only [pathString_cons, List.length_cons, List.length_append] at room
          omega)
      exact ⟨bs, next, calls, ends, step.trans reached, start⟩
    | link l =>
      obtain ⟨o, found, kind⟩ := lookup_some entry (by simp)
      obtain ⟨⟨t, body⟩, rfl⟩ := entry_link kind
      obtain ⟨first, string⟩ := target_string targets found body
      have step : Moves s.tree (d, c :: cs) (s.obRootObjectDirectory, s.tree.target o ++ cs) := .link entry
      have plain : ∀ b ∈ cs, backslash ∉ b := fun b member => pos.plain.2 b (List.mem_cons_of_mem c member)
      have start := reparse_position first plain (fits.step step _ .refl)
      simp only [Bool.not_true, Bool.false_eq_true, if_false, found, parseRoutine, body, obpParseSymbolicLink,
        ne_eq, notLink, not_false_eq_true, if_true]
      rw [string]
      exact ⟨_, _, _, rfl, .single step, start⟩
    | _ => exact absurd goes (by simp [Tree.next, entry])

/-- Such a path is never resolved, however many reparses are waited for. -/
theorem endless_unresolved {s : ObjectSpace} {parseContext : BitVec 32} (targets : s.PlainTargets)
    (notLink : parseContext ≠ 1) (objectType : Option ObjectType) (requestorMode : ProcessorMode) (fuel : Nat) :
    ∀ {cs : List (List WChar)} {path : UnicodeString} (k : Nat), Position path 0 cs →
      Fits s.tree s.obRootObjectDirectory cs →
      (∀ y, Reach s.tree (s.obRootObjectDirectory, cs) y → (s.tree.next y).isSome = true) →
      reparseName (fun _ => true) s objectType requestorMode parseContext fuel path k = none := by
  induction fuel with
  | zero => exact fun _ _ _ _ => rfl
  | succ fuel ih =>
    intro cs path k pos fits endless
    rw [reparseName_start (fun _ => true) s objectType requestorMode parseContext pos]
    have size : (pathString cs).length ≤ path.buffer.length + 1 := by
      have same := pos.rest
      rw [List.drop_zero] at same
      rw [same]
      exact Nat.le_succ _
    obtain ⟨bs, next, calls, ends, reached, start⟩ :=
      nameLoop_endless targets notLink endless fits k _ pos size
    have loop : nameLoop (fun _ => true) s parseContext path (path.buffer.length + 1) s.obRootObjectDirectory 0 1 k =
        .reparse next calls := ends
    rw [loop]
    exact ih calls start (fun y there => fits y (reached.trans there)) fun y there => endless y (reached.trans there)

def heapAnswers : LinkAllocations := ⟨fun _ => true, true, true, fun _ => true, true⟩

def nameD : List WChar := [0x44]
def nameE : List WChar := [0x45]
def nameL : List WChar := [0x4C]
def nameA : List WChar := [0x41]

/-- Two links to a directory, of which one is deleted. -/
def twoLinks : List NameOp :=
  [.obCreateDirectory nameD none true,
    .obCreateSymbolicLink (pathString [nameS]) (pathString [nameD]) heapAnswers 4,
    .obCreateSymbolicLink (pathString [nameL]) (pathString [nameD]) heapAnswers 4,
    .obDeleteObject (pathString [nameS]) (fun _ => true) 4]

def ran (ops : List NameOp) : ObjectManager :=
  (exec (nameStep true) (World.init 0).manager ops).getD (World.init 0).manager

theorem reach_directory {T : Tree Nat (List WChar)} {y : Nat × List (List WChar)}
    (directory : T.next (0, [nameD]) = some (1, [])) (reached : Reach T (0, [nameD]) y) :
    y = (0, [nameD]) ∨ y = (1, []) := by
  rcases reached.head with same | ⟨z, next, rest⟩
  · exact .inl same
  · cases Option.some.inj (directory.symm.trans next)
    rcases rest.head with same | ⟨z, stuck, -⟩
    · exact .inr same
    · exact absurd stuck (by simp [Tree.next])

theorem fits_directory {T : Tree Nat (List WChar)} (directory : T.next (0, [nameD]) = some (1, [])) :
    Fits T 0 [nameD] := by
  intro y reached
  rcases reach_directory directory reached with rfl | rfl <;> decide

def linksToDirectory : Body → Bool
  | .symbolicLink target => components target = [nameD]
  | _ => true

theorem spares_directory {s t : ObjectSpace} (root : s.obRootObjectDirectory = 0)
    (directory : s.tree.next (0, [nameD]) = some (1, [])) (first : s.named 0 nameD = some 1)
    (kept : 1 ∈ t.objectList 0)
    (targets : ∀ d < 4, ∀ l ∈ t.objectList d, linksToDirectory (t.object l).body = true)
    (far : ∀ d, t.objectList (d + 4) = []) : Spares s t := by
  intro d l member target link e c cs o reached named
  have only : components target = [nameD] := by
    rcases Nat.lt_or_ge d 4 with near | beyond
    · have here := targets d near l member
      rw [link] at here
      simpa [linksToDirectory] using here
    · obtain ⟨n, rfl⟩ : ∃ n, d = n + 4 := ⟨d - 4, by omega⟩
      rw [far] at member
      exact absurd member (by simp)
  rw [root, only] at reached
  rcases reach_directory directory reached with same | same
  · cases same
    cases Option.some.inj (first.symm.trans named)
    exact kept
  · cases same

/-- The object at the end of a link's path is kept by the link, what the path leads through is not. -/
def relinked : List NameOp :=
  [.obCreateDirectory nameD none true, .obCreateDirectory nameE none true,
    .obCreateObject (.other 7) nameA true, .obInsertObject (some 1) 3,
    .obCreateSymbolicLink (pathString [nameS]) (pathString [nameD]) heapAnswers 4,
    .obCreateSymbolicLink (pathString [nameL]) (pathString [nameS, nameA]) heapAnswers 4,
    .obCreateSymbolicLink (pathString [nameE, nameA]) (pathString [nameL]) heapAnswers 4,
    .obDeleteObject (pathString [nameS]) (fun _ => true) 4,
    .obCreateSymbolicLink (pathString [nameS]) (pathString [nameE]) heapAnswers 4]

def targetStarts : Body → Bool
  | .symbolicLink target => target[0]? = some backslash
  | _ => true

theorem relinked_plainTargets : (ran relinked).space.PlainTargets := by
  intro d o member target link
  have starts : ∀ d < 9, ∀ o ∈ (ran relinked).space.objectList d,
      targetStarts ((ran relinked).space.object o).body = true := by decide
  rcases Nat.lt_or_ge d 9 with near | beyond
  · have slash := starts d near o member
    rw [link] at slash
    obtain ⟨plain, string⟩ := plainPath_components (by simpa [targetStarts] using slash)
    exact ⟨_, plain, string.symm⟩
  · obtain ⟨n, rfl⟩ : ∃ n, d = n + 9 := ⟨d - 9, by omega⟩
    cases member

theorem relinked_cycle {y : Nat × List (List WChar)} (reached : Reach (ran relinked).space.tree (0, [nameL]) y) :
    y = (0, [nameL]) ∨ y = (0, [nameS, nameA]) ∨ y = (0, [nameE, nameA]) ∨ y = (2, [nameA]) := by
  induction reached with
  | refl => exact .inl rfl
  | tail _ move ih =>
    have next := moves_next move
    rcases ih with rfl | rfl | rfl | rfl
    · have goes : (ran relinked).space.tree.next (0, [nameL]) = some (0, [nameS, nameA]) := by decide
      cases Option.some.inj (goes.symm.trans next)
      exact .inr (.inl rfl)
    · have goes : (ran relinked).space.tree.next (0, [nameS, nameA]) = some (0, [nameE, nameA]) := by decide
      cases Option.some.inj (goes.symm.trans next)
      exact .inr (.inr (.inl rfl))
    · have goes : (ran relinked).space.tree.next (0, [nameE, nameA]) = some (2, [nameA]) := by decide
      cases Option.some.inj (goes.symm.trans next)
      exact .inr (.inr (.inr rfl))
    · have goes : (ran relinked).space.tree.next (2, [nameA]) = some (0, [nameL]) := by decide
      cases Option.some.inj (goes.symm.trans next)
      exact .inl rfl

end Gr8os.Ob
