import Gr8os.Ob.HandleCounts
import Gr8os.Ob.Lifecycle

/-! The reference that a file mapping holds on its file, and the list of mappings it is on. -/
namespace Gr8os.Ob

/-- The objects, and the MappingList of each file. -/
structure FileMappings where
  manager : ObjectManager
  mappingList : Nat → List Nat

namespace FileMappings

def insertTail (s : FileMappings) (fileObject mappedFile : Nat) : FileMappings :=
  { s with mappingList := fun f => if f = fileObject then s.mappingList f ++ [mappedFile] else s.mappingList f }

def removeEntry (s : FileMappings) (fileObject mappedFile : Nat) : FileMappings :=
  { s with mappingList := fun f => if f = fileObject then (s.mappingList f).erase mappedFile else s.mappingList f }

/-- The mapping has no views left. -/
def miDeleteMapping (checked : Bool) (fuel : Nat) (s : FileMappings) (mappedFile fileObject : Nat) :
    Option FileMappings :=
  let s := if obIsObjectGoingAway s.manager fileObject then s else s.removeEntry fileObject mappedFile
  (Ob.obDereferenceObject checked fuel s.manager fileObject).map fun manager => { s with manager := manager }

/-- The deletion of a mapping, by its own delete routine. -/
def obpDeleteObjectInternal (checked : Bool) (s : FileMappings) (mappedFile fileObject : Nat) :
    Nat → Option (Status × FileMappings)
  | 0 => none
  | fuel + 1 =>
    if (s.manager.header mappedFile).referenceCount ≠ 0 then some (.inUse, s)
    else
      (miDeleteMapping checked fuel { s with manager := s.manager.begin mappedFile } mappedFile fileObject).map
        fun s => (.success, { s with manager := s.manager.free mappedFile })

def obDereferenceObject (checked : Bool) (fuel : Nat) (s : FileMappings) (mappedFile fileObject : Nat) :
    Option FileMappings :=
  let s := { s with manager := s.manager.decrement mappedFile }
  if (s.manager.header mappedFile).Unused then
    if checked ∧ (s.manager.header mappedFile).handleCount ≠ 0 then none
    else (obpDeleteObjectInternal checked s mappedFile fileObject fuel).map (·.2)
  else some s

def obpDeleteObject (checked : Bool) (fuel : Nat) (s : FileMappings) (mappedFile fileObject : Nat) :
    Option (Status × FileMappings) :=
  if 1 < (s.manager.header mappedFile).referenceCount then
    let s := { s with manager := markDeletePending s.manager mappedFile }
    (obDereferenceObject checked fuel s mappedFile fileObject).map fun s => (.pending, s)
  else (obDereferenceObject checked fuel s mappedFile fileObject).map fun s => (.success, s)

def mmCreateFileMapping (checked allocated : Bool) (fuel : Nat) (s : FileMappings) (process fileObject : Nat)
    (cacheMap : Bool) (desiredAccess : BitVec 32) (strongestProtection : BitVec 8) : Option (Status × FileMappings) :=
  if !cacheMap then some (.invalidParameter2, s)
  else if Mm.miFileAccessToPageProtection desiredAccess < strongestProtection then some (.accessDenied, s)
  else
    match obCreateObject allocated s.manager mmFileMappingObjectType [] with
    | (status, none, manager) => some (status, { s with manager := manager })
    | (_, some mappedFile, manager) =>
      let manager := storePointer (manager.obReferenceObject fileObject) mappedFile fileObject []
      let s := { s with manager := manager }.insertTail fileObject mappedFile
      (obpCreateHandle checked s.manager process mappedFile (miPageProtectionToGrantedAccess strongestProtection)).bind fun
        | (some _, manager) => some (.success, { s with manager := manager })
        | (none, manager) =>
          (obpDeleteObject checked fuel { s with manager := manager } mappedFile fileObject).bind fun r =>
            (Ob.obDereferenceObject checked fuel r.2.manager fileObject).map fun manager =>
              (.insufficientResources, { r.2 with manager := manager })

/-- A file that is in use. Its mappings are objects. -/
structure InUse (s : FileMappings) (fileObject : Nat) : Prop where
  created : fileObject < s.manager.created
  live : s.manager.freed fileObject = false
  counted : (s.manager.header fileObject).referenceCount ≠ 0
  listed : ∀ m ∈ s.mappingList fileObject, m < s.manager.created

def referenceCount (s : FileMappings) (o : Nat) : BitVec 32 := (s.manager.header o).referenceCount

/-- A mapping on the file's list holds one more reference, and its deletion gives it back. -/
structure Referenced (checked : Bool) (s t : FileMappings) (fileObject mappedFile : Nat) : Prop where
  count : t.referenceCount fileObject = s.referenceCount fileObject + 1
  listed : t.mappingList fileObject = s.mappingList fileObject ++ [mappedFile]
  released : ∀ fuel, ∃ u, obpDeleteObject checked (fuel + 1) t mappedFile fileObject = some (.success, u) ∧
    u.referenceCount fileObject = s.referenceCount fileObject ∧ u.mappingList = s.mappingList

structure Unchanged (s t : FileMappings) (fileObject : Nat) : Prop where
  count : t.referenceCount fileObject = s.referenceCount fileObject
  live : t.manager.freed fileObject = false
  mappings : t.mappingList = s.mappingList
  handles : t.manager.handleTables = s.manager.handleTables

def Balanced (checked : Bool) (s t : FileMappings) (fileObject : Nat) (status : Status) : Prop :=
  (status = .success → ∃ mappedFile, Referenced checked s t fileObject mappedFile) ∧
    (status ≠ .success → Unchanged s t fileObject)

section mappings

variable {checked allocated cacheMap : Bool} {fuel process fileObject mappedFile : Nat} {s t : FileMappings}
  {desiredAccess : BitVec 32} {strongestProtection : BitVec 8} {status : Status}

/-- A mapping that only its creator refers to. -/
structure Fresh (s : FileMappings) (mappedFile fileObject : Nat) : Prop where
  count : s.referenceCount mappedFile = 1
  flags : (s.manager.header mappedFile).flags = 0
  handleCount : (s.manager.header mappedFile).handleCount = 0
  parent : (s.manager.header mappedFile).parentDirectory = none
  other : fileObject ≠ mappedFile
  held : s.referenceCount fileObject ≠ 1

/-- A dereference that leaves a reference only counts down. -/
theorem dereference_more {m : ObjectManager} {o : Nat} (several : (m.header o).referenceCount ≠ 1) :
    Ob.obDereferenceObject checked fuel m o = some (m.decrement o) := by
  have left : ¬ ((m.decrement o).header o).Unused := by
    rintro ⟨none, -⟩
    simp only [ObjectManager.decrement, header_modify_self] at none
    exact several (by bv_omega)
  rw [Ob.obDereferenceObject, dereferenceWith, if_neg left]

theorem Fresh.dropped (fresh : Fresh s mappedFile fileObject) : (s.manager.decrement mappedFile).header mappedFile =
    { s.manager.header mappedFile with referenceCount := 0 } := by
  have one : (s.manager.header mappedFile).referenceCount = 1 := fresh.count
  simp only [ObjectManager.decrement, header_modify_self, one]
  rfl

theorem Fresh.unused (fresh : Fresh s mappedFile fileObject) :
    ((s.manager.decrement mappedFile).header mappedFile).Unused := by
  rw [fresh.dropped]
  refine ⟨rfl, .inl ?_⟩
  change (s.manager.header mappedFile).flags &&& objPermanent = 0
  rw [fresh.flags]
  rfl

theorem Fresh.last (fresh : Fresh s mappedFile fileObject) : ¬ 1 < (s.manager.header mappedFile).referenceCount := by
  have one : (s.manager.header mappedFile).referenceCount = 1 := fresh.count
  rw [one]
  decide

theorem Fresh.deleted (fresh : Fresh s mappedFile fileObject) (checked : Bool) (fuel : Nat) :
    ∃ t, obpDeleteObject checked (fuel + 1) s mappedFile fileObject = some (.success, t) ∧
      t.referenceCount fileObject = s.referenceCount fileObject - 1 ∧
      t.mappingList = (s.removeEntry fileObject mappedFile).mappingList ∧
      t.manager.handleTables = s.manager.handleTables ∧
      t.manager.freed fileObject = s.manager.freed fileObject := by
  let dropped := s.manager.decrement mappedFile
  let begun := dropped.begin mappedFile
  have here : dropped.header mappedFile = { s.manager.header mappedFile with referenceCount := 0 } := fresh.dropped
  have noHandles : ¬ (checked = true ∧ (dropped.header mappedFile).handleCount ≠ 0) := by
    rw [here]
    exact fun failed => failed.2 fresh.handleCount
  have zero : (dropped.header mappedFile).referenceCount = 0 := by rw [here]
  have away : dropped.header fileObject = s.manager.header fileObject := header_modify_of_ne _ _ fresh.other
  have held : (begun.header fileObject).referenceCount = s.referenceCount fileObject := by
    rw [header_begin_same dropped mappedFile ObjectHeader.referenceCount (fun _ _ => rfl) (fun _ _ => rfl), away]
    rfl
  have frame := frame_unlink (dropped.mark mappedFile) mappedFile
  have several : (begun.header fileObject).referenceCount ≠ 1 := by
    rw [held]
    exact fresh.held
  have releases : Ob.obDereferenceObject checked fuel begun fileObject = some (begun.decrement fileObject) :=
    dereference_more several
  refine ⟨{ manager := (begun.decrement fileObject).free mappedFile,
            mappingList := (s.removeEntry fileObject mappedFile).mappingList }, ?_, ?_, rfl, ?_, ?_⟩
  · unfold obpDeleteObject
    rw [if_neg fresh.last]
    unfold obDereferenceObject
    simp only [if_pos fresh.unused, if_neg noHandles, obpDeleteObjectInternal, zero, ne_eq, not_true_eq_false, if_false,
      miDeleteMapping, obIsObjectGoingAway_false, Bool.false_eq_true, dropped]
    change Option.map _ (Option.map _ (Option.map _ (Option.map _
      (Ob.obDereferenceObject checked fuel begun fileObject)))) = _
    rw [releases]
    rfl
  · change ((begun.decrement fileObject).header fileObject).referenceCount = _
    simp only [ObjectManager.decrement, header_modify_self, held]
  · exact frame.2.2
  · change (if fileObject = mappedFile then true else begun.freed fileObject) = _
    rw [if_neg fresh.other]
    exact congrFun frame.2.1 fileObject

theorem Fresh.stuck (fresh : Fresh s mappedFile fileObject) (checked : Bool) :
    obpDeleteObject checked 0 s mappedFile fileObject = none := by
  unfold obpDeleteObject
  rw [if_neg fresh.last]
  unfold obDereferenceObject
  rw [if_pos fresh.unused]
  split
  · rfl
  · rfl

/-- The state in which the handle is made. -/
def withMapping (s : FileMappings) (fileObject : Nat) : FileMappings :=
  let manager := (obCreateObject true s.manager mmFileMappingObjectType []).2.2
  { s with manager := storePointer (manager.obReferenceObject fileObject) s.manager.created fileObject [] }.insertTail
    fileObject s.manager.created

theorem withMapping_mapping (inUse : s.InUse fileObject) : (s.withMapping fileObject).manager.header s.manager.created =
    { objectName := [], referenceCount := 1, body := .other 5, references := [fileObject] } := by
  have other : s.manager.created ≠ fileObject := Nat.ne_of_gt inUse.created
  have new : (obCreateObject true s.manager mmFileMappingObjectType []).2.2.header s.manager.created =
      { objectName := [], referenceCount := 1, body := .other 5 } := if_pos rfl
  change (storePointer _ _ _ _).header _ = _
  rw [storePointer, header_modify_self, reference_modify, header_modify_of_ne _ _ other, new]
  rfl

theorem withMapping_count (inUse : s.InUse fileObject) :
    (s.withMapping fileObject).referenceCount fileObject = s.referenceCount fileObject + 1 := by
  have other : fileObject ≠ s.manager.created := Nat.ne_of_lt inUse.created
  have old : (obCreateObject true s.manager mmFileMappingObjectType []).2.2.header fileObject =
      s.manager.header fileObject := if_neg other
  change ((storePointer _ _ _ _).header fileObject).referenceCount = _
  rw [storePointer, header_modify_of_ne _ _ other, reference_modify, header_modify_self, old]
  rfl

theorem withMapping_fresh (inUse : s.InUse fileObject) : Fresh (s.withMapping fileObject) s.manager.created fileObject := by
  have mapping := withMapping_mapping inUse
  have count := withMapping_count inUse
  have counted := inUse.counted
  constructor
  · rw [referenceCount, mapping]
  · rw [mapping]
  · rw [mapping]
  · rw [mapping]
  · exact Nat.ne_of_lt inUse.created
  · rw [count]
    intro one
    apply counted
    change s.referenceCount fileObject = 0
    bv_omega

/-- The entry that the mapping is given at the end of the list is the one that its deletion takes off. -/
theorem withMapping_removed (inUse : s.InUse fileObject) :
    ((s.withMapping fileObject).removeEntry fileObject s.manager.created).mappingList = s.mappingList := by
  have absent : s.manager.created ∉ s.mappingList fileObject :=
    fun member => absurd (inUse.listed _ member) (Nat.lt_irrefl _)
  funext f
  simp only [removeEntry, withMapping, insertTail]
  split
  · rename_i same
    subst same
    rw [List.erase_append_right _ absent, List.erase_cons_head, List.append_nil]
  · rfl

theorem mmCreateFileMapping_made (strong : ¬ Mm.miFileAccessToPageProtection desiredAccess < strongestProtection) :
    mmCreateFileMapping checked true fuel s process fileObject true desiredAccess strongestProtection =
      (obpCreateHandle checked (s.withMapping fileObject).manager process s.manager.created
        (miPageProtectionToGrantedAccess strongestProtection)).bind fun
        | (some _, manager) => some (.success, { s.withMapping fileObject with manager := manager })
        | (none, manager) =>
          (obpDeleteObject checked fuel { s.withMapping fileObject with manager := manager } s.manager.created
            fileObject).bind fun r =>
            (Ob.obDereferenceObject checked fuel r.2.manager fileObject).map fun manager =>
              (.insufficientResources, { r.2 with manager := manager }) := by
  unfold mmCreateFileMapping
  rw [if_neg (by simp), if_neg strong]
  rfl

/-- What becomes of the objects is what the delete routine of a mapping does in the object manager. -/
theorem obpDeleteObjectInternal_manager (holds : (s.manager.header mappedFile).references = [fileObject]) :
    (obpDeleteObjectInternal checked s mappedFile fileObject fuel).map (fun r => (r.1, r.2.manager)) =
      Ob.obpDeleteObjectInternal checked fuel s.manager mappedFile := by
  cases fuel with
  | zero => rfl
  | succ fuel =>
    have still : ((s.manager.begin mappedFile).header mappedFile).references = [fileObject] := by
      rw [header_begin_same s.manager mappedFile ObjectHeader.references (fun _ _ => rfl) (fun _ _ => rfl), holds]
    have one : ((s.manager.begin mappedFile).header mappedFile).references.foldlM
        (dereferenceWith (Ob.obpDeleteObjectInternal checked fuel) checked) (s.manager.begin mappedFile) =
        Ob.obDereferenceObject checked fuel (s.manager.begin mappedFile) fileObject := by
      rw [still, List.foldlM_cons]
      exact Option.bind_fun_some _
    by_cases held : (s.manager.header mappedFile).referenceCount = 0
    · simp only [obpDeleteObjectInternal, Ob.obpDeleteObjectInternal, held, ne_eq, not_true_eq_false, if_false,
        miDeleteMapping, obIsObjectGoingAway_false, Bool.false_eq_true, Option.map_map]
      exact congrArg (Option.map _) one.symm
    · simp only [obpDeleteObjectInternal, Ob.obpDeleteObjectInternal, held, ne_eq, not_false_eq_true, if_true,
        Option.map_some]

theorem obDereferenceObject_manager (holds : (s.manager.header mappedFile).references = [fileObject]) :
    (obDereferenceObject checked fuel s mappedFile fileObject).map (·.manager) =
      Ob.obDereferenceObject checked fuel s.manager mappedFile := by
  let dropped : FileMappings := { s with manager := s.manager.decrement mappedFile }
  have still : (dropped.manager.header mappedFile).references = [fileObject] := by
    simp only [dropped, ObjectManager.decrement, header_modify_self, holds]
  unfold obDereferenceObject Ob.obDereferenceObject dereferenceWith
  by_cases unused : ((s.manager.decrement mappedFile).header mappedFile).Unused
  · by_cases failed : checked ∧ ((s.manager.decrement mappedFile).header mappedFile).handleCount ≠ 0
    · simp only [if_pos unused, if_pos failed, Option.map_none]
    · simp only [if_pos unused, if_neg failed, Option.map_map]
      change _ = (Ob.obpDeleteObjectInternal checked fuel dropped.manager mappedFile).map (·.2)
      rw [← obpDeleteObjectInternal_manager still, Option.map_map]
      rfl
  · simp only [if_neg unused, Option.map_some]

theorem obpDeleteObject_manager (holds : (s.manager.header mappedFile).references = [fileObject]) :
    (obpDeleteObject checked fuel s mappedFile fileObject).map (fun r => (r.1, r.2.manager)) =
      Ob.obpDeleteObject checked fuel s.manager mappedFile := by
  unfold obpDeleteObject Ob.obpDeleteObject
  split
  · let pending : FileMappings := { s with manager := markDeletePending s.manager mappedFile }
    have still : (pending.manager.header mappedFile).references = [fileObject] := by
      simp only [pending, markDeletePending, header_modify_self, holds]
    change _ = (Ob.obDereferenceObject checked fuel pending.manager mappedFile).map _
    rw [← obDereferenceObject_manager still, Option.map_map, Option.map_map]
    rfl
  · rw [← obDereferenceObject_manager holds, Option.map_map, Option.map_map]
    rfl

/-- The objects are those of the object manager's MmCreateFileMapping. -/
theorem mmCreateFileMapping_manager (inUse : s.InUse fileObject) :
    (mmCreateFileMapping checked allocated fuel s process fileObject cacheMap desiredAccess strongestProtection).map
      (fun r => (r.1, r.2.manager)) =
      Ob.mmCreateFileMapping checked allocated fuel s.manager process fileObject cacheMap desiredAccess
        strongestProtection := by
  cases cacheMap with
  | false => rfl
  | true =>
    by_cases weaker : Mm.miFileAccessToPageProtection desiredAccess < strongestProtection
    · simp [mmCreateFileMapping, Ob.mmCreateFileMapping, weaker]
    · cases allocated with
      | false =>
        simp only [mmCreateFileMapping, Ob.mmCreateFileMapping, weaker, if_false]
        rfl
      | true =>
        rw [mmCreateFileMapping_made weaker, Ob.mmCreateFileMapping, if_neg (by simp), if_neg weaker]
        change _ = (obpCreateHandle checked (s.withMapping fileObject).manager process s.manager.created
          (miPageProtectionToGrantedAccess strongestProtection)).bind _
        have holds : ((s.withMapping fileObject).manager.header s.manager.created).references = [fileObject] := by
          rw [withMapping_mapping inUse]
        unfold obpCreateHandle
        split
        · rfl
        · split
          · rfl
          · split
            · rfl
            · simp only [Option.bind_some, ← obpDeleteObject_manager holds, Option.map_bind, Option.bind_map, Function.comp_def,
                Option.map_map]

/-- The last reference to an object is given up: the object is gone. -/
theorem dereference_changes {m u : ObjectManager} {o : Nat}
    (run : Ob.obDereferenceObject checked fuel m o = some u) :
    u.freed o = true ∨ (u.header o).referenceCount = (m.header o).referenceCount - 1 := by
  rw [Ob.obDereferenceObject, dereferenceWith] at run
  split at run
  · rename_i unused
    split at run
    · exact absurd run (by simp)
    · obtain ⟨r, deleted, rfl⟩ := Option.map_eq_some_iff.mp run
      cases fuel with
      | zero => exact absurd deleted (by simp [Ob.obpDeleteObjectInternal])
      | succ fuel =>
        simp only [Ob.obpDeleteObjectInternal, unused.1, ne_eq, not_true_eq_false, if_false] at deleted
        obtain ⟨v, -, rfl⟩ := Option.map_eq_some_iff.mp deleted
        exact .inl (if_pos rfl)
  · cases Option.some.inj run
    right
    simp only [ObjectManager.decrement, header_modify_self]

/-- The mapping that has a handle: it holds the reference, and gives it back when it is deleted. -/
theorem handled_referenced (inUse : s.InUse fileObject) (checked : Bool) (process i : Nat)
    (entry : Option ObjectHandle) :
    Referenced checked s
      { s.withMapping fileObject with manager := (s.withMapping fileObject).manager.setEntry process i entry }
      fileObject s.manager.created := by
  have fresh := withMapping_fresh inUse
  have count := withMapping_count inUse
  have listed : (s.withMapping fileObject).mappingList fileObject =
      s.mappingList fileObject ++ [s.manager.created] := if_pos rfl
  let t : FileMappings :=
    { s.withMapping fileObject with manager := (s.withMapping fileObject).manager.setEntry process i entry }
  have stillFresh : Fresh t s.manager.created fileObject :=
    ⟨fresh.count, fresh.flags, fresh.handleCount, fresh.parent, fresh.other, fresh.held⟩
  refine ⟨count, listed, fun fuel => ?_⟩
  obtain ⟨u, code, released, list, -⟩ := stillFresh.deleted checked fuel
  refine ⟨u, code, ?_, list.trans (withMapping_removed inUse)⟩
  rw [released]
  change (s.withMapping fileObject).referenceCount fileObject - 1 = _
  rw [count, BitVec.add_sub_cancel]

/-- The deletion gives the reference back, and the caller does so once more. -/
theorem undone_changed (inUse : s.InUse fileObject) {r : Status × FileMappings} {manager : ObjectManager}
    (deleted : obpDeleteObject checked fuel (s.withMapping fileObject) s.manager.created fileObject = some r)
    (twice : Ob.obDereferenceObject checked fuel r.2.manager fileObject = some manager) :
    ¬ Unchanged s { r.2 with manager := manager } fileObject := by
  have fresh := withMapping_fresh inUse
  intro same
  cases fuel with
  | zero =>
    have stuck := fresh.stuck checked
    rw [deleted] at stuck
    exact absurd stuck (by simp)
  | succ fuel =>
    obtain ⟨u, code, released, -, -, live⟩ := fresh.deleted checked fuel
    cases (deleted.symm.trans code : some r = _)
    have before : u.referenceCount fileObject = s.referenceCount fileObject := by
      rw [released, withMapping_count inUse, BitVec.add_sub_cancel]
    obtain gone | lower := dereference_changes twice
    · exact absurd (same.live.symm.trans gone) (by decide)
    · have kept : (manager.header fileObject).referenceCount = s.referenceCount fileObject := same.count
      rw [kept, ← before] at lower
      change u.referenceCount fileObject = u.referenceCount fileObject - 1 at lower
      bv_omega

theorem file_mapping_balanced_iff (inUse : s.InUse fileObject)
    (returned : mmCreateFileMapping checked allocated fuel s process fileObject cacheMap desiredAccess
      strongestProtection = some (status, t)) :
    Balanced checked s t fileObject status ↔
      cacheMap = false ∨ Mm.miFileAccessToPageProtection desiredAccess < strongestProtection ∨ allocated = false ∨
        none ∈ s.manager.table process := by
  have same : Unchanged s s fileObject := ⟨rfl, inUse.live, rfl, rfl⟩
  cases cacheMap with
  | false =>
    cases Option.some.inj returned
    exact iff_of_true ⟨by simp, fun _ => same⟩ (.inl rfl)
  | true =>
    by_cases weaker : Mm.miFileAccessToPageProtection desiredAccess < strongestProtection
    · rw [mmCreateFileMapping, if_neg (by simp), if_pos weaker] at returned
      cases Option.some.inj returned
      exact iff_of_true ⟨by simp, fun _ => same⟩ (.inr (.inl weaker))
    · cases allocated with
      | false =>
        rw [mmCreateFileMapping, if_neg (by simp), if_neg weaker] at returned
        cases Option.some.inj returned
        exact iff_of_true ⟨by simp, fun _ => same⟩ (.inr (.inr (.inl rfl)))
      | true =>
        have table : (s.withMapping fileObject).manager.table process = s.manager.table process := rfl
        simp only [weaker, Bool.true_eq_false, false_or]
        rw [mmCreateFileMapping_made weaker] at returned
        unfold obpCreateHandle at returned
        split at returned
        · exact absurd returned (by simp)
        · split at returned
          · rename_i i free
            rw [table] at free
            have member : none ∈ s.manager.table process := List.mem_of_getElem? (Slots.get_of_free free)
            cases Option.some.inj returned
            exact iff_of_true ⟨fun _ => ⟨s.manager.created, handled_referenced inUse ..⟩, by simp⟩ member
          · rename_i full
            have noEntry : none ∉ s.manager.table process := by
              intro member
              have taken := List.findIdx?_eq_none_iff.mp (table ▸ full) none member
              exact absurd taken (by simp)
            split at returned
            · exact absurd returned (by simp)
            · rw [Option.bind_some] at returned
              obtain ⟨r, deleted, rest⟩ := Option.bind_eq_some_iff.mp returned
              obtain ⟨manager, twice, last⟩ := Option.map_eq_some_iff.mp rest
              cases last
              exact iff_of_false (fun balanced => undone_changed inUse deleted twice (balanced.2 (by decide))) noEntry

end mappings

/-- A file with a reference to spare, and one process whose table has `table` for its entries. -/
def openFile (table : List (Option ObjectHandle)) : FileMappings where
  manager :=
    { space := { object := fun _ => { objectName := [], referenceCount := 2, body := .other 4 }
                 obRootObjectDirectory := 0 }
      created := 1
      freed _ := false
      handleTables := [table]
      tableLocked _ := false }
  mappingList _ := []

theorem openFile_inUse (table : List (Option ObjectHandle)) : (openFile table).InUse 0 :=
  ⟨Nat.zero_lt_one, rfl, (by decide : (2 : BitVec 32) ≠ 0), by simp [openFile]⟩

theorem freeEntry_balanced : ∃ t, mmCreateFileMapping true true 1 (openFile [none]) 0 0 true Mm.fileReadData 1 =
    some (.success, t) ∧ Balanced true (openFile [none]) t 0 .success := by
  obtain ⟨⟨status, t⟩, returned⟩ := Option.isSome_iff_exists.mp
    (by decide : (mmCreateFileMapping true true 1 (openFile [none]) 0 0 true Mm.fileReadData 1).isSome = true)
  have code : (mmCreateFileMapping true true 1 (openFile [none]) 0 0 true Mm.fileReadData 1).map (·.1) =
      some .success := by decide
  rw [returned] at code
  cases Option.some.inj code
  exact ⟨t, returned, (file_mapping_balanced_iff (openFile_inUse _) returned).mpr (.inr (.inr (.inr (by decide))))⟩

/-- No entry is free: the mapping's reference is dropped by its delete routine and once more by the caller. -/
theorem fullTable_unbalanced : ∃ t, mmCreateFileMapping false true 1 (openFile [some ⟨0, 0⟩]) 0 0 true
      Mm.fileReadData 1 = some (.insufficientResources, t) ∧
    (openFile [some ⟨0, 0⟩]).referenceCount 0 = 2 ∧ t.referenceCount 0 = 1 ∧
    ¬Balanced false (openFile [some ⟨0, 0⟩]) t 0 .insufficientResources := by
  have run : (mmCreateFileMapping false true 1 (openFile [some ⟨0, 0⟩]) 0 0 true Mm.fileReadData 1).map
      (fun r => (r.1, r.2.referenceCount 0)) = some (.insufficientResources, 1) := by decide
  obtain ⟨⟨status, t⟩, returned, ends⟩ := Option.map_eq_some_iff.mp run
  obtain ⟨code, one⟩ := Prod.mk.inj ends
  cases code
  refine ⟨t, returned, rfl, one, fun balanced => ?_⟩
  have count := (balanced.2 (by decide)).count
  rw [one] at count
  exact absurd count (by decide)

end FileMappings

end Gr8os.Ob
