import Gr8os.Io.Creation
import Gr8os.Ob.LookupFrame

/-! Which failures of a creation leave nothing behind. -/
namespace Gr8os.Io

open Ob

def DirectoryFails (allocated : LinkAllocations) (fuel : Nat) (s : ObjectManager) (name : List WChar) : Prop :=
  lastBackslash name ≠ 0 ∧ (allocated.directoryName = false ∨
    leadsTo allocated.directoryLookup fuel s (name.take (lastBackslash name)) (some .directory) 0 = some none)

def DirectoryFound (allocated : LinkAllocations) (fuel : Nat) (s : ObjectManager) (name : List WChar) : Prop :=
  lastBackslash name = 0 ∨ allocated.directoryName = true ∧ ∃ d,
    leadsTo allocated.directoryLookup fuel s (name.take (lastBackslash name)) (some .directory) 0 = some (some d)

/-- What fails before there is a new object. -/
def FailsBefore (fuel : Nat) (s : ObjectManager) : Creation → Prop
  | .symbolicLink allocated _ targetPath =>
    leadsTo allocated.targetLookup fuel s targetPath none 0 = some none ∨
      (∃ o, leadsTo allocated.targetLookup fuel s targetPath none 0 = some (some o)) ∧ allocated.object = false
  | .device allocated _ _ _ => allocated.object = false
  | .file allocated _ _ _ _ => allocated.object = false
  | .driver allocated _ _ driverName => wcsrchr (driverName.drop 1) backslash = none ∨ allocated = false

/-- What fails when the new object is there. -/
def FailsAfter (fuel : Nat) (s : ObjectManager) : Creation → Prop
  | .symbolicLink allocated symlinkName targetPath =>
    (∃ o, leadsTo allocated.targetLookup fuel s targetPath none 0 = some (some o)) ∧ allocated.object = true ∧
      (DirectoryFails allocated fuel s symlinkName ∨ DirectoryFound allocated fuel s symlinkName ∧ allocated.target = false)
  | .device allocated _ deviceName deviceType =>
    allocated.object = true ∧ ((∃ name, deviceName = some name ∧ DirectoryFails allocated.asLink fuel s name) ∨
      (∀ name, deviceName = some name → DirectoryFound allocated.asLink fuel s name) ∧ deviceType = deviceTypeDisk ∧
        allocated.vpb = false)
  | .file allocated devices answer parsePacket fileName =>
    allocated.object = true ∧ (leadsTo allocated.lookup fuel s fileName (some .device) parsePacket = some none ∨
      ∃ this device, leadsTo allocated.lookup fuel s fileName (some .device) parsePacket = some (some this) ∧
        ioGetAttachedDevice devices fuel this = some device ∧
        (allocated.irp = false ∨ succeeded answer.final = false))
  | .driver allocated driverEntry _ driverName =>
    wcsrchr (driverName.drop 1) backslash ≠ none ∧ allocated = true ∧ succeeded driverEntry.status = false

/-- No object is alive that was not, none is in a directory that was not, and the counts are as they were. -/
structure NothingLeft (s t : ObjectManager) : Prop where
  alive : ∀ o ∈ t.alive, o ∈ s.alive
  listed : ∀ d, ∀ o ∈ t.listed d, o ∈ s.listed d
  counts : ∀ o ∈ s.alive, o ∈ t.alive ∧ (t.header o).referenceCount = (s.header o).referenceCount

/-- Directories list objects that are alive; these are referenced, and no count is at its end. -/
structure Settled (s : ObjectManager) : Prop where
  listed : ∀ d, ∀ o ∈ s.listed d, o ∈ s.alive
  root : s.space.obRootObjectDirectory ∈ s.alive
  used : ∀ o ∈ s.alive, (s.header o).referenceCount ≠ 0 ∧ (s.header o).referenceCount ≠ 0xFFFFFFFF

/-- What a driver that fails does to the objects that there are: in the end, nothing. -/
structure GivesBack (s t : ObjectManager) : Prop where
  created : s.created ≤ t.created
  counts : ∀ o < s.created, (t.header o).referenceCount = (s.header o).referenceCount
  flags : ∀ o < s.created, (t.header o).flags = (s.header o).flags

/-- Devices that are alive have devices attached that are, and drivers that fail give back what they took. -/
def Creation.Promised (s : ObjectManager) : Creation → Prop
  | .file _ devices answer _ _ =>
    (∀ d ∈ s.alive, ∀ e, (devices d).attachedDevice = some e → e ∈ s.alive) ∧
      (succeeded answer.final = false → ∀ device file t, GivesBack t (answer.effect device file t))
  | .driver _ driverEntry _ _ => succeeded driverEntry.status = false → ∀ driver t, GivesBack t (driverEntry.effect driver t)
  | _ => True

section steps

variable {checked : Bool} {fuel : Nat} {s t : ObjectManager} {o p : Nat}

theorem decrement_reference (s : ObjectManager) (o : Nat) : (s.obReferenceObject o).decrement o = s := by
  have same : ((s.obReferenceObject o).decrement o).space.object = s.space.object := by
    funext p
    change ((s.obReferenceObject o).decrement o).header p = s.header p
    rw [reference_modify, ObjectManager.decrement]
    by_cases here : p = o
    · subst here
      rw [header_modify_self, header_modify_self]
      have count : (s.header p).referenceCount + 1 - 1 = (s.header p).referenceCount := by bv_omega
      rw [count]
    · rw [header_modify_of_ne _ _ here, header_modify_of_ne _ _ here]
  change { s with space := { s.space with object := ((s.obReferenceObject o).decrement o).space.object } } = s
  rw [same]

/-- With another reference left a dereference only counts down, and ends. -/
theorem dereference_some (more : (s.header o).referenceCount ≠ 1) :
    obDereferenceObject checked fuel s o = some (s.decrement o) := by
  have used : ¬((s.decrement o).header o).Unused := by
    intro unused
    have below := unused.1
    simp only [ObjectManager.decrement, header_modify_self] at below
    exact more (by bv_omega)
  exact if_neg used

theorem delete_inUse {r : Status × ObjectManager} (used : (s.header o).referenceCount ≠ 0)
    (run : obpDeleteObjectInternal checked fuel s o = some r) : r.2 = s := by
  cases fuel with
  | zero => cases run
  | succ fuel =>
    rw [obpDeleteObjectInternal, if_pos used] at run
    exact congrArg Prod.snd (Option.some.inj run).symm

/-- A new object, as long as nobody gives up its only reference. -/
structure Stays (o : Nat) (t : ObjectManager) : Prop where
  created : o < t.created
  flags : (t.header o).flags = 0
  count : (t.header o).referenceCount = 1

theorem Stays.alive (stays : Stays o t) : o ∈ t.alive := by
  refine mem_alive.mpr ⟨stays.created, fun going => ?_⟩
  rw [ObjectHeader.going, stays.flags] at going
  exact going (by decide)

theorem Stays.not_deleted {r : Status × ObjectManager} (stays : Stays o t)
    (run : obpDeleteObjectInternal checked fuel t o = some r) : r.2 = t :=
  delete_inUse (by rw [stays.count]; decide) run

/-- The deletion that a failed creation ends with deletes nothing. -/
theorem Stays.deleted {α : Type} {status : α} {r : α × ObjectManager} (stays : Stays o t)
    (run : (obpDeleteObjectInternal checked fuel t o).bind (fun d => some (status, d.2)) = some r) : o ∈ r.2.alive := by
  obtain ⟨d, deleted, last⟩ := Option.bind_eq_some_iff.mp run
  cases Option.some.inj last
  change o ∈ d.2.alive
  rw [stays.not_deleted deleted]
  exact stays.alive

theorem Stays.discarded {α : Type} {status : α} {r : α × ObjectManager} (stays : Stays o t)
    (more : (t.header p).referenceCount ≠ 1) (run : ((obpDeleteObjectInternal checked fuel t o).bind fun d =>
      (obDereferenceObject checked fuel d.2 p).bind fun u => some (status, u)) = some r) : o ∈ r.2.alive := by
  obtain ⟨d, deleted, rest⟩ := Option.bind_eq_some_iff.mp run
  rw [stays.not_deleted deleted, dereference_some more] at rest
  cases Option.some.inj rest
  exact alive_decrement t p ▸ stays.alive

theorem Stays.modify (stays : Stays o t) (p : Nat) {f : ObjectHeader → ObjectHeader} (flags : ∀ h, (f h).flags = h.flags)
    (count : ∀ h, (f h).referenceCount = h.referenceCount) : Stays o (t.modify p f) where
  created := stays.created
  flags := (header_modify_same t p ObjectHeader.flags flags o).trans stays.flags
  count := (header_modify_same t p ObjectHeader.referenceCount count o).trans stays.count

theorem Stays.modify_of_ne (stays : Stays o t) (other : o ≠ p) (f : ObjectHeader → ObjectHeader) :
    Stays o (t.modify p f) where
  created := stays.created
  flags := by rw [header_modify_of_ne t f other]; exact stays.flags
  count := by rw [header_modify_of_ne t f other]; exact stays.count

theorem Stays.reference (stays : Stays o t) (other : o ≠ p) : Stays o (t.obReferenceObject p) := by
  rw [reference_modify]
  exact stays.modify_of_ne other _

theorem Stays.decrement (stays : Stays o t) (other : o ≠ p) : Stays o (t.decrement p) := stays.modify_of_ne other _

theorem Stays.insert (stays : Stays o t) (directory p : Nat) : Stays o (obInsertObject t directory p) := by
  apply Stays.modify
  · exact stays.modify directory (fun _ => rfl) fun _ => rfl
  · exact fun _ => rfl
  · exact fun _ => rfl

theorem Stays.store (stays : Stays o t) (holder p : Nat) (target : List WChar) :
    Stays o (storePointer t holder p target) := stays.modify holder (fun _ => rfl) fun _ => rfl

theorem Stays.givenBack (stays : Stays o s) (back : GivesBack s t) : Stays o t where
  created := Nat.lt_of_lt_of_le stays.created back.created
  flags := (back.flags o stays.created).trans stays.flags
  count := (back.counts o stays.created).trans stays.count

end steps

section fresh

variable {fuel : Nat} {s t : ObjectManager} {o : Nat} {allocated : Nat → Bool} {path : List WChar}
  {objectType : Option ObjectType} {parseContext : BitVec 32}

theorem stays_fresh (s : ObjectManager) (type : ObjectType) (name : List WChar) : Stays s.created (fresh s type name) := by
  have header : (fresh s type name).header s.created = { objectName := name, referenceCount := 1, body := type.zeroed } :=
    if_pos rfl
  exact ⟨Nat.lt_succ_self s.created, by rw [header], by rw [header]⟩

theorem Settled.sameNames (settled : Settled s) : SameNames s.created s.space s.space where
  root := rfl
  rootInside := (mem_alive.mp settled.root).1
  names _ _ := rfl
  bodies _ _ := rfl
  listed d o member := (mem_alive.mp (settled.listed d o (objectList_listed s d ▸ member))).1

/-- The accounts of the object manager keep a state settled, as long as every object has a reference. -/
theorem settled_of_accounted {outer : Nat → Nat} (ok : Accounted s outer) (root : s.space.obRootObjectDirectory ∈ s.alive)
    (referenced : ∀ o ∈ s.alive, 0 < outer o + s.graph.inner o)
    (room : ∀ o ∈ s.alive, (s.header o).referenceCount ≠ 0xFFFFFFFF) : Settled s where
  listed d o member := (ok.sound.inList d o member).1
  root := root
  used o alive := by
    have exact : (s.header o).referenceCount.toNat = outer o + s.graph.inner o := ok.counted.exact o
    have held := referenced o alive
    refine ⟨fun none => ?_, room o alive⟩
    rw [none] at exact
    exact absurd exact.symm (Nat.ne_of_gt held)

theorem Settled.found_alive (settled : Settled s)
    (found : leadsTo allocated fuel s path objectType parseContext = some (some o)) : o ∈ s.alive := by
  obtain ⟨r, run, same⟩ := Option.map_eq_some_iff.mp found
  obtain ⟨result, looked, rfl⟩ := Option.map_eq_some_iff.mp run
  rcases reparseName_listed looked with ⟨none, _⟩ | ⟨p, object, _, d, member⟩
  · cases none.symm.trans same
  · cases object.symm.trans same
    exact settled.listed d o (objectList_listed s d ▸ member)

variable {link : LinkAllocations} {name : List WChar}

theorem linkDirectory_fails (same : SameNames s.created s.space t.space) (fails : DirectoryFails link fuel s name) :
    linkDirectory link fuel t name (lastBackslash name) = none ∨
      ∃ status, linkDirectory link fuel t name (lastBackslash name) = some (status, none, t) := by
  obtain ⟨deep, unallocated | nothing⟩ := fails
  · left
    rw [linkDirectory, if_pos deep, unallocated]
    rfl
  · rw [linkDirectory, if_pos deep]
    split
    · rw [← leadsTo_same same] at nothing
      obtain ⟨status, run, _⟩ := leadsTo_none nothing
      exact .inr ⟨status, run⟩
    · exact .inl rfl

theorem linkDirectory_found (settled : Settled s) (same : SameNames s.created s.space t.space)
    (found : DirectoryFound link fuel s name) : ∃ status d, d ∈ s.alive ∧
      linkDirectory link fuel t name (lastBackslash name) = some (status, some d, t.obReferenceObject d) := by
  rcases found with root | ⟨room, d, there⟩
  · refine ⟨.success, t.space.obRootObjectDirectory, ?_, ?_⟩
    · rw [same.root]
      exact settled.root
    · rw [linkDirectory, if_neg (not_not_intro root)]
  · have alive := settled.found_alive there
    rw [← leadsTo_same same] at there
    obtain ⟨status, run⟩ := leadsTo_some there
    by_cases root : lastBackslash name = 0
    · refine ⟨.success, t.space.obRootObjectDirectory, ?_, ?_⟩
      · rw [same.root]
        exact settled.root
      · rw [linkDirectory, if_neg (not_not_intro root)]
    · refine ⟨status, d, alive, ?_⟩
      rw [linkDirectory, if_pos root, if_pos room]
      exact run

end fresh

section failures

variable {checked : Bool} {fuel : Nat} {s : ObjectManager}

theorem referenced_more {t : ObjectManager} {o : Nat} (used : (t.header o).referenceCount ≠ 0) :
    ((t.obReferenceObject o).header o).referenceCount ≠ 1 := by
  rw [reference_modify, header_modify_self]
  dsimp only
  bv_omega

theorem reference_used {t : ObjectManager} {o p : Nat} (low : (t.header p).referenceCount ≠ 0)
    (high : (t.header p).referenceCount ≠ 0xFFFFFFFF) : ((t.obReferenceObject o).header p).referenceCount ≠ 0 := by
  rw [reference_modify]
  by_cases same : p = o
  · rw [← same, header_modify_self]
    dsimp only
    bv_omega
  · rw [header_modify_of_ne _ _ same]
    exact low

theorem reference_comm (t : ObjectManager) (o p : Nat) :
    (t.obReferenceObject o).obReferenceObject p = (t.obReferenceObject p).obReferenceObject o := by
  have same : ((t.obReferenceObject o).obReferenceObject p).space.object =
      ((t.obReferenceObject p).obReferenceObject o).space.object := by
    funext q
    change ((t.obReferenceObject o).obReferenceObject p).header q = ((t.obReferenceObject p).obReferenceObject o).header q
    simp only [reference_modify]
    by_cases first : q = o
    · by_cases second : q = p
      · rw [← first, ← second]
      · rw [← first, header_modify_of_ne _ _ second, header_modify_self, header_modify_self, header_modify_of_ne _ _ second]
    · by_cases second : q = p
      · rw [← second, header_modify_self, header_modify_of_ne _ _ first, header_modify_of_ne _ _ first, header_modify_self]
      · rw [header_modify_of_ne _ _ second, header_modify_of_ne _ _ first, header_modify_of_ne _ _ first,
          header_modify_of_ne _ _ second]
  change { t with space := { t.space with object := ((t.obReferenceObject o).obReferenceObject p).space.object } } = _
  rw [same]
  rfl

theorem store_count (t : ObjectManager) (holder o : Nat) (target : List WChar) (p : Nat) :
    ((storePointer t holder o target).header p).referenceCount = (t.header p).referenceCount :=
  header_modify_same t holder
    (f := fun h => { h with body := h.body.retarget target, references := h.references ++ [o] })
    ObjectHeader.referenceCount (fun _ => rfl) p

theorem insert_count (t : ObjectManager) (directory o p : Nat) :
    ((obInsertObject t directory o).header p).referenceCount = (t.header p).referenceCount := by
  refine Eq.trans ?_ (header_modify_same t directory (f := fun h => { h with body := h.body.insertTail o })
    ObjectHeader.referenceCount (fun _ => rfl) p)
  exact header_modify_same _ o (f := fun h => { h with parentDirectory := some directory })
    ObjectHeader.referenceCount (fun _ => rfl) p

/-- What fails early is reported, and all is as it was. -/
theorem failsBefore_unchanged (settled : Settled s) {c : Creation} (fails : FailsBefore fuel s c) :
    ∃ status, create checked fuel s c = some (status, s) ∧ succeeded status = false := by
  cases c with
  | symbolicLink allocated symlinkName targetPath =>
    rcases fails with nothing | ⟨⟨o, target⟩, refused⟩
    · obtain ⟨status, looked, failed⟩ := leadsTo_none nothing
      refine ⟨status.code, ?_, failed⟩
      rw [create, obCreateSymbolicLink, looked]
      rfl
    · obtain ⟨status, looked⟩ := leadsTo_some target
      have more := referenced_more (settled.used o (settled.found_alive target)).1
      refine ⟨Status.insufficientResources.code, ?_, rfl⟩
      rw [create, obCreateSymbolicLink, looked, refused]
      have dropped : obDereferenceObject checked fuel (s.obReferenceObject o) o = some s := by
        rw [dereference_some more, decrement_reference]
      change ((obDereferenceObject checked fuel (s.obReferenceObject o) o).bind fun u =>
        some (Status.insufficientResources, u)).map _ = _
      rw [dropped]
      rfl
  | device allocated driverObject deviceName deviceType =>
    refine ⟨Status.insufficientResources.code, ?_, rfl⟩
    have refused : allocated.object = false := fails
    rw [create, ioCreateDevice, refused]
    rfl
  | file allocated devices answer parsePacket fileName =>
    refine ⟨Status.insufficientResources.code, ?_, rfl⟩
    have refused : allocated.object = false := fails
    rw [create, ioCreateFile, refused]
    rfl
  | driver allocated driverEntry ioDriverDirectory driverName =>
    rcases fails with unnamed | refused
    · refine ⟨Status.invalidParameter.code, ?_, rfl⟩
      rw [create, iopCreateDriverObject, unnamed]
    · cases named : wcsrchr (driverName.drop 1) backslash with
      | none =>
        refine ⟨Status.invalidParameter.code, ?_, rfl⟩
        rw [create, iopCreateDriverObject, named]
      | some rel =>
        refine ⟨Status.insufficientResources.code, ?_, rfl⟩
        rw [create, iopCreateDriverObject, named, refused]
        rfl

/-- The link has been made when its directory is looked for. -/
theorem symbolicLink_alive (settled : Settled s) {allocated : LinkAllocations} {symlinkName targetPath : List WChar}
    {r : Status × ObjectManager} (fails : FailsAfter fuel s (.symbolicLink allocated symlinkName targetPath))
    (run : obCreateSymbolicLink checked allocated fuel s symlinkName targetPath = some r) : s.created ∈ r.2.alive := by
  obtain ⟨⟨o, target⟩, room, place⟩ := fails
  obtain ⟨status, looked⟩ := leadsTo_some target
  have alive := settled.found_alive target
  have older := (mem_alive.mp alive).1
  rw [obCreateSymbolicLink, looked, room] at run
  let t := fresh (s.obReferenceObject o) .symbolicLink (symlinkName.drop (lastBackslash symlinkName + 1))
  have same : SameNames s.created s.space t.space :=
    (settled.sameNames.reference o).fresh (Nat.le_refl _) _ _
  have stays : Stays s.created t := stays_fresh (s.obReferenceObject o) _ _
  have more : (t.header o).referenceCount ≠ 1 := by
    have header : t.header o = (s.obReferenceObject o).header o := header_fresh _ _ older
    rw [header]
    exact referenced_more (settled.used o alive).1
  obtain ⟨_, first, rest⟩ := Option.bind_eq_some_iff.mp run
  cases Option.some.inj first
  obtain ⟨⟨status, directory, u⟩, placed, rest⟩ := Option.bind_eq_some_iff.mp rest
  change linkDirectory allocated fuel t symlinkName (lastBackslash symlinkName) = _ at placed
  rcases place with fails | ⟨found, unallocated⟩
  · rcases linkDirectory_fails same fails with faults | ⟨status, nothing⟩
    · cases faults.symm.trans placed
    · cases Option.some.inj (nothing.symm.trans placed)
      exact stays.discarded more rest
  · obtain ⟨status, d, _, there⟩ := linkDirectory_found settled same found
    cases Option.some.inj (there.symm.trans placed)
    rw [unallocated] at rest
    cases rest

theorem initializeDevice_alive {allocated : DeviceAllocations} {t : ObjectManager} {device driverObject : Nat}
    {r : Status × ObjectManager} (stays : Stays device t) (unallocated : allocated.vpb = false)
    (run : initializeDevice checked allocated fuel t device driverObject deviceTypeDisk = some r) :
    device ∈ r.2.alive := by
  rw [initializeDevice, if_pos rfl, unallocated] at run
  obtain ⟨r', deleted, rfl⟩ := Option.map_eq_some_iff.mp run
  have stored := stays.store device driverObject []
  change device ∈ r'.2.alive
  rw [stored.not_deleted deleted]
  exact stored.alive

/-- The device has been made when its directory is looked for, and inserted when its VPB is made. -/
theorem device_alive (settled : Settled s) {allocated : DeviceAllocations} {driverObject : Nat}
    {deviceName : Option (List WChar)} {deviceType : BitVec 32} {r : Status × ObjectManager}
    (fails : FailsAfter fuel s (.device allocated driverObject deviceName deviceType))
    (run : ioCreateDevice checked allocated fuel s driverObject deviceName deviceType = some r) :
    s.created ∈ r.2.alive := by
  obtain ⟨room, place⟩ := fails
  rw [ioCreateDevice, room] at run
  cases deviceName with
  | none =>
    rcases place with ⟨name, named, _⟩ | ⟨_, rfl, unallocated⟩
    · cases named
    · exact initializeDevice_alive (stays_fresh s .device []) unallocated run
  | some name =>
    let t := fresh s .device (name.drop (lastBackslash name + 1))
    have same : SameNames s.created s.space t.space := settled.sameNames.fresh (Nat.le_refl _) _ _
    have stays : Stays s.created t := stays_fresh s _ _
    obtain ⟨⟨status, directory, u⟩, placed, rest⟩ := Option.bind_eq_some_iff.mp run
    change linkDirectory allocated.asLink fuel t name (lastBackslash name) = _ at placed
    rcases place with ⟨_, named, fails⟩ | ⟨found, rfl, unallocated⟩
    · cases named
      rcases linkDirectory_fails same fails with faults | ⟨status, nothing⟩
      · cases faults.symm.trans placed
      · cases Option.some.inj (nothing.symm.trans placed)
        exact stays.deleted rest
    · obtain ⟨status, d, alive, there⟩ := linkDirectory_found settled same (found name rfl)
      cases Option.some.inj (there.symm.trans placed)
      have older := (mem_alive.mp alive).1
      have header : t.header d = s.header d := header_fresh _ _ older
      have more := @referenced_more t d (header ▸ (settled.used d alive).1)
      rw [← insert_count _ d s.created] at more
      dsimp only at rest
      split at rest
      · cases rest
      · obtain ⟨v, dropped, last⟩ := Option.bind_eq_some_iff.mp rest
        change obDereferenceObject checked fuel (obInsertObject (t.obReferenceObject d) d s.created) d = some v at dropped
        rw [dereference_some more] at dropped
        cases Option.some.inj dropped
        have other : s.created ≠ d := Nat.ne_of_gt older
        have inserted := (stays.reference other).insert d s.created
        exact initializeDevice_alive (inserted.decrement other) unallocated last

/-- The file has been made when its device is looked for, and is there while the driver is asked. -/
theorem file_alive (settled : Settled s) {allocated : FileAllocations} {devices : Devices Nat} {answer : CreateAnswer}
    {parsePacket : BitVec 32} {fileName : List WChar} {r : BitVec 32 × ObjectManager}
    (promised : (Creation.file allocated devices answer parsePacket fileName).Promised s)
    (fails : FailsAfter fuel s (.file allocated devices answer parsePacket fileName))
    (run : ioCreateFile checked allocated devices answer parsePacket fuel s fileName = some r) :
    s.created ∈ r.2.alive := by
  obtain ⟨room, place⟩ := fails
  rw [ioCreateFile, room] at run
  let t := fresh s ioFileObjectType fileName
  have same : SameNames s.created s.space t.space := settled.sameNames.fresh (Nat.le_refl _) _ _
  have stays : Stays s.created t := stays_fresh s _ _
  obtain ⟨⟨status, this, u⟩, looked, rest⟩ := Option.bind_eq_some_iff.mp run
  change referenceByName allocated.lookup fuel t (rtlInitUnicodeString fileName) (some .device) .kernelMode parsePacket =
    _ at looked
  rcases place with nothing | ⟨this, device, found, attached, later⟩
  · rw [← leadsTo_same same] at nothing
    obtain ⟨status, none, _⟩ := leadsTo_none nothing
    cases Option.some.inj (none.symm.trans looked)
    exact stays.deleted rest
  · have thisAlive := settled.found_alive found
    have deviceAlive : device ∈ s.alive :=
      (climbs_of_ioGetAttachedDevice attached).kept (fun d e inside link => promised.1 d inside e link) thisAlive
    have older := (mem_alive.mp deviceAlive).1
    rw [← leadsTo_same same] at found
    obtain ⟨status, there⟩ := leadsTo_some found
    cases Option.some.inj (there.symm.trans looked)
    dsimp only at rest
    split at rest
    · cases rest
    obtain ⟨top, climbed, rest⟩ := Option.bind_eq_some_iff.mp rest
    cases Option.some.inj (attached.symm.trans climbed)
    obtain ⟨v, dropped, rest⟩ := Option.bind_eq_some_iff.mp rest
    have unchanged : t.header this = s.header this := header_fresh _ _ (mem_alive.mp thisAlive).1
    have used := settled.used this thisAlive
    rw [← unchanged] at used
    rw [reference_comm, dereference_some (referenced_more (reference_used used.1 used.2)), decrement_reference] at dropped
    cases Option.some.inj dropped
    have other : s.created ≠ device := Nat.ne_of_gt older
    have opened := (stays.reference other).store s.created device []
    have header : t.header device = s.header device := header_fresh _ _ older
    have more := @referenced_more t device (header ▸ (settled.used device deviceAlive).1)
    rw [← store_count _ s.created device []] at more
    cases irp : allocated.irp with
    | false =>
      simp only [irp, Bool.not_false, if_true] at rest
      exact opened.discarded more rest
    | true =>
      have failed : succeeded answer.final = false := by
        rcases later with unallocated | failed
        · cases irp.symm.trans unallocated
        · exact failed
      have back := promised.2 failed device s.created (storePointer (t.obReferenceObject device) s.created device [])
      have below : device < (storePointer (t.obReferenceObject device) s.created device []).created :=
        Nat.lt_succ_of_lt older
      rw [← back.counts device below] at more
      simp only [irp, failed, Bool.not_true, Bool.not_false, Bool.false_eq_true, if_false, if_true] at rest
      exact (opened.givenBack back).discarded more rest

/-- The driver object is in its directory when DriverEntry is called. -/
theorem driver_alive {allocated : Bool} {driverEntry : DriverEntry} {ioDriverDirectory : Nat} {driverName : List WChar}
    {r : BitVec 32 × ObjectManager}
    (promised : (Creation.driver allocated driverEntry ioDriverDirectory driverName).Promised s)
    (fails : FailsAfter fuel s (.driver allocated driverEntry ioDriverDirectory driverName))
    (run : iopCreateDriverObject checked allocated driverEntry ioDriverDirectory fuel s driverName = some r) :
    s.created ∈ r.2.alive := by
  obtain ⟨named, rfl, failed⟩ := fails
  obtain ⟨rel, named⟩ := Option.ne_none_iff_exists'.mp named
  rw [iopCreateDriverObject, named] at run
  simp only [create_fresh, failed, Bool.not_false, if_true] at run
  obtain ⟨r', deleted, rfl⟩ := Option.map_eq_some_iff.mp run
  have stays := ((stays_fresh s ioDriverObjectType (driverName.drop (rel + 2))).insert ioDriverDirectory s.created).givenBack
    (promised failed s.created _)
  change s.created ∈ r'.2.alive
  rw [stays.not_deleted deleted]
  exact stays.alive

theorem failsAfter_alive (settled : Settled s) {c : Creation} (promised : c.Promised s) (fails : FailsAfter fuel s c)
    {r : BitVec 32 × ObjectManager} (run : create checked fuel s c = some r) : s.created ∈ r.2.alive := by
  cases c with
  | symbolicLink allocated symlinkName targetPath =>
    obtain ⟨r', made, rfl⟩ := Option.map_eq_some_iff.mp run
    exact symbolicLink_alive settled fails made
  | device allocated driverObject deviceName deviceType =>
    obtain ⟨r', made, rfl⟩ := Option.map_eq_some_iff.mp run
    exact device_alive settled fails made
  | file allocated devices answer parsePacket fileName => exact file_alive settled promised fails run
  | driver allocated driverEntry ioDriverDirectory driverName => exact driver_alive promised fails run

/-- Whatever fails, an error is returned and nothing is left. -/
def LeavesNothing (checked : Bool) (fuel : Nat) (s : ObjectManager) (c : Creation) : Prop :=
  FailsBefore fuel s c ∨ FailsAfter fuel s c → ∃ status t, create checked fuel s c = some (status, t) ∧
    succeeded status = false ∧ NothingLeft s t

end failures

/-- The root with the directory of the drivers in it, which is empty. -/
def driverSpace : ObjectManager where
  space :=
    { object := fun
        | 0 => { objectName := [], referenceCount := 1, body := .directory [1] }
        | 1 => { objectName := [0x44], referenceCount := 1, body := .directory [], parentDirectory := some 0 }
        | _ => { objectName := [], referenceCount := 1, body := .other 0 }
      obRootObjectDirectory := 0 }
  created := 2
  freed _ := false
  handleTables := []
  tableLocked _ := false

theorem driverSpace_settled : Settled driverSpace where
  listed d o member := by
    match d with
    | 0 =>
      rw [List.mem_singleton.mp member]
      exact mem_alive.mpr ⟨Nat.lt_succ_self 1, by decide⟩
    | 1 => cases member
    | _ + 2 => cases member
  root := mem_alive.mpr ⟨Nat.zero_lt_two, by decide⟩
  used o alive := by
    match o with
    | 0 => decide
    | 1 => decide
    | n + 2 => exact absurd (mem_alive.mp alive).1 (Nat.not_lt.mpr (Nat.le_add_left 2 n))

/-- A driver named \D\A whose DriverEntry fails and does nothing. -/
def failingDriver (allocated : Bool) : Creation :=
  .driver allocated ⟨Status.unsuccessful.code, fun _ t => t⟩ 1 [backslash, 0x44, backslash, 0x41]

theorem failingDriver_promised (allocated : Bool) : (failingDriver allocated).Promised driverSpace :=
  fun _ _ t => ⟨Nat.le_refl t.created, fun _ _ => rfl, fun _ _ => rfl⟩

end Gr8os.Io
