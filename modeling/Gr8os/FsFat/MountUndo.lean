import Gr8os.FsFat.Mounts

/-! What a mount that fails and what a mount with its dismount leave behind. -/
namespace Gr8os.FsFat.Mounts

open Io Ob

/-- The boot sector is read, so that its serial number goes to the volume parameter block. -/
def VcbCalls.ReadsBootSector (c : VcbCalls) : Prop :=
  succeeded c.queryName = true ∧ succeeded c.createFile = true ∧ c.bootSectorAllocated = true ∧
    succeeded c.bootSectorRead = true

instance (c : VcbCalls) : Decidable c.ReadsBootSector := inferInstanceAs (Decidable (_ ∧ _))

/-- The mask, the names in \Global, the volume parameter block of the device and the stacks are as they were. -/
structure Same (realDevice : Nat) (s t : MountState) : Prop where
  mask : t.iopMountedDrivesMask = s.iopMountedDrivesMask
  names : t.globalNames.Perm s.globalNames
  vpb : (t.vpbOf realDevice).map t.vpb = (s.vpbOf realDevice).map s.vpb
  stack : ∀ d < s.created, t.devices d = s.devices d

/-- A mount that fails changes nothing, and after one that succeeds a dismount changes everything back. -/
def Undone (checked unlinks : Bool) (s : MountState) (r : MountRequest) : Prop :=
  ∀ status t, fsFatMount s r = some (status, t) →
    if succeeded status then
      ∃ u, fsFatDismount checked unlinks t r.realDevice = some (Status.success.code, u) ∧ Same r.realDevice s u
    else Same r.realDevice s t

/-- The device is not mounted, nothing is attached to it, and its block has the serial number of the disk. -/
structure Untouched (s : MountState) (r : MountRequest) (v : Nat) : Prop where
  unattached : (s.devices r.realDevice).attachedDevice = none
  unmounted : (s.vpb v).fsDeviceObject = none ∧ (s.vpb v).flags &&& vpbMounted = 0
  serial : r.vcb.ReadsBootSector → r.vcb.bootId = (s.vpb v).serialNumber

/-- The name of the link goes again if it came. -/
def NameGoes (unlinks : Bool) (s : MountState) (r : MountRequest) (letter : BitVec 8) : Prop :=
  if succeeded r.queryName && succeeded r.createLink then unlinks = true
  else unlinks = true → linkName letter ∉ s.globalNames

/-- The condition on a mount for which the device is created. -/
def Undoable (unlinks : Bool) (s : MountState) (r : MountRequest) : Prop :=
  match s.vpbOf r.realDevice with
  | none => ioAllocateMountDriveLetter s.iopMountedDrivesMask = none
  | some v =>
    match fsFatCreateVcb r.vcb (s.vpb v) with
    | none => True
    | some (status, _) =>
      Untouched s r v ∧
        if succeeded status then
          ∀ letter mask, ioAllocateMountDriveLetter s.iopMountedDrivesMask = some (letter, mask) →
            NameGoes unlinks s r letter
        else ioAllocateMountDriveLetter s.iopMountedDrivesMask = none

section letters

variable {mask mask' : BitVec 32} {letter : BitVec 8}

theorem allocate_some (taken : ioAllocateMountDriveLetter mask = some (letter, mask')) :
    ∃ i < 26, letter = 0x41 + BitVec.ofNat 8 i ∧ ((1 : BitVec 32) <<< i) &&& mask = 0 ∧
      mask' = mask ||| (1 : BitVec 32) <<< i := by
  obtain ⟨i, found, same⟩ := Option.map_eq_some_iff.mp taken
  cases same
  have free := List.find?_some found
  exact ⟨i, List.mem_range.mp (List.mem_of_find?_eq_some found), rfl, of_decide_eq_true free, rfl⟩

theorem letter_upcase {i : Nat} (inside : i < 26) :
    upcase (0x41 + BitVec.ofNat 8 i) = 0x41 + BitVec.ofNat 8 i ∧ (0x41 : BitVec 8) ≤ 0x41 + BitVec.ofNat 8 i ∧
      0x41 + BitVec.ofNat 8 i ≤ (0x5A : BitVec 8) ∧ ((0x41 + BitVec.ofNat 8 i - 0x41 : BitVec 8).toNat % 32) = i ∧
      0x41 + BitVec.ofNat 8 i ≠ (0 : BitVec 8) := by
  have all : ∀ k : Fin 26, upcase (0x41 + BitVec.ofNat 8 k) = 0x41 + BitVec.ofNat 8 k ∧
      (0x41 : BitVec 8) ≤ 0x41 + BitVec.ofNat 8 k ∧ 0x41 + BitVec.ofNat 8 k ≤ (0x5A : BitVec 8) ∧
      ((0x41 + BitVec.ofNat 8 k - 0x41 : BitVec 8).toNat % 32) = k ∧ 0x41 + BitVec.ofNat 8 k ≠ (0 : BitVec 8) := by
    decide
  exact all ⟨i, inside⟩

theorem or_and_not {w : Nat} {x y : BitVec w} (apart : y &&& x = 0) : (x ||| y) &&& ~~~y = x := by
  ext i h
  have bit := congrArg (fun z => z.getLsbD i) apart
  rw [BitVec.getLsbD_and, BitVec.getLsbD_eq_getElem h, BitVec.getLsbD_eq_getElem h] at bit
  cases hx : x[i] <;> cases hy : y[i] <;> simp_all

theorem and_or_self {w : Nat} (x y : BitVec w) : y &&& (x ||| y) = y := by
  ext i h
  cases hx : x[i] <;> cases hy : y[i] <;> simp_all

theorem shift_ne_zero {i : Nat} (inside : i < 26) : (1 : BitVec 32) <<< i ≠ 0 := by
  have all : ∀ k : Fin 26, (1 : BitVec 32) <<< (k : Nat) ≠ 0 := by decide
  exact all ⟨i, inside⟩

theorem allocate_changes (taken : ioAllocateMountDriveLetter mask = some (letter, mask')) : mask' ≠ mask := by
  obtain ⟨i, inside, -, free, rfl⟩ := allocate_some taken
  intro same
  have covered := and_or_self mask ((1 : BitVec 32) <<< i)
  rw [same, free] at covered
  exact shift_ne_zero inside covered.symm

theorem free_allocated (checked : Bool) (taken : ioAllocateMountDriveLetter mask = some (letter, mask')) :
    letter ≠ 0 ∧ ioFreeMountedDriveLetter checked mask' letter = some mask := by
  obtain ⟨i, inside, rfl, free, rfl⟩ := allocate_some taken
  obtain ⟨up, low, high, count, nonzero⟩ := letter_upcase inside
  refine ⟨nonzero, ?_⟩
  rw [ioFreeMountedDriveLetter]
  simp only [up, low, high, and_self, not_true_eq_false, and_false, if_false, count, or_and_not free]

end letters

section stages

variable {s t : MountState} {r : MountRequest} {v : Nat}

/-- The volume is new, and its letter is the one that the mask had free. -/
structure Prepared (s : MountState) (r : MountRequest) (t : MountState) : Prop where
  devices : t.devices = Function.update s.devices s.created ⟨none, none, 1⟩
  vpbOf : t.vpbOf = Function.update s.vpbOf s.created none
  vpb : t.vpb = s.vpb
  volumes : t.volumes = s.created :: s.volumes
  unlettered : ioAllocateMountDriveLetter s.iopMountedDrivesMask = none →
    t.iopMountedDrivesMask = s.iopMountedDrivesMask ∧ t.globalNames = s.globalNames ∧ t.driveLetter s.created = 0
  lettered : ∀ letter mask, ioAllocateMountDriveLetter s.iopMountedDrivesMask = some (letter, mask) →
    t.iopMountedDrivesMask = mask ∧ t.driveLetter s.created = letter ∧
      t.globalNames = if succeeded r.queryName && succeeded r.createLink then s.globalNames ++ [linkName letter]
        else s.globalNames

theorem prepared (s : MountState) (r : MountRequest) : Prepared s r (s.ioCreateDevice.nameVolume r s.created) := by
  have mask : s.ioCreateDevice.iopMountedDrivesMask = s.iopMountedDrivesMask := rfl
  cases given : ioAllocateMountDriveLetter s.iopMountedDrivesMask with
  | none =>
    have same : s.ioCreateDevice.nameVolume r s.created = s.ioCreateDevice := by
      unfold MountState.nameVolume
      rw [mask, given]
    rw [same]
    refine ⟨rfl, rfl, rfl, rfl, fun _ => ⟨rfl, rfl, Function.update_self ..⟩, ?_⟩
    intro letter mask' taken
    rw [given] at taken
    cases taken
  | some taken =>
    obtain ⟨letter, mask'⟩ := taken
    unfold MountState.nameVolume
    rw [mask, given]
    dsimp only
    unfold MountState.linkVolume
    by_cases linked : (succeeded r.queryName && succeeded r.createLink) = true
    · rw [if_pos linked]
      refine ⟨rfl, rfl, rfl, rfl, (fun none => by rw [given] at none; cases none), ?_⟩
      intro other mask'' taken
      rw [given] at taken
      cases taken
      exact ⟨rfl, Function.update_self .., (if_pos linked).symm⟩
    · rw [if_neg linked]
      refine ⟨rfl, rfl, rfl, rfl, (fun none => by rw [given] at none; cases none), ?_⟩
      intro other mask'' taken
      rw [given] at taken
      cases taken
      exact ⟨rfl, Function.update_self .., (if_neg linked).symm⟩

def written (c : VcbCalls) (vpb : Vpb) : Vpb :=
  if c.ReadsBootSector then { vpb with serialNumber := c.bootId } else vpb

theorem fsFatCreateVcb_status (c : VcbCalls) :
    ∃ o : Option (BitVec 32), ∀ vpb, fsFatCreateVcb c vpb = o.map fun status => (status, written c vpb) := by
  by_cases reads : c.ReadsBootSector
  · refine ⟨(fsFatCreateVcb c ⟨0, none, 0, 0⟩).map (·.1), ?_⟩
    intro vpb
    obtain ⟨query, create, allocated, read⟩ := id reads
    simp only [fsFatCreateVcb, written, query, create, allocated, read, if_pos reads, Bool.not_true, Bool.false_eq_true,
      if_false, Option.map_bind]
    cases FsFat.fsFatCreateVcb c.header with
    | none => rfl
    | some regions =>
      simp only [Option.bind_some, Function.comp]
      repeat' split
      · rfl
      · rfl
      · rfl
      · cases c.rootRead <;> rfl
  · have kept : ∀ vpb, written c vpb = vpb := fun vpb => if_neg reads
    by_cases query : succeeded c.queryName = true
    · by_cases create : succeeded c.createFile = true
      · by_cases allocated : c.bootSectorAllocated = true
        · by_cases read : succeeded c.bootSectorRead = true
          · exact absurd ⟨query, create, allocated, read⟩ reads
          · exact ⟨some c.bootSectorRead, fun vpb => by simp [fsFatCreateVcb, query, create, allocated, read, kept]⟩
        · exact ⟨some Status.insufficientResources.code, fun vpb => by
            simp [fsFatCreateVcb, query, create, allocated, kept]⟩
      · exact ⟨some c.createFile, fun vpb => by simp [fsFatCreateVcb, query, create, kept]⟩
    · exact ⟨some c.queryName, fun vpb => by simp [fsFatCreateVcb, query, kept]⟩

/-- The block was bound to a volume and the volume attached, and both were taken back. -/
structure TakenBack (s : MountState) (r : MountRequest) (v : Nat) (t : MountState) : Prop where
  vpbOf : t.vpbOf r.realDevice = some v
  vpb : t.vpb v = { written r.vcb { s.vpb v with
      fsDeviceObject := some s.created
      flags := (s.vpb v).flags ||| vpbMounted } with
    fsDeviceObject := none
    flags := ((s.vpb v).flags ||| vpbMounted) &&& ~~~vpbMounted }
  target : t.devices r.realDevice = { s.devices r.realDevice with attachedDevice := none }
  others : ∀ d < s.created, d ≠ r.realDevice → t.devices d = s.devices d

theorem unmount_flags (f : BitVec 16) : (f ||| vpbMounted) &&& ~~~vpbMounted = f ↔ f &&& vpbMounted = 0 := by
  constructor
  · intro same
    have apart : ~~~vpbMounted &&& vpbMounted = 0 := by decide
    rw [← same, BitVec.and_assoc, apart]
    exact BitVec.and_zero
  · intro clear
    rw [BitVec.and_comm] at clear
    exact or_and_not clear

theorem TakenBack.same_iff (back : TakenBack s r v t) (block : s.vpbOf r.realDevice = some v)
    (known : r.realDevice < s.created) : Same r.realDevice s t ↔
    t.iopMountedDrivesMask = s.iopMountedDrivesMask ∧ t.globalNames.Perm s.globalNames ∧ Untouched s r v := by
  have target : t.devices r.realDevice = s.devices r.realDevice ↔ (s.devices r.realDevice).attachedDevice = none := by
    rw [back.target]
    constructor
    · intro same
      rw [← same]
    · intro unattached
      rw [← unattached]
  have vpb : t.vpb v = s.vpb v ↔ ((s.vpb v).fsDeviceObject = none ∧ (s.vpb v).flags &&& vpbMounted = 0) ∧
      (r.vcb.ReadsBootSector → r.vcb.bootId = (s.vpb v).serialNumber) := by
    rw [back.vpb, ← unmount_flags]
    generalize s.vpb v = x
    obtain ⟨flags, fsDevice, physical, serial⟩ := x
    by_cases reads : r.vcb.ReadsBootSector
    · simp only [written, Vpb.mk.injEq, reads, forall_const]
      tauto
    · simp only [written, Vpb.mk.injEq, reads, IsEmpty.forall_iff]
      tauto
  constructor
  · intro same
    have stack := target.mp (same.stack _ known)
    have same_vpb := same.vpb
    rw [back.vpbOf, block, Option.map_some, Option.map_some, Option.some.injEq, vpb] at same_vpb
    exact ⟨same.mask, same.names, stack, same_vpb.1, same_vpb.2⟩
  · rintro ⟨mask, names, unattached, unmounted, serial⟩
    refine ⟨mask, names, ?_, ?_⟩
    · rw [back.vpbOf, block, Option.map_some, Option.map_some, vpb.mpr ⟨unmounted, serial⟩]
    · intro d older
      by_cases here : d = r.realDevice
      · rw [here]
        exact target.mpr unattached
      · exact back.others d older here

theorem detach_attach {devices : Devices Nat} {source target : Nat} (apart : source ≠ target) :
    ∃ after, ioDetachDevice (ioAttachDevice devices source target) target = some after ∧
      after target = { devices target with attachedDevice := none } ∧
      ∀ d, d ≠ source → d ≠ target → after d = devices d := by
  have attached : (ioAttachDevice devices source target target).attachedDevice = some source := by
    simp [ioAttachDevice]
  refine ⟨_, by rw [ioDetachDevice, attached], ?_, ?_⟩
  · simp [ioAttachDevice, apart.symm]
  · intro d other elsewhere
    simp [ioAttachDevice, other, elsewhere]

/-- The state that IoMountVolume leaves. -/
def bound (s : MountState) (r : MountRequest) (v : Nat) : MountState :=
  (s.ioCreateDevice.nameVolume r s.created).ioMountVolume v s.created

theorem fsFatMount_unbound (made : succeeded r.createDevice = true) (known : r.realDevice < s.created)
    (block : s.vpbOf r.realDevice = none) : fsFatMount s r = some (Status.invalidParameter.code,
      (s.ioCreateDevice.nameVolume r s.created).obpDeleteObject s.created) := by
  have none : (s.ioCreateDevice.nameVolume r s.created).vpbOf r.realDevice = none := by
    rw [(prepared s r).vpbOf, Function.update_of_ne (Nat.ne_of_lt known), block]
  rw [fsFatMount, made]
  simp only [Bool.not_true, Bool.false_eq_true, if_false, none]

theorem fsFatMount_bound (made : succeeded r.createDevice = true) (known : r.realDevice < s.created)
    (block : s.vpbOf r.realDevice = some v) :
    fsFatMount s r = attachVolume (bound s r v) r v s.created := by
  have pointer : (s.ioCreateDevice.nameVolume r s.created).vpbOf r.realDevice = some v := by
    rw [(prepared s r).vpbOf, Function.update_of_ne (Nat.ne_of_lt known), block]
  rw [fsFatMount, made]
  simp only [Bool.not_true, Bool.false_eq_true, if_false, pointer, bound]

theorem bound_vpb : (bound s r v).vpb v = { s.vpb v with
    fsDeviceObject := some s.created
    flags := (s.vpb v).flags ||| vpbMounted } := by
  simp [bound, MountState.ioMountVolume, MountState.setVpb, (prepared s r).vpb]

theorem bound_vpbOf (known : r.realDevice < s.created) (block : s.vpbOf r.realDevice = some v) :
    (bound s r v).vpbOf r.realDevice = some v := by
  have other : r.realDevice ≠ s.created := Nat.ne_of_lt known
  simp [bound, MountState.ioMountVolume, (prepared s r).vpbOf, other, block]

theorem takenBack (known : r.realDevice < s.created) (block : s.vpbOf r.realDevice = some v)
    {t : MountState} (vpbOf : t.vpbOf = (bound s r v).vpbOf) (vpb : t.vpb v = written r.vcb ((bound s r v).vpb v))
    (devices : ioDetachDevice (ioAttachDevice (bound s r v).devices s.created r.realDevice) r.realDevice =
      some t.devices) : TakenBack s r v (t.ioDismountVolume r.realDevice).2 := by
  have pointer : t.vpbOf r.realDevice = some v := by rw [vpbOf, bound_vpbOf known block]
  have unbound : (t.ioDismountVolume r.realDevice).2 = t.setVpb v { t.vpb v with
      fsDeviceObject := none
      flags := (t.vpb v).flags &&& ~~~vpbMounted } := by
    rw [MountState.ioDismountVolume, pointer]
  obtain ⟨after, detached, target, others⟩ := @detach_attach (bound s r v).devices _ _ (Nat.ne_of_gt known)
  rw [devices, Option.some.injEq] at detached
  have before : (bound s r v).devices = Function.update s.devices s.created ⟨none, none, 1⟩ := (prepared s r).devices
  have flags : ∀ x, (written r.vcb x).flags = x.flags := by
    intro x
    unfold written
    split <;> rfl
  rw [unbound]
  refine ⟨pointer, ?_, ?_, ?_⟩
  · change Function.update t.vpb v _ v = _
    rw [Function.update_self, vpb, flags, bound_vpb]
  · change t.devices r.realDevice = _
    rw [detached, target, before, Function.update_of_ne (Nat.ne_of_lt known)]
  · intro d older other
    change t.devices d = _
    rw [detached, others d (Nat.ne_of_lt older) other, before, Function.update_of_ne (Nat.ne_of_lt older)]

end stages

section outcomes

variable {s t : MountState} {r : MountRequest} {v : Nat} {status : BitVec 32} {vpb : Vpb} {checked unlinks : Bool}

/-- Where FsFatCreateVcb fails, the letter and the link stay. -/
theorem attachVolume_fails (known : r.realDevice < s.created) (block : s.vpbOf r.realDevice = some v)
    (vcb : fsFatCreateVcb r.vcb ((bound s r v).vpb v) = some (status, written r.vcb ((bound s r v).vpb v)))
    (failed : succeeded status = false) : ∃ t, attachVolume (bound s r v) r v s.created = some (status, t) ∧
      TakenBack s r v t ∧
      t.iopMountedDrivesMask = (s.ioCreateDevice.nameVolume r s.created).iopMountedDrivesMask ∧
      t.globalNames = (s.ioCreateDevice.nameVolume r s.created).globalNames := by
  obtain ⟨after, detached, -, -⟩ := @detach_attach (bound s r v).devices _ _ (Nat.ne_of_gt known)
  let attached : MountState :=
    { (bound s r v).setVpb v (written r.vcb ((bound s r v).vpb v)) with devices := after }
  have back : TakenBack s r v (attached.ioDismountVolume r.realDevice).2 :=
    takenBack known block rfl (Function.update_self ..) detached
  have pointer : attached.vpbOf r.realDevice = some v := bound_vpbOf known block
  refine ⟨(attached.ioDismountVolume r.realDevice).2.obpDeleteObject s.created, ?_, ?_, ?_, ?_⟩
  · rw [attachVolume]
    simp only [vcb, Option.bind_some, failed, Bool.not_false, if_true]
    exact congrArg (Option.map _) detached
  · exact ⟨back.vpbOf, back.vpb, back.target, back.others⟩
  · rw [MountState.ioDismountVolume, pointer]
    rfl
  · rw [MountState.ioDismountVolume, pointer]
    rfl

def namesAfter (unlinks : Bool) (s : MountState) (r : MountRequest) : List (List WChar) :=
  match ioAllocateMountDriveLetter s.iopMountedDrivesMask with
  | none => s.globalNames
  | some (letter, _) =>
    let names := if succeeded r.queryName && succeeded r.createLink then s.globalNames ++ [linkName letter]
      else s.globalNames
    if unlinks then names.erase (linkName letter) else names

theorem fsFatDismount_unlettered {volume : Nat} {devices : Devices Nat} {realDevice : Nat}
    (attached : (t.devices realDevice).attachedDevice = some volume) (there : volume ∈ t.volumes)
    (detached : ioDetachDevice t.devices realDevice = some devices) (none : t.driveLetter volume = 0) :
    fsFatDismount checked unlinks t realDevice =
      some (({ t with devices := devices }.obpDeleteObject volume).ioDismountVolume realDevice) := by
  simp [fsFatDismount, attached, there, detached, none]

theorem fsFatDismount_lettered {volume : Nat} {devices : Devices Nat} {realDevice : Nat} {mask : BitVec 32}
    (attached : (t.devices realDevice).attachedDevice = some volume) (there : volume ∈ t.volumes)
    (detached : ioDetachDevice t.devices realDevice = some devices) (some_ : t.driveLetter volume ≠ 0)
    (freed : ioFreeMountedDriveLetter checked t.iopMountedDrivesMask (t.driveLetter volume) = some mask) :
    fsFatDismount checked unlinks t realDevice =
      some (({ t with
        devices := devices
        iopMountedDrivesMask := mask
        globalNames := if unlinks then t.globalNames.erase (linkName (t.driveLetter volume)) else t.globalNames
        }.obpDeleteObject volume).ioDismountVolume realDevice) := by
  simp [fsFatDismount, attached, there, detached, freed]
  intro zero
  exact absurd zero some_

theorem dismount_success {realDevice : Nat} (pointer : t.vpbOf realDevice = some v) :
    t.ioDismountVolume realDevice = (Status.success.code, (t.ioDismountVolume realDevice).2) := by
  rw [MountState.ioDismountVolume, pointer]

theorem dismount_names {realDevice : Nat} :
    (t.ioDismountVolume realDevice).2.iopMountedDrivesMask = t.iopMountedDrivesMask ∧
      (t.ioDismountVolume realDevice).2.globalNames = t.globalNames := by
  unfold MountState.ioDismountVolume
  cases t.vpbOf realDevice <;> exact ⟨rfl, rfl⟩

/-- A dismount frees the letter whatever becomes of the link. -/
theorem attachVolume_succeeds (known : r.realDevice < s.created) (block : s.vpbOf r.realDevice = some v)
    (vcb : fsFatCreateVcb r.vcb ((bound s r v).vpb v) = some (status, written r.vcb ((bound s r v).vpb v)))
    (success : succeeded status = true) : ∃ t u, attachVolume (bound s r v) r v s.created = some (status, t) ∧
      fsFatDismount checked unlinks t r.realDevice = some (Status.success.code, u) ∧ TakenBack s r v u ∧
      u.iopMountedDrivesMask = s.iopMountedDrivesMask ∧ u.globalNames = namesAfter unlinks s r := by
  have ready := prepared s r
  let t : MountState := { bound s r v with
    devices := ioAttachDevice (bound s r v).devices s.created r.realDevice }.setVpb v
      (written r.vcb ((bound s r v).vpb v))
  obtain ⟨after, detached, -, -⟩ := @detach_attach (bound s r v).devices _ _ (Nat.ne_of_gt known)
  have mounted : attachVolume (bound s r v) r v s.created = some (status, t) := by
    rw [attachVolume]
    simp only [vcb, Option.bind_some, success, Bool.not_true, Bool.false_eq_true, if_false]
    rfl
  have attached : (t.devices r.realDevice).attachedDevice = some s.created := by
    change (ioAttachDevice _ _ _ r.realDevice).attachedDevice = _
    simp [ioAttachDevice]
  have there : s.created ∈ t.volumes := by
    change s.created ∈ (s.ioCreateDevice.nameVolume r s.created).volumes
    rw [ready.volumes]
    exact List.mem_cons_self
  have pointer : t.vpbOf r.realDevice = some v := bound_vpbOf known block
  have vpb : t.vpb v = written r.vcb ((bound s r v).vpb v) := Function.update_self ..
  refine ⟨t, ?_⟩
  cases given : ioAllocateMountDriveLetter s.iopMountedDrivesMask with
  | none =>
    obtain ⟨mask, names, letter⟩ := ready.unlettered given
    have back := @takenBack s r v known block ({ t with devices := after }.obpDeleteObject s.created) rfl vpb detached
    refine ⟨_, mounted, ?_, back, ?_, ?_⟩
    · rw [fsFatDismount_unlettered attached there detached letter]
      exact congrArg some (dismount_success pointer)
    · exact dismount_names.1.trans mask
    · rw [namesAfter, given]
      exact dismount_names.2.trans names
  | some taken =>
    obtain ⟨letter, mask'⟩ := taken
    obtain ⟨mask, named, names⟩ := ready.lettered letter mask' given
    obtain ⟨nonzero, freed⟩ := free_allocated checked given
    have letterOf : t.driveLetter s.created = letter := named
    have maskOf : t.iopMountedDrivesMask = mask' := mask
    have namesOf : t.globalNames = if succeeded r.queryName && succeeded r.createLink then
      s.globalNames ++ [linkName letter] else s.globalNames := names
    rw [← maskOf, ← letterOf] at freed
    have back := @takenBack s r v known block ({ t with
      devices := after
      iopMountedDrivesMask := s.iopMountedDrivesMask
      globalNames := if unlinks then t.globalNames.erase (linkName (t.driveLetter s.created)) else t.globalNames
      }.obpDeleteObject s.created) rfl vpb detached
    refine ⟨_, mounted, ?_, back, ?_, ?_⟩
    · rw [fsFatDismount_lettered attached there detached (by rwa [letterOf]) freed]
      exact congrArg some (dismount_success pointer)
    · exact dismount_names.1
    · rw [namesAfter, given]
      dsimp only
      rw [← namesOf, ← letterOf]
      exact dismount_names.2

/-- The names come back if the link goes again, or no name was there to be taken by its dismount. -/
theorem namesAfter_iff : (namesAfter unlinks s r).Perm s.globalNames ↔
    ∀ letter mask, ioAllocateMountDriveLetter s.iopMountedDrivesMask = some (letter, mask) →
      NameGoes unlinks s r letter := by
  unfold namesAfter
  cases given : ioAllocateMountDriveLetter s.iopMountedDrivesMask with
  | none => simp
  | some taken =>
    obtain ⟨letter, mask⟩ := taken
    have only : (∀ letter' mask', some (letter, mask) = some (letter', mask') → NameGoes unlinks s r letter') ↔
        NameGoes unlinks s r letter := by
      constructor
      · intro all
        exact all letter mask rfl
      · intro goes letter' mask' same
        cases same
        exact goes
    rw [only, NameGoes]
    dsimp only
    by_cases linked : (succeeded r.queryName && succeeded r.createLink) = true
    · rw [if_pos linked, if_pos linked]
      cases unlinks with
      | true =>
        refine iff_of_true ?_ rfl
        have moved := (List.perm_append_singleton (linkName letter) s.globalNames).erase (linkName letter)
        rwa [List.erase_cons_head] at moved
      | false =>
        refine iff_of_false ?_ (by simp)
        intro perm
        have longer := perm.length_eq
        simp at longer
    · rw [if_neg linked, if_neg linked]
      cases unlinks with
      | true =>
        rw [if_pos rfl]
        constructor
        · intro perm _ there
          have shorter := List.length_erase_of_mem there
          have nonempty := List.length_pos_of_mem there
          have same := perm.length_eq
          omega
        · intro free
          rw [List.erase_of_not_mem (free rfl)]
      | false => simp

theorem letter_none_iff : (s.ioCreateDevice.nameVolume r s.created).iopMountedDrivesMask = s.iopMountedDrivesMask ↔
    ioAllocateMountDriveLetter s.iopMountedDrivesMask = none := by
  cases given : ioAllocateMountDriveLetter s.iopMountedDrivesMask with
  | none => exact iff_of_true ((prepared s r).unlettered given).1 rfl
  | some taken =>
    obtain ⟨letter, mask⟩ := taken
    refine iff_of_false ?_ (by simp)
    rw [((prepared s r).lettered letter mask given).1]
    exact allocate_changes given

theorem unbound_iff (made : succeeded r.createDevice = true) (known : r.realDevice < s.created)
    (block : s.vpbOf r.realDevice = none) : Undone checked unlinks s r ↔
    ioAllocateMountDriveLetter s.iopMountedDrivesMask = none := by
  have ready := prepared s r
  have result := fsFatMount_unbound made known block
  have failed : succeeded Status.invalidParameter.code = false := by decide
  rw [← @letter_none_iff s r]
  constructor
  · intro undone
    have same := undone _ _ result
    rw [failed, if_neg Bool.false_ne_true] at same
    exact same.mask
  · intro mask status t other
    rw [result] at other
    cases other
    rw [failed, if_neg Bool.false_ne_true]
    refine ⟨mask, ?_, ?_, ?_⟩
    · exact .of_eq (ready.unlettered (letter_none_iff.mp mask)).2.1
    · change Option.map _ ((s.ioCreateDevice.nameVolume r s.created).vpbOf r.realDevice) = _
      rw [ready.vpbOf, Function.update_of_ne (Nat.ne_of_lt known), block]
      rfl
    · intro d older
      change (s.ioCreateDevice.nameVolume r s.created).devices d = _
      rw [ready.devices, Function.update_of_ne (Nat.ne_of_lt older)]

/-- For every failure of a mount: what was there is there again exactly under this condition. -/
theorem undone_iff (known : r.realDevice < s.created) :
    Undone checked unlinks s r ↔ (succeeded r.createDevice = true → Undoable unlinks s r) := by
  cases made : succeeded r.createDevice with
  | false =>
    have refused : fsFatMount s r = some (r.createDevice, s) := by simp [fsFatMount, made]
    refine iff_of_true ?_ (by simp)
    intro status t result
    rw [refused] at result
    cases result
    rw [if_neg (by simp [made])]
    exact ⟨rfl, .refl _, rfl, fun _ _ => rfl⟩
  | true =>
    have condition : (true = true → Undoable unlinks s r) ↔ Undoable unlinks s r := ⟨fun h => h rfl, fun h _ => h⟩
    rw [condition, Undoable]
    cases block : s.vpbOf r.realDevice with
    | none => exact unbound_iff made known block
    | some v =>
      obtain ⟨o, vcb⟩ := fsFatCreateVcb_status r.vcb
      rw [Undone, fsFatMount_bound made known block]
      dsimp only
      rw [vcb (s.vpb v)]
      have here := vcb ((bound s r v).vpb v)
      cases o with
      | none =>
        have stops : attachVolume (bound s r v) r v s.created = none := by
          rw [attachVolume]
          simp only [here, Option.map_none, Option.bind_none]
        refine iff_of_true ?_ trivial
        intro status t result
        rw [stops] at result
        cases result
      | some status =>
        dsimp only [Option.map_some] at here ⊢
        cases success : succeeded status with
        | true =>
          obtain ⟨t, u, mounted, dismounted, back, mask, names⟩ :=
            @attachVolume_succeeds s r v status checked unlinks known block here success
          rw [if_pos rfl, ← namesAfter_iff]
          have same := back.same_iff block known
          rw [mask, names] at same
          constructor
          · intro undone
            have after := undone status t mounted
            rw [success, if_pos rfl] at after
            obtain ⟨u', dismounted', restored⟩ := after
            rw [dismounted] at dismounted'
            cases dismounted'
            obtain ⟨-, perm, untouched⟩ := same.mp restored
            exact ⟨untouched, perm⟩
          · rintro ⟨untouched, perm⟩ status' t' result
            rw [mounted] at result
            cases result
            rw [success, if_pos rfl]
            exact ⟨u, dismounted, same.mpr ⟨rfl, perm, untouched⟩⟩
        | false =>
          obtain ⟨t, mounted, back, mask, names⟩ := attachVolume_fails known block here success
          rw [if_neg Bool.false_ne_true, ← @letter_none_iff s r]
          have same := back.same_iff block known
          rw [mask, names] at same
          constructor
          · intro undone
            have after := undone status t mounted
            rw [success, if_neg Bool.false_ne_true] at after
            obtain ⟨unlettered, -, untouched⟩ := same.mp after
            exact ⟨untouched, unlettered⟩
          · rintro ⟨untouched, unlettered⟩ status' t' result
            rw [mounted] at result
            cases result
            rw [success, if_neg Bool.false_ne_true]
            exact same.mpr ⟨unlettered, .of_eq ((prepared s r).unlettered (letter_none_iff.mp unlettered)).2.1, untouched⟩

end outcomes

def oneDisk : MountState where
  iopMountedDrivesMask := 0
  globalNames := []
  devices _ := ⟨none, none, 1⟩
  vpbOf d := if d = 0 then some 0 else none
  vpb _ := ⟨0, none, 0, 0⟩
  driveLetter _ := 0
  volumes := []
  created := 1

/-- A mount of the disk in which everything works but the reading of the boot sector, if that. -/
def mountDisk (bootSectorRead : BitVec 32) : MountRequest where
  realDevice := 0
  createDevice := 0
  queryName := 0
  createLink := 0
  vcb :=
    { queryName := 0, createFile := 0, bootSectorAllocated := true, bootSectorRead, header := {}, bootId := 0,
      fatAllocated := true, firstFatRead := 0, secondFatRead := 0, rootAllocated := true, rootRead := some 0 }

theorem mountDisk_undone : Undone true true oneDisk (mountDisk 0) := by
  refine (undone_iff (by decide)).mpr fun _ => ?_
  have vcb : fsFatCreateVcb (mountDisk 0).vcb (oneDisk.vpb 0) = some (0, ⟨0, none, 0, 0⟩) := by decide
  change match fsFatCreateVcb (mountDisk 0).vcb (oneDisk.vpb 0) with | none => True | some (status, _) => _
  rw [vcb]
  refine ⟨⟨rfl, ⟨rfl, rfl⟩, fun _ => rfl⟩, ?_⟩
  intro letter mask _
  exact rfl

/-- The letter stays taken, and the link stays, when the boot sector cannot be read. -/
theorem unreadable_leaks : ¬Undone true true oneDisk (mountDisk Status.unsuccessful.code) := by
  intro undone
  have taken : (fsFatMount oneDisk (mountDisk Status.unsuccessful.code)).map
      (fun x => (succeeded x.1, x.2.iopMountedDrivesMask, x.2.globalNames)) = some (false, 1, [linkName 0x41]) := by
    decide
  obtain ⟨⟨status, t⟩, result, outcome⟩ := Option.map_eq_some_iff.mp taken
  obtain ⟨failed, mask⟩ := Prod.mk.inj outcome
  have same := undone status t result
  rw [failed, if_neg Bool.false_ne_true] at same
  have clear := same.mask
  rw [(Prod.mk.inj mask).1] at clear
  exact absurd clear (by decide)

end Gr8os.FsFat.Mounts
