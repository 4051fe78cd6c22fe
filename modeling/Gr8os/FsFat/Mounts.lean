import Gr8os.FsFat.Layout
import Gr8os.Io.DeviceStack
import Gr8os.Ob.Name

/-! Mounting and dismounting of a FAT volume: the drive letters, the names in the directory \Global, the volume
parameter blocks and the device stacks. What the object manager, the heap and the device answer is given. -/
namespace Gr8os.FsFat.Mounts

open Io Ob

structure Vpb where
  flags : BitVec 16
  fsDeviceObject : Option Nat
  physicalDeviceObject : Nat
  serialNumber : BitVec 32
deriving DecidableEq, Repr

def vpbMounted : BitVec 16 := 1

/-- A device is known by a number that is not given out again. -/
structure MountState where
  iopMountedDrivesMask : BitVec 32
  /-- The names of the objects in \Global. -/
  globalNames : List (List WChar)
  devices : Devices Nat
  /-- The pointer to the volume parameter block in a device object. -/
  vpbOf : Nat → Option Nat
  vpb : Nat → Vpb
  driveLetter : Nat → BitVec 8
  /-- The volumes that are not deleted. -/
  volumes : List Nat
  created : Nat

/-- What the calls of FsFatCreateVcb return, in its order. -/
structure VcbCalls where
  queryName : BitVec 32
  createFile : BitVec 32
  bootSectorAllocated : Bool
  bootSectorRead : BitVec 32
  header : FsfatBpb
  bootId : BitVec 32
  fatAllocated : Bool
  firstFatRead : BitVec 32
  secondFatRead : BitVec 32
  rootAllocated : Bool
  /-- The status of the last read of the root directory. There is none if its chain of clusters has no end. -/
  rootRead : Option (BitVec 32)
deriving DecidableEq, Repr

structure MountRequest where
  realDevice : Nat
  createDevice : BitVec 32
  queryName : BitVec 32
  createLink : BitVec 32
  vcb : VcbCalls
deriving DecidableEq, Repr

/-- The lowest bit that is not set. -/
def ioAllocateMountDriveLetter (mask : BitVec 32) : Option (BitVec 8 × BitVec 32) :=
  ((List.range 26).find? fun i => decide (((1 : BitVec 32) <<< i) &&& mask = 0)).map fun i =>
    (0x41 + BitVec.ofNat 8 i, mask ||| (1 : BitVec 32) <<< i)

def upcase (ch : BitVec 8) : BitVec 8 := if 0x61 ≤ ch ∧ ch ≤ 0x7A then ch - 0x61 + 0x41 else ch

/-- The shift takes the low five bits of its count. -/
def ioFreeMountedDriveLetter (checked : Bool) (mask : BitVec 32) (driveLetter : BitVec 8) : Option (BitVec 32) :=
  let driveLetter := upcase driveLetter
  if checked ∧ ¬(0x41 ≤ driveLetter ∧ driveLetter ≤ 0x5A) then none
  else some (mask &&& ~~~((1 : BitVec 32) <<< ((driveLetter - 0x41).toNat % 32)))

/-- The last name of \Global\ :, with the letter for the blank. -/
def linkName (driveLetter : BitVec 8) : List WChar := [driveLetter.signExtend 16, 0x3A]

namespace MountState

variable (s : MountState)

/-- An unnamed device, and its volume. -/
def ioCreateDevice : MountState :=
  { s with
    devices := Function.update s.devices s.created ⟨none, none, 1⟩
    vpbOf := Function.update s.vpbOf s.created none
    driveLetter := Function.update s.driveLetter s.created 0
    volumes := s.created :: s.volumes
    created := s.created + 1 }

def obpDeleteObject (volume : Nat) : MountState := { s with volumes := s.volumes.erase volume }

/-- The link for the letter of a volume. It is created if the device has a name; a failure is only printed. -/
def linkVolume (r : MountRequest) (driveLetter : BitVec 8) : MountState :=
  if succeeded r.queryName && succeeded r.createLink then
    { s with globalNames := s.globalNames ++ [linkName driveLetter] }
  else s

/-- A volume without a letter is mounted all the same. -/
def nameVolume (r : MountRequest) (volume : Nat) : MountState :=
  match ioAllocateMountDriveLetter s.iopMountedDrivesMask with
  | none => s
  | some (letter, mask) =>
    { s with
      iopMountedDrivesMask := mask
      driveLetter := Function.update s.driveLetter volume letter }.linkVolume r letter

def setVpb (v : Nat) (vpb : Vpb) : MountState := { s with vpb := Function.update s.vpb v vpb }

/-- IoMountVolume does not ask whether the block is mounted. -/
def ioMountVolume (v fsDevice : Nat) : MountState :=
  { s.setVpb v { s.vpb v with
      fsDeviceObject := some fsDevice
      flags := (s.vpb v).flags ||| vpbMounted } with
    vpbOf := Function.update s.vpbOf fsDevice (some v) }

def ioDismountVolume (realDevice : Nat) : BitVec 32 × MountState :=
  match s.vpbOf realDevice with
  | none => (Status.invalidParameter.code, s)
  | some v =>
    (Status.success.code, s.setVpb v { s.vpb v with
      fsDeviceObject := none
      flags := (s.vpb v).flags &&& ~~~vpbMounted })

end MountState

/-- FsFatCreateVcb, with the volume parameter block that it writes the serial number to. -/
def fsFatCreateVcb (c : VcbCalls) (vpb : Vpb) : Option (BitVec 32 × Vpb) :=
  if !succeeded c.queryName then some (c.queryName, vpb)
  else if !succeeded c.createFile then some (c.createFile, vpb)
  else if !c.bootSectorAllocated then some (Status.insufficientResources.code, vpb)
  else if !succeeded c.bootSectorRead then some (c.bootSectorRead, vpb)
  else (FsFat.fsFatCreateVcb c.header).bind fun _ =>
    let vpb := { vpb with serialNumber := c.bootId }
    if !c.fatAllocated then some (Status.insufficientResources.code, vpb)
    else if !succeeded c.firstFatRead && !succeeded c.secondFatRead then some (c.secondFatRead, vpb)
    else if !c.rootAllocated then some (Status.insufficientResources.code, vpb)
    else c.rootRead.map fun status => (if succeeded status then Status.success.code else status, vpb)

/-- What follows IoMountVolume. -/
def attachVolume (s : MountState) (r : MountRequest) (v volume : Nat) : Option (BitVec 32 × MountState) :=
  let s := { s with devices := ioAttachDevice s.devices volume r.realDevice }
  (fsFatCreateVcb r.vcb (s.vpb v)).bind fun (status, vpb) =>
    let s := s.setVpb v vpb
    if !succeeded status then
      (ioDetachDevice s.devices r.realDevice).map fun devices =>
        let s := { s with devices }
        (status, (s.ioDismountVolume r.realDevice).2.obpDeleteObject volume)
    else some (status, s)

/-- IRP_MN_MOUNT of FsFatFsControl. -/
def fsFatMount (s : MountState) (r : MountRequest) : Option (BitVec 32 × MountState) :=
  if !succeeded r.createDevice then some (r.createDevice, s)
  else
    let volume := s.created
    let s := s.ioCreateDevice.nameVolume r volume
    match s.vpbOf r.realDevice with
    | none => some (Status.invalidParameter.code, s.obpDeleteObject volume)
    | some v => attachVolume (s.ioMountVolume v volume) r v volume

/-- IRP_MN_DISMOUNT. What is attached must be a volume; ObDeleteObject takes the name away if it finds the object and
nothing else refers to it. -/
def fsFatDismount (checked unlinks : Bool) (s : MountState) (realDevice : Nat) : Option (BitVec 32 × MountState) := do
  let volume ← (s.devices realDevice).attachedDevice
  if volume ∉ s.volumes then none
  else
    let devices ← ioDetachDevice s.devices realDevice
    let s := { s with devices }
    let letter := s.driveLetter volume
    let s ←
      if letter ≠ 0 then
        (ioFreeMountedDriveLetter checked s.iopMountedDrivesMask letter).map fun mask =>
          { s with
            iopMountedDrivesMask := mask
            globalNames := if unlinks then s.globalNames.erase (linkName letter) else s.globalNames }
      else some s
    some ((s.obpDeleteObject volume).ioDismountVolume realDevice)

end Gr8os.FsFat.Mounts
