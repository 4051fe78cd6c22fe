import Gr8os.Io.DeviceStack
import Gr8os.Ob.Links

/-! Devices, files and driver objects as the I/O manager creates them, and what a failed creation may leave. -/
namespace Gr8os.Io

open Ob

def ioDriverObjectType : ObjectType := .other 1

def ioFileObjectType : ObjectType := .other 2

def ioVpbObjectType : ObjectType := .other 3

def deviceTypeDisk : BitVec 32 := 2

/-- The heap calls of IoCreateDevice, in its order. -/
structure DeviceAllocations where
  object : Bool
  directoryName : Bool
  directoryLookup : Nat → Bool
  vpb : Bool

/-- Where the last backslash behind the first character stands, or 0. -/
def lastBackslash (name : List WChar) : Nat := ((wcsrchr (name.drop 1) backslash).map (· + 1)).getD 0

/-- The directory is found as it is for a symbolic link. -/
def DeviceAllocations.asLink (allocated : DeviceAllocations) : LinkAllocations where
  targetLookup _ := false
  object := allocated.object
  directoryName := allocated.directoryName
  directoryLookup := allocated.directoryLookup
  target := false

def deviceDirectory (allocated : DeviceAllocations) (fuel : Nat) (s : ObjectManager) (deviceName : List WChar) :
    Option (Status × Option Nat × ObjectManager) :=
  linkDirectory allocated.asLink fuel s deviceName (lastBackslash deviceName)

def iopCreateVpb (allocated : Bool) (s : ObjectManager) (deviceObject : Nat) : Status × ObjectManager :=
  match obCreateObject allocated s ioVpbObjectType [] with
  | (status, none, s) => (status, s)
  | (_, some vpb, s) => (.success, storePointer s vpb deviceObject [])

/-- What IoCreateDevice does behind the insertion: the delete routine of a device dereferences its driver. -/
def initializeDevice (checked : Bool) (allocated : DeviceAllocations) (fuel : Nat) (s : ObjectManager)
    (device driverObject : Nat) (deviceType : BitVec 32) : Option (Status × ObjectManager) :=
  let s := storePointer s device driverObject []
  if deviceType = deviceTypeDisk then
    match iopCreateVpb allocated.vpb s device with
    | (status, s) =>
      if !status.isSuccess then (obpDeleteObjectInternal checked fuel s device).map fun r => (status, r.2)
      else some (status, s.obReferenceObject driverObject)
  else some (.success, s.obReferenceObject driverObject)

/-- What is no directory is overwritten by the insertion. -/
def ioCreateDevice (checked : Bool) (allocated : DeviceAllocations) (fuel : Nat) (s : ObjectManager)
    (driverObject : Nat) (deviceName : Option (List WChar)) (deviceType : BitVec 32) : Option (Status × ObjectManager) :=
  let relativeDeviceName := deviceName.map fun name => name.drop (lastBackslash name + 1)
  match obCreateObject allocated.object s .device (relativeDeviceName.getD []) with
  | (status, none, s) => some (status, s)
  | (_, some device, s) =>
    match deviceName with
    | none => initializeDevice checked allocated fuel s device driverObject deviceType
    | some deviceName => do
      let (status, directory, s) ← deviceDirectory allocated fuel s deviceName
      match directory with
      | none =>
        let (_, s) ← obpDeleteObjectInternal checked fuel s device
        some (status, s)
      | some directory =>
        if (s.header directory).objectType ≠ .directory then none
        else do
          let s ← obDereferenceObject checked fuel (obInsertObject s directory device) directory
          initializeDevice checked allocated fuel s device driverObject deviceType

structure FileAllocations where
  object : Bool
  lookup : Nat → Bool
  irp : Bool

/-- What the driver of a device makes of IRP_CREATE: the status it returns, the one in the status block, and what it does
to the objects, given the device and the file. -/
structure CreateAnswer where
  status : BitVec 32
  ioStatus : BitVec 32
  effect : Nat → Nat → ObjectManager → ObjectManager

def CreateAnswer.final (answer : CreateAnswer) : BitVec 32 :=
  if succeeded answer.status && !succeeded answer.ioStatus then answer.ioStatus else answer.status

/-- ParsePacket is on the stack, at an address with high bits. What is no device is taken for one. -/
def ioCreateFile (checked : Bool) (allocated : FileAllocations) (devices : Devices Nat) (answer : CreateAnswer)
    (parsePacket : BitVec 32) (fuel : Nat) (s : ObjectManager) (fileName : List WChar) :
    Option (BitVec 32 × ObjectManager) :=
  match obCreateObject allocated.object s ioFileObjectType fileName with
  | (status, none, s) => some (status.code, s)
  | (_, some file, s) => do
    let (status, thisDeviceObject, s) ← referenceByName allocated.lookup fuel s (rtlInitUnicodeString fileName)
      (some .device) .kernelMode parsePacket
    match thisDeviceObject with
    | none =>
      let (_, s) ← obpDeleteObjectInternal checked fuel s file
      some (status.code, s)
    | some thisDeviceObject =>
      if (s.header thisDeviceObject).objectType ≠ .device then none
      else do
        let deviceObject ← ioGetAttachedDevice devices fuel thisDeviceObject
        let s ← obDereferenceObject checked fuel (s.obReferenceObject deviceObject) thisDeviceObject
        let s := storePointer s file deviceObject []
        if !allocated.irp then
          let (_, s) ← obpDeleteObjectInternal checked fuel s file
          let s ← obDereferenceObject checked fuel s deviceObject
          some (Status.insufficientResources.code, s)
        else
          let s := answer.effect deviceObject file s
          if !succeeded answer.final then
            let (_, s) ← obpDeleteObjectInternal checked fuel s file
            let s ← obDereferenceObject checked fuel s deviceObject
            some (answer.final, s)
          else some (Status.success.code, s)

/-- What DriverEntry returns, and what it does to the objects, given its driver object. -/
structure DriverEntry where
  status : BitVec 32
  effect : Nat → ObjectManager → ObjectManager

def iopCreateDriverObject (checked allocated : Bool) (driverEntry : DriverEntry) (ioDriverDirectory fuel : Nat)
    (s : ObjectManager) (driverName : List WChar) : Option (BitVec 32 × ObjectManager) :=
  match wcsrchr (driverName.drop 1) backslash with
  | none => some (Status.invalidParameter.code, s)
  | some rel =>
    match obCreateObject allocated s ioDriverObjectType (driverName.drop (rel + 2)) with
    | (status, none, s) => some (status.code, s)
    | (_, some driver, s) =>
      let s := driverEntry.effect driver (obInsertObject s ioDriverDirectory driver)
      if !succeeded driverEntry.status then
        (obpDeleteObjectInternal checked fuel s driver).map fun r => (driverEntry.status, r.2)
      else some (Status.success.code, s)

inductive Creation
  | symbolicLink (allocated : LinkAllocations) (symlinkName targetPath : List WChar)
  | device (allocated : DeviceAllocations) (driverObject : Nat) (deviceName : Option (List WChar)) (deviceType : BitVec 32)
  | file (allocated : FileAllocations) (devices : Devices Nat) (answer : CreateAnswer) (parsePacket : BitVec 32)
      (fileName : List WChar)
  | driver (allocated : Bool) (driverEntry : DriverEntry) (ioDriverDirectory : Nat) (driverName : List WChar)

def create (checked : Bool) (fuel : Nat) (s : ObjectManager) : Creation → Option (BitVec 32 × ObjectManager)
  | .symbolicLink allocated symlinkName targetPath =>
    (obCreateSymbolicLink checked allocated fuel s symlinkName targetPath).map fun r => (r.1.code, r.2)
  | .device allocated driverObject deviceName deviceType =>
    (ioCreateDevice checked allocated fuel s driverObject deviceName deviceType).map fun r => (r.1.code, r.2)
  | .file allocated devices answer parsePacket fileName =>
    ioCreateFile checked allocated devices answer parsePacket fuel s fileName
  | .driver allocated driverEntry ioDriverDirectory driverName =>
    iopCreateDriverObject checked allocated driverEntry ioDriverDirectory fuel s driverName

end Gr8os.Io
