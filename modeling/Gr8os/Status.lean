/-! Result codes shared by the kernel's components. -/
namespace Gr8os

inductive Status
  | success
  | finishParsing
  | reparse
  | alreadyFree
  | pending
  | unsuccessful
  | insufficientResources
  | accessDenied
  | notFound
  | invalidParameter
  | internalFault
  | inUse
  | invalidHandle
  | invalidFunction
  | partialCompletion
  | deletePending
  | endOfFile
  | invalidParameter2
  | cached
  | notSupported
  | noMediaInDevice
  | noMoreEntries
  | busy
  | deviceNotReady
  | datatypeMisalignment
deriving DecidableEq, Repr

def Status.code : Status → BitVec 32
  | success => 0x00000000
  | finishParsing => 0x00000004
  | reparse => 0x00000003
  | alreadyFree => 0x00000005
  | pending => 0x00000007
  | unsuccessful => 0xF0000001
  | insufficientResources => 0xF0000002
  | accessDenied => 0xF0000003
  | notFound => 0xF0000005
  | invalidParameter => 0xF0000006
  | internalFault => 0xF0000007
  | inUse => 0xF000000C
  | invalidHandle => 0xF000000D
  | invalidFunction => 0xF000000E
  | partialCompletion => 0xF000000B
  | deletePending => 0xF0000014
  | endOfFile => 0x80000001
  | invalidParameter2 => 0xF0000022
  | cached => 0x00000006
  | notSupported => 0xF000000F
  | noMediaInDevice => 0xF0000016
  | noMoreEntries => 0xF0000017
  | busy => 0xF0000011
  | deviceNotReady => 0xF000000A
  | datatypeMisalignment => 0xF0000010

/-- A status is a success when its code is not negative. -/
def Status.isSuccess (status : Status) : Bool := 0 ≤ status.code.toInt

/-- The same test on a word that a driver returned. -/
def succeeded (status : BitVec 32) : Bool := 0 ≤ status.toInt

end Gr8os
