import Gr8os.Lib.Run
import Mathlib.Data.BitVec

/-! The pages of the first megabyte: the search for a run of free pages. Its counters are bytes. -/
namespace Gr8os.Hal

inductive LowMegPage
  | free
  | allocated
  | reserved
deriving DecidableEq, Repr

/-- HalpLowMegBusyForDma. A byte is an index of the table. -/
abbrev BusyTable := BitVec 8 → LowMegPage

/-- The loop that looks for a busy page. Like the other loops it runs as long as there is fuel. -/
def findBusy (table : BusyTable) (stop : Nat) : Nat → BitVec 8 → Option Bool
  | 0, _ => none
  | fuel + 1, j =>
    if j.toNat < stop then
      if table j ≠ .free then some true else findBusy table stop fuel (j + 1)
    else some false

/-- The loop that marks the run. -/
def markAllocated (stop : Nat) : Nat → BitVec 8 → BusyTable → Option BusyTable
  | 0, _, _ => none
  | fuel + 1, j, table =>
    if j.toNat < stop then markAllocated stop fuel (j + 1) (Function.update table j .allocated) else some table

/-- The outer loop, from a page on. -/
def halAllocateFrom (pageCount : BitVec 8) (table : BusyTable) : Nat → BitVec 8 → Option (BitVec 8 × BusyTable)
  | 0, _ => none
  | fuel + 1, i =>
    if i.toNat < 256 then
      if table i = .free then
        (findBusy table (i.toNat + pageCount.toNat) fuel i).bind fun busy =>
          if !busy then (markAllocated (i.toNat + pageCount.toNat) fuel i table).map fun marked => (i, marked)
          else halAllocateFrom pageCount table fuel (i + (pageCount - 1) + 1)
      else halAllocateFrom pageCount table fuel (i + 1)
    else some (0, table)

def halAllocatePhysicalLowMegPages (pageCount : BitVec 8) (table : BusyTable) (fuel : Nat) :
    Option (BitVec 8 × BusyTable) :=
  halAllocateFrom pageCount table fuel 0

inductive BugCheck
  | halFreeingInvalidPages (startPage pageCount : BitVec 8)
  | halFreeingReservedPages (i startPage pageCount : BitVec 8)
  | halFreeingAlreadyFreePages (i startPage pageCount : BitVec 8)
deriving DecidableEq, Repr

/-- The loop of HalFreePhysicalLowMegPages. The run ends below page 256, so that its counter does not wrap. -/
def freePages (startPage pageCount : BitVec 8) : Nat → BitVec 8 → BusyTable → Except BugCheck BusyTable
  | 0, _, table => .ok table
  | left + 1, i, table =>
    match table i with
    | .reserved => .error (.halFreeingReservedPages i startPage pageCount)
    | .free => .error (.halFreeingAlreadyFreePages i startPage pageCount)
    | .allocated => freePages startPage pageCount left (i + 1) (Function.update table i .free)

def halFreePhysicalLowMegPages (table : BusyTable) (startPage pageCount : BitVec 8) : Except BugCheck BusyTable :=
  if startPage.toNat + pageCount.toNat ≥ 256 then .error (.halFreeingInvalidPages startPage pageCount)
  else freePages startPage pageCount pageCount.toNat startPage table

end Gr8os.Hal
