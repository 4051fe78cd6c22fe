import Gr8os.Lib.Run
import Mathlib.Algebra.Group.Nat.Defs

/-! The i8042 keyboard driver: the interrupt handler stores characters in the buffer, reads take them from it. Both
use one position, up to which the buffer is full. -/
namespace Gr8os.Keyboard

open Runs

structure KeyboardStatusByte where
  shift : Bool := false
  rightShift : Bool := false
  ctrl : Bool := false
  alt : Bool := false
  numLock : Bool := false
  capsLock : Bool := false
  scrollLock : Bool := false
deriving DecidableEq, Repr

structure KeyboardIndicators where
  numLock : Bool := false
  capsLock : Bool := false
  scrollLock : Bool := false
deriving DecidableEq, Repr

def kbdBufferSize : BitVec 32 := 256

def keybdAsciiCodes : List (BitVec 8) :=
  [0, 0, 0x31, 0x32, 0x33, 0x34, 0x35, 0x36, 0x37, 0x38, 0x39, 0x30, 0x2D, 0x3D, 0, 0,
    0x71, 0x77, 0x65, 0x72, 0x74, 0x79, 0x75, 0x69, 0x6F, 0x70, 0x5B, 0x5D, 0x0A, 0,
    0x61, 0x73, 0x64, 0x66, 0x67, 0x68, 0x6A, 0x6B, 0x6C, 0x3B, 0x27, 0x60, 0,
    0x5C, 0x7A, 0x78, 0x63, 0x76, 0x62, 0x6E, 0x6D, 0x2C, 0x2E, 0x2F, 0, 0x2A, 0,
    0x20, 0, 0, 0, 0, 0, 0, 0, 0, 0, 0, 0, 0, 0, 0x37, 0x38, 0x39, 0x2D, 0x34, 0x35,
    0x36, 0x2B, 0x31, 0x32, 0x33, 0x30, 0x2E, 0, 0]

def keybdAsciiCodesShifted : List (BitVec 8) :=
  [0, 0, 0x21, 0x40, 0x23, 0x24, 0x25, 0x5E, 0x26, 0x2A, 0x28, 0x29, 0x5F, 0x2B, 0, 0,
    0x51, 0x57, 0x45, 0x52, 0x54, 0x59, 0x55, 0x49, 0x4F, 0x50, 0x7B, 0x7D, 0x0A, 0,
    0x41, 0x53, 0x44, 0x46, 0x47, 0x48, 0x4A, 0x4B, 0x4C, 0x3A, 0x22, 0x7E, 0,
    0x7C, 0x5A, 0x58, 0x43, 0x56, 0x42, 0x4E, 0x4D, 0x3C, 0x3E, 0x3F, 0, 0x2A, 0,
    0x20, 0, 0, 0, 0, 0, 0, 0, 0, 0, 0, 0, 0, 0, 0x37, 0x38, 0x39, 0x2D, 0x34, 0x35,
    0x36, 0x2B, 0x31, 0x32, 0x33, 0x30, 0x2E, 0, 0]

/-- The driver, the reads that wait, by their lengths, and what has been stored and returned so far. The buffer is
what the memory holds from KeybdCyclicBuffer on. -/
structure Keybd where
  keybdStatusByte : KeyboardStatusByte
  keybdIndicators : KeyboardIndicators
  keybdCyclicBuffer : BitVec 32 → BitVec 8
  keybdCurrentPos : BitVec 32
  waiting : List (BitVec 32)
  stored : List (BitVec 8)
  returned : List (BitVec 8)

/-- Past the end of the tables there is no character. -/
def keybdScanCodeToAsciiCode (status : KeyboardStatusByte) (indicators : KeyboardIndicators) (scanCode : BitVec 8) :
    BitVec 8 :=
  let shifted := if indicators.capsLock then !status.shift else status.shift
  (if shifted then keybdAsciiCodesShifted else keybdAsciiCodes).getD scanCode.toNat 0

/-- What a key does to the status byte and to the indicators. The codes 0xE0 and 0xE1 are no cases: bit 7 is clear. -/
def keyPressed (status : KeyboardStatusByte) (indicators : KeyboardIndicators) (scanCode : BitVec 8) (up : Bool) :
    KeyboardStatusByte × KeyboardIndicators :=
  if scanCode = 42 then ({ status with shift := !up, rightShift := false }, indicators)
  else if scanCode = 54 then ({ status with shift := !up, rightShift := !up }, indicators)
  else if scanCode = 0x1D then ({ status with ctrl := !up }, indicators)
  else if scanCode = 56 then ({ status with alt := !up }, indicators)
  else if scanCode = 69 then ({ status with numLock := !up }, { indicators with numLock := !indicators.numLock })
  else if scanCode = 58 then ({ status with capsLock := !up }, { indicators with capsLock := !indicators.capsLock })
  else if scanCode = 70 then
    ({ status with scrollLock := !up }, { indicators with scrollLock := !indicators.scrollLock })
  else (status, indicators)

/-- A character goes behind the position, or to the start of the buffer if that is at its end. -/
def Keybd.store (s : Keybd) (asciiCode : BitVec 8) : Keybd :=
  let pos := (if s.keybdCurrentPos = kbdBufferSize - 1 then -1 else s.keybdCurrentPos) + 1
  { s with
    keybdCurrentPos := pos
    keybdCyclicBuffer := fun i => if i = pos then asciiCode else s.keybdCyclicBuffer i
    stored := s.stored ++ [asciiCode] }

/-- Ctrl, Alt and Enter reboot the machine. A key that is let go stores its character too. -/
def keybdIrq1Interrupt (s : Keybd) (port : BitVec 8) : Option Keybd :=
  let up := port.getLsbD 7
  let scanCode := port &&& 0x7F
  if scanCode = 28 ∧ s.keybdStatusByte.ctrl = true ∧ s.keybdStatusByte.alt = true then none
  else
    let pressed := keyPressed s.keybdStatusByte s.keybdIndicators scanCode up
    let asciiCode := keybdScanCodeToAsciiCode pressed.1 pressed.2 scanCode
    some ({ s with keybdStatusByte := pressed.1, keybdIndicators := pressed.2 }.store asciiCode)

/-- What KeybdSynchPerformRead puts into the request's buffer. -/
def Keybd.readData (s : Keybd) (nBytesRequested : BitVec 32) : List (BitVec 8) :=
  (List.range nBytesRequested.toNat).map fun i => s.keybdCyclicBuffer (s.keybdCurrentPos - BitVec.ofNat 32 i)

def keybdSynchPerformRead (s : Keybd) (nBytesRequested : BitVec 32) : Keybd :=
  { s with
    keybdCurrentPos := s.keybdCurrentPos - nBytesRequested
    returned := s.returned ++ s.readData nBytesRequested }

/-- There are not enough characters, as signed integers tell it. -/
def Keybd.short (s : Keybd) (nBytesRequested : BitVec 32) : Bool := s.keybdCurrentPos.slt (nBytesRequested - 1)

inductive KeybdOp
  | irq1 (port : BitVec 8)
  | read (nBytesRequested : BitVec 32)
  | wake (i : Nat)
  | setIndicators (indicators : KeyboardIndicators)
deriving DecidableEq, Repr

/-- The lock is held with interrupts off, so what a read does under it is one step. `checked` tells a build whose
assertions stop the machine. -/
def keybdStep (checked : Bool) (s : Keybd) : KeybdOp → Option Keybd
  | .irq1 port => keybdIrq1Interrupt s port
  | .read n => some (if s.short n then { s with waiting := s.waiting ++ [n] } else keybdSynchPerformRead s n)
  | .wake i => s.waiting[i]?.bind fun n =>
    if checked && s.keybdCurrentPos.slt 0 then none
    else some (if s.short n then s else keybdSynchPerformRead { s with waiting := s.waiting.eraseIdx i } n)
  | .setIndicators indicators => some { s with keybdIndicators := indicators }

/-- DriverEntry, over memory and a status byte in any state. -/
def driverEntry (status : KeyboardStatusByte) (memory : BitVec 32 → BitVec 8) : Keybd where
  keybdStatusByte := { status with alt := false, ctrl := false, shift := false }
  keybdIndicators := {}
  keybdCyclicBuffer := memory
  keybdCurrentPos := -1
  waiting := []
  stored := []
  returned := []

end Gr8os.Keyboard
