import Mathlib.Data.BitVec
import Gr8os.Lib.Bytes
import Gr8os.Lib.LittleEndian
import Gr8os.Lib.ZeroTerminated

/-! The string functions of the runtime that the loader uses. A string is the list of its characters; a search for
the terminator that goes round the whole address space does not end. -/
namespace Gr8os.Ldr

open LittleEndian Bytes ZeroTerminated

abbrev Char8 := BitVec 8

abbrev WChar := BitVec 16

def addressSpace : Nat := 2 ^ 32

/-- strlen of the bytes from an address on. -/
def strlen (s : Nat → Char8) : Option Nat := length addressSpace s

/-- The string at an address. -/
def stringAt (m : Memory) (a : Address) : Option (List Char8) :=
  text addressSpace fun k => m (a + BitVec.ofNat 32 k)

def upcase (ch : Char8) : Char8 := if 0x61 ≤ ch ∧ ch ≤ 0x7A then ch - 0x61 + 0x41 else ch

def upcasew (ch : WChar) : WChar := if 0x61 ≤ ch ∧ ch ≤ 0x7A then ch - 0x61 + 0x41 else ch

/-- The first difference that is not zero between characters at the same places. -/
def firstDifference {w : Nat} (fold : BitVec w → BitVec w) (s1 s2 : List (BitVec w)) : BitVec w :=
  (((s1.zip s2).map fun p => fold p.1 - fold p.2).find? fun d => d ≠ 0).getD 0

def strncmp (s1 s2 : List Char8) : BitVec 32 := (firstDifference id s1 s2).signExtend 32

def strnicmp (s1 s2 : List Char8) : BitVec 32 := (firstDifference upcase s1 s2).signExtend 32

def strcmp (s1 s2 : List Char8) : BitVec 32 :=
  let l1 := BitVec.ofNat 32 s1.length
  let l2 := BitVec.ofNat 32 s2.length
  if l1 ≠ l2 then l2 - l1 else strncmp s1 s2

def stricmp (s1 s2 : List Char8) : BitVec 32 :=
  let l1 := BitVec.ofNat 32 s1.length
  let l2 := BitVec.ofNat 32 s2.length
  if l1 ≠ l2 then l2 - l1 else strnicmp s1 s2

def wcsicmp (wstr wstr2 : List WChar) : BitVec 32 :=
  if BitVec.ofNat 32 wstr.length ≠ BitVec.ofNat 32 wstr2.length then -1
  else (firstDifference upcasew wstr wstr2).setWidth 32

/-- What stands before the first of a character, and after it. -/
def strchr (ch : Char8) : List Char8 → Option (List Char8 × List Char8)
  | [] => none
  | c :: s => if c = ch then some ([], s) else (strchr ch s).map fun p => (c :: p.1, p.2)

/-- strcpy copies as many characters as strlen counts, and no terminator. -/
def strcpy (s1 : Buffer) (start : Nat) (s2 : List Char8) : Buffer :=
  fill s1 start (start + s2.length) fun k => s2.getD (k - start) 0

/-- strcat writes where strlen finds the end of the first string; the second component is where its bytes end. -/
def strcat (s1 : Buffer) (s2 : List Char8) : Option (Buffer × Nat) :=
  (strlen s1).map fun n => (strcpy s1 n s2, n + s2.length)

/-- Characters are signed. -/
def mbstowcs (mbs : List Char8) : List WChar := mbs.map fun c => c.signExtend 16

section compare

variable {s1 s2 : List Char8}

theorem firstDifference_id {w : Nat} {s1 s2 : List (BitVec w)} (same : s1.length = s2.length) :
    firstDifference id s1 s2 = 0 ↔ s1 = s2 := by
  induction s1 generalizing s2 with
  | nil =>
    cases s2 with
    | nil => exact ⟨fun _ => rfl, fun _ => rfl⟩
    | cons b s2 => cases same
  | cons a s1 ih =>
    cases s2 with
    | nil => cases same
    | cons b s2 =>
      have rest := ih (Nat.succ.inj same)
      unfold firstDifference at rest ⊢
      by_cases equal : a = b
      · subst equal
        simpa using rest
      · have differs : ¬a - b = 0#w := by
          intro zero
          have back := BitVec.sub_add_cancel a b
          rw [zero, BitVec.zero_add] at back
          exact equal back.symm
        simp [differs, equal]

theorem strcmp_eq_zero (short1 : s1.length < 2 ^ 32) (short2 : s2.length < 2 ^ 32) : strcmp s1 s2 = 0 ↔ s1 = s2 := by
  unfold strcmp
  by_cases same : s1.length = s2.length
  · have extend : ∀ d : Char8, d.signExtend 32 = 0 ↔ d = 0 := by decide
    rw [if_neg (by simp [same]), strncmp, extend]
    exact firstDifference_id same
  · have lengths : BitVec.ofNat 32 s1.length ≠ BitVec.ofNat 32 s2.length := by
      intro equal
      have numbers := congrArg BitVec.toNat equal
      rw [BitVec.toNat_ofNat, BitVec.toNat_ofNat, Nat.mod_eq_of_lt short1, Nat.mod_eq_of_lt short2] at numbers
      exact same numbers
    rw [if_pos lengths]
    constructor
    · intro zero
      exact absurd zero (by bv_omega)
    · rintro rfl
      exact absurd rfl same

end compare

theorem strchr_none {ch : Char8} {s : List Char8} : strchr ch s = none ↔ ch ∉ s := by
  induction s with
  | nil => simp [strchr]
  | cons c s ih =>
    unfold strchr
    by_cases here : c = ch
    · simp [here]
    · simp [here, ih, Ne.symm here]

end Gr8os.Ldr
