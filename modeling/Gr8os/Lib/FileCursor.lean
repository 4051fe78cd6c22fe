import Gr8os.Lib.Bytes

/-! Reading a file: each read goes on where the last one has ended, unless it names a place. -/
namespace FileCursor

open Bytes

/-- Where a file is read next, and the memory that it is read to. -/
structure Cursor where
  place : Nat
  memory : Buffer

structure Read where
  place : Option Nat
  buffer : Nat
  length : Nat
deriving DecidableEq, Repr

def Cursor.start (c : Cursor) (r : Read) : Nat := r.place.getD c.place

def Cursor.read (bytes : Nat → BitVec 8) (c : Cursor) (r : Read) : Cursor where
  place := c.start r + r.length
  memory := memcpy c.memory r.buffer bytes (c.start r) r.length

def total : List Read → Nat
  | [] => 0
  | r :: rs => r.length + total rs

/-- Reads that name no place, and whose buffers follow each other. -/
def Consecutive : Nat → List Read → Prop
  | _, [] => True
  | base, r :: rs => r.place = none ∧ r.buffer = base ∧ Consecutive (base + r.length) rs

/-- A file that is read in pieces is read as in one piece. -/
theorem reads_consecutive (bytes : Nat → BitVec 8) {base : Nat} {rs : List Read} (consecutive : Consecutive base rs)
    (c : Cursor) : rs.foldl (Cursor.read bytes) c =
      ⟨c.place + total rs, memcpy c.memory base bytes c.place (total rs)⟩ := by
  induction rs generalizing base c with
  | nil =>
    show c = ⟨c.place + 0, memcpy c.memory base bytes c.place 0⟩
    rw [memcpy_zero]
    rfl
  | cons r rs ih =>
    obtain ⟨unplaced, here, rest⟩ := consecutive
    have start : c.start r = c.place := by rw [Cursor.start, unplaced, Option.getD_none]
    have sum : total (r :: rs) = r.length + total rs := rfl
    rw [List.foldl_cons, ih rest, sum, ← memcpy_memcpy, ← Nat.add_assoc, Cursor.read, start, here]

end FileCursor
