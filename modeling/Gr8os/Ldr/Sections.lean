import Gr8os.Ldr.Image

/-! The loop of MmLoadSystemImage that reads an image's sections from its file. The loop reads the section table
from the image's first page each time, so that a section read over it changes what follows. -/
namespace Gr8os.Ldr

open LittleEndian

def pageSize : BitVec 32 := 4096

def alignUp (x align : BitVec 32) : BitVec 32 :=
  if x &&& (align - 1) ≠ 0 then (x &&& ~~~(align - 1)) + align else x

/-- The pointers that MiGetHeaders computes. -/
structure ImageHeaders where
  fileHeader : Address
  optHeader : Address
  sectHeader : Address
deriving DecidableEq, Repr

def miGetHeaders (m : Memory) (image : Address) : ImageHeaders :=
  let fileHeader := image + eLfanew m image + 4
  ⟨fileHeader, fileHeader + 20, fileHeader + 20 + 224⟩

section fields

variable (m : Memory) (h : ImageHeaders) (i : BitVec 32)

def numberOfSections : BitVec 16 := ushort m (h.fileHeader + 2)

def sectionHeader : Address := h.sectHeader + 40 * i

def virtualSize : BitVec 32 := ulong m (sectionHeader h i + 8)

def sectionAddress : BitVec 32 := ulong m (sectionHeader h i + 12)

def sizeOfRawData : BitVec 32 := ulong m (sectionHeader h i + 16)

def pointerToRawData : BitVec 32 := ulong m (sectionHeader h i + 20)

/-- The distance to the next section, or to the image's end from the last one, unless the virtual size is larger. -/
def sectionSize : BitVec 32 :=
  let size :=
    if i = (numberOfSections m h).setWidth 32 - 1 then sizeOfImage m h.optHeader - sectionAddress m h i
    else sectionAddress m h (i + 1) - sectionAddress m h i
  if virtualSize m h i > size then virtualSize m h i else size

end fields

/-- What IoReadFile answers to an offset and a size: its status and IoStatus.Information. -/
structure FileReads where
  status : BitVec 32 → BitVec 32 → Bool
  information : BitVec 32 → BitVec 32 → Nat
  bounded : ∀ offset size, information offset size ≤ size.toNat

/-- A file, and how reads of it end. -/
structure ImageFile where
  byte : Nat → BitVec 8
  reads : FileReads

/-- A read stores so many bytes of the file in a buffer. -/
def storeBytes (m : Memory) (buffer : Address) (count : Nat) (byte : Nat → BitVec 8) : Memory :=
  fun x => if Covers buffer count x then byte (x - buffer).toNat else m x

/-- One read of the loop. -/
structure SectionRead where
  buffer : Address
  offset : BitVec 32
  size : BitVec 32
deriving DecidableEq, Repr

def sectionRead (m : Memory) (image : Address) (h : ImageHeaders) (i : BitVec 32) : SectionRead :=
  ⟨image + sectionAddress m h i, pointerToRawData m h i, sectionSize m h i⟩

namespace SectionRead

variable (r : SectionRead) (file : ImageFile)

def information : Nat := file.reads.information r.offset r.size

def succeeds : Bool := file.reads.status r.offset r.size

/-- The loop goes on behind the read: a checked build asserts that it was a full one. -/
def goesOn (checked : Bool) : Bool := (!checked || r.information file == r.size.toNat) && r.succeeds file

def fileByte (k : Nat) : BitVec 8 := file.byte (r.offset.toNat + k)

def store (m : Memory) : Memory := storeBytes m r.buffer (r.information file) (r.fileByte file)

end SectionRead

inductive SectionsEnd
  | loaded
  | failed
  | asserted
deriving DecidableEq, Repr

/-- The reads of the loop, the memory that they leave and how the loop ends. -/
structure SectionsRun where
  reads : List SectionRead
  memory : Memory
  outcome : SectionsEnd

/-- The loop from a section on; as many rounds as a 16-bit count allows. -/
def sectionLoop (checked : Bool) (file : ImageFile) (image : Address) (h : ImageHeaders) :
    Nat → BitVec 32 → Memory → SectionsRun
  | 0, _, m => ⟨[], m, .loaded⟩
  | rounds + 1, i, m =>
    if i < (numberOfSections m h).setWidth 32 then
      let r := sectionRead m image h i
      let m' := r.store file m
      if checked && r.information file != r.size.toNat then ⟨[r], m', .asserted⟩
      else if !r.succeeds file then ⟨[r], m', .failed⟩
      else
        let rest := sectionLoop checked file image h rounds (i + 1) m'
        ⟨r :: rest.reads, rest.memory, rest.outcome⟩
    else ⟨[], m, .loaded⟩

def loadSections (checked : Bool) (file : ImageFile) (image : Address) (m : Memory) : SectionsRun :=
  sectionLoop checked file image (miGetHeaders m image) 0x10000 0 m

def alignedImageSize (m : Memory) (image : Address) : BitVec 32 :=
  alignUp (sizeOfImage m (miGetHeaders m image).optHeader) pageSize

end Gr8os.Ldr
