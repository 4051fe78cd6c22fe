import Gr8os.Lib.LittleEndian

/-! The headers of an image in memory, found as the loader's macros find them. -/
namespace Gr8os.Ldr

open LittleEndian

/-- The places of the data directory that the loader uses. -/
inductive ImageDirectoryEntry
  | exports
  | basereloc
deriving DecidableEq, Repr

def ImageDirectoryEntry.index : ImageDirectoryEntry → BitVec 32
  | exports => 0
  | basereloc => 5

def eLfanew (m : Memory) (image : Address) : BitVec 32 := ulong m (image + 0x3C)

/-- The signature and the file header stand before the optional header. -/
def optionalHeader (m : Memory) (image : Address) : Address := eLfanew m image + image + 4 + 20

section fields

variable (m : Memory) (optHeader : Address)

def addressOfEntryPoint : BitVec 32 := ulong m (optHeader + 16)

def imageBase : BitVec 32 := ulong m (optHeader + 28)

def sizeOfImage : BitVec 32 := ulong m (optHeader + 56)

def directoryAddress (entry : ImageDirectoryEntry) : BitVec 32 := ulong m (optHeader + 96 + 8 * entry.index)

def directorySize (entry : ImageDirectoryEntry) : BitVec 32 := ulong m (optHeader + 96 + 8 * entry.index + 4)

end fields

def imageFirstRelocation (m : Memory) (image : Address) : Address :=
  directoryAddress m (optionalHeader m image) .basereloc + image

end Gr8os.Ldr
