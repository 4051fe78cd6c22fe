import Gr8os.Ldr.Image
import Gr8os.Ldr.Relocation
import Gr8os.Ldr.Strings

/-! The two lookups in a module's export directory, and where they agree. -/
namespace Gr8os.Ldr

open LittleEndian Bytes

section directory

variable (m : Memory) (base : Address)

def exportDirectory : Address := base + directoryAddress m (optionalHeader m base) .exports

def sizeOfExport : BitVec 32 := directorySize m (optionalHeader m base) .exports

def exportBase : BitVec 32 := ulong m (exportDirectory m base + 16)

def numberOfFunctions : BitVec 32 := ulong m (exportDirectory m base + 20)

def numberOfNames : BitVec 32 := ulong m (exportDirectory m base + 24)

/-- The three tables of the directory. -/
def addressOfFunctions (i : BitVec 32) : BitVec 32 :=
  ulong m (base + ulong m (exportDirectory m base + 28) + 4 * i)

def addressOfNames (i : BitVec 32) : BitVec 32 := ulong m (base + ulong m (exportDirectory m base + 32) + 4 * i)

def addressOfNameOrdinals (i : BitVec 32) : BitVec 16 :=
  ushort m (base + ulong m (exportDirectory m base + 36) + 2 * i)

def ldrGetProcedureAddressByOrdinal (ordinal : BitVec 16) : Address :=
  if exportDirectory m base = base then 0
  else
    let index := ordinal.setWidth 32 - exportBase m base
    if index < numberOfFunctions m base then base + addressOfFunctions m base index else 0

def exportName (i : BitVec 32) : Option (List Char8) := stringAt m (base + addressOfNames m base i)

def exportAddress (i : BitVec 32) : Address :=
  base + addressOfFunctions m base ((addressOfNameOrdinals m base i).setWidth 32)

/-- The loop over the names: nothing if a name does not end, else what it finds among so many from an index on. -/
def findName (functionName : List Char8) : Nat → BitVec 32 → Option (Option Address)
  | 0, _ => some none
  | n + 1, i =>
    match exportName m base i with
    | none => none
    | some name => if strcmp name functionName = 0 then some (some (exportAddress m base i)) else findName functionName n (i + 1)

/-- The test for export forwarding. -/
def Forwarder (addr : Address) : Prop :=
  exportDirectory m base ≤ addr ∧ addr < exportDirectory m base + sizeOfExport m base

instance (addr : Address) : Decidable (Forwarder m base addr) := inferInstanceAs (Decidable (_ ∧ _))

end directory

structure LdrModule where
  base : Address
  moduleName : List WChar
deriving DecidableEq, Repr

/-- The loop over PsLoadedModuleList. -/
def ldrLookupModule (moduleName : List WChar) (psLoadedModuleList : List LdrModule) : Option LdrModule :=
  psLoadedModuleList.find? fun module => wcsicmp moduleName module.moduleName = 0

/-- How far the writes of one call go: bytes of ModName, characters of wmod. -/
structure Extents where
  modName : Nat
  wmod : Nat
deriving DecidableEq, Repr

/-- What a lookup returns, and the extents of the calls that built a module's name. -/
structure Lookup where
  address : Address
  extents : List Extents
deriving DecidableEq, Repr

/-- What the calls find: whether the heap has room and what the stack holds, by their depth. -/
structure Surroundings where
  heap : Nat → Bool
  stack : Nat → Buffer

def kernelName : List Char8 := [0x6B, 0x65, 0x72, 0x6E, 0x65, 0x6C]

def sysSuffix : List Char8 := [0x2E, 0x73, 0x79, 0x73]

def dot : Char8 := 0x2E

/-- ModName after the copies, and where its bytes end. -/
def forwarderModName (stack : Buffer) (tname : List Char8) : Option (Buffer × Nat) :=
  let copied := strcpy stack 0 tname
  if stricmp tname kernelName ≠ 0 then strcat copied sysSuffix else some (copied, tname.length)

/-- Nothing where a search for a terminator or the recursion does not end. -/
def ldrGetProcedureAddressByName (m : Memory) (modules : List LdrModule) (around : Surroundings) :
    Nat → Nat → Address → Option (List Char8) → Option Lookup
  | 0, _, _, _ => none
  | _ + 1, _, base, none => some ⟨base + addressOfEntryPoint m (optionalHeader m base), []⟩
  | fuel + 1, depth, base, some functionName =>
    if exportDirectory m base = base then some ⟨0, []⟩
    else
      match findName m base functionName (numberOfNames m base).toNat 0 with
      | none => none
      | some none => some ⟨0, []⟩
      | some (some addr) =>
        if ¬Forwarder m base addr then some ⟨addr, []⟩
        else
          match stringAt m addr with
          | none => none
          | some forwarder =>
            if !around.heap depth then some ⟨0, []⟩
            else
              match strchr dot forwarder with
              | none => some ⟨0, []⟩
              | some (tname, function) =>
                match forwarderModName (around.stack depth) tname with
                | none => none
                | some (modName, written) =>
                  match ZeroTerminated.text addressSpace modName with
                  | none => none
                  | some name =>
                    match ldrLookupModule (mbstowcs name) modules with
                    | none => some ⟨0, [⟨written, name.length + 1⟩]⟩
                    | some module =>
                      (ldrGetProcedureAddressByName m modules around fuel (depth + 1) module.base (some function)).map
                        fun found => ⟨found.address, ⟨written, name.length + 1⟩ :: found.extents⟩

open LittleEndian Bytes

/-- Every name ends and occurs once, every ordinal stands in the table of functions and is a 16-bit number, and
the directory lies in the address space. -/
structure WellFormedExports (m : Memory) (base : Address) : Prop where
  present : exportDirectory m base ≠ base
  named : ∀ i < (numberOfNames m base).toNat, ∃ name, exportName m base (BitVec.ofNat 32 i) = some name
  distinct : ∀ i j, i < (numberOfNames m base).toNat → j < (numberOfNames m base).toNat →
    exportName m base (BitVec.ofNat 32 i) = exportName m base (BitVec.ofNat 32 j) → i = j
  ordinals : ∀ i < (numberOfNames m base).toNat,
    (addressOfNameOrdinals m base (BitVec.ofNat 32 i)).toNat < (numberOfFunctions m base).toNat
  numbered : (exportBase m base).toNat + (numberOfFunctions m base).toNat ≤ 0x10000
  ends : (exportDirectory m base).toNat + (sizeOfExport m base).toNat < 2 ^ 32

/-- The ordinal under which an export of the name table is imported. -/
def exportOrdinal (m : Memory) (base : Address) (i : BitVec 32) : BitVec 16 :=
  (exportBase m base + (addressOfNameOrdinals m base i).setWidth 32).setWidth 16

def InsideDirectory (m : Memory) (base addr : Address) : Prop :=
  (exportDirectory m base).toNat ≤ addr.toNat ∧ addr.toNat < (exportDirectory m base).toNat + (sizeOfExport m base).toNat

instance (m : Memory) (base addr : Address) : Decidable (InsideDirectory m base addr) :=
  inferInstanceAs (Decidable (_ ∧ _))

/-- Both lookups of an export return the same address, and it is not one of the directory. -/
def LookupsAgree (m : Memory) (modules : List LdrModule) (around : Surroundings) (base : Address) (i : Nat) : Prop :=
  ∀ name, exportName m base (BitVec.ofNat 32 i) = some name →
    ∃ fuel found, ldrGetProcedureAddressByName m modules around fuel 0 base (some name) = some found ∧
      ldrGetProcedureAddressByOrdinal m base (exportOrdinal m base (BitVec.ofNat 32 i)) = found.address ∧
      ¬InsideDirectory m base found.address

section agreement

variable {m : Memory} {modules : List LdrModule} {around : Surroundings} {base : Address} {name : List Char8} {k : Nat}

/-- The loop over the names stops at the first that is the one looked for. -/
theorem findName_found {n i : Nat} (low : i ≤ k) (high : k < i + n)
    (here : ∃ s, exportName m base (BitVec.ofNat 32 k) = some s ∧ strcmp s name = 0)
    (before : ∀ j, i ≤ j → j < k → ∃ s, exportName m base (BitVec.ofNat 32 j) = some s ∧ strcmp s name ≠ 0) :
    findName m base name n (BitVec.ofNat 32 i) = some (some (exportAddress m base (BitVec.ofNat 32 k))) := by
  induction n generalizing i with
  | zero => omega
  | succ n ih =>
    rcases Nat.eq_or_lt_of_le low with rfl | later
    · obtain ⟨s, names, equal⟩ := here
      unfold findName
      rw [names]
      exact if_pos equal
    · obtain ⟨s, names, differs⟩ := before i (Nat.le_refl _) later
      have next : BitVec.ofNat 32 i + 1 = BitVec.ofNat 32 (i + 1) := (BitVec.ofNat_add i 1).symm
      have rest := ih later (by omega) fun j least less => before j (by omega) less
      unfold findName
      rw [names]
      exact (if_neg differs).trans (next ▸ rest)

theorem WellFormedExports.findName (ok : WellFormedExports m base) (less : k < (numberOfNames m base).toNat)
    (named : exportName m base (BitVec.ofNat 32 k) = some name) :
    findName m base name (numberOfNames m base).toNat 0 = some (some (exportAddress m base (BitVec.ofNat 32 k))) := by
  have short : name.length < 2 ^ 32 := (ZeroTerminated.text_some named).1
  refine findName_found (i := 0) (Nat.zero_le k) (by omega) ⟨name, named, (strcmp_eq_zero short short).mpr rfl⟩ ?_
  intro j _ earlier
  obtain ⟨s, names⟩ := ok.named j (by omega)
  refine ⟨s, names, fun equal => ?_⟩
  have same : s = name := (strcmp_eq_zero (ZeroTerminated.text_some names).1 short).mp equal
  have index := ok.distinct j k (by omega) less (by rw [names, named, same])
  omega

/-- The lookup by ordinal reads the entry that the name's ordinal selects. -/
theorem WellFormedExports.byOrdinal (ok : WellFormedExports m base) (less : k < (numberOfNames m base).toNat) :
    ldrGetProcedureAddressByOrdinal m base (exportOrdinal m base (BitVec.ofNat 32 k)) =
      exportAddress m base (BitVec.ofNat 32 k) := by
  have selected := ok.ordinals k less
  have limit := ok.numbered
  unfold ldrGetProcedureAddressByOrdinal exportOrdinal exportAddress
  rw [if_neg ok.present]
  generalize addressOfNameOrdinals m base (BitVec.ofNat 32 k) = ordinal at selected ⊢
  generalize exportBase m base = first at limit ⊢
  have index : ((first + ordinal.setWidth 32).setWidth 16).setWidth 32 - first = ordinal.setWidth 32 := by
    have whole : ((first + ordinal.setWidth 32).setWidth 16).setWidth 32 = first + ordinal.setWidth 32 := by
      bv_omega
    rw [whole, BitVec.add_comm, BitVec.add_sub_cancel]
  rw [index]
  exact if_pos (by bv_omega)

theorem insideDirectory_iff (ends : (exportDirectory m base).toNat + (sizeOfExport m base).toNat < 2 ^ 32) (addr : Address) :
    InsideDirectory m base addr ↔ Forwarder m base addr := by
  have sum : (exportDirectory m base + sizeOfExport m base).toNat =
      (exportDirectory m base).toNat + (sizeOfExport m base).toNat := by
    rw [BitVec.toNat_add, Nat.mod_eq_of_lt ends]
  unfold InsideDirectory Forwarder
  rw [BitVec.le_def, BitVec.lt_def, sum]

/-- The two lookups agree on an export if and only if it is not forwarded. -/
theorem lookupsAgree_iff (modules : List LdrModule) (around : Surroundings) (ok : WellFormedExports m base)
    (less : k < (numberOfNames m base).toNat) :
    LookupsAgree m modules around base k ↔ ¬Forwarder m base (exportAddress m base (BitVec.ofNat 32 k)) := by
  constructor
  · intro agree forwarded
    obtain ⟨name, named⟩ := ok.named k less
    obtain ⟨fuel, found, _, same, outside⟩ := agree name named
    rw [ok.byOrdinal less] at same
    exact outside ((insideDirectory_iff ok.ends _).mpr (same ▸ forwarded))
  · intro direct name named
    refine ⟨1, ⟨exportAddress m base (BitVec.ofNat 32 k), []⟩, ?_, ok.byOrdinal less, ?_⟩
    · simp only [ldrGetProcedureAddressByName, if_neg ok.present, ok.findName less named, if_pos direct]
    · exact fun inside => direct ((insideDirectory_iff ok.ends _).mp inside)

end agreement

/-- A module at 0x400000 that exports f, at 0x402000, and g, which is forwarded to a.g. -/
def forwardingModule : Memory :=
  memoryOf [(0x40003C, 0x80), (0x4000F8, 0x1000), (0x4000FC, 0x60), (0x401010, 1), (0x401014, 2), (0x401018, 2),
    (0x40101C, 0x1028), (0x401020, 0x1030), (0x401024, 0x1038), (0x401028, 0x2000), (0x40102C, 0x1050),
    (0x401030, 0x1040), (0x401034, 0x1044), (0x401038, 0x10000), (0x401040, 0x66), (0x401044, 0x67),
    (0x401050, 0x672E61)]

/-- A heap with room and a stack of zeros. -/
def cleanSurroundings : Surroundings := ⟨fun _ => true, fun _ _ => 0⟩

theorem forwardingModule_wellFormed : WellFormedExports forwardingModule 0x400000 := by
  have names : (numberOfNames forwardingModule 0x400000).toNat = 2 := by decide
  have f : exportName forwardingModule 0x400000 (BitVec.ofNat 32 0) = some [0x66] := by decide
  have g : exportName forwardingModule 0x400000 (BitVec.ofNat 32 1) = some [0x67] := by decide
  have which : ∀ i < (numberOfNames forwardingModule 0x400000).toNat, i = 0 ∨ i = 1 := by omega
  refine ⟨by decide, fun i less => ?_, fun i j first second same => ?_, fun i less => ?_, by decide, by decide⟩
  · rcases which i less with rfl | rfl
    · exact ⟨_, f⟩
    · exact ⟨_, g⟩
  · rcases which i first with rfl | rfl <;> rcases which j second with rfl | rfl
    · rfl
    · exact absurd (f.symm.trans (same.trans g)) (by decide)
    · exact absurd (g.symm.trans (same.trans f)) (by decide)
    · rfl
  · rcases which i less with rfl | rfl <;> decide

theorem lookupsAgree_direct : LookupsAgree forwardingModule [] cleanSurroundings 0x400000 0 :=
  (lookupsAgree_iff [] cleanSurroundings forwardingModule_wellFormed (by decide)).mpr (by decide)

/-- The lookup by ordinal of a forwarded export returns the address of the forwarder string. -/
theorem lookups_disagree : WellFormedExports forwardingModule 0x400000 ∧
    ¬LookupsAgree forwardingModule [] cleanSurroundings 0x400000 1 := by
  refine ⟨forwardingModule_wellFormed, fun agree => ?_⟩
  have named : exportName forwardingModule 0x400000 (BitVec.ofNat 32 1) = some [0x67] := by decide
  obtain ⟨fuel, found, _, same, outside⟩ := agree [0x67] named
  have address : ldrGetProcedureAddressByOrdinal forwardingModule 0x400000
      (exportOrdinal forwardingModule 0x400000 (BitVec.ofNat 32 1)) = 0x401050 := by decide
  apply outside
  rw [← same, address]
  decide

end Gr8os.Ldr
