import Gr8os.Ldr.Forwarders
import Gr8os.Lib.Run
import Gr8os.Status

/-! The loader's walk over the import descriptors of an image, whose thunks it replaces by addresses, and what the lookups of
exports read on the way: where that stays as it was, they find the same. -/
namespace Gr8os.Ldr

open LittleEndian

def statusInvalidFileForImage : BitVec 32 := 0xF0000012

/-- The characters that wbuff has room for. -/
def wbuffSize : Nat := 200

def firstImportDescriptor (m : Memory) (image optHeader : Address) : Address := ulong m (optHeader + 96 + 8 * 1) + image

section descriptor

variable (m : Memory) (importDescriptor : Address)

def importTimeDateStamp : BitVec 32 := ulong m (importDescriptor + 4)

def importName : BitVec 32 := ulong m (importDescriptor + 12)

def importFirstThunk : BitVec 32 := ulong m (importDescriptor + 16)

end descriptor

def imageSnapByOrdinal (thunk : BitVec 32) : Prop := thunk &&& 0x80000000 ≠ 0

instance (thunk : BitVec 32) : Decidable (imageSnapByOrdinal thunk) := inferInstanceAs (Decidable (_ ≠ _))

def imageOrdinal (thunk : BitVec 32) : BitVec 16 := thunk.setWidth 16

inductive Import
  | ordinal (o : BitVec 16)
  | name (n : List Char8)
deriving DecidableEq, Repr

/-- Where an import by name has its name: behind the hint. -/
def importedName (image thunk : BitVec 32) : Address := thunk + image + 2

/-- What a thunk asks for; nothing if its name does not end. -/
def importOf (m : Memory) (image thunk : BitVec 32) : Option Import :=
  if imageSnapByOrdinal thunk then some (.ordinal (imageOrdinal thunk))
  else (stringAt m (importedName image thunk)).map .name

/-- The lookup of an import in the module that has it; forwarders are followed so many times. -/
def importLookup (m : Memory) (modules : List LdrModule) (around : Surroundings) (nesting : Nat) (base : Address) :
    Import → Option Lookup
  | .ordinal o => some ⟨ldrGetProcedureAddressByOrdinal m base o, []⟩
  | .name n => ldrGetProcedureAddressByName m modules around nesting 0 base (some n)

instance (found : Lookup) : Decidable found.Fits :=
  inferInstanceAs (Decidable (∀ e ∈ found.extents, e.modName ≤ 100 ∧ e.wmod ≤ 200))

/-- Where the walk stands: at a descriptor, at a thunk that is bound to the exports of a module, or at an end. -/
inductive ImportWalk
  | descriptor (m : Memory) (importDescriptor : Address)
  | thunk (m : Memory) (importDescriptor base thunk : Address)
  | returned (m : Memory) (status : BitVec 32)
  | overrun (m : Memory)
  | endless (m : Memory)

section walk

variable (modules : List LdrModule) (around : Address → Surroundings) (nesting : Nat) (image : Address)

def importStep : ImportWalk → ImportWalk
  | .descriptor m d =>
    if importName m d = 0 then .returned m Status.success.code
    else
      match stringAt m (importName m d + image) with
      | none => .endless m
      | some modName =>
        if wbuffSize < modName.length + 1 then .overrun m
        else
          match ldrLookupModule (mbstowcs modName) modules with
          | none => .returned m Status.notFound.code
          | some module =>
            if importTimeDateStamp m d = -1 then .returned m Status.notSupported.code
            else .thunk m d module.base (importFirstThunk m d + image)
  | .thunk m d base t =>
    if ulong m t = 0 then .descriptor m (d + 20)
    else
      match (importOf m image (ulong m t)).bind (importLookup m modules (around t) nesting base) with
      | none => .endless m
      | some found =>
        if ¬found.Fits then .overrun m
        -- the thunk has been overwritten when its address is tested
        else if found.address = 0 then .returned (setUlong m t 0) statusInvalidFileForImage
        else .thunk (setUlong m t found.address) d base (t + 4)
  | .returned m status => .returned m status
  | .overrun m => .overrun m
  | .endless m => .endless m

/-- The walk that a call makes. -/
def ldrWalkImportDescriptor (m : Memory) (optHeader : Address) (n : Nat) : ImportWalk :=
  (importStep modules around nesting image)^[n] (.descriptor m (firstImportDescriptor m image optHeader))

end walk

open LittleEndian

section places

variable (P : Address → Prop) (m : Memory) (base : Address)

/-- The n bytes from an address on are such. -/
def BytesIn (a : Address) (n : Nat) : Prop := ∀ x, Covers a n x → P x

/-- So is every byte that a search for a terminator comes to. -/
def StringIn (a : Address) : Prop :=
  ∀ k < addressSpace, (∀ j < k, m (a + BitVec.ofNat 32 j) ≠ 0) → P (a + BitVec.ofNat 32 k)

structure ExportTablesIn : Prop where
  directory : BytesIn P (exportDirectory m base + 16) 24
  functions : ∀ i, i < numberOfFunctions m base → BytesIn P (base + ulong m (exportDirectory m base + 28) + 4 * i) 4
  names : ∀ i < (numberOfNames m base).toNat,
    BytesIn P (base + ulong m (exportDirectory m base + 32) + 4 * BitVec.ofNat 32 i) 4
  ordinals : ∀ i < (numberOfNames m base).toNat,
    BytesIn P (base + ulong m (exportDirectory m base + 36) + 2 * BitVec.ofNat 32 i) 2
  named : ∀ i < (numberOfNames m base).toNat, BytesIn P (base + ulong m (exportDirectory m base + 28) +
    4 * (addressOfNameOrdinals m base (BitVec.ofNat 32 i)).setWidth 32) 4
  strings : ∀ i < (numberOfNames m base).toNat, StringIn P m (base + addressOfNames m base (BitVec.ofNat 32 i))
  forwarders : ∀ i < (numberOfNames m base).toNat, Forwarder m base (exportAddress m base (BitVec.ofNat 32 i)) →
    StringIn P m (exportAddress m base (BitVec.ofNat 32 i))

/-- All that the lookups read of a module. -/
structure ExportsIn : Prop where
  header : BytesIn P (base + 0x3C) 4
  entry : BytesIn P (optionalHeader m base + 96 + 8 * ImageDirectoryEntry.exports.index) 8
  tables : exportDirectory m base ≠ base → ExportTablesIn P m base

end places

section agree

variable {P : Address → Prop} {m m' : Memory} {base a : Address} {modules : List LdrModule} {around : Surroundings}
  {fuel depth n k : Nat} {functionName : List Char8}

theorem ulong_agree (agree : ∀ x, P x → m' x = m x) (inside : BytesIn P a 4) : ulong m' a = ulong m a :=
  ulong_congr fun x covered => agree x (inside x covered)

theorem ushort_agree (agree : ∀ x, P x → m' x = m x) (inside : BytesIn P a 2) : ushort m' a = ushort m a :=
  ushort_congr fun x covered => agree x (inside x covered)

theorem stringAt_agree (agree : ∀ x, P x → m' x = m x) (inside : StringIn P m a) : stringAt m' a = stringAt m a :=
  ZeroTerminated.text_congr fun k less before => agree _ (inside k less before)

theorem BytesIn.part {o : Nat} (inside : BytesIn P a n) (room : o + k ≤ n) (small : n < 2 ^ 32) :
    BytesIn P (a + BitVec.ofNat 32 o) k :=
  fun x covered => inside x (covered.widen room small)

theorem ExportsIn.directory_same (reads : ExportsIn P m base) (agree : ∀ x, P x → m' x = m x) :
    exportDirectory m' base = exportDirectory m base ∧ sizeOfExport m' base = sizeOfExport m base := by
  have header : optionalHeader m' base = optionalHeader m base := by
    unfold optionalHeader eLfanew
    rw [ulong_agree agree reads.header]
  have address := reads.entry.part (o := 0) (k := 4) (by decide) (by decide)
  have size := reads.entry.part (o := 4) (k := 4) (by decide) (by decide)
  rw [BitVec.add_zero] at address
  unfold exportDirectory sizeOfExport directoryAddress directorySize
  rw [header, ulong_agree agree address]
  exact ⟨rfl, ulong_agree agree size⟩

/-- The fields of the directory. -/
theorem ExportTablesIn.field (tables : ExportTablesIn P m base) (agree : ∀ x, P x → m' x = m x) {o : Nat} (room : o + 4 ≤ 24) :
    ulong m' (exportDirectory m base + 16 + BitVec.ofNat 32 o) = ulong m (exportDirectory m base + 16 + BitVec.ofNat 32 o) :=
  ulong_agree agree (tables.directory.part room (by decide))

theorem field_place (a : Address) {o p : BitVec 32} (sum : 16 + o = p) : a + 16 + o = a + p := by
  rw [BitVec.add_assoc, sum]

/-- The directory and the tables are read as they were. -/
structure SameExports (m m' : Memory) (base : Address) : Prop where
  directory : exportDirectory m' base = exportDirectory m base
  size : sizeOfExport m' base = sizeOfExport m base
  first : exportBase m' base = exportBase m base
  functionCount : numberOfFunctions m' base = numberOfFunctions m base
  nameCount : numberOfNames m' base = numberOfNames m base
  functions : ∀ i, i < numberOfFunctions m base → addressOfFunctions m' base i = addressOfFunctions m base i
  names : ∀ i < (numberOfNames m base).toNat, exportName m' base (BitVec.ofNat 32 i) = exportName m base (BitVec.ofNat 32 i)
  addresses : ∀ i < (numberOfNames m base).toNat,
    exportAddress m' base (BitVec.ofNat 32 i) = exportAddress m base (BitVec.ofNat 32 i)

theorem ExportsIn.same (reads : ExportsIn P m base) (present : exportDirectory m base ≠ base)
    (agree : ∀ x, P x → m' x = m x) : SameExports m m' base := by
  obtain ⟨directory, size⟩ := reads.directory_same agree
  have tables := reads.tables present
  have place {o : Nat} {p : BitVec 32} (room : o + 4 ≤ 24) (sum : 16 + BitVec.ofNat 32 o = p) :
      ulong m' (exportDirectory m base + p) = ulong m (exportDirectory m base + p) := by
    rw [← field_place _ sum]
    exact tables.field agree room
  have functionTable := @place 12 28 (by decide) rfl
  have nameTable := @place 16 32 (by decide) rfl
  have ordinalTable := @place 20 36 (by decide) rfl
  refine ⟨directory, size, ?_, ?_, ?_, fun i less => ?_, fun i less => ?_, fun i less => ?_⟩
  · unfold exportBase
    rw [directory]
    exact @place 0 16 (by decide) rfl
  · unfold numberOfFunctions
    rw [directory]
    exact @place 4 20 (by decide) rfl
  · unfold numberOfNames
    rw [directory]
    exact @place 8 24 (by decide) rfl
  · unfold addressOfFunctions
    rw [directory, functionTable]
    exact ulong_agree agree (tables.functions i less)
  · have name : addressOfNames m' base (BitVec.ofNat 32 i) = addressOfNames m base (BitVec.ofNat 32 i) := by
      unfold addressOfNames
      rw [directory, nameTable]
      exact ulong_agree agree (tables.names i less)
    unfold exportName
    rw [name]
    exact stringAt_agree agree (tables.strings i less)
  · have ordinal : addressOfNameOrdinals m' base (BitVec.ofNat 32 i) = addressOfNameOrdinals m base (BitVec.ofNat 32 i) := by
      unfold addressOfNameOrdinals
      rw [directory, ordinalTable]
      exact ushort_agree agree (tables.ordinals i less)
    unfold exportAddress addressOfFunctions
    rw [ordinal, directory, functionTable]
    exact congrArg (base + ·) (ulong_agree agree (tables.named i less))

theorem byOrdinal_agree (reads : ExportsIn P m base) (agree : ∀ x, P x → m' x = m x) (o : BitVec 16) :
    ldrGetProcedureAddressByOrdinal m' base o = ldrGetProcedureAddressByOrdinal m base o := by
  unfold ldrGetProcedureAddressByOrdinal
  rw [(reads.directory_same agree).1]
  split
  · rfl
  · next present =>
    have same := reads.same present agree
    dsimp only
    rw [same.first, same.functionCount]
    split
    · next inside => rw [same.functions _ inside]
    · rfl

theorem findName_agree (same : SameExports m m' base) (room : k + n ≤ (numberOfNames m base).toNat) :
    findName m' base functionName n (BitVec.ofNat 32 k) = findName m base functionName n (BitVec.ofNat 32 k) := by
  induction n generalizing k with
  | zero => rfl
  | succ n ih =>
    have next : BitVec.ofNat 32 k + 1 = BitVec.ofNat 32 (k + 1) := (BitVec.ofNat_add k 1).symm
    unfold findName
    rw [same.names k (by omega), same.addresses k (by omega), next, ih (by omega)]

/-- What is found is the address of one of the named exports. -/
theorem findName_address {addr : Address} (found : findName m base functionName n (BitVec.ofNat 32 k) = some (some addr)) :
    ∃ i, k ≤ i ∧ i < k + n ∧ addr = exportAddress m base (BitVec.ofNat 32 i) := by
  induction n generalizing k with
  | zero => cases found
  | succ n ih =>
    have next : BitVec.ofNat 32 k + 1 = BitVec.ofNat 32 (k + 1) := (BitVec.ofNat_add k 1).symm
    unfold findName at found
    rw [next] at found
    split at found
    · cases found
    · split at found
      · cases found
        exact ⟨k, Nat.le_refl k, by omega, rfl⟩
      · obtain ⟨i, low, high, here⟩ := ih found
        exact ⟨i, by omega, by omega, here⟩

/-- A lookup by name finds the same where no module's exports have changed. -/
theorem byName_agree (all : ∀ module ∈ modules, ExportsIn P m module.base) (reads : ExportsIn P m base)
    (agree : ∀ x, P x → m' x = m x) :
    ldrGetProcedureAddressByName m' modules around fuel depth base (some functionName) =
      ldrGetProcedureAddressByName m modules around fuel depth base (some functionName) := by
  induction fuel generalizing base depth functionName with
  | zero => rfl
  | succ fuel ih =>
    unfold ldrGetProcedureAddressByName
    rw [(reads.directory_same agree).1]
    split
    · rfl
    · next present =>
      have same := reads.same present agree
      have search : findName m' base functionName (numberOfNames m' base).toNat 0 =
          findName m base functionName (numberOfNames m base).toNat 0 := by
        rw [same.nameCount]
        exact findName_agree (k := 0) same (Nat.le_of_eq (Nat.zero_add _))
      have directed (addr : Address) : Forwarder m' base addr ↔ Forwarder m base addr := by
        unfold Forwarder
        rw [same.directory, same.size]
      rw [search]
      cases found : findName m base functionName (numberOfNames m base).toNat 0 with
      | none => rfl
      | some found' =>
        cases found' with
        | none => rfl
        | some addr =>
          dsimp only
          by_cases forwarded : Forwarder m base addr
          · have text : stringAt m' addr = stringAt m addr := by
              obtain ⟨i, -, less, rfl⟩ := findName_address (k := 0) found
              exact stringAt_agree agree ((reads.tables present).forwarders i (by omega) forwarded)
            rw [if_neg (not_not_intro ((directed addr).mpr forwarded)), if_neg (not_not_intro forwarded), text]
            cases stringAt m addr with
            | none => rfl
            | some forwarder =>
              dsimp only
              cases around.heap depth with
              | false => rfl
              | true =>
                cases strchr dot forwarder with
                | none => rfl
                | some parts =>
                  dsimp only
                  cases forwarderModName (around.stack depth) parts.1 with
                  | none => rfl
                  | some built =>
                    dsimp only
                    cases ZeroTerminated.text addressSpace built.1 with
                    | none => rfl
                    | some name =>
                      dsimp only
                      cases looked : ldrLookupModule (mbstowcs name) modules with
                      | none => rfl
                      | some module =>
                        dsimp only
                        rw [ih (all module (List.mem_of_find?_eq_some looked))]
          · rw [if_pos fun here => forwarded ((directed addr).mp here), if_pos forwarded]

theorem importLookup_agree (all : ∀ module ∈ modules, ExportsIn P m module.base) (reads : ExportsIn P m base)
    (agree : ∀ x, P x → m' x = m x) (i : Import) :
    importLookup m' modules around fuel base i = importLookup m modules around fuel base i := by
  cases i with
  | ordinal o => exact congrArg (fun address => some (Lookup.mk address [])) (byOrdinal_agree reads agree o)
  | name n => exact byName_agree all reads agree

end agree

end Gr8os.Ldr
