import Gr8os.Ldr.Imports
import Gr8os.Lib.LittleEndian
import Mathlib.Data.List.Pairwise

/-! How the walk over an import table leaves its thunks. -/
namespace Gr8os.Ldr

open LittleEndian Stores Machine

/-- What stands in an import descriptor and behind it. -/
structure Descriptor where
  modName : List Char8
  timeDateStamp : BitVec 32
  firstThunk : Address
  imports : List Import
deriving DecidableEq, Repr

def thunkAt (firstThunk : Address) (k : Nat) : Address := firstThunk + BitVec.ofNat 32 (4 * k)

/-- So many thunks from an address on. -/
def thunksFrom (t : Address) (n : Nat) : List Address := (List.range n).map (thunkAt t)

def Descriptor.thunks (x : Descriptor) : List Address := thunksFrom x.firstThunk x.imports.length

/-- The thunks of a table. -/
def allThunks (table : List Descriptor) : List Address := table.flatMap Descriptor.thunks

section tables

variable (P : Address → Prop) (m : Memory) (image : Address)

/-- From the address on there are thunks that ask for these imports. The names and the last word are not among the thunks. -/
def ThunksAre : Address → List Import → Prop
  | t, [] => ulong m t = 0 ∧ BytesIn P t 4
  | t, i :: is =>
    ulong m t ≠ 0 ∧ importOf m image (ulong m t) = some i ∧
      (¬imageSnapByOrdinal (ulong m t) → StringIn P m (importedName image (ulong m t))) ∧ ThunksAre (t + 4) is

/-- From the address on there are these descriptors. They and the names of the modules are not among the thunks. -/
def DescriptorsAre : Address → List Descriptor → Prop
  | d, [] => importName m d = 0 ∧ BytesIn P d 20
  | d, x :: xs =>
    importName m d ≠ 0 ∧ BytesIn P d 20 ∧ stringAt m (importName m d + image) = some x.modName ∧
      StringIn P m (importName m d + image) ∧ importTimeDateStamp m d = x.timeDateStamp ∧
      importFirstThunk m d + image = x.firstThunk ∧ ThunksAre P m image x.firstThunk x.imports ∧ DescriptorsAre (d + 20) xs

end tables

/-- A byte that is in none of the thunks. -/
def Steady (table : List Descriptor) (x : Address) : Prop := ∀ t ∈ allThunks table, ¬Covers t 4 x

/-- An image whose thunks are disjoint words and apart from all else that the walk reads. -/
structure ImportTable (m : Memory) (modules : List LdrModule) (image optHeader : Address) (table : List Descriptor) :
    Prop where
  descriptors : DescriptorsAre (Steady table) m image (firstImportDescriptor m image optHeader) table
  disjoint : (allThunks table).Pairwise fun t u => Apart t 4 u 4
  exports : ∀ module ∈ modules, ExportsIn (Steady table) m module.base
  short : ∀ x ∈ table, x.modName.length < wbuffSize

section binding

variable (m : Memory) (modules : List LdrModule) (around : Address → Surroundings) (nesting : Nat)

/-- What the lookups find in the memory as it was before the walk. -/
def boundAddress (base t : Address) (i : Import) : Address :=
  ((importLookup m modules (around t) nesting base i).map Lookup.address).getD 0

/-- The lookup returns, and its names fit their buffers. -/
def LookupReturns (base t : Address) (i : Import) : Prop :=
  ∃ found, importLookup m modules (around t) nesting base i = some found ∧ found.Fits

/-- The import of a thunk of the table in the module that has it. -/
structure Imports (table : List Descriptor) (x : Descriptor) (module : LdrModule) (k : Nat) (i : Import) : Prop where
  descriptor : x ∈ table
  found : ldrLookupModule (mbstowcs x.modName) modules = some module
  asks : x.imports[k]? = some i

/-- All the imports of a descriptor have addresses. -/
def Resolved (x : Descriptor) : Prop :=
  ∃ module, ldrLookupModule (mbstowcs x.modName) modules = some module ∧ x.timeDateStamp ≠ -1 ∧
    ∀ k i, x.imports[k]? = some i → boundAddress m modules around nesting module.base (thunkAt x.firstThunk k) i ≠ 0

/-- The words that are stored in the thunks of a module from one on, and whether all of them are addresses. -/
def bindThunks (base : Address) : Address → List Import → List (Address × BitVec 32) × Bool
  | _, [] => ([], true)
  | t, i :: is =>
    let address := boundAddress m modules around nesting base t i
    if address = 0 then ([(t, 0)], false)
    else
      let (stores, all) := bindThunks base (t + 4) is
      ((t, address) :: stores, all)

/-- The words that are stored, and the status. -/
def bindImports : List Descriptor → List (Address × BitVec 32) × BitVec 32
  | [] => ([], Status.success.code)
  | x :: xs =>
    match ldrLookupModule (mbstowcs x.modName) modules with
    | none => ([], Status.notFound.code)
    | some module =>
      if x.timeDateStamp = -1 then ([], Status.notSupported.code)
      else
        let (stores, all) := bindThunks m modules around nesting module.base x.firstThunk x.imports
        if all then
          let (later, status) := bindImports xs
          (stores ++ later, status)
        else (stores, statusInvalidFileForImage)

end binding

section runs

variable {P : Address → Prop} {m m' : Memory} {modules : List LdrModule} {around : Address → Surroundings} {nesting : Nat}
  {image base d t : Address} {is : List Import} {table : List Descriptor}

theorem thunkAt_zero : thunkAt t 0 = t := BitVec.add_zero t

theorem thunkAt_succ (k : Nat) : thunkAt (t + 4) k = thunkAt t (k + 1) := by
  unfold thunkAt
  rw [Nat.mul_succ, Nat.add_comm, BitVec.ofNat_add, ← BitVec.add_assoc]
  rfl

theorem thunksFrom_succ (n : Nat) : thunksFrom t (n + 1) = t :: thunksFrom (t + 4) n := by
  unfold thunksFrom
  rw [List.range_succ_eq_map, List.map_cons, List.map_map, thunkAt_zero]
  exact congrArg (t :: ·) (List.map_congr_left fun k _ => (thunkAt_succ k).symm)

theorem bindThunks_places : (bindThunks m modules around nesting base t is).1.map Prod.fst <+: thunksFrom t is.length := by
  induction is generalizing t with
  | nil => exact List.nil_prefix
  | cons i is ih =>
    rw [List.length_cons, thunksFrom_succ]
    unfold bindThunks
    dsimp only
    split
    · exact (List.prefix_cons_inj t).mpr List.nil_prefix
    · exact (List.prefix_cons_inj t).mpr ih

theorem ulong_steady (agree : ∀ x, P x → m' x = m x) {o : Nat} (inside : BytesIn P d 20) (room : o + 4 ≤ 20) :
    ulong m' (d + BitVec.ofNat 32 o) = ulong m (d + BitVec.ofNat 32 o) :=
  ulong_agree agree (inside.part room (by decide))

theorem importOf_agree (agree : ∀ x, P x → m' x = m x) {w : BitVec 32}
    (inside : ¬imageSnapByOrdinal w → StringIn P m (importedName image w)) : importOf m' image w = importOf m image w := by
  unfold importOf
  split
  · rfl
  · next named => rw [stringAt_agree agree (inside named)]

/-- The walk over the thunks of a module stores what their imports are found to be. -/
theorem thunks_run (all : ∀ module ∈ modules, ExportsIn P m module.base) (reads : ExportsIn P m base)
    (thunks : ThunksAre P m image t is)
    (returns : ∀ k i, is[k]? = some i → LookupReturns m modules around nesting base (thunkAt t k) i)
    (disjoint : (thunksFrom t is.length).Pairwise fun t u => Apart t 4 u 4)
    (outside : ∀ x, P x → ∀ u ∈ thunksFrom t is.length, ¬Covers u 4 x)
    (agree : ∀ x, P x → m' x = m x) (fresh : ∀ u ∈ thunksFrom t is.length, ulong m' u = ulong m u) :
    Reaches (importStep modules around nesting image) (.thunk m' d base t)
      (if (bindThunks m modules around nesting base t is).2 then
        .descriptor (storeAll m' (bindThunks m modules around nesting base t is).1) (d + 20)
      else .returned (storeAll m' (bindThunks m modules around nesting base t is).1) statusInvalidFileForImage) := by
  induction is generalizing t m' with
  | nil =>
    obtain ⟨zero, inside⟩ := thunks
    refine .head ?_
    have ends : ulong m' t = 0 := (ulong_agree agree inside).trans zero
    unfold importStep
    dsimp only
    rw [if_pos ends]
    exact .refl _
  | cons i is ih =>
    obtain ⟨some', asks, named, rest⟩ := thunks
    rw [List.length_cons, thunksFrom_succ] at disjoint outside fresh
    obtain ⟨first, later⟩ := List.pairwise_cons.mp disjoint
    have word : ulong m' t = ulong m t := fresh t List.mem_cons_self
    obtain ⟨found, looked, fits⟩ := returns 0 i rfl
    rw [thunkAt_zero] at looked
    have lookup : (importOf m' image (ulong m' t)).bind (importLookup m' modules (around t) nesting base) = some found := by
      rw [word, importOf_agree agree named, asks, Option.bind_some, importLookup_agree all reads agree, looked]
    have address : boundAddress m modules around nesting base t i = found.address := by
      unfold boundAddress
      rw [looked]
      rfl
    refine .head ?_
    unfold importStep bindThunks
    dsimp only
    rw [lookup, address]
    dsimp only
    rw [if_neg fun zero => some' (word.symm.trans zero), if_neg (not_not_intro fits)]
    by_cases none : found.address = 0
    · rw [if_pos none, if_pos none]
      exact .refl _
    · rw [if_neg none, if_neg none]
      have stored : ∀ x, P x → setUlong m' t found.address x = m x := fun x inside =>
        (setUlong_outside (outside x inside t List.mem_cons_self)).trans (agree x inside)
      refine ih rest (fun k j here => ?_) later (fun x inside u member => outside x inside u (List.mem_cons_of_mem t member))
        stored fun u member => ?_
      · rw [thunkAt_succ]
        exact returns (k + 1) j here
      · exact (ulong_setUlong_apart (first u member)).trans (fresh u (List.mem_cons_of_mem t member))

/-- The walk from a descriptor on stores what the imports are found to be, up to the first one that fails. -/
theorem descriptors_run (all : ∀ module ∈ modules, ExportsIn P m module.base) (descriptors : DescriptorsAre P m image d table)
    (short : ∀ x ∈ table, x.modName.length < wbuffSize)
    (returns : ∀ x module k i, Imports modules table x module k i →
      LookupReturns m modules around nesting module.base (thunkAt x.firstThunk k) i)
    (disjoint : (allThunks table).Pairwise fun t u => Apart t 4 u 4) (outside : ∀ x, P x → ∀ u ∈ allThunks table, ¬Covers u 4 x)
    (agree : ∀ x, P x → m' x = m x) (fresh : ∀ u ∈ allThunks table, ulong m' u = ulong m u) :
    Reaches (importStep modules around nesting image) (.descriptor m' d)
      (.returned (storeAll m' (bindImports m modules around nesting table).1)
        (bindImports m modules around nesting table).2) := by
  induction table generalizing d m' with
  | nil =>
    obtain ⟨zero, inside⟩ := descriptors
    have ends : importName m' d = 0 := (ulong_steady (o := 12) agree inside (by decide)).trans zero
    refine .head ?_
    unfold importStep
    dsimp only
    rw [if_pos ends]
    exact .refl _
  | cons x xs ih =>
    obtain ⟨some', inside, text, named, stamp, first, thunks, rest⟩ := descriptors
    have whole : allThunks (x :: xs) = x.thunks ++ allThunks xs := List.flatMap_cons
    rw [whole] at disjoint outside fresh
    obtain ⟨own, later, between⟩ := List.pairwise_append.mp disjoint
    have name : importName m' d = importName m d := ulong_steady (o := 12) agree inside (by decide)
    have stamp' : importTimeDateStamp m' d = x.timeDateStamp :=
      (ulong_steady (o := 4) agree inside (by decide)).trans stamp
    have first' : importFirstThunk m' d + image = x.firstThunk :=
      (congrArg (· + image) (ulong_steady (o := 16) agree inside (by decide))).trans first
    have room : ¬wbuffSize < x.modName.length + 1 := Nat.not_lt.mpr (short x List.mem_cons_self)
    refine .head ?_
    unfold importStep bindImports
    dsimp only
    rw [name, if_neg some', stringAt_agree agree named, text]
    dsimp only
    rw [if_neg room]
    cases looked : ldrLookupModule (mbstowcs x.modName) modules with
    | none => exact .refl _
    | some module =>
      dsimp only
      rw [stamp']
      by_cases bound : x.timeDateStamp = -1
      · rw [if_pos bound, if_pos bound]
        exact .refl _
      · rw [if_neg bound, if_neg bound, first']
        refine (thunks_run (d := d) all (all module (List.mem_of_find?_eq_some looked)) thunks
          (fun k i here => returns x module k i ⟨List.mem_cons_self, looked, here⟩) own
          (fun y inP u member => outside y inP u (List.mem_append_left _ member)) agree
          fun u member => fresh u (List.mem_append_left _ member)).trans ?_
        have places : ∀ p ∈ (bindThunks m modules around nesting module.base x.firstThunk x.imports).1, p.1 ∈ x.thunks :=
          fun p member => bindThunks_places.subset (List.mem_map_of_mem member)
        cases (bindThunks m modules around nesting module.base x.firstThunk x.imports).2 with
        | false => exact .refl _
        | true =>
          rw [if_pos rfl, if_pos rfl, storeAll_append]
          refine ih rest (fun y member => short y (List.mem_cons_of_mem x member)) (fun y module k i here => ?_) later
            (fun y inP u member => outside y inP u (List.mem_append_right _ member)) (fun y inP => ?_) fun u member => ?_
          · exact returns y module k i ⟨List.mem_cons_of_mem x here.descriptor, here.found, here.asks⟩
          · refine (storeAll_frame fun p member => ?_).trans (agree y inP)
            exact outside y inP p.1 (List.mem_append_left _ (places p member))
          · refine (storeAll_apart fun p inStores => ?_).trans (fresh u (List.mem_append_right _ member))
            exact between p.1 (places p inStores) u member

end runs

section results

variable {m m' : Memory} {modules : List LdrModule} {around : Address → Surroundings} {nesting : Nat}
  {image optHeader base t : Address} {is : List Import} {table : List Descriptor}

theorem bindThunks_stores {p : Address × BitVec 32} (member : p ∈ (bindThunks m modules around nesting base t is).1) :
    ∃ k i, is[k]? = some i ∧ p = (thunkAt t k, boundAddress m modules around nesting base (thunkAt t k) i) := by
  induction is generalizing t with
  | nil => cases member
  | cons i is ih =>
    have here : (t, boundAddress m modules around nesting base t i) =
        (thunkAt t 0, boundAddress m modules around nesting base (thunkAt t 0) i) := by rw [thunkAt_zero]
    unfold bindThunks at member
    dsimp only at member
    split at member
    · next none =>
      refine ⟨0, i, rfl, (List.mem_singleton.mp member).trans ?_⟩
      rw [← here, none]
    · rcases List.mem_cons.mp member with rfl | later
      · exact ⟨0, i, rfl, here⟩
      · obtain ⟨k, j, asks, same⟩ := ih later
        rw [thunkAt_succ] at same
        exact ⟨k + 1, j, asks, same⟩

/-- All the thunks of a module are bound exactly where all its imports have addresses. -/
theorem bindThunks_all : (bindThunks m modules around nesting base t is).2 = true ↔
    ∀ k i, is[k]? = some i → boundAddress m modules around nesting base (thunkAt t k) i ≠ 0 := by
  induction is generalizing t with
  | nil => exact ⟨fun _ k i impossible => (by cases impossible), fun _ => rfl⟩
  | cons i is ih =>
    unfold bindThunks
    dsimp only
    split
    · next none =>
      refine ⟨fun impossible => (by cases impossible), fun every => ?_⟩
      have first := every 0 i rfl
      rw [thunkAt_zero] at first
      exact absurd none first
    · next some =>
      refine ih.trans ⟨fun every k j asks => ?_, fun every k j asks => ?_⟩
      · cases k with
        | zero =>
          cases asks
          rwa [thunkAt_zero]
        | succ k =>
          rw [← thunkAt_succ]
          exact every k j asks
      · rw [thunkAt_succ]
        exact every (k + 1) j asks

theorem bindThunks_length (all : (bindThunks m modules around nesting base t is).2 = true) :
    (bindThunks m modules around nesting base t is).1.map Prod.fst = thunksFrom t is.length := by
  induction is generalizing t with
  | nil => rfl
  | cons i is ih =>
    rw [List.length_cons, thunksFrom_succ]
    unfold bindThunks at all ⊢
    dsimp only at all ⊢
    split at all
    · cases all
    · next some =>
      rw [if_neg some]
      exact congrArg (t :: ·) (ih all)

theorem bindImports_places :
    ((bindImports m modules around nesting table).1.map Prod.fst).Sublist (allThunks table) := by
  induction table with
  | nil => exact List.Sublist.refl _
  | cons x xs ih =>
    have whole : allThunks (x :: xs) = x.thunks ++ allThunks xs := List.flatMap_cons
    rw [whole]
    unfold bindImports
    cases ldrLookupModule (mbstowcs x.modName) modules with
    | none => exact List.nil_sublist _
    | some module =>
      dsimp only
      split
      · exact List.nil_sublist _
      · split
        · rw [List.map_append]
          exact bindThunks_places.sublist.append ih
        · exact bindThunks_places.sublist.trans (List.sublist_append_left _ _)

theorem bindImports_stores {p : Address × BitVec 32} (member : p ∈ (bindImports m modules around nesting table).1) :
    ∃ x module k i, Imports modules table x module k i ∧
      p = (thunkAt x.firstThunk k, boundAddress m modules around nesting module.base (thunkAt x.firstThunk k) i) := by
  induction table with
  | nil => cases member
  | cons x xs ih =>
    unfold bindImports at member
    cases looked : ldrLookupModule (mbstowcs x.modName) modules with
    | none =>
      rw [looked] at member
      cases member
    | some module =>
      rw [looked] at member
      dsimp only at member
      have own (here : p ∈ (bindThunks m modules around nesting module.base x.firstThunk x.imports).1) :
          ∃ y module k i, Imports modules (x :: xs) y module k i ∧
            p = (thunkAt y.firstThunk k, boundAddress m modules around nesting module.base (thunkAt y.firstThunk k) i) := by
        obtain ⟨k, i, asks, same⟩ := bindThunks_stores here
        exact ⟨x, module, k, i, ⟨List.mem_cons_self, looked, asks⟩, same⟩
      split at member
      · cases member
      · split at member
        · rcases List.mem_append.mp member with here | later
          · exact own here
          · obtain ⟨y, other, k, i, imports, same⟩ := ih later
            exact ⟨y, other, k, i, ⟨List.mem_cons_of_mem x imports.descriptor, imports.found, imports.asks⟩, same⟩
        · exact own member

/-- The three failures. -/
theorem failures : Status.notFound.code ≠ Status.success.code ∧ Status.notSupported.code ≠ Status.success.code ∧
    statusInvalidFileForImage ≠ Status.success.code := by decide

theorem bindImports_success :
    (bindImports m modules around nesting table).2 = Status.success.code ↔
      ∀ x ∈ table, Resolved m modules around nesting x := by
  induction table with
  | nil => exact ⟨fun _ x impossible => (by cases impossible), fun _ => rfl⟩
  | cons x xs ih =>
    rw [List.forall_mem_cons]
    unfold bindImports Resolved
    cases looked : ldrLookupModule (mbstowcs x.modName) modules with
    | none => exact ⟨fun impossible => absurd impossible failures.1, fun ⟨⟨_, here, _⟩, _⟩ => (by cases here)⟩
    | some module =>
      dsimp only
      split
      · next bound => exact ⟨fun impossible => absurd impossible failures.2.1, fun ⟨⟨_, _, free, _⟩, _⟩ => absurd bound free⟩
      · next free =>
        split
        · next all =>
          have every := bindThunks_all.mp all
          exact ⟨fun success => ⟨⟨module, rfl, free, every⟩, ih.mp success⟩, fun resolved => ih.mpr resolved.2⟩
        · next some =>
          refine ⟨fun impossible => absurd impossible failures.2.2, fun ⟨⟨other, same, _, every⟩, _⟩ => ?_⟩
          cases same
          exact absurd (bindThunks_all.mpr every) some

theorem bindImports_all (success : (bindImports m modules around nesting table).2 = Status.success.code) :
    (bindImports m modules around nesting table).1.map Prod.fst = allThunks table := by
  induction table with
  | nil => rfl
  | cons x xs ih =>
    have whole : allThunks (x :: xs) = x.thunks ++ allThunks xs := List.flatMap_cons
    rw [whole]
    unfold bindImports at success ⊢
    cases looked : ldrLookupModule (mbstowcs x.modName) modules with
    | none =>
      rw [looked] at success
      exact absurd success failures.1
    | some module =>
      rw [looked] at success
      dsimp only at success ⊢
      split at success
      · exact absurd success failures.2.1
      · next free =>
        split at success
        · next all =>
          rw [if_neg free, if_pos all, List.map_append, ih success, bindThunks_length all]
          rfl
        · exact absurd success failures.2.2

end results

/-- The string at an address is all that the search for its terminator reads. -/
theorem stringIn_of_text {P : Address → Prop} {m : Memory} {a : Address} {s : List Char8} (text : stringAt m a = some s)
    (inside : BytesIn P a (s.length + 1)) : StringIn P m a := by
  obtain ⟨less, -, zero, -⟩ := ZeroTerminated.text_eq_some_iff.mp text
  intro k small before
  refine inside _ (covers_add ?_ (Nat.succ_le_of_lt less))
  refine Nat.lt_succ_of_le (Nat.le_of_not_lt fun further => ?_)
  exact before s.length further zero

/-- An image at 0x500000 that imports from the module m its first export by ordinal and f by name. -/
def importingImage : Memory :=
  storeAll forwardingModule [(0x500100, 0x1000), (0x50100C, 0x1100), (0x501010, 0x1200), (0x501100, 0x6D),
    (0x501200, 0x80000001), (0x501204, 0x1300), (0x501300, 0x660000)]

def importedModules : List LdrModule := [⟨0x400000, [0x6D]⟩]

def importTable : List Descriptor := [⟨[0x6D], 0, 0x501200, [.ordinal 1, .name [0x66]]⟩]

theorem bytesIn_steady {a : Address} {n : Nat}
    (place : a.toNat + n ≤ 0x501200 ∨ 0x501208 ≤ a.toNat ∧ a.toNat + n ≤ 2 ^ 32) : BytesIn (Steady importTable) a n := by
  intro x covered t member other
  have thunks : allThunks importTable = [0x501200, 0x501204] := by decide
  rw [thunks, List.mem_cons, List.mem_singleton] at member
  unfold Covers at covered other
  rcases member with rfl | rfl
  · bv_omega
  · bv_omega

theorem importingImage_exports : ExportsIn (Steady importTable) importingImage 0x400000 := by
  have names : (numberOfNames importingImage 0x400000).toNat = 2 := by decide
  have functions : numberOfFunctions importingImage 0x400000 = 2 := by decide
  have which : ∀ i < (numberOfNames importingImage 0x400000).toNat, i = 0 ∨ i = 1 := by omega
  have f : stringAt importingImage 0x401040 = some [0x66] := by decide
  have g : stringAt importingImage 0x401044 = some [0x67] := by decide
  have forwarder : stringAt importingImage 0x401050 = some [0x61, 0x2E, 0x67] := by decide
  refine ⟨bytesIn_steady (by decide), bytesIn_steady (by decide), fun _ =>
    ⟨bytesIn_steady (by decide), fun i less => ?_, fun i less => ?_, fun i less => ?_, fun i less => ?_, fun i less => ?_,
      fun i less forwarded => ?_⟩⟩
  · rw [functions] at less
    have table : ulong importingImage (exportDirectory importingImage 0x400000 + 28) = 0x1028 := by decide
    rw [table]
    exact bytesIn_steady (by bv_omega)
  · rcases which i less with rfl | rfl <;> exact bytesIn_steady (by decide)
  · rcases which i less with rfl | rfl <;> exact bytesIn_steady (by decide)
  · rcases which i less with rfl | rfl <;> exact bytesIn_steady (by decide)
  · rcases which i less with rfl | rfl
    · exact stringIn_of_text f (bytesIn_steady (by decide))
    · exact stringIn_of_text g (bytesIn_steady (by decide))
  · rcases which i less with rfl | rfl
    · exact absurd forwarded (by decide)
    · exact stringIn_of_text forwarder (bytesIn_steady (by decide))

theorem importingImage_table : ImportTable importingImage importedModules 0x500000 0x500098 importTable := by
  have m : stringAt importingImage 0x501100 = some [0x6D] := by decide
  have f : stringAt importingImage 0x501302 = some [0x66] := by decide
  refine ⟨⟨by decide, bytesIn_steady (by decide), m, stringIn_of_text m (bytesIn_steady (by decide)), by decide, by decide, ?_,
    by decide, bytesIn_steady (by decide)⟩, ?_, ?_, by decide⟩
  · refine ⟨by decide, by decide, fun named => absurd named (by decide), by decide, ?_, fun _ => ?_, by decide,
      bytesIn_steady (by decide)⟩
    · exact congrArg (Option.map Import.name) f
    · exact stringIn_of_text f (bytesIn_steady (by decide))
  · have thunks : allThunks importTable = [0x501200, 0x501204] := by decide
    rw [thunks]
    refine List.pairwise_pair.mpr (apart_of_distance (by decide) (by decide))
  · intro module member
    cases List.mem_singleton.mp member
    exact importingImage_exports

end Gr8os.Ldr
