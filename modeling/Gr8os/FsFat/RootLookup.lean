import Gr8os.Cc.Cache
import Gr8os.FsFat.DosName
import Gr8os.FsFat.Layout

/-! The search for a file in the root directory of a mounted volume. A result of none is a machine that no longer runs. -/
namespace Gr8os.FsFat

open Bytes Ldr

def fileWriteData : BitVec 32 := 0x00000010

def pathSeparator : Char8 := 0x5C

structure FsfatdirEnt where
  filename : List Char8
  attributes : BitVec 8
  whole : filename.length = 11

namespace FsfatdirEnt

def readOnly (e : FsfatdirEnt) : Bool := e.attributes.getLsbD 0

def volumeLabel (e : FsfatdirEnt) : Bool := e.attributes.getLsbD 3

def subdirectory (e : FsfatdirEnt) : Bool := e.attributes.getLsbD 4

end FsfatdirEnt

/-- A mounted volume. The root directory is the memory from its first entry on. -/
structure FsfatVolume where
  fatHeader : FsfatBpb
  clusterSize : BitVec 32
  rootDirectory : Nat → FsfatdirEnt

/-- A request to open a file, and what the heap and the stack give it. -/
structure CreateIrp where
  relativeFileName : List WChar
  desiredAccess : BitVec 32
  file : Cc.File
  pathAllocated : Bool
  fcbAllocated : Bool
  cacheHeap : Nat → Bool
  stack : Buffer

/-- The status, and the entry in the control block that is made for the file. -/
structure Created where
  status : BitVec 32
  dirEnt : Option Nat := none
deriving DecidableEq, Repr

/-- The characters lose their high bytes, and the string ends at the first that becomes zero. -/
def wcstomb (wcs : List WChar) : List Char8 := (wcs.map fun wc => wc.setWidth 8).takeWhile (· ≠ 0)

def numEntries (fh : FsfatBpb) : BitVec 32 :=
  if fh.directoryEntries ≠ 0 then fh.directoryEntries.setWidth 32
  else fh.sectorsPerCluster.setWidth 32 * fh.sectorSize.setWidth 32 / sizeofFsfatDirEnt

/-- The loop stops at the first entry with the name. -/
def findEntry (rootDirectory : Nat → FsfatdirEnt) (dosname : List Char8) (count : Nat) : Option Nat :=
  (List.range count).find? fun i => strncmp dosname (rootDirectory i).filename = 0

def openEntry (volume : FsfatVolume) (irp : CreateIrp) (i : Nat) : Option Created :=
  if (volume.rootDirectory i).readOnly ∧ irp.desiredAccess &&& fileWriteData ≠ 0 then
    some { status := Status.accessDenied.code }
  else if !irp.fcbAllocated then some { status := Status.insufficientResources.code }
  else (Cc.ccInitializeFileCaching irp.cacheHeap irp.file volume.clusterSize.toNat).map fun r =>
    { status := r.1, dirEnt := some i }

/-- The device of the driver itself can always be opened, and an empty path opens the disk below. Without memory for the
path it is written through a null pointer, and a name that is too long for dosname is stored over the stack. -/
def fsFatCreate (isFsDevice : Bool) (callDriver : BitVec 32) (volume : FsfatVolume) (irp : CreateIrp) : Option Created :=
  if isFsDevice then some { status := Status.success.code }
  else if BitVec.ofNat 16 (2 * irp.relativeFileName.length) = 0 then some { status := callDriver }
  else if !irp.pathAllocated then none
  else
    let path := wcstomb (irp.relativeFileName.drop 1)
    if (strchr pathSeparator path).isSome then some { status := Status.notSupported.code }
    else if ((fsFatNtNameToDosName path).2.all fun s => s.1 < 12) = false then none
    else
      match findEntry volume.rootDirectory (dosName irp.stack path) (numEntries volume.fatHeader).toNat with
      | some i => openEntry volume irp i
      | none => some { status := Status.notFound.code }

/-- The root directory has so many entries: as many as the header says, or as many as fill the clusters of its chain. -/
structure HasRoot (volume : FsfatVolume) (entries : Nat) : Prop where
  fixed : volume.fatHeader.directoryEntries ≠ 0 → entries = volume.fatHeader.directoryEntries.toNat
  chain : volume.fatHeader.directoryEntries = 0 → ∃ clusters, 0 < clusters ∧ entries =
    clusters * (volume.fatHeader.sectorsPerCluster.toNat * volume.fatHeader.sectorSize.toNat) / 32

/-- An entry of the directory for a file of this name: in use, in front of the end, no label and no directory. -/
structure LiveFile (volume : FsfatVolume) (entries : Nat) (n : ShortName) (i : Nat) : Prop where
  inside : i < entries
  name : (volume.rootDirectory i).filename = n.entry
  undeleted : (volume.rootDirectory i).filename.head? ≠ some 0xE5
  before : ∀ j ≤ i, (volume.rootDirectory j).filename.head? ≠ some 0
  file : (volume.rootDirectory i).volumeLabel = false ∧ (volume.rootDirectory i).subdirectory = false

/-- A request for a short name, which stands behind the first separator. -/
def CreateIrp.Names (irp : CreateIrp) (n : ShortName) : Prop :=
  irp.relativeFileName = (pathSeparator :: n.text).map fun c => c.setWidth 16

/-- The request succeeds with a file of the name if the directory has one, and is told that there is none otherwise. -/
structure FindsFile (callDriver : BitVec 32) (volume : FsfatVolume) (entries : Nat) (irp : CreateIrp) (n : ShortName) :
    Prop where
  found : (∃ i, LiveFile volume entries n i) → ∃ c i, fsFatCreate false callDriver volume irp = some c ∧
    succeeded c.status = true ∧ c.dirEnt = some i ∧ LiveFile volume entries n i
  missing : (∀ i, ¬LiveFile volume entries n i) → ∃ c, fsFatCreate false callDriver volume irp = some c ∧
    c.status = Status.notFound.code

/-- An entry has the eleven bytes that the name is converted to. -/
def Matches (volume : FsfatVolume) (irp : CreateIrp) (n : ShortName) (i : Nat) : Prop :=
  (volume.rootDirectory i).filename = dosName irp.stack n.text

/-- The permissions of the entry, the heap and the size of a cluster let it be opened. -/
structure Admitted (volume : FsfatVolume) (irp : CreateIrp) (i : Nat) : Prop where
  permitted : ¬((volume.rootDirectory i).readOnly = true ∧ irp.desiredAccess &&& fileWriteData ≠ 0)
  control : irp.fcbAllocated = true
  cached : ∃ r, Cc.ccInitializeFileCaching irp.cacheHeap irp.file volume.clusterSize.toNat = some r ∧
    succeeded r.1 = true

/-- The first entry with the name among those that are searched is a file that can be opened, and if there is none then
there is no file of the name among the others either. -/
structure SearchSuffices (volume : FsfatVolume) (entries : Nat) (irp : CreateIrp) (n : ShortName) : Prop where
  path : irp.pathAllocated = true
  plain : pathSeparator ∉ n.text
  first : ∀ i < (numEntries volume.fatHeader).toNat, Matches volume irp n i → (∀ j < i, ¬Matches volume irp n j) →
    LiveFile volume entries n i ∧ Admitted volume irp i
  others : (∀ i < (numEntries volume.fatHeader).toNat, ¬Matches volume irp n i) → ∀ i, ¬LiveFile volume entries n i

section lookup

variable {callDriver : BitVec 32} {volume : FsfatVolume} {entries i count : Nat} {irp : CreateIrp} {n : ShortName}

theorem matches_iff : strncmp (dosName irp.stack n.text) (volume.rootDirectory i).filename = 0 ↔ Matches volume irp n i := by
  have extend : ∀ d : Char8, d.signExtend 32 = 0 ↔ d = 0 := by decide
  have length : (dosName irp.stack n.text).length = 11 := by
    rw [dosName, List.length_map, List.length_range]
  rw [strncmp, extend, firstDifference_id (length.trans (volume.rootDirectory i).whole.symm)]
  exact eq_comm

theorem findEntry_some : findEntry volume.rootDirectory (dosName irp.stack n.text) count = some i ↔
    i < count ∧ Matches volume irp n i ∧ ∀ j < i, ¬Matches volume irp n j := by
  rw [findEntry, List.find?_range_eq_some]
  simp only [decide_eq_true_eq, matches_iff, List.mem_range, Bool.not_eq_true', decide_eq_false_iff_not]
  exact and_left_comm

theorem findEntry_none : findEntry volume.rootDirectory (dosName irp.stack n.text) count = none ↔
    ∀ i < count, ¬Matches volume irp n i := by
  rw [findEntry, List.find?_range_eq_none]
  simp only [Bool.not_eq_true', decide_eq_false_iff_not, matches_iff]

theorem wcstomb_text (n : ShortName) : wcstomb (n.text.map fun c => c.setWidth 16) = n.text := by
  have same : ∀ c : Char8, (c.setWidth 16).setWidth 8 = c := by decide
  have nonzero : ∀ c ∈ n.text, decide (c ≠ 0) = true := by
    intro c member
    refine decide_eq_true fun is_zero => ?_
    subst is_zero
    rcases List.mem_append.mp member with base | extension
    · exact n.basePlain.2 base
    · cases given : n.extension with
      | none => simp [given] at extension
      | some e =>
        rw [given] at extension
        rcases List.mem_cons.mp extension with is_dot | rest
        · exact absurd is_dot (by decide)
        · exact (n.extensionPlain e given).2 rest
  unfold wcstomb
  rw [List.map_map]
  simp only [Function.comp_def, same, List.map_id']
  exact List.takeWhile_eq_self_iff.mpr nonzero

theorem text_length (n : ShortName) : n.text.length ≤ 12 := by
  have base := n.baseFits
  rw [ShortName.text, List.length_append]
  cases given : n.extension with
  | none => simp; omega
  | some e =>
    have extension := n.extensionFits e given
    simp
    omega

theorem text_inside (n : ShortName) : StoresInside n.text :=
  (storesInside_iff n.text).mpr ((List.takeWhile_sublist _).length_le.trans (text_length n))

theorem fsFatCreate_name (named : irp.Names n) : fsFatCreate false callDriver volume irp =
    if irp.pathAllocated = false then none
    else if pathSeparator ∈ n.text then some { status := Status.notSupported.code }
    else match findEntry volume.rootDirectory (dosName irp.stack n.text) (numEntries volume.fatHeader).toNat with
      | some i => openEntry volume irp i
      | none => some { status := Status.notFound.code } := by
  have path : wcstomb (irp.relativeFileName.drop 1) = n.text := by
    rw [named, List.map_cons, List.drop_succ_cons, List.drop_zero, wcstomb_text]
  have present : BitVec.ofNat 16 (2 * irp.relativeFileName.length) ≠ 0 := by
    have short := text_length n
    have length : irp.relativeFileName.length = n.text.length + 1 := by
      rw [named, List.length_map, List.length_cons]
    rw [length]
    intro zero
    have value := congrArg BitVec.toNat zero
    change 2 * (n.text.length + 1) % 65536 = 0 at value
    omega
  have inside : ((fsFatNtNameToDosName n.text).2.all fun s => s.1 < 12) = true :=
    List.all_eq_true.mpr fun s member => decide_eq_true (text_inside n s member)
  have separated : (strchr pathSeparator n.text).isSome = decide (pathSeparator ∈ n.text) := by
    rw [Bool.eq_iff_iff, decide_eq_true_iff, Option.isSome_iff_ne_none, ne_eq, strchr_none, not_not]
  unfold fsFatCreate
  dsimp only
  rw [if_neg Bool.false_ne_true, if_neg present, path, inside, separated]
  simp only [decide_eq_true_eq]
  cases irp.pathAllocated <;> rfl

theorem openEntry_status {c : Created} (opened : openEntry volume irp i = some c) : c.status ≠ Status.notFound.code := by
  unfold openEntry at opened
  split at opened
  · cases opened
    decide
  · split at opened
    · cases opened
      decide
    · obtain ⟨r, cached, rfl⟩ := Option.map_eq_some_iff.mp opened
      have statuses : r.1 = Status.invalidParameter.code ∨ r.1 = Status.insufficientResources.code ∨
          r.1 = Status.success.code := by
        unfold Cc.ccInitializeFileCaching at cached
        dsimp only at cached
        split_ifs at cached <;> cases cached
        · exact .inl rfl
        all_goals first | exact .inr (.inl rfl) | exact .inr (.inr rfl)
      rcases statuses with status | status | status
      all_goals
        change r.1 ≠ Status.notFound.code
        rw [status]
        decide

theorem openEntry_succeeds : (∃ c j, openEntry volume irp i = some c ∧ succeeded c.status = true ∧ c.dirEnt = some j) ↔
    Admitted volume irp i := by
  constructor
  · rintro ⟨c, j, opened, success, entry⟩
    unfold openEntry at opened
    split at opened
    · cases opened
      cases entry
    next permitted =>
      split at opened
      · cases opened
        cases entry
      next control =>
        obtain ⟨r, cached, rfl⟩ := Option.map_eq_some_iff.mp opened
        exact ⟨permitted, by simpa using control, r, cached, success⟩
  · rintro ⟨permitted, control, r, cached, success⟩
    refine ⟨{ status := r.1, dirEnt := some i }, i, ?_, success, rfl⟩
    rw [openEntry, if_neg permitted, control, Bool.not_true, if_neg Bool.false_ne_true, cached]
    rfl

theorem openEntry_entry {c : Created} {j : Nat} (opened : openEntry volume irp i = some c) (entry : c.dirEnt = some j) :
    j = i := by
  unfold openEntry at opened
  split at opened
  · cases opened
    cases entry
  · split at opened
    · cases opened
      cases entry
    · obtain ⟨r, -, rfl⟩ := Option.map_eq_some_iff.mp opened
      exact (Option.some.inj entry).symm

/-- The lookup answers as it should unless more than the first cluster of the directory would have to be searched, an
entry has the bytes of the name and is not a file, a short extension was converted wrongly, or the file cannot be opened. -/
theorem findsFile_iff (named : irp.Names n) :
    FindsFile callDriver volume entries irp n ↔ SearchSuffices volume entries irp n := by
  have outcome := @fsFatCreate_name callDriver volume irp n named
  constructor
  · intro finds
    have answered : ∃ c, fsFatCreate false callDriver volume irp = some c ∧
        (succeeded c.status = true ∨ c.status = Status.notFound.code) := by
      by_cases live : ∃ i, LiveFile volume entries n i
      · obtain ⟨c, i, result, success, -⟩ := finds.found live
        exact ⟨c, result, .inl success⟩
      · obtain ⟨c, result, status⟩ := finds.missing (not_exists.mp live)
        exact ⟨c, result, .inr status⟩
    obtain ⟨c, result, status⟩ := answered
    have path : irp.pathAllocated = true := by
      by_contra unallocated
      rw [outcome, if_pos (Bool.eq_false_of_not_eq_true unallocated)] at result
      cases result
    rw [if_neg (by simp [path])] at outcome
    have plain : pathSeparator ∉ n.text := by
      intro separated
      rw [outcome, if_pos separated] at result
      cases result
      rcases status with success | missing
      · exact absurd success (by decide)
      · exact absurd missing (by decide)
    rw [if_neg plain] at outcome
    refine ⟨path, plain, ?_, ?_⟩
    · intro i below here earlier
      rw [findEntry_some.mpr ⟨below, here, earlier⟩] at outcome
      have live : ∃ i, LiveFile volume entries n i := by
        by_contra none_live
        obtain ⟨c, result, missing⟩ := finds.missing (not_exists.mp none_live)
        exact openEntry_status (outcome.symm.trans result) missing
      obtain ⟨c, j, result, success, entry, file⟩ := finds.found live
      have opened := outcome.symm.trans result
      have same := openEntry_entry opened entry
      subst same
      exact ⟨file, openEntry_succeeds.mp ⟨c, j, opened, success, entry⟩⟩
    · intro unmatched i file
      rw [findEntry_none.mpr unmatched] at outcome
      obtain ⟨c, j, result, -, entry, -⟩ := finds.found ⟨i, file⟩
      have same := Option.some.inj (outcome.symm.trans result)
      rw [← same] at entry
      cases entry
  · rintro ⟨path, plain, first, others⟩
    rw [if_neg (by simp [path]), if_neg plain] at outcome
    cases search : findEntry volume.rootDirectory (dosName irp.stack n.text) (numEntries volume.fatHeader).toNat with
    | none =>
      rw [search] at outcome
      have unmatched := others (findEntry_none.mp search)
      exact ⟨fun ⟨i, live⟩ => absurd live (unmatched i), fun _ => ⟨_, outcome, rfl⟩⟩
    | some i =>
      rw [search] at outcome
      obtain ⟨below, here, earlier⟩ := findEntry_some.mp search
      obtain ⟨file, admitted⟩ := first i below here earlier
      obtain ⟨c, j, opened, success, entry⟩ := openEntry_succeeds.mpr admitted
      have same := openEntry_entry opened entry
      subst same
      exact ⟨fun _ => ⟨c, j, outcome.trans opened, success, entry, file⟩, fun missing => absurd file (missing j)⟩

/-- A directory of fixed size is searched as a whole, and of any other one the first cluster is. -/
theorem numEntries_root (root : HasRoot volume entries) :
    (volume.fatHeader.directoryEntries ≠ 0 → (numEntries volume.fatHeader).toNat = entries) ∧
    (volume.fatHeader.directoryEntries = 0 → (numEntries volume.fatHeader).toNat =
      volume.fatHeader.sectorsPerCluster.toNat * volume.fatHeader.sectorSize.toNat / 32) := by
  have spc := volume.fatHeader.sectorsPerCluster.isLt
  have sector := volume.fatHeader.sectorSize.isLt
  constructor
  · intro fixed
    rw [numEntries, if_pos fixed, root.fixed fixed, BitVec.toNat_setWidth_of_le (by decide)]
  · intro chain
    have product : volume.fatHeader.sectorsPerCluster.toNat * volume.fatHeader.sectorSize.toNat < 2 ^ 32 :=
      Nat.lt_of_lt_of_le (Nat.mul_lt_mul'' spc sector) (by decide)
    rw [numEntries, if_neg (not_not.mpr chain), BitVec.toNat_udiv, BitVec.toNat_mul, BitVec.toNat_setWidth_of_le (by decide),
      BitVec.toNat_setWidth_of_le (by decide), Nat.mod_eq_of_lt product]
    rfl

/-- In a directory of fixed size a name that is converted well is found unless something else has its bytes. -/
theorem findsFile_fixed (named : irp.Names n) (root : HasRoot volume entries)
    (fixed : volume.fatHeader.directoryEntries ≠ 0) (full : ∀ e ∈ n.extension, e.length = 3)
    (path : irp.pathAllocated = true) (plain : pathSeparator ∉ n.text)
    (others : ∀ i < entries, (volume.rootDirectory i).filename = n.entry → LiveFile volume entries n i ∧ Admitted volume irp i) :
    FindsFile callDriver volume entries irp n := by
  have searched := (numEntries_root root).1 fixed
  have bytes : dosName irp.stack n.text = n.entry := (converted_iff n).mpr full _
  refine (findsFile_iff named).mpr ⟨path, plain, ?_, ?_⟩
  · intro i below here _
    rw [searched] at below
    exact others i below (here.trans bytes)
  · intro unmatched i live
    rw [searched] at unmatched
    exact unmatched i live.inside (live.name.trans bytes.symm)

end lookup

section twoClusters

def nameA : ShortName where
  base := [0x41]
  extension := none
  baseFits := by decide
  extensionFits := by decide
  basePlain := by decide
  extensionPlain := by decide

/-- A root directory of two clusters with the file A at a place, and files B everywhere else. -/
def twoClusters (place : Nat) : FsfatVolume where
  fatHeader := { directoryEntries := 0 }
  clusterSize := 512
  rootDirectory i := ⟨(if i = place then 0x41 else 0x42) :: List.replicate 10 space, 0, rfl⟩

def openA : CreateIrp where
  relativeFileName := [0x5C, 0x41]
  desiredAccess := 0
  file := { readThrough := true, writeThrough := true, cacheMap := ⟨0, 0, 0, 0, []⟩ }
  pathAllocated := true
  fcbAllocated := true
  cacheHeap _ := true
  stack _ := 0

theorem twoClusters_root (place : Nat) : HasRoot (twoClusters place) 32 :=
  ⟨fun fixed => absurd rfl fixed, fun _ => ⟨2, by decide, show 32 = 2 * (1 * 512) / 32 by decide⟩⟩

theorem openA_names : openA.Names nameA := by
  unfold CreateIrp.Names
  decide

theorem twoClusters_matches {place i : Nat} : Matches (twoClusters place) openA nameA i ↔ i = place := by
  have bytes : dosName openA.stack nameA.text = 0x41 :: List.replicate 10 space := by decide
  change (if i = place then (0x41 : Char8) else 0x42) :: List.replicate 10 space = dosName openA.stack nameA.text ↔ _
  rw [bytes, List.cons.injEq, and_iff_left rfl]
  by_cases here : i = place
  · rw [if_pos here]
    exact iff_of_true rfl here
  · rw [if_neg here]
    exact iff_of_false (by decide) here

theorem twoClusters_live {place : Nat} (inside : place < 32) : LiveFile (twoClusters place) 32 nameA place where
  inside := inside
  name := by
    change (if place = place then (0x41 : Char8) else 0x42) :: List.replicate 10 space = nameA.entry
    rw [if_pos rfl]
    decide
  undeleted := by
    change some (if place = place then (0x41 : Char8) else 0x42) ≠ some 0xE5
    rw [if_pos rfl]
    decide
  before j _ := by
    change some (if j = place then (0x41 : Char8) else 0x42) ≠ some 0
    split <;> decide
  file := by
    change (0 : BitVec 8).getLsbD 3 = false ∧ (0 : BitVec 8).getLsbD 4 = false
    decide

theorem findsFile_first : FindsFile 0 (twoClusters 0) 32 openA nameA := by
  refine (findsFile_iff openA_names).mpr ⟨rfl, by decide, ?_, ?_⟩
  · intro i _ here _
    have first := twoClusters_matches.mp here
    subst first
    exact ⟨twoClusters_live (by decide), by decide, rfl, _, rfl, by decide⟩
  · intro unmatched
    exact absurd (twoClusters_matches.mpr rfl) (unmatched 0 (by decide))

theorem secondCluster_unsearched : HasRoot (twoClusters 16) 32 ∧ ¬FindsFile 0 (twoClusters 16) 32 openA nameA := by
  refine ⟨twoClusters_root 16, fun finds => ?_⟩
  obtain ⟨c, i, result, success, -⟩ := finds.found ⟨16, twoClusters_live (by decide)⟩
  have missing : fsFatCreate false 0 (twoClusters 16) openA = some { status := Status.notFound.code } := by decide
  cases missing.symm.trans result
  exact absurd success (by decide)

end twoClusters

end Gr8os.FsFat
