import Gr8os.Ob.NameWalk

/-! The name that ObQueryObjectName makes for an object out of the names on the way to the root. -/
namespace Gr8os.Ob

/-- What happens to a buffer of a name: it is allocated and a string copied into it, or it is freed. -/
inductive NameEvent
  | allocate (buffer size : Nat) (string : List WChar)
  | free (buffer : Nat)
deriving DecidableEq

/-- The name, the buffer that holds it, and what was done with buffers on the way. -/
structure QueriedName where
  name : UnicodeString
  buffer : Nat
  events : List NameEvent

/-- The count of bytes with one more name before a backslash. -/
def addName (currLen : BitVec 32) (objectName : List WChar) : BitVec 32 :=
  currLen + (4 + (rtlInitUnicodeString objectName).length.setWidth 32)

/-- The loop over the parent directories. A heap call that fails is not noticed, and the copy faults. -/
def queryLoop (allocated : Nat → Bool) (s : ObjectSpace) :
    Nat → Option Nat → List WChar → BitVec 32 → Nat → Option QueriedName
  | 0, _, _, _, _ => none
  | _ + 1, none, objName, _, buffer => some ⟨rtlInitUnicodeString objName, buffer, []⟩
  | fuel + 1, some currDir, objName, currLen, buffer =>
    let objectHeader := s.object currDir
    let currLen := addName currLen objectHeader.objectName
    let tempName := objectHeader.objectName ++ backslash :: objName
    if !allocated (buffer + 1) then none
    else
      (queryLoop allocated s fuel objectHeader.parentDirectory tempName currLen (buffer + 1)).map fun q =>
        { q with events := .allocate (buffer + 1) currLen.toNat tempName :: .free buffer :: q.events }

/-- The name of an object always has a buffer, which is empty if the object was created without one; a name's MaximumLength
is two bytes more than its Length. -/
def obQueryObjectName (allocated : Nat → Bool) (queryNameRoutine : ObjectType → Option (Nat → Option QueriedName))
    (s : ObjectSpace) (fuel o : Nat) : Option QueriedName :=
  let objectHeader := s.object o
  match queryNameRoutine objectHeader.objectType with
  | some routine => routine o
  | none =>
    let length := (rtlInitUnicodeString objectHeader.objectName).length
    if !allocated 0 then none
    else
      (queryLoop allocated s fuel objectHeader.parentDirectory objectHeader.objectName (length.setWidth 32) 0).map fun q =>
        { q with events := .allocate 0 (length + 2).toNat objectHeader.objectName :: q.events }

/-- Every buffer is large enough for its string, and is freed once if it is not the one to keep. -/
structure BuffersFreed (events : List NameEvent) (kept : Option Nat) : Prop where
  large : ∀ b size string, NameEvent.allocate b size string ∈ events → 2 * string.length + 2 ≤ size
  freed : ∀ b size string, NameEvent.allocate b size string ∈ events →
    events.count (.free b) = if some b = kept then 0 else 1

/-- What ObInsertObject makes of directories into which objects without a backslash in their names are inserted, none with
a name that its siblings have. The root is in none of them. -/
structure Siblings (s : ObjectSpace) : Prop where
  unique : ∀ d, ((s.objectList d).map fun o => (s.object o).objectName).Nodup
  plain : ∀ d, ∀ o ∈ s.objectList d, backslash ∉ (s.object o).objectName
  linked : ∀ d, ∀ o ∈ s.objectList d, (s.object o).parentDirectory = some d
  root : (s.object s.obRootObjectDirectory).objectName = [] ∧ (s.object s.obRootObjectDirectory).parentDirectory = none

theorem Siblings.root_not_listed {s : ObjectSpace} (siblings : Siblings s) (d : Nat) :
    s.obRootObjectDirectory ∉ s.objectList d := by
  intro listed
  have parent := siblings.linked d _ listed
  rw [siblings.root.2] at parent
  cases parent

/-- The object lies below the root, under these names. -/
inductive Under (s : ObjectSpace) : Nat → List (List WChar) → Prop
  | root : Under s s.obRootObjectDirectory []
  | child {d o : Nat} {cs : List (List WChar)} (parent : Under s d cs) (listed : o ∈ s.objectList d) :
      Under s o (cs ++ [(s.object o).objectName])

section names

variable {s : ObjectSpace} {o d : Nat} {cs : List (List WChar)}

theorem Under.unique (siblings : Siblings s) {cs' : List (List WChar)} (first : Under s o cs) (second : Under s o cs') :
    cs = cs' := by
  induction first generalizing cs' with
  | root =>
    cases second with
    | root => rfl
    | child parent listed => exact absurd listed (siblings.root_not_listed _)
  | @child d o cs parent listed ih =>
    cases second with
    | root => exact absurd listed (siblings.root_not_listed _)
    | child parent' listed' =>
      have same := (siblings.linked _ _ listed).symm.trans (siblings.linked _ _ listed')
      cases same
      rw [ih parent']

theorem Under.plain (siblings : Siblings s) (under : Under s o cs) : ∀ c ∈ cs, backslash ∉ c := by
  induction under with
  | root => exact fun c member => absurd member List.not_mem_nil
  | child parent listed ih =>
    intro c member
    rcases List.mem_append.mp member with before | last
    · exact ih c before
    · rw [List.mem_singleton.mp last]
      exact siblings.plain _ _ listed

/-- The way down to an object, name by name. -/
inductive Descends (s : ObjectSpace) : Nat → List (List WChar) → Nat → Prop
  | last {d o : Nat} (listed : o ∈ s.objectList d) : Descends s d [(s.object o).objectName] o
  | step {d e o : Nat} {cs : List (List WChar)} (listed : e ∈ s.objectList d) (rest : Descends s e cs o) :
      Descends s d ((s.object e).objectName :: cs) o

theorem Descends.child {e : Nat} (down : Descends s d cs e) (listed : o ∈ s.objectList e) :
    Descends s d (cs ++ [(s.object o).objectName]) o := by
  induction down with
  | last first => exact .step first (.last listed)
  | step first _ ih => exact .step first (ih listed)

theorem Under.descends (under : Under s o cs) (named : cs ≠ []) : Descends s s.obRootObjectDirectory cs o := by
  induction under with
  | root => exact absurd rfl named
  | @child d o cs parent listed ih =>
    cases parent with
    | root => exact .last listed
    | child parent' listed' => exact (ih (by simp)).child listed

theorem directory_of_listed (listed : o ∈ s.objectList d) : ∃ objectList, (s.object d).body = .directory objectList := by
  unfold ObjectSpace.objectList at listed
  split at listed
  · next objectList body => exact ⟨objectList, body⟩
  · exact absurd listed List.not_mem_nil

theorem Descends.directory (down : Descends s d cs o) : ∃ objectList, (s.object d).body = .directory objectList := by
  cases down with
  | last listed => exact directory_of_listed listed
  | step listed => exact directory_of_listed listed

theorem Descends.named (down : Descends s d cs o) : cs ≠ [] := by
  cases down <;> exact List.cons_ne_nil _ _

end names

section query

variable {allocated : Nat → Bool} {s : ObjectSpace} {d : Nat} {xs : List (List WChar)} {fuel buffer : Nat}
  {objName : List WChar} {currLen : BitVec 32} {q : QueriedName}

/-- What is done on the way with the buffers: each is large enough for its string, and each but the last is freed once. -/
structure Tidy (events : List NameEvent) (first last : Nat) : Prop where
  large : ∀ b size string, NameEvent.allocate b size string ∈ events →
    first < b ∧ b ≤ last ∧ 2 * string.length + 2 ≤ size
  freed : ∀ b, events.count (.free b) = if first ≤ b ∧ b < last then 1 else 0

theorem Tidy.nil (buffer : Nat) : Tidy [] buffer buffer where
  large b size string member := absurd member List.not_mem_nil
  freed b := by
    rw [if_neg (by omega)]
    rfl

theorem Tidy.cons {events : List NameEvent} {last size : Nat} {string : List WChar} (tidy : Tidy events (buffer + 1) last)
    (above : buffer + 1 ≤ last) (fits : 2 * string.length + 2 ≤ size) :
    Tidy (.allocate (buffer + 1) size string :: .free buffer :: events) buffer last where
  large b size' string' member := by
    rcases List.mem_cons.mp member with same | member
    · cases same
      exact ⟨Nat.lt_succ_self buffer, above, fits⟩
    · rcases List.mem_cons.mp member with same | member
      · cases same
      · obtain ⟨later, below, fits'⟩ := tidy.large b size' string' member
        exact ⟨Nat.lt_of_succ_lt later, below, fits'⟩
  freed b := by
    have rest := tidy.freed b
    rw [List.count_cons_of_ne (by exact NameEvent.noConfusion)]
    by_cases same : b = buffer
    · subst same
      rw [List.count_cons_self, rest, if_neg (by omega), if_pos (by omega)]
    · have other : NameEvent.free buffer ≠ .free b := fun equal => same (NameEvent.free.inj equal).symm
      rw [List.count_cons_of_ne other, rest]
      by_cases inside : buffer ≤ b ∧ b < last
      · rw [if_pos (by omega), if_pos inside]
      · rw [if_neg (by omega), if_neg inside]

/-- The buffer for the object's own name, which comes before them. -/
theorem Tidy.first {events : List NameEvent} {last size : Nat} {string : List WChar} (tidy : Tidy events 0 last)
    (fits : 2 * string.length + 2 ≤ size) :
    BuffersFreed (.allocate 0 size string :: events) (some last) := by
  have count : ∀ b ≤ last, (NameEvent.allocate 0 size string :: events).count (.free b) =
      if some b = some last then 0 else 1 := by
    intro b below
    rw [List.count_cons_of_ne (by exact NameEvent.noConfusion), tidy.freed b]
    by_cases same : b = last
    · rw [if_neg (by omega), if_pos (congrArg some same)]
    · rw [if_pos (by omega), if_neg fun equal => same (Option.some.inj equal)]
  constructor
  · intro b size' string' member
    rcases List.mem_cons.mp member with here | member
    · cases here
      exact fits
    · exact (tidy.large b size' string' member).2.2
  · intro b size' string' member
    rcases List.mem_cons.mp member with here | member
    · cases here
      exact count 0 (Nat.zero_le last)
    · exact count b (tidy.large b size' string' member).2.1

/-- The bytes of the names on the way up, in the count of the loop. -/
theorem currLen_next {c : List WChar} (small : c.length < 32767) (lower : 2 * objName.length ≤ currLen.toNat)
    (upper : currLen.toNat ≤ 4 * objName.length) (total : (c ++ backslash :: objName).length ≤ 32767) :
    2 * (c ++ backslash :: objName).length + 2 ≤ (addName currLen c).toNat ∧
      (addName currLen c).toNat ≤ 4 * (c ++ backslash :: objName).length := by
  have length : (rtlInitUnicodeString c).length.toNat = 2 * c.length := by
    simp only [rtlInitUnicodeString, BitVec.toNat_ofNat]
    rw [Nat.mod_eq_of_lt (by omega), Nat.mul_comm]
  have four : (4 : BitVec 32).toNat = 4 := by decide
  have next : (addName currLen c).toNat = currLen.toNat + (4 + 2 * c.length) := by
    simp only [List.length_append, List.length_cons] at total
    rw [addName, BitVec.toNat_add, BitVec.toNat_add, BitVec.toNat_setWidth, length, four]
    omega
  simp only [List.length_append, List.length_cons] at total ⊢
  rw [next]
  omega

theorem queryLoop_some : queryLoop allocated s (fuel + 1) (some d) objName currLen buffer =
    if !allocated (buffer + 1) then none
    else
      let tempName := (s.object d).objectName ++ backslash :: objName
      let currLen := addName currLen (s.object d).objectName
      (queryLoop allocated s fuel (s.object d).parentDirectory tempName currLen (buffer + 1)).map fun q =>
        { q with events := .allocate (buffer + 1) currLen.toNat tempName :: .free buffer :: q.events } := by
  rw [queryLoop]

theorem pathString_snoc (cs : List (List WChar)) (c objName : List WChar) :
    pathString (cs ++ [c]) ++ backslash :: objName = pathString cs ++ backslash :: (c ++ backslash :: objName) := by
  simp [pathString_append]

/-- The loop makes the path out of the names on the way up, and has a buffer for each of them. -/
theorem queryLoop_name (siblings : Siblings s) (under : Under s d xs)
    (found : queryLoop allocated s fuel (some d) objName currLen buffer = some q) :
    q.name = rtlInitUnicodeString (pathString xs ++ backslash :: objName) ∧
      ∀ i, buffer < i → i ≤ buffer + xs.length + 1 → allocated i = true := by
  induction under generalizing fuel objName currLen buffer q with
  | root =>
    cases fuel with
    | zero => cases found
    | succ fuel =>
      rw [queryLoop_some] at found
      split at found
      · cases found
      · next room =>
        obtain ⟨q', rest, rfl⟩ := Option.map_eq_some_iff.mp found
        rw [siblings.root.1, siblings.root.2] at rest
        cases fuel with
        | zero => cases rest
        | succ fuel =>
          cases Option.some.inj rest
          refine ⟨rfl, fun i above below => ?_⟩
          have only : i = buffer + 1 := by
            simp only [List.length_nil] at below
            omega
          simpa [only] using room
  | @child d o cs parent listed ih =>
    cases fuel with
    | zero => cases found
    | succ fuel =>
      rw [queryLoop_some] at found
      split at found
      · cases found
      · next room =>
        obtain ⟨q', rest, rfl⟩ := Option.map_eq_some_iff.mp found
        rw [siblings.linked d o listed] at rest
        obtain ⟨name, heap⟩ := ih rest
        refine ⟨name.trans (congrArg rtlInitUnicodeString (pathString_snoc cs _ objName).symm), fun i above below => ?_⟩
        rcases Nat.eq_or_lt_of_le above with first | later
        · simpa [← first] using room
        · apply heap i later
          simp only [List.length_append, List.length_singleton] at below
          omega

/-- With enough room for a buffer each, the loop ends and keeps its buffers in order. -/
theorem queryLoop_tidy (siblings : Siblings s) (under : Under s d xs)
    (heap : ∀ i, buffer < i → i ≤ buffer + xs.length + 1 → allocated i = true)
    (lower : 2 * objName.length ≤ currLen.toNat) (upper : currLen.toNat ≤ 4 * objName.length)
    (total : (pathString xs ++ backslash :: objName).length ≤ 32767) :
    ∃ q, (∀ fuel, xs.length + 2 ≤ fuel → queryLoop allocated s fuel (some d) objName currLen buffer = some q) ∧
      q.buffer = buffer + xs.length + 1 ∧ Tidy q.events buffer q.buffer := by
  induction under generalizing objName currLen buffer with
  | root =>
    have room : allocated (buffer + 1) = true := heap (buffer + 1) (Nat.lt_succ_self buffer) (Nat.le_refl _)
    have fits := currLen_next (c := []) (by decide) lower upper total
    refine ⟨⟨rtlInitUnicodeString (backslash :: objName), buffer + 1,
      [.allocate (buffer + 1) (addName currLen []).toNat (backslash :: objName), .free buffer]⟩, fun fuel enough => ?_, rfl,
      (Tidy.nil (buffer + 1)).cons (Nat.le_refl _) fits.1⟩
    obtain ⟨fuel, rfl⟩ : ∃ f, fuel = f + 2 := ⟨fuel - 2, by simp only [List.length_nil] at enough; omega⟩
    rw [queryLoop_some, room, siblings.root.1, siblings.root.2]
    rfl
  | @child d o cs parent listed ih =>
    simp only [List.length_append, List.length_singleton] at heap
    have room : allocated (buffer + 1) = true := heap (buffer + 1) (Nat.lt_succ_self buffer) (by omega)
    rw [pathString_snoc] at total
    have within : ((s.object o).objectName ++ backslash :: objName).length ≤ 32767 := by
      simp only [List.length_append, List.length_cons] at total ⊢
      omega
    have short : (s.object o).objectName.length < 32767 := by
      simp only [List.length_append, List.length_cons] at within
      omega
    have fits := currLen_next short lower upper within
    have later : ∀ i, buffer + 1 < i → i ≤ buffer + 1 + cs.length + 1 → allocated i = true :=
      fun i above below => heap i (by omega) (by omega)
    obtain ⟨q, rest, last, tidy⟩ := ih later (Nat.le_trans (Nat.le_add_right _ 2) fits.1) fits.2 total
    have kept := tidy.cons (by omega) fits.1
    refine ⟨⟨q.name, q.buffer, _⟩, fun fuel enough => ?_, ?_, kept⟩
    · simp only [List.length_append, List.length_singleton] at enough
      obtain ⟨fuel, rfl⟩ : ∃ f, fuel = f + 1 := ⟨fuel - 1, by omega⟩
      rw [queryLoop_some, room, siblings.linked d o listed]
      dsimp only
      rw [rest fuel (by omega)]
      rfl
    · simp only [List.length_append, List.length_singleton]
      omega

end query

end Gr8os.Ob
