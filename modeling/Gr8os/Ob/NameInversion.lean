import Gr8os.Ob.ObjectNames

/-! Which names that ObQueryObjectName makes lead ObReferenceObjectByName back to the object. -/
namespace Gr8os.Ob

/-- The loop of ObReferenceObjectByName with its buffers, each for a single name and numbered by its heap call. -/
def nameBuffers (allocated : Nat → Bool) (s : ObjectSpace) (parseContext : BitVec 32) (path : UnicodeString) :
    Nat → Nat → Nat → Nat → Nat → List NameEvent × LoopEnd
  | 0, _, _, _, _ => ([], .fuel)
  | fuel + 1, currentDirectory, prevslash, wc, heapCalls =>
    if path.buffer[wc]? = some backslash ∨ 2 * wc ≥ path.length.toNat then
      if !allocated heapCalls then ([], .returned .insufficientResources)
      else
        let tempName := wcssubstr (path.buffer.drop (prevslash + 1)) 0 ((2 * wc - 2 * prevslash) / 2 - 1)
        let events := [.allocate heapCalls (2 * wc - 2 * prevslash) tempName, .free heapCalls]
        match obpFindObjectInDirectory s currentDirectory tempName with
        | none => (events, .returned .notFound)
        | some o =>
          let parsed := parseRoutine (s.object o) (path.buffer.drop wc) parseContext (allocated (heapCalls + 1))
          match afterParse o (heapCalls + 2) parsed with
          | some e => (events, e)
          | none =>
            if 2 * wc ≥ path.length.toNat then (events, .finish o none)
            else if (s.object o).objectType ≠ .directory then (events, .returned .notFound)
            else
              let rest := nameBuffers allocated s parseContext path fuel o wc (wc + 1) (heapCalls + 1)
              (events ++ rest.1, rest.2)
    else nameBuffers allocated s parseContext path fuel currentDirectory prevslash (wc + 1) heapCalls

/-- The buffers of a lookup with the context 1, which leads to no other path than the first. -/
def lookupBuffers (allocated : Nat → Bool) (s : ObjectSpace) (path : UnicodeString) : List NameEvent :=
  (nameBuffers allocated s 1 path (path.buffer.length + 1) s.obRootObjectDirectory 0 1 0).1

section lookup

variable {allocated : Nat → Bool} {s : ObjectSpace} {d o prevslash k fuel : Nat} {cs : List (List WChar)}
  {path : UnicodeString}

theorem Siblings.named (siblings : Siblings s) (listed : o ∈ s.objectList d) :
    s.named d (s.object o).objectName = some o := find_unique (siblings.unique d) listed

/-- With the context 1 no object is passed by: a link is what it is, a device ends the walk with itself. -/
theorem afterParse_here (h : ObjectHeader) (remaining : List WChar) (o heapCalls : Nat) (room : Bool) :
    afterParse o heapCalls (parseRoutine h remaining 1 room) = none ∨
      afterParse o heapCalls (parseRoutine h remaining 1 room) = some (.finish o none) := by
  unfold parseRoutine
  cases h.body with
  | directory objectList => exact .inl rfl
  | symbolicLink target => exact .inl rfl
  | device => exact .inr rfl
  | other n => exact .inl rfl

/-- The loop walks down to the object if there is room for each of the names. -/
theorem nameLoop_descends (siblings : Siblings s) (pos : Position path prevslash cs) (down : Descends s d cs o)
    (room : (pathString cs).length ≤ fuel) :
    nameLoop allocated s 1 path fuel d prevslash (prevslash + 1) k = .finish o none ↔
      ∀ i < cs.length, allocated (k + i) = true := by
  induction down generalizing prevslash k fuel with
  | @last d o listed =>
    simp only [pathString_cons, pathString_nil, List.length_cons, List.append_nil] at room
    obtain ⟨fuel, rfl⟩ : ∃ f, fuel = f + 1 + (s.object o).objectName.length :=
      ⟨fuel - 1 - (s.object o).objectName.length, by omega⟩
    rw [nameLoop_component pos, siblings.named listed]
    have only : (∀ i < [(s.object o).objectName].length, allocated (k + i) = true) ↔ allocated k = true := by
      constructor
      · exact fun all => all 0 (Nat.lt_succ_self 0)
      · intro room i below
        rwa [Nat.lt_one_iff.mp below]
    rw [only]
    cases allocated k with
    | false => exact iff_of_false (fun found => LoopEnd.noConfusion found) Bool.false_ne_true
    | true =>
      refine iff_of_true ?_ rfl
      rcases afterParse_here (s.object o) (pathString []) o (k + 2) (allocated (k + 1)) with goes_on | here
      · simp only [Bool.not_true, Bool.false_eq_true, if_false, if_true, goes_on]
      · simp only [Bool.not_true, Bool.false_eq_true, if_false, here]
  | @step d e o cs listed rest ih =>
    simp only [pathString_cons, List.length_cons, List.length_append] at room
    obtain ⟨fuel, rfl⟩ : ∃ f, fuel = f + 1 + (s.object e).objectName.length :=
      ⟨fuel - 1 - (s.object e).objectName.length, by omega⟩
    rw [nameLoop_component pos, siblings.named listed]
    have more := rest.named
    obtain ⟨objectList, kind⟩ := rest.directory
    have type : (s.object e).objectType = .directory := by rw [ObjectHeader.objectType, kind]
    have unparsed : parseRoutine (s.object e) (pathString cs) 1 (allocated (k + 1)) = none := by
      rw [parseRoutine, kind]
    have rest_iff : (∀ i < ((s.object e).objectName :: cs).length, allocated (k + i) = true) ↔
        allocated k = true ∧ ∀ i < cs.length, allocated (k + 1 + i) = true := by
      rw [List.length_cons, Nat.forall_lt_succ_left']
      simp only [Nat.add_zero, Nat.add_assoc, Nat.add_comm 1]
    rw [rest_iff]
    cases allocated k with
    | false => exact iff_of_false (fun found => LoopEnd.noConfusion found) fun both => absurd both.1 Bool.false_ne_true
    | true =>
      simp only [Bool.not_true, Bool.false_eq_true, if_false, unparsed, afterParse, if_neg more, type, ne_eq, not_true]
      rw [ih (pos.next more) (by omega)]
      exact (and_iff_right trivial).symm

/-- Whatever length a path is said to have, the loop finds no object whose own path is longer. -/
theorem nameLoop_reaches {xs : List (List WChar)} {wc : Nat} {packet : Option (List WChar)}
    (under : Under s d xs) (consumed : (pathString xs).length ≤ prevslash) (after : prevslash < wc)
    (scanned : wc = 1 ∨ 2 * (wc - 1) < path.length.toNat)
    (found : nameLoop allocated s 1 path fuel d prevslash wc k = .finish o packet) :
    ∃ ys, Under s o ys ∧ ((pathString ys).length ≤ 1 ∨ 2 * ((pathString ys).length - 1) < path.length.toNat) := by
  induction fuel generalizing d xs prevslash wc k with
  | zero => cases found
  | succ fuel ih =>
    rw [nameLoop] at found
    split at found
    · split at found
      · cases found
      · dsimp only at found
        rw [obpFindObjectInDirectory_eq] at found
        cases named : s.named d (wcssubstr (path.buffer.drop (prevslash + 1)) 0 ((2 * wc - 2 * prevslash) / 2 - 1)) with
        | none =>
          rw [named] at found
          cases found
        | some o' =>
          simp only [named] at found
          have name : (s.object o').objectName =
              wcssubstr (path.buffer.drop (prevslash + 1)) 0 ((2 * wc - 2 * prevslash) / 2 - 1) := by
            simpa using List.find?_some named
          have below : Under s o' (xs ++ [(s.object o').objectName]) := under.child (List.mem_of_find?_eq_some named)
          have length : (s.object o').objectName.length ≤ wc - prevslash - 1 := by
            rw [name, wcssubstr]
            refine Nat.le_trans (List.length_take_le _ _) (by omega)
          have total : (pathString (xs ++ [(s.object o').objectName])).length ≤ wc := by
            simp only [pathString_append, pathString_cons, pathString_nil, List.length_append, List.length_cons,
              List.length_nil]
            omega
          have bounded : (pathString (xs ++ [(s.object o').objectName])).length ≤ 1 ∨
              2 * ((pathString (xs ++ [(s.object o').objectName])).length - 1) < path.length.toNat := by omega
          rcases afterParse_here (s.object o') (path.buffer.drop wc) o' (k + 2) (allocated (k + 1)) with goes_on | here
          · simp only [goes_on] at found
            split at found
            · cases found
              exact ⟨_, below, bounded⟩
            · next more =>
              split at found
              · cases found
              · exact ih below total (Nat.lt_succ_self wc) (.inr (by omega)) found
          · simp only [here] at found
            cases found
            exact ⟨_, below, bounded⟩
    · next goes_on =>
      exact ih under consumed (Nat.lt_succ_of_lt after) (.inr (by simp only [not_or] at goes_on; omega)) found

theorem nameBuffers_end {wc : Nat} {parseContext : BitVec 32} :
    (nameBuffers allocated s parseContext path fuel d prevslash wc k).2 =
      nameLoop allocated s parseContext path fuel d prevslash wc k := by
  induction fuel generalizing d prevslash wc k with
  | zero => rfl
  | succ fuel ih =>
    rw [nameBuffers, nameLoop]
    split
    · split
      · rfl
      · dsimp only
        generalize obpFindObjectInDirectory s d _ = found
        cases found with
        | none => rfl
        | some o =>
          dsimp only
          generalize afterParse o (k + 2) _ = ended
          cases ended with
          | some e => rfl
          | none =>
            dsimp only
            split
            · rfl
            · split
              · rfl
              · exact ih
    · exact ih

/-- Buffers numbered from here on, each large enough and freed once. -/
structure FreedFrom (first : Nat) (events : List NameEvent) : Prop where
  large : ∀ b size string, NameEvent.allocate b size string ∈ events → first ≤ b ∧ 2 * string.length + 2 ≤ size
  freed : ∀ b size string, NameEvent.allocate b size string ∈ events → events.count (.free b) = 1
  before : ∀ b < first, events.count (.free b) = 0

theorem FreedFrom.nil (first : Nat) : FreedFrom first [] where
  large _ _ _ member := absurd member List.not_mem_nil
  freed _ _ _ member := absurd member List.not_mem_nil
  before _ _ := rfl

theorem FreedFrom.cons {events : List NameEvent} {first size : Nat} {string : List WChar}
    (rest : FreedFrom (first + 1) events) (fits : 2 * string.length + 2 ≤ size) :
    FreedFrom first (.allocate first size string :: .free first :: events) := by
  have same : (NameEvent.allocate first size string :: .free first :: events).count (.free first) = 1 := by
    rw [List.count_cons_of_ne (by exact NameEvent.noConfusion), List.count_cons_self,
      rest.before first (Nat.lt_succ_self first)]
  have other : ∀ b ≠ first, (NameEvent.allocate first size string :: .free first :: events).count (.free b) =
      events.count (.free b) := by
    intro b different
    rw [List.count_cons_of_ne (by exact NameEvent.noConfusion),
      List.count_cons_of_ne fun equal => different (NameEvent.free.inj equal).symm]
  have later : ∀ b size' string', NameEvent.allocate b size' string' ∈
      NameEvent.allocate first size string :: .free first :: events →
      b = first ∧ 2 * string'.length + 2 ≤ size' ∨ NameEvent.allocate b size' string' ∈ events := by
    intro b size' string' member
    rcases List.mem_cons.mp member with here | member
    · cases here
      exact .inl ⟨rfl, fits⟩
    · rcases List.mem_cons.mp member with here | member
      · cases here
      · exact .inr member
  constructor
  · intro b size' string' member
    rcases later b size' string' member with ⟨rfl, large⟩ | member
    · exact ⟨Nat.le_refl _, large⟩
    · obtain ⟨above, large⟩ := rest.large b size' string' member
      exact ⟨Nat.le_of_succ_le above, large⟩
  · intro b size' string' member
    rcases later b size' string' member with ⟨rfl, _⟩ | member
    · exact same
    · have above := (rest.large b size' string' member).1
      rw [other b (by omega)]
      exact rest.freed b size' string' member
  · intro b below
    rw [other b (by omega)]
    exact rest.before b (Nat.lt_succ_of_lt below)

/-- A single name fits the bytes from one backslash to the next. -/
theorem tempName_fits {wc : Nat} (ws : List WChar) (after : prevslash < wc) :
    2 * (wcssubstr ws 0 ((2 * wc - 2 * prevslash) / 2 - 1)).length + 2 ≤ 2 * wc - 2 * prevslash := by
  have length : (wcssubstr ws 0 ((2 * wc - 2 * prevslash) / 2 - 1)).length ≤ (2 * wc - 2 * prevslash) / 2 - 1 :=
    List.length_take_le _ _
  omega

/-- Whatever is looked up, a name's buffer has room for it and is freed before the next one is allocated. -/
theorem nameBuffers_freed {wc : Nat} {parseContext : BitVec 32} (after : prevslash < wc) :
    FreedFrom k (nameBuffers allocated s parseContext path fuel d prevslash wc k).1 := by
  induction fuel generalizing d prevslash wc k with
  | zero => exact .nil k
  | succ fuel ih =>
    have fits := tempName_fits (path.buffer.drop (prevslash + 1)) after
    have alone := (FreedFrom.nil (k + 1)).cons fits
    rw [nameBuffers]
    split
    · split
      · exact .nil k
      · dsimp only
        generalize obpFindObjectInDirectory s d _ = found
        cases found with
        | none => exact alone
        | some o =>
          dsimp only
          generalize afterParse o (k + 2) _ = ended
          cases ended with
          | some e => exact alone
          | none =>
            dsimp only
            split
            · exact alone
            · split
              · exact alone
              · exact (ih (Nat.lt_succ_self wc)).cons fits
    · exact ih (Nat.lt_succ_of_lt after)

theorem nameLoop_keeps_path {wc heapCalls : Nat} {next : UnicodeString} :
    nameLoop allocated s 1 path fuel d prevslash wc k ≠ .reparse next heapCalls := by
  induction fuel generalizing d prevslash wc k with
  | zero => exact LoopEnd.noConfusion
  | succ fuel ih =>
    rw [nameLoop]
    split
    · split
      · exact LoopEnd.noConfusion
      · dsimp only
        generalize obpFindObjectInDirectory s d _ = found
        cases found with
        | none => exact LoopEnd.noConfusion
        | some o =>
          dsimp only
          rcases afterParse_here (s.object o) (path.buffer.drop wc) o (k + 2) (allocated (k + 1)) with goes_on | here
          · rw [goes_on]
            dsimp only
            split
            · exact LoopEnd.noConfusion
            · split
              · exact LoopEnd.noConfusion
              · exact ih
          · rw [here]
            exact LoopEnd.noConfusion
    · exact ih

/-- A lookup for the kernel that returns the object has found it on its one path. -/
theorem lookup_finish {packet : Option (List WChar)}
    (found : obReferenceObjectByName allocated s (fuel + 1) path none .kernelMode 1 =
      some (finishName s none .kernelMode o packet)) :
    nameLoop allocated s 1 path (path.buffer.length + 1) s.obRootObjectDirectory 0 1 0 = .finish o packet := by
  have finished : ∀ o packet, finishName s none .kernelMode o packet = ⟨.success, some o, packet, obReferenceObject s o⟩ :=
    fun o packet => if_neg fun user => ProcessorMode.noConfusion user.1
  have failed : ∀ status, some (⟨status, none, none, s⟩ : NameResult) ≠ some (finishName s none .kernelMode o packet) := by
    intro status same
    rw [finished] at same
    cases congrArg NameResult.object (Option.some.inj same)
  rw [obReferenceObjectByName, reparseName] at found
  split at found
  · exact absurd found (failed _)
  · split at found
    · exact absurd found (failed _)
    · next o' packet' ends =>
      rw [finished, finished] at found
      cases congrArg NameResult.object (Option.some.inj found)
      cases congrArg NameResult.packet (Option.some.inj found)
      exact ends
    · next ends => exact absurd ends nameLoop_keeps_path
    · cases found

end lookup

section inverts

variable {queryHeap lookupHeap : Nat → Bool} {s : ObjectSpace} {o : Nat} {cs : List (List WChar)} {q : QueriedName}
  {queryNameRoutine : ObjectType → Option (Nat → Option QueriedName)}

/-- The name leads back to the object, and all that was allocated on the way was large enough and is free again. -/
structure LeadsBack (lookupHeap : Nat → Bool) (s : ObjectSpace) (o : Nat) (q : QueriedName) : Prop where
  resolves : ∀ fuel objectType requestorMode,
    obReferenceObjectByName lookupHeap s (fuel + 1) q.name objectType requestorMode 1 =
      some (finishName s objectType requestorMode o none)
  query : BuffersFreed q.events (some q.buffer)
  lookup : BuffersFreed (lookupBuffers lookupHeap s q.name) none

theorem lookupBuffers_freed (path : UnicodeString) : BuffersFreed (lookupBuffers lookupHeap s path) none where
  large b size string member := ((nameBuffers_freed Nat.zero_lt_one).large b size string member).2
  freed b size string member := by
    rw [if_neg (Option.some_ne_none b)]
    exact (nameBuffers_freed Nat.zero_lt_one).freed b size string member

theorem name_position (siblings : Siblings s) (under : Under s o cs) (named : cs ≠ [])
    (short : (pathString cs).length < 2 ^ 15) : Position (rtlInitUnicodeString (pathString cs)) 0 cs := by
  refine ⟨?_, rfl, named, under.plain siblings⟩
  simp only [rtlInitUnicodeString, BitVec.toNat_ofNat]
  rw [Nat.mod_eq_of_lt (by omega), Nat.mul_comm]

theorem obQueryObjectName_name (siblings : Siblings s) (under : Under s o cs) (named : cs ≠ [])
    (plain : queryNameRoutine (s.object o).objectType = none) {fuel : Nat}
    (found : obQueryObjectName queryHeap queryNameRoutine s fuel o = some q) :
    q.name = rtlInitUnicodeString (pathString cs) ∧ ∀ i ≤ cs.length, queryHeap i = true := by
  cases under with
  | root => exact absurd rfl named
  | @child d _ cs parent listed =>
    rw [obQueryObjectName, plain, siblings.linked d o listed] at found
    dsimp only at found
    split at found
    · cases found
    · next room =>
      obtain ⟨q', rest, rfl⟩ := Option.map_eq_some_iff.mp found
      obtain ⟨name, heap⟩ := queryLoop_name siblings parent rest
      refine ⟨?_, fun i below => ?_⟩
      · rw [pathString_append, pathString_cons, pathString_nil, List.append_nil]
        exact name
      · rw [List.length_append, List.length_singleton] at below
        rcases Nat.eq_zero_or_pos i with rfl | above
        · simpa using room
        · exact heap i above (by omega)

/-- A path that fits a UNICODE_STRING is made if every heap call succeeds. -/
theorem obQueryObjectName_some (siblings : Siblings s) (under : Under s o cs) (named : cs ≠ [])
    (plain : queryNameRoutine (s.object o).objectType = none) (short : (pathString cs).length < 2 ^ 15)
    (heap : ∀ i ≤ cs.length, queryHeap i = true) :
    ∃ q, (∀ fuel, cs.length + 1 ≤ fuel → obQueryObjectName queryHeap queryNameRoutine s fuel o = some q) ∧
      BuffersFreed q.events (some q.buffer) := by
  cases under with
  | root => exact absurd rfl named
  | @child d _ cs parent listed =>
    rw [pathString_append, pathString_cons, pathString_nil, List.append_nil] at short
    simp only [List.length_append, List.length_singleton] at heap
    have name : (s.object o).objectName.length < 32767 := by
      simp only [List.length_append, List.length_cons] at short
      omega
    have length : (rtlInitUnicodeString (s.object o).objectName).length.toNat = 2 * (s.object o).objectName.length := by
      simp only [rtlInitUnicodeString, BitVec.toNat_ofNat]
      omega
    have wide : ((rtlInitUnicodeString (s.object o).objectName).length.setWidth 32).toNat =
        2 * (s.object o).objectName.length := by
      rw [BitVec.toNat_setWidth, length]
      omega
    have maximumLength : ((rtlInitUnicodeString (s.object o).objectName).length + 2).toNat =
        2 * (s.object o).objectName.length + 2 := by
      rw [BitVec.toNat_add, length, (by decide : (2 : BitVec 16).toNat = 2)]
      omega
    have later : ∀ i, 0 < i → i ≤ 0 + cs.length + 1 → queryHeap i = true := fun i _ below => heap i (by omega)
    obtain ⟨q, rest, last, tidy⟩ := queryLoop_tidy siblings parent later (Nat.le_of_eq wide.symm)
      (by omega) (Nat.le_of_lt_succ short)
    have kept := tidy.first (Nat.le_of_eq maximumLength.symm)
    refine ⟨⟨q.name, q.buffer, _⟩, fun fuel enough => ?_, kept⟩
    · rw [List.length_append, List.length_singleton] at enough
      rw [obQueryObjectName, plain, heap 0 (Nat.zero_le _), siblings.linked d o listed]
      dsimp only
      rw [rest fuel enough]
      rfl

/-- A longer path counts too few bytes, and leads elsewhere or nowhere. -/
theorem long_lost (siblings : Siblings s) (under : Under s o cs) (long : 2 ^ 15 ≤ (pathString cs).length)
    (back : LeadsBack lookupHeap s o q) : q.name ≠ rtlInitUnicodeString (pathString cs) := by
  intro name
  have ends := lookup_finish (back.resolves 0 none .kernelMode)
  have start : Under s s.obRootObjectDirectory [] := .root
  obtain ⟨ys, reached, short⟩ := nameLoop_reaches start (Nat.zero_le 0) Nat.zero_lt_one (.inl rfl) ends
  rw [reached.unique siblings under, name] at short
  simp only [rtlInitUnicodeString, BitVec.toNat_ofNat] at short
  omega

/-- The name that ObQueryObjectName makes leads back to its object if and only if the bytes of the path can be counted and
every heap call succeeds. -/
theorem name_leads_back_iff (siblings : Siblings s) (under : Under s o cs) (named : cs ≠ [])
    (plain : queryNameRoutine (s.object o).objectType = none) :
    (∃ q fuel₀, (∀ fuel, fuel₀ ≤ fuel → obQueryObjectName queryHeap queryNameRoutine s fuel o = some q) ∧
      LeadsBack lookupHeap s o q) ↔
      (pathString cs).length < 2 ^ 15 ∧ (∀ i ≤ cs.length, queryHeap i = true) ∧
        ∀ i < cs.length, lookupHeap i = true := by
  constructor
  · rintro ⟨q, fuel₀, found, back⟩
    obtain ⟨name, heap⟩ := obQueryObjectName_name siblings under named plain (found fuel₀ (Nat.le_refl _))
    have short : (pathString cs).length < 2 ^ 15 := by
      by_contra long
      exact long_lost siblings under (Nat.le_of_not_lt long) back name
    refine ⟨short, heap, ?_⟩
    have ends := lookup_finish (back.resolves 0 none .kernelMode)
    rw [name] at ends
    have start := name_position siblings under named short
    have room := (nameLoop_descends siblings start (under.descends named) (Nat.le_succ _)).mp ends
    simpa only [Nat.zero_add] using room
  · rintro ⟨short, heap, room⟩
    obtain ⟨q, found, freed⟩ := obQueryObjectName_some siblings under named plain short heap
    have name := (obQueryObjectName_name siblings under named plain (found _ (Nat.le_refl _))).1
    refine ⟨q, _, found, ?_, freed, lookupBuffers_freed q.name⟩
    intro fuel objectType requestorMode
    have start := name_position siblings under named short
    have enough : ∀ i < cs.length, lookupHeap (0 + i) = true := by simpa only [Nat.zero_add] using room
    have ends := (nameLoop_descends siblings start (under.descends named) (Nat.le_succ _)).mpr enough
    rw [name, obReferenceObjectByName, reparseName_start lookupHeap s objectType requestorMode 1 start]
    exact congrArg (endLoop lookupHeap s objectType requestorMode 1 fuel) ends

end inverts

/-- A directory in the root, and an object of type 7 in it, both of one name. -/
def nestedSpace (name : List WChar) : ObjectSpace where
  object
    | 0 => { objectName := [], referenceCount := 1, body := .directory [1] }
    | 1 => { objectName := name, referenceCount := 1, body := .directory [2], parentDirectory := some 0 }
    | 2 => { objectName := name, referenceCount := 1, body := .other 7, parentDirectory := some 1 }
    | _ => { objectName := [], referenceCount := 1, body := .other 0 }
  obRootObjectDirectory := 0

theorem nestedSpace_siblings {name : List WChar} (plain : backslash ∉ name) : Siblings (nestedSpace name) where
  unique d := by
    match d with
    | 0 => exact List.nodup_singleton name
    | 1 => exact List.nodup_singleton name
    | 2 => exact List.nodup_nil
    | _ + 3 => exact List.nodup_nil
  plain d o member := by
    match d with
    | 0 =>
      rw [List.mem_singleton.mp member]
      exact plain
    | 1 =>
      rw [List.mem_singleton.mp member]
      exact plain
    | 2 => cases member
    | _ + 3 => cases member
  linked d o member := by
    match d with
    | 0 =>
      rw [List.mem_singleton.mp member]
      rfl
    | 1 =>
      rw [List.mem_singleton.mp member]
      rfl
    | 2 => cases member
    | _ + 3 => cases member
  root := ⟨rfl, rfl⟩

theorem nestedSpace_under (name : List WChar) : Under (nestedSpace name) 2 [name, name] :=
  have directory : Under (nestedSpace name) 1 [name] := Under.root.child (List.mem_singleton.mpr rfl)
  directory.child (List.mem_singleton.mpr rfl)

/-- Two short names, and a heap with room for all. -/
theorem shortNames_lead_back : ∃ q fuel₀,
    (∀ fuel, fuel₀ ≤ fuel → obQueryObjectName (fun _ => true) (fun _ => none) (nestedSpace nameF) fuel 2 = some q) ∧
      LeadsBack (fun _ => true) (nestedSpace nameF) 2 q :=
  (name_leads_back_iff (nestedSpace_siblings (by decide)) (nestedSpace_under nameF) (by decide) rfl).mpr
    ⟨by decide, fun _ _ => rfl, fun _ _ => rfl⟩

/-- Two names of 16384 characters each make a path of 32770, of which the lookup reads two. -/
theorem longNames_lost : ∃ s o cs, Siblings s ∧ Under s o cs ∧ cs ≠ [] ∧
    ¬∃ q fuel₀, (∀ fuel, fuel₀ ≤ fuel → obQueryObjectName (fun _ => true) (fun _ => none) s fuel o = some q) ∧
      LeadsBack (fun _ => true) s o q := by
  have plain : backslash ∉ List.replicate 16384 (0x61 : WChar) :=
    fun member => absurd (List.eq_of_mem_replicate member) (by decide)
  have siblings := nestedSpace_siblings plain
  have under := nestedSpace_under (List.replicate 16384 0x61)
  refine ⟨_, _, _, siblings, under, List.cons_ne_nil _ _, ?_⟩
  rintro ⟨q, fuel₀, found, back⟩
  have name := (obQueryObjectName_name siblings under (List.cons_ne_nil _ _) rfl (found fuel₀ (Nat.le_refl _))).1
  have twice (c : List WChar) : (pathString [c, c]).length = 2 * c.length + 2 := by
    simp only [pathString_cons, pathString_nil, List.length_cons, List.length_append, List.length_nil]
    omega
  refine long_lost siblings under ?_ back name
  rw [twice, List.length_replicate]
  decide

end Gr8os.Ob
