import Gr8os.Ldr.Exports
import Gr8os.Lib.Visits

/-! Which lookups by name return, and with what they write in the buffers of the stack. -/
namespace Gr8os.Ldr

open LittleEndian Bytes ZeroTerminated Visits

/-- The call returns, and no call of its recursion writes past the 100 bytes of ModName or the 200 characters of wmod. -/
def StaysInBuffers (m : Memory) (modules : List LdrModule) (around : Surroundings) (base : Address)
    (functionName : Option (List Char8)) : Prop :=
  ∃ fuel found, ldrGetProcedureAddressByName m modules around fuel 0 base functionName = some found ∧
    ∀ e ∈ found.extents, e.modName ≤ 100 ∧ e.wmod ≤ 200

/-- The search for the name ends, and what it finds is no forwarder string with a dot that the heap has room for. -/
def NotFollowed (m : Memory) (room : Bool) (base : Address) : Option (List Char8) → Prop
  | none => True
  | some functionName =>
    exportDirectory m base = base ∨
    ∃ found, findName m base functionName (numberOfNames m base).toNat 0 = some found ∧
      ∀ addr, found = some addr → Forwarder m base addr → ∃ forwarder, stringAt m addr = some forwarder ∧
        (room = false ∨ dot ∉ forwarder)

section anyStack

variable {m : Memory} {modules : List LdrModule} {heap : Nat → Bool} {around : Surroundings} {base : Address}
  {functionName : Option (List Char8)} {tname : List Char8}

theorem strcpy_nonzero {b : Buffer} {start : Nat} (stack : ∀ k, b k ≠ 0) (text : ∀ c ∈ tname, c ≠ 0) (k : Nat) :
    strcpy b start tname k ≠ 0 := by
  unfold strcpy fill
  split
  · have inside : k - start < tname.length := by omega
    show tname.getD (k - start) 0 ≠ 0
    rw [List.getD_eq_getElem?_getD, List.getElem?_eq_getElem inside, Option.getD_some]
    exact text _ (List.getElem_mem inside)
  · exact stack k

theorem sysSuffix_nonzero : ∀ c ∈ sysSuffix, c ≠ 0 := by decide

/-- On a stack without zeros no search for the end of ModName ends. -/
theorem forwarderModName_endless {b : Buffer} (stack : ∀ k, b k ≠ 0) (text : ∀ c ∈ tname, c ≠ 0) {modName : Buffer}
    {written : Nat} (built : forwarderModName b tname = some (modName, written)) :
    ZeroTerminated.text addressSpace modName = none := by
  have copied := @strcpy_nonzero _ _ 0 stack text
  unfold forwarderModName at built
  split at built
  · have endless : strcat (strcpy b 0 tname) sysSuffix = none := congrArg (Option.map _) (lengthFrom_none copied)
    cases endless.symm.trans built
  · cases built
    exact congrArg (Option.map _) (lengthFrom_none copied)

theorem strchr_some {ch : Char8} {s front back : List Char8} (split : strchr ch s = some (front, back)) :
    s = front ++ ch :: back := by
  induction s generalizing front back with
  | nil => cases split
  | cons c s ih =>
    unfold strchr at split
    split at split
    · cases split
      exact congrArg (· :: s) ‹c = ch›
    · obtain ⟨p, here, pair⟩ := Option.map_eq_some_iff.mp split
      cases pair
      rw [List.cons_append, ← ih here]

theorem staysInBuffers_of_notFollowed (quiet : NotFollowed m (around.heap 0) base functionName) :
    StaysInBuffers m modules around base functionName := by
  cases functionName with
  | none => exact ⟨1, ⟨_, []⟩, rfl, fun e impossible => by cases impossible⟩
  | some name =>
    rcases quiet with absent | ⟨found, search, unfollowed⟩
    · refine ⟨1, ⟨0, []⟩, ?_, fun e impossible => by cases impossible⟩
      rw [ldrGetProcedureAddressByName, if_pos absent]
    · by_cases absent : exportDirectory m base = base
      · refine ⟨1, ⟨0, []⟩, ?_, fun e impossible => by cases impossible⟩
        rw [ldrGetProcedureAddressByName, if_pos absent]
      · refine ⟨1, ?_⟩
        rw [ldrGetProcedureAddressByName, if_neg absent, search]
        cases found with
        | none => exact ⟨⟨0, []⟩, rfl, fun e impossible => by cases impossible⟩
        | some addr =>
          by_cases forwarded : Forwarder m base addr
          · obtain ⟨forwarder, text, stops⟩ := unfollowed addr rfl forwarded
            simp only [not_true, forwarded, if_false, text]
            rcases stops with full | without
            · exact ⟨⟨0, []⟩, by simp [full], fun e impossible => by cases impossible⟩
            · refine ⟨⟨0, []⟩, ?_, fun e impossible => by cases impossible⟩
              rw [strchr_none.mpr without]
              split <;> rfl
          · exact ⟨⟨addr, []⟩, by simp [forwarded], fun e impossible => by cases impossible⟩

/-- A forwarder that is followed makes a call on a stack without zeros endless. -/
theorem notFollowed_of_stack (stack : ∀ k, around.stack 0 k ≠ 0) {fuel : Nat} {found : Lookup}
    (returned : ldrGetProcedureAddressByName m modules around fuel 0 base functionName = some found) :
    NotFollowed m (around.heap 0) base functionName := by
  cases functionName with
  | none => trivial
  | some name =>
    cases fuel with
    | zero => cases returned
    | succ fuel =>
      rw [ldrGetProcedureAddressByName] at returned
      split at returned
      · exact Or.inl ‹_›
      · split at returned
        · cases returned
        · exact Or.inr ⟨none, ‹_›, fun addr impossible => by cases impossible⟩
        · rename_i addr search
          refine Or.inr ⟨some addr, search, ?_⟩
          intro a same forwarded
          cases same
          rw [if_neg (not_not.mpr forwarded)] at returned
          split at returned
          · cases returned
          · rename_i forwarder text
            refine ⟨forwarder, text, ?_⟩
            split at returned
            · exact Or.inl (by simpa using ‹(!around.heap 0) = true›)
            · split at returned
              · exact Or.inr (strchr_none.mp ‹_›)
              · rename_i tname function split
                have nonzero : ∀ c ∈ tname, c ≠ 0 := by
                  intro c member
                  apply (text_some text).2
                  rw [strchr_some split]
                  exact List.mem_append_left _ member
                split at returned
                · cases returned
                · rename_i modName written built
                  rw [forwarderModName_endless stack nonzero built] at returned
                  cases returned

end anyStack

/-- The forwarder string that a lookup comes to. -/
def forwarderOf (m : Memory) (base : Address) (functionName : List Char8) : Option Address :=
  if exportDirectory m base = base then none
  else
    match findName m base functionName (numberOfNames m base).toNat 0 with
    | some (some addr) => if Forwarder m base addr then some addr else none
    | _ => none

/-- The two parts of a forwarder string. -/
def forwarderParts (m : Memory) (addr : Address) : Option (List Char8 × List Char8) :=
  (stringAt m addr).bind (strchr dot)

/-- The module that a forwarder names, on a stack of zeros. -/
def forwarderModule (tname : List Char8) : List Char8 :=
  if stricmp tname kernelName ≠ 0 then tname ++ sysSuffix else tname

/-- The forwarder string that following one leads to. -/
def nextForwarder (m : Memory) (modules : List LdrModule) (addr : Address) : Option Address :=
  (forwarderParts m addr).bind fun p =>
    (ldrLookupModule (mbstowcs (forwarderModule p.1)) modules).bind fun module => forwarderOf m module.base p.2

theorem nextForwarder_parts {m : Memory} {modules : List LdrModule} {addr : Address} {p : List Char8 × List Char8}
    (parts : forwarderParts m addr = some p) : nextForwarder m modules addr =
      (ldrLookupModule (mbstowcs (forwarderModule p.1)) modules).bind fun module => forwarderOf m module.base p.2 := by
  rw [nextForwarder, parts, Option.bind_some]

theorem nextForwarder_undotted {m : Memory} {modules : List LdrModule} {addr : Address}
    (parts : forwarderParts m addr = none) : nextForwarder m modules addr = none := by
  rw [nextForwarder, parts, Option.bind_none]

/-- The name that a forwarder builds has room in ModName. -/
def FitsModName (m : Memory) (addr : Address) : Prop :=
  ∀ p, forwarderParts m addr = some p → (forwarderModule p.1).length ≤ 100

def Lookup.Fits (found : Lookup) : Prop := ∀ e ∈ found.extents, e.modName ≤ 100 ∧ e.wmod ≤ 200

section zeroStack

variable {m : Memory} {modules : List LdrModule} {base : Address} {functionName tname : List Char8} {fuel depth : Nat}

theorem zeros_strcpy (l : List Char8) : strcpy (fun _ => 0) 0 l = fun k => l.getD k 0 := by
  funext k
  unfold strcpy fill
  split
  · rfl
  · rw [List.getD_eq_getElem?_getD, List.getElem?_eq_none (by omega), Option.getD_none]

theorem getD_strcpy (l l' : List Char8) : strcpy (fun k => l.getD k 0) l.length l' = fun k => (l ++ l').getD k 0 := by
  funext k
  unfold strcpy fill
  simp only [List.getD_eq_getElem?_getD]
  split
  · rw [List.getElem?_append_right (by omega)]
  · rcases Nat.lt_or_ge k l.length with first | later
    · rw [List.getElem?_append_left first]
    · rw [List.getElem?_eq_none later, List.getElem?_eq_none (by rw [List.length_append]; omega)]

/-- On a stack of zeros the name ends where its bytes do. -/
theorem forwarderModName_zeros (nonzero : ∀ c ∈ tname, c ≠ 0) (short : tname.length < 2 ^ 32) :
    forwarderModName (fun _ => 0) tname =
      some ((fun k => (forwarderModule tname).getD k 0), (forwarderModule tname).length) := by
  have ends : strlen (fun k => tname.getD k 0) = some tname.length := length_getD nonzero short fun _ => rfl
  unfold forwarderModName forwarderModule
  simp only [zeros_strcpy]
  split
  · rw [strcat, ends, Option.map_some, getD_strcpy, List.length_append]
  · rfl

theorem forwarderModule_text (nonzero : ∀ c ∈ tname, c ≠ 0) (fits : (forwarderModule tname).length ≤ 100) :
    ZeroTerminated.text addressSpace (fun k => (forwarderModule tname).getD k 0) = some (forwarderModule tname) := by
  apply text_getD
  · unfold forwarderModule
    split
    · intro c member
      rcases List.mem_append.mp member with front | back
      · exact nonzero c front
      · exact sysSuffix_nonzero c back
    · exact nonzero
  · exact Nat.lt_of_le_of_lt fits (by decide)

theorem forwarderParts_nonzero {addr : Address} {p : List Char8 × List Char8} (parts : forwarderParts m addr = some p) :
    (∀ c ∈ p.1, c ≠ 0) ∧ p.1.length < 2 ^ 32 := by
  obtain ⟨s, text, split⟩ := Option.bind_eq_some_iff.mp parts
  obtain ⟨short, nonzero⟩ := text_some text
  have whole : s = p.1 ++ dot :: p.2 := strchr_some split
  rw [whole] at short nonzero
  refine ⟨fun c member => nonzero c (List.mem_append_left _ member), ?_⟩
  rw [List.length_append] at short
  exact Nat.lt_of_le_of_lt (Nat.le_add_right _ _) short

theorem stringAt_total (ended : ∃ z, m z = 0) (a : Address) : ∃ s, stringAt m a = some s := by
  obtain ⟨z, zero⟩ := ended
  refine text_of_zero (z - a).isLt ?_
  rw [BitVec.ofNat_toNat, BitVec.setWidth_eq, BitVec.add_comm, BitVec.sub_add_cancel]
  exact zero

theorem findName_total (ended : ∃ z, m z = 0) (n : Nat) (i : BitVec 32) :
    ∃ r, findName m base functionName n i = some r := by
  induction n generalizing i with
  | zero => exact ⟨none, rfl⟩
  | succ n ih =>
    obtain ⟨s, names⟩ := stringAt_total ended (base + addressOfNames m base i)
    unfold findName
    rw [show exportName m base i = some s from names]
    by_cases found : strcmp s functionName = 0
    · exact ⟨_, if_pos found⟩
    · obtain ⟨r, rest⟩ := ih (i + 1)
      exact ⟨r, (if_neg found).trans rest⟩

/-- A lookup that comes to no forwarder returns at once. -/
theorem byName_direct (ended : ∃ z, m z = 0) (direct : forwarderOf m base functionName = none) :
    ∃ addr, ldrGetProcedureAddressByName m modules cleanSurroundings (fuel + 1) depth base (some functionName) =
      some ⟨addr, []⟩ := by
  unfold ldrGetProcedureAddressByName
  unfold forwarderOf at direct
  split
  · exact ⟨0, rfl⟩
  · rw [if_neg ‹_›] at direct
    obtain ⟨r, search⟩ := @findName_total m base functionName ended (numberOfNames m base).toNat 0
    rw [search] at direct ⊢
    cases r with
    | none => exact ⟨0, rfl⟩
    | some addr =>
      have outside : ¬Forwarder m base addr := by
        intro forwarded
        simp [forwarded] at direct
      exact ⟨addr, if_pos outside⟩

theorem forwarderOf_some {addr : Address} (reached : forwarderOf m base functionName = some addr) :
    exportDirectory m base ≠ base ∧
      findName m base functionName (numberOfNames m base).toNat 0 = some (some addr) ∧ Forwarder m base addr := by
  unfold forwarderOf at reached
  split at reached
  · cases reached
  · split at reached
    · split at reached
      · cases reached
        exact ⟨‹_›, ‹_›, ‹_›⟩
      · cases reached
    · cases reached

/-- A lookup that comes to a forwarder without a dot fails. -/
theorem byName_undotted (ended : ∃ z, m z = 0) {addr : Address} (reached : forwarderOf m base functionName = some addr)
    (undotted : forwarderParts m addr = none) :
    ldrGetProcedureAddressByName m modules cleanSurroundings (fuel + 1) depth base (some functionName) = some ⟨0, []⟩ := by
  obtain ⟨present, search, forwarded⟩ := forwarderOf_some reached
  obtain ⟨s, text⟩ := stringAt_total ended addr
  unfold forwarderParts at undotted
  rw [text] at undotted
  simp only [ldrGetProcedureAddressByName, if_neg present, search, if_neg (not_not.mpr forwarded), text,
    show strchr dot s = none from undotted]
  rfl

/-- A lookup that comes to a forwarder looks up its second part in the module that the first one names. -/
theorem byName_forwarded {addr : Address} {p : List Char8 × List Char8}
    (reached : forwarderOf m base functionName = some addr) (parts : forwarderParts m addr = some p) :
    ldrGetProcedureAddressByName m modules cleanSurroundings (fuel + 1) depth base (some functionName) =
      (ZeroTerminated.text addressSpace fun k => (forwarderModule p.1).getD k 0).bind fun name =>
        match ldrLookupModule (mbstowcs name) modules with
        | none => some ⟨0, [⟨(forwarderModule p.1).length, name.length + 1⟩]⟩
        | some module =>
          (ldrGetProcedureAddressByName m modules cleanSurroundings fuel (depth + 1) module.base (some p.2)).map
            fun found => ⟨found.address, ⟨(forwarderModule p.1).length, name.length + 1⟩ :: found.extents⟩ := by
  obtain ⟨present, search, forwarded⟩ := forwarderOf_some reached
  obtain ⟨s, text, split⟩ := Option.bind_eq_some_iff.mp parts
  obtain ⟨nonzero, short⟩ := forwarderParts_nonzero parts
  have built : forwarderModName (cleanSurroundings.stack depth) p.1 =
      some ((fun k => (forwarderModule p.1).getD k 0), (forwarderModule p.1).length) := forwarderModName_zeros nonzero short
  have room : (!cleanSurroundings.heap depth) = false := rfl
  rw [ldrGetProcedureAddressByName, if_neg present, search]
  simp only [if_neg (not_not.mpr forwarded), text, room, split, built]
  cases ZeroTerminated.text addressSpace fun k => (forwarderModule p.1).getD k 0 with
  | none => rfl
  | some name =>
    simp only [Option.bind_some]
    cases ldrLookupModule (mbstowcs name) modules <;> rfl

/-- Where the forwarders end and their modules' names fit, the call returns and stays in its buffers. -/
theorem byName_returns (ended : ∃ z, m z = 0) {k : Nat}
    (ends : visit (nextForwarder m modules) (forwarderOf m base functionName) k = none)
    (fits : ∀ i addr, visit (nextForwarder m modules) (forwarderOf m base functionName) i = some addr → FitsModName m addr) :
    ∃ fuel found,
      ldrGetProcedureAddressByName m modules cleanSurroundings fuel depth base (some functionName) = some found ∧
        found.Fits := by
  induction k generalizing base functionName depth with
  | zero =>
    obtain ⟨addr, here⟩ := @byName_direct _ modules _ _ 0 depth ended ends
    exact ⟨1, _, here, fun e impossible => by cases impossible⟩
  | succ k ih =>
    cases reached : forwarderOf m base functionName with
    | none =>
      obtain ⟨addr, here⟩ := @byName_direct _ modules _ _ 0 depth ended reached
      exact ⟨1, _, here, fun e impossible => by cases impossible⟩
    | some addr =>
      rw [reached] at ends fits
      cases parts : forwarderParts m addr with
      | none => exact ⟨1, _, byName_undotted ended reached parts, fun e impossible => by cases impossible⟩
      | some p =>
        have short := fits 0 addr rfl p parts
        have text := forwarderModule_text (forwarderParts_nonzero parts).1 short
        have extent : (forwarderModule p.1).length ≤ 100 ∧ (forwarderModule p.1).length + 1 ≤ 200 := ⟨short, by omega⟩
        cases found : ldrLookupModule (mbstowcs (forwarderModule p.1)) modules with
        | none =>
          refine ⟨1, ⟨0, [⟨(forwarderModule p.1).length, (forwarderModule p.1).length + 1⟩]⟩, ?_, ?_⟩
          · rw [byName_forwarded reached parts, text]
            simp only [Option.bind_some, found]
          · intro e member
            cases List.mem_singleton.mp member
            exact extent
        | some module =>
          have next : nextForwarder m modules addr = forwarderOf m module.base p.2 := by
            rw [nextForwarder_parts parts, found, Option.bind_some]
          have rest : ∀ i, visit (nextForwarder m modules) (some addr) (i + 1) =
              visit (nextForwarder m modules) (forwarderOf m module.base p.2) i := by
            intro i
            rw [visit, Option.bind_some, next]
          obtain ⟨fuel, inner, here, inside⟩ := @ih _ _ (depth + 1) ((rest k).symm.trans ends)
            fun i b visited => fits (i + 1) b ((rest i).trans visited)
          refine ⟨fuel + 1,
            ⟨inner.address, ⟨(forwarderModule p.1).length, (forwarderModule p.1).length + 1⟩ :: inner.extents⟩, ?_, ?_⟩
          · rw [byName_forwarded reached parts, text]
            simp only [Option.bind_some, found, here, Option.map_some]
          · intro e member
            rcases List.mem_cons.mp member with rfl | later
            · exact extent
            · exact inside e later

/-- A call that returns within its buffers comes to an end of the forwarders, and their modules' names fit. -/
theorem byName_visits {found : Lookup}
    (here : ldrGetProcedureAddressByName m modules cleanSurroundings fuel depth base (some functionName) = some found)
    (inside : found.Fits) :
    EndsWithin (nextForwarder m modules) (FitsModName m) (forwarderOf m base functionName) := by
  induction fuel generalizing base functionName depth found with
  | zero => cases here
  | succ fuel ih =>
    cases reached : forwarderOf m base functionName with
    | none => exact .none
    | some addr =>
      cases parts : forwarderParts m addr with
      | none =>
        apply EndsWithin.cons
        · intro p other
          cases parts.symm.trans other
        · rw [nextForwarder_undotted parts]
          exact .none
      | some p =>
        rw [byName_forwarded reached parts] at here
        obtain ⟨name, text, result⟩ := Option.bind_eq_some_iff.mp here
        have short : (forwarderModule p.1).length ≤ 100 := by
          split at result
          · cases result
            exact (inside _ (List.mem_singleton.mpr rfl)).1
          · obtain ⟨inner, _, rfl⟩ := Option.map_eq_some_iff.mp result
            exact (inside _ List.mem_cons_self).1
        have same := forwarderModule_text (forwarderParts_nonzero parts).1 short
        cases text.symm.trans same
        apply EndsWithin.cons
        · intro q other
          cases parts.symm.trans other
          exact short
        · rw [nextForwarder_parts parts]
          cases looked : ldrLookupModule (mbstowcs (forwarderModule p.1)) modules with
          | none => exact .none
          | some module =>
            rw [looked] at result
            obtain ⟨inner, deeper, rfl⟩ := Option.map_eq_some_iff.mp result
            exact ih deeper fun e member => inside e (List.mem_cons_of_mem _ member)

end zeroStack

instance : Finite Address := Finite.of_injective BitVec.toFin fun _ _ => BitVec.eq_of_toFin_eq

/-- Whatever the stack holds, a lookup stays in its buffers if and only if it follows no forwarder. Where the stack
holds zeros it does so if and only if the forwarders come back to none and the names of their modules fit. -/
theorem ldrGetProcedureAddressByName_staysInBuffers (m : Memory) (modules : List LdrModule) (base : Address) :
    (∀ heap functionName, (∀ stack, StaysInBuffers m modules ⟨heap, stack⟩ base functionName) ↔
      NotFollowed m (heap 0) base functionName) ∧
    ((∃ z, m z = 0) → ∀ functionName, StaysInBuffers m modules cleanSurroundings base (some functionName) ↔
      NoReturn (nextForwarder m modules) (forwarderOf m base functionName) ∧
      ∀ i addr, visit (nextForwarder m modules) (forwarderOf m base functionName) i = some addr → FitsModName m addr) := by
  refine ⟨fun heap functionName => ⟨fun stays => ?_, fun quiet stack => staysInBuffers_of_notFollowed quiet⟩,
    fun ended functionName => ⟨?_, ?_⟩⟩
  · obtain ⟨fuel, found, returned, _⟩ := stays fun _ _ => 1
    exact @notFollowed_of_stack _ _ ⟨heap, fun _ _ => 1⟩ _ _ (fun k => by simp) _ _ returned
  · rintro ⟨fuel, found, here, inside⟩
    obtain ⟨ends, fits⟩ := byName_visits here inside
    exact ⟨ends_iff_noReturn.mp ends, fits⟩
  · rintro ⟨never, fits⟩
    obtain ⟨k, ends⟩ := ends_iff_noReturn.mpr never
    exact byName_returns ended ends fits

/-- The module that forwards g to itself, and one whose forwarder names a module in a hundred characters. -/
def longForwarder : Memory :=
  memoryOf ((0x40003C, 0x80) :: (0x4000F8, 0x1000) :: (0x4000FC, 0x100) :: (0x401010, 1) :: (0x401014, 1) :: (0x401018, 1) ::
    (0x40101C, 0x1028) :: (0x401020, 0x1030) :: (0x401024, 0x1038) :: (0x401028, 0x1050) :: (0x401030, 0x1040) ::
    (0x401040, 0x67) :: (0x4010B4, 0x672E) ::
    (List.range 25).map fun i => (0x401050 + 4 * BitVec.ofNat 32 i, 0x61616161))

/-- A forwarder to itself does not return, and a long name is copied past its buffer. -/
theorem forwarders_leave_buffers :
    ¬StaysInBuffers forwardingModule [⟨0x400000, [0x61, 0x2E, 0x73, 0x79, 0x73]⟩] cleanSurroundings 0x400000 (some [0x67]) ∧
    ¬StaysInBuffers longForwarder [] cleanSurroundings 0x400000 (some [0x67]) := by
  constructor
  · rintro ⟨fuel, found, here, inside⟩
    obtain ⟨⟨k, ends⟩, _⟩ := byName_visits here inside
    have first : forwarderOf forwardingModule 0x400000 [0x67] = some 0x401050 := by decide
    have next : nextForwarder forwardingModule [⟨0x400000, [0x61, 0x2E, 0x73, 0x79, 0x73]⟩] 0x401050 = some 0x401050 := by
      decide
    have round := @visit_round _ (nextForwarder forwardingModule [⟨0x400000, [0x61, 0x2E, 0x73, 0x79, 0x73]⟩])
      (a := 0x401050) (k := 1) next k
    rw [first] at ends
    rw [Nat.mul_one, ends] at round
    cases round
  · rintro ⟨fuel, found, here, inside⟩
    obtain ⟨_, fits⟩ := byName_visits here inside
    have first : forwarderOf longForwarder 0x400000 [0x67] = some 0x401050 := by decide +kernel
    have parts : forwarderParts longForwarder 0x401050 = some (List.replicate 100 0x61, [0x67]) := by decide +kernel
    have short := fits 0 0x401050 first _ parts
    exact absurd short (by decide)

end Gr8os.Ldr
