import Gr8os.Lib.PathWalk
import Gr8os.Ob.Name

/-! ObReferenceObjectByName is the walk of the path through the tree of objects. -/
namespace Gr8os.Ob

open PathWalk

def Component (c : List WChar) : Prop := c ≠ [] ∧ backslash ∉ c

/-- An absolute path without empty components. -/
def AbsolutePath (cs : List (List WChar)) : Prop := cs ≠ [] ∧ ∀ c ∈ cs, Component c

/-- The components may be empty: what any string is that starts with a backslash. -/
def PlainPath (cs : List (List WChar)) : Prop := cs ≠ [] ∧ ∀ c ∈ cs, backslash ∉ c

theorem AbsolutePath.plain {cs : List (List WChar)} (absolute : AbsolutePath cs) : PlainPath cs :=
  ⟨absolute.1, fun c member => (absolute.2 c member).2⟩

def pathString (cs : List (List WChar)) : List WChar := cs.flatMap fun c => backslash :: c

def splitPath : List WChar → List (List WChar)
  | [] => [[]]
  | w :: ws =>
    if w = backslash then [] :: splitPath ws
    else match splitPath ws with
      | [] => [[w]]
      | c :: cs => (w :: c) :: cs

/-- The components of an absolute path. -/
def components (path : List WChar) : List (List WChar) := (splitPath path).tail

@[simp] theorem pathString_nil : pathString [] = [] := rfl
@[simp] theorem pathString_cons (c : List WChar) (cs : List (List WChar)) :
    pathString (c :: cs) = backslash :: (c ++ pathString cs) := by simp [pathString]

theorem pathString_append (xs ys : List (List WChar)) : pathString (xs ++ ys) = pathString xs ++ pathString ys := by
  simp [pathString]

theorem splitPath_name {c path : List WChar} {d : List WChar} {cs : List (List WChar)} (plain : backslash ∉ c)
    (rest : splitPath path = d :: cs) : splitPath (c ++ path) = (c ++ d) :: cs := by
  induction c with
  | nil => exact rest
  | cons w ws ih =>
    have other : w ≠ backslash := by
      rintro rfl
      simp at plain
    have tail : backslash ∉ ws := fun h => plain (List.mem_cons_of_mem w h)
    rw [List.cons_append, splitPath, if_neg other, ih tail]
    rfl

theorem splitPath_pathString {cs : List (List WChar)} (plain : ∀ c ∈ cs, backslash ∉ c) :
    splitPath (pathString cs) = [] :: cs := by
  induction cs with
  | nil => rfl
  | cons c cs ih =>
    have here := plain c List.mem_cons_self
    have rest := ih fun b hb => plain b (List.mem_cons_of_mem c hb)
    rw [pathString_cons, splitPath, if_pos rfl, splitPath_name here rest, List.append_nil]

theorem components_pathString {cs : List (List WChar)} (plain : ∀ c ∈ cs, backslash ∉ c) :
    components (pathString cs) = cs := by
  rw [components, splitPath_pathString plain]
  rfl

/-- A namespace: sibling names differ, links hold absolute paths, and there are finitely many of them. -/
structure Namespace extends ObjectSpace where
  unique : ∀ d, ((toObjectSpace.objectList d).map fun o => (object o).objectName).Nodup
  targets : ∀ o t, (object o).body = .symbolicLink t → ∃ cs, AbsolutePath cs ∧ t = pathString cs
  links : {o | ∃ t, (object o).body = .symbolicLink t}.Finite

def ObjectSpace.named (s : ObjectSpace) (d : Nat) (c : List WChar) : Option Nat :=
  (s.objectList d).find? fun o => (s.object o).objectName = c

def ObjectSpace.entry (s : ObjectSpace) (o : Nat) : Entry Nat :=
  match (s.object o).body with
  | .directory _ => .branch o
  | .symbolicLink _ => .link o
  | .device => .stop o
  | .other _ => .leaf o

def ObjectSpace.target (s : ObjectSpace) (o : Nat) : List (List WChar) :=
  match (s.object o).body with
  | .symbolicLink target => components target
  | _ => []

/-- The objects as a tree: a device ends the walk, a symbolic link restarts it. -/
def ObjectSpace.tree (s : ObjectSpace) : Tree Nat (List WChar) where
  root := s.obRootObjectDirectory
  lookup d c := ((s.named d c).map s.entry).getD .missing
  target := s.target

/-- What links that are in a directory hold starts with a backslash. -/
def ObjectSpace.PlainTargets (s : ObjectSpace) : Prop :=
  ∀ d, ∀ o ∈ s.objectList d, ∀ t, (s.object o).body = .symbolicLink t → ∃ cs, PlainPath cs ∧ t = pathString cs

theorem Namespace.plainTargets (ns : Namespace) : ns.PlainTargets := by
  intro d o _ t link
  obtain ⟨cs, absolute, string⟩ := ns.targets o t link
  exact ⟨cs, absolute.plain, string⟩

/-- The namespace as a tree: a device ends the walk, a symbolic link restarts it. -/
def Namespace.tree (ns : Namespace) : Tree Nat (List WChar) where
  root := ns.obRootObjectDirectory
  lookup d c := ((ns.named d c).map ns.entry).getD .missing
  target := ns.target

theorem find_unique {f : Nat → List WChar} {o : Nat} {list : List Nat} (unique : (list.map f).Nodup)
    (member : o ∈ list) : list.find? (fun p => f p = f o) = some o := by
  induction list with
  | nil => cases member
  | cons p rest ih =>
    rw [List.map_cons, List.nodup_cons] at unique
    rcases List.mem_cons.mp member with rfl | later
    · exact List.find?_cons_of_pos (by simp)
    · have other : f p ≠ f o := fun same => unique.1 (same ▸ List.mem_map_of_mem later)
      rw [List.find?_cons_of_neg (by simpa using other)]
      exact ih unique.2 later

/-- Sibling names differ, so a name stands for one object of the directory. -/
theorem Namespace.named_iff (ns : Namespace) (d o : Nat) (c : List WChar) :
    ns.named d c = some o ↔ o ∈ ns.objectList d ∧ (ns.object o).objectName = c := by
  unfold ObjectSpace.named
  constructor
  · intro found
    exact ⟨List.mem_of_find?_eq_some found, by simpa using List.find?_some found⟩
  · rintro ⟨member, rfl⟩
    exact find_unique (ns.unique d) member

theorem wcscmp_eq_zero (a b : List WChar) : wcscmp a b = 0 ↔ a = b := by
  unfold wcscmp
  by_cases size : a.length = b.length
  · rw [if_neg (by simpa using size)]
    constructor
    · intro h
      split at h
      · rename_i p found
        have differs := List.find?_some found
        simp only [ne_eq, decide_not, Bool.not_eq_true', decide_eq_false_iff_not] at differs
        refine absurd ?_ differs
        exact BitVec.eq_of_toNat_eq (Int.ofNat_eq_zero.mp h)
      · rename_i none
        rw [List.find?_eq_none] at none
        refine List.ext_getElem size fun i h1 h2 => ?_
        have member : (a[i], b[i]) ∈ a.zip b := by
          refine List.mem_iff_getElem.mpr ⟨i, by simp [h1, h2], by simp⟩
        have same := none _ member
        simp only [ne_eq, decide_not, Bool.not_eq_true', decide_eq_false_iff_not, Decidable.not_not] at same
        bv_omega
    · rintro rfl
      have none : (a.zip a).find? (fun p => p.1 - p.2 ≠ 0) = none := by
        rw [List.find?_eq_none]
        intro p hp
        obtain ⟨i, h1, h2⟩ := List.mem_iff_getElem.mp hp
        rw [← h2]
        simp
      rw [none]
  · rw [if_pos size]
    constructor
    · intro h
      exact absurd h (by decide)
    · rintro rfl
      exact absurd rfl size

theorem findObject_eq (s : ObjectSpace) (name : List WChar) (list : List Nat) :
    findObject s name list = list.find? fun o => (s.object o).objectName = name := by
  induction list with
  | nil => rfl
  | cons o rest ih =>
    rw [findObject]
    by_cases here : (s.object o).objectName = name
    · rw [if_pos ((wcscmp_eq_zero _ _).mpr here), List.find?_cons_of_pos (by simpa using here)]
    · rw [if_neg (fun h => here ((wcscmp_eq_zero _ _).mp h)), List.find?_cons_of_neg (by simpa using here), ih]

theorem obpFindObjectInDirectory_eq (s : ObjectSpace) (d : Nat) (name : List WChar) :
    obpFindObjectInDirectory s d name = s.named d name := findObject_eq s name _

/-- What ObReferenceObjectByName does once the walk is over: the type check of a user mode caller, the
reference, and the rest of the path for a caller that passes a parse packet. -/
def walkResult (s : ObjectSpace) (objectType : Option ObjectType) (requestorMode : ProcessorMode)
    (parseContext : BitVec 32) : Result Nat (List WChar) → NameResult
  | .notFound => ⟨.notFound, none, none, s⟩
  | .found o rest =>
    let packet := if (s.object o).objectType = .device ∧ parseContext &&& 0xFFFF0000 ≠ 0 then
      some (pathString rest) else none
    if requestorMode = .userMode ∧ some (s.object o).objectType ≠ objectType then
      ⟨.accessDenied, none, packet, s⟩
    else ⟨.success, some o, packet, obReferenceObject s o⟩

/-- The string of every path that the walk restarts at fits a UNICODE_STRING, terminator included. -/
def Fits (T : Tree Nat (List WChar)) (d : Nat) (cs : List (List WChar)) : Prop :=
  ∀ y, Reach T (d, cs) y → 2 * (pathString y.2).length + 2 < 2 ^ 16

theorem Fits.step {T : Tree Nat (List WChar)} {d e : Nat} {cs bs : List (List WChar)} (fits : Fits T d cs)
    (move : Moves T (d, cs) (e, bs)) : Fits T e bs :=
  fun y reached => fits y ((Relation.ReflTransGen.single move).trans reached)

/-- Where the loop stands: everything before `prevslash` is parsed, `cs` is still to come. -/
structure Position (path : UnicodeString) (prevslash : Nat) (cs : List (List WChar)) : Prop where
  whole : path.length.toNat = 2 * path.buffer.length
  rest : path.buffer.drop prevslash = pathString cs
  plain : PlainPath cs

theorem Position.inside {path : UnicodeString} {prevslash : Nat} {c : List WChar} {cs : List (List WChar)}
    (pos : Position path prevslash (c :: cs)) (i : Nat) :
    path.buffer[prevslash + 1 + i]? = (c ++ pathString cs)[i]? := by
  have shifted : (path.buffer.drop prevslash)[1 + i]? = path.buffer[prevslash + (1 + i)]? := List.getElem?_drop
  rw [Nat.add_assoc, ← shifted, pos.rest, pathString_cons, Nat.add_comm 1 i, List.getElem?_cons_succ]

theorem Position.length {path : UnicodeString} {prevslash : Nat} {c : List WChar} {cs : List (List WChar)}
    (pos : Position path prevslash (c :: cs)) :
    path.buffer.length = prevslash + 1 + c.length + (pathString cs).length := by
  have size := congrArg List.length pos.rest
  simp only [List.length_drop, pathString_cons, List.length_cons, List.length_append] at size
  omega

theorem Position.drop {path : UnicodeString} {prevslash : Nat} {c : List WChar} {cs : List (List WChar)}
    (pos : Position path prevslash (c :: cs)) :
    path.buffer.drop (prevslash + 1) = c ++ pathString cs ∧
    path.buffer.drop (prevslash + 1 + c.length) = pathString cs := by
  have first : path.buffer.drop (prevslash + 1) = c ++ pathString cs := by
    rw [← List.drop_drop, pos.rest, pathString_cons]
    rfl
  refine ⟨first, ?_⟩
  rw [← List.drop_drop, first, List.drop_left]

theorem Position.next {path : UnicodeString} {prevslash : Nat} {c : List WChar} {cs : List (List WChar)}
    (pos : Position path prevslash (c :: cs)) (more : cs ≠ []) :
    Position path (prevslash + 1 + c.length) cs :=
  ⟨pos.whole, pos.drop.2, more, fun b hb => pos.plain.2 b (List.mem_cons_of_mem c hb)⟩

theorem start_position {cs : List (List WChar)} (plain : PlainPath cs)
    (fits : 2 * (pathString cs).length + 2 < 2 ^ 16) : Position (rtlInitUnicodeString (pathString cs)) 0 cs := by
  refine ⟨?_, rfl, plain⟩
  simp only [rtlInitUnicodeString, BitVec.toNat_ofNat]
  rw [Nat.mod_eq_of_lt (by omega), Nat.mul_comm]

section loop

variable {allocated : Nat → Bool} {s : ObjectSpace} {parseContext : BitVec 32} {path : UnicodeString}

/-- The characters of a component are skipped one by one. -/
theorem nameLoop_scan {prevslash d k fuel : Nat} {c : List WChar} {cs : List (List WChar)}
    (pos : Position path prevslash (c :: cs)) (i : Nat) (inside : i ≤ c.length) :
    nameLoop allocated s parseContext path (fuel + (c.length - i)) d prevslash (prevslash + 1 + i) k =
      nameLoop allocated s parseContext path fuel d prevslash (prevslash + 1 + c.length) k := by
  induction h : c.length - i generalizing i with
  | zero =>
    have last : i = c.length := by omega
    rw [last, Nat.add_zero]
  | succ left ih =>
    have here : i < c.length := by omega
    have plain : ¬ (path.buffer[prevslash + 1 + i]? = some backslash ∨
        2 * (prevslash + 1 + i) ≥ path.length.toNat) := by
      have size := pos.length
      have whole := pos.whole
      rw [pos.inside i, List.getElem?_append_left here, List.getElem?_eq_getElem here]
      rintro (same | last)
      · have member := List.getElem_mem here
        rw [Option.some.inj same] at member
        exact pos.plain.2 c List.mem_cons_self member
      · omega
    rw [← Nat.add_assoc, nameLoop, if_neg plain]
    exact ih (i + 1) here (by omega)

theorem nameLoop_component {prevslash d k fuel : Nat} {c : List WChar} {cs : List (List WChar)}
    (pos : Position path prevslash (c :: cs)) :
    nameLoop allocated s parseContext path (fuel + 1 + c.length) d prevslash (prevslash + 1) k =
      if !allocated k then .returned .insufficientResources
      else match s.named d c with
        | none => .returned .notFound
        | some o =>
          match afterParse o (k + 2)
              (parseRoutine (s.object o) (pathString cs) parseContext (allocated (k + 1))) with
          | some e => e
          | none =>
            if cs = [] then .finish o none
            else if (s.object o).objectType ≠ .directory then .returned .notFound
            else nameLoop allocated s parseContext path fuel o (prevslash + 1 + c.length)
              (prevslash + 1 + c.length + 1) (k + 1) := by
  have scan : nameLoop allocated s parseContext path (fuel + 1 + (c.length - 0)) d prevslash (prevslash + 1 + 0) k =
      nameLoop allocated s parseContext path (fuel + 1) d prevslash (prevslash + 1 + c.length) k :=
    nameLoop_scan pos 0 (Nat.zero_le _)
  simp only [Nat.sub_zero, Nat.add_zero] at scan
  rw [scan]
  have size := pos.length
  have whole := pos.whole
  obtain ⟨name, rest⟩ := pos.drop
  have last : 2 * (prevslash + 1 + c.length) ≥ path.length.toNat ↔ cs = [] := by
    rw [whole]
    constructor
    · intro h
      cases cs with
      | nil => rfl
      | cons b bs =>
        simp only [pathString_cons, List.length_cons] at size
        omega
    · rintro rfl
      simp only [pathString_nil, List.length_nil] at size
      omega
  have stops : path.buffer[prevslash + 1 + c.length]? = some backslash ∨
      2 * (prevslash + 1 + c.length) ≥ path.length.toNat := by
    cases cs with
    | nil => exact .inr (last.mpr rfl)
    | cons b bs =>
      left
      rw [pos.inside, List.getElem?_append_right (Nat.le_refl _), Nat.sub_self, pathString_cons]
      rfl
  have temp : wcssubstr (path.buffer.drop (prevslash + 1)) 0
      ((2 * (prevslash + 1 + c.length) - 2 * prevslash) / 2 - 1) = c := by
    have count : (2 * (prevslash + 1 + c.length) - 2 * prevslash) / 2 - 1 = c.length := by omega
    rw [count, name, wcssubstr, List.drop_zero, List.take_left]
  rw [nameLoop, if_pos stops]
  simp only [temp, rest, obpFindObjectInDirectory_eq]
  by_cases end_ : cs = []
  · simp only [if_pos (last.mpr end_), if_pos end_] <;> rfl
  · simp only [if_neg fun h => end_ (last.mp h), if_neg end_] <;> rfl

end loop

section walk

variable (allocated : Nat → Bool) (s : ObjectSpace) (objectType : Option ObjectType) (requestorMode : ProcessorMode)
  (parseContext : BitVec 32)

/-- What ObReferenceObjectByName makes of the end of its loop. -/
def endLoop (fuel : Nat) : LoopEnd → Option NameResult
  | .returned status => some ⟨status, none, none, s⟩
  | .finish o packet => some (finishName s objectType requestorMode o packet)
  | .reparse path k => reparseName allocated s objectType requestorMode parseContext fuel path k
  | .fuel => none

/-- The outcome of the walk, or the failure of a heap call with everything as it was. -/
def Resolves (e : LoopEnd) (r : Result Nat (List WChar)) : Prop :=
  ∃ fuel₀, ∀ fuel, fuel₀ ≤ fuel →
    endLoop allocated s objectType requestorMode parseContext fuel e =
      some (walkResult s objectType requestorMode parseContext r) ∨
    (∃ k, allocated k = false) ∧ endLoop allocated s objectType requestorMode parseContext fuel e =
      some ⟨.insufficientResources, none, none, s⟩

/-- The loop restarted at a path, as the label `reparse` does. -/
theorem reparseName_start {cs : List (List WChar)} {path : UnicodeString} (pos : Position path 0 cs)
    (fuel k : Nat) :
    reparseName allocated s objectType requestorMode parseContext (fuel + 1) path k =
      endLoop allocated s objectType requestorMode parseContext fuel
        (nameLoop allocated s parseContext path (path.buffer.length + 1) s.obRootObjectDirectory 0 1 k) := by
  have slash : path.buffer[0]? = some backslash := by
    have rest := pos.rest
    rw [List.drop_zero] at rest
    rw [rest]
    cases cs with
    | nil => exact absurd rfl pos.plain.1
    | cons c cs => simp
  rw [reparseName, if_neg (by simp [slash])]
  unfold endLoop
  split <;> simp_all

variable {allocated s objectType requestorMode parseContext}

theorem resolves_now {e : LoopEnd} {r : Result Nat (List WChar)}
    (same : ∀ fuel, endLoop allocated s objectType requestorMode parseContext fuel e =
      some (walkResult s objectType requestorMode parseContext r)) :
    Resolves allocated s objectType requestorMode parseContext e r := ⟨0, fun fuel _ => .inl (same fuel)⟩

theorem resolves_unallocated {k : Nat} {r : Result Nat (List WChar)} (failed : allocated k = false) :
    Resolves allocated s objectType requestorMode parseContext (.returned .insufficientResources) r :=
  ⟨0, fun _ _ => .inr ⟨⟨k, failed⟩, rfl⟩⟩

theorem named_entry {d o : Nat} {c : List WChar} (found : s.named d c = some o) :
    s.tree.lookup d c = s.entry o := by
  simp [ObjectSpace.tree, found]

theorem named_missing {d : Nat} {c : List WChar} (none : s.named d c = none) : s.tree.lookup d c = .missing := by
  simp [ObjectSpace.tree, none]

theorem entry_missing (o : Nat) : s.entry o ≠ .missing := by
  unfold ObjectSpace.entry
  cases (s.object o).body <;> simp

theorem lookup_some {d : Nat} {c : List WChar} {e : Entry Nat} (entry : s.tree.lookup d c = e) (there : e ≠ .missing) :
    ∃ o, s.named d c = some o ∧ s.entry o = e := by
  cases found : s.named d c with
  | none => exact absurd (entry.symm.trans (named_missing found)) there
  | some o => exact ⟨o, rfl, (named_entry found).symm.trans entry⟩

theorem parseRoutine_none {h : ObjectHeader} {remaining : List WChar} {ok : Bool}
    (type : h.objectType = .directory ∨ ∃ n, h.objectType = .other n) :
    parseRoutine h remaining parseContext ok = none := by
  unfold ObjectHeader.objectType at type
  unfold parseRoutine
  cases body : h.body <;> simp_all

theorem target_string (targets : s.PlainTargets) {d o : Nat} {c t : List WChar} (found : s.named d c = some o)
    (link : (s.object o).body = .symbolicLink t) :
    PlainPath (s.tree.target o) ∧ t = pathString (s.tree.target o) := by
  obtain ⟨cs, plain, rfl⟩ := targets d o (List.mem_of_find?_eq_some found) t link
  have same : s.tree.target o = cs := by
    simp [ObjectSpace.tree, ObjectSpace.target, link, components_pathString plain.2]
  rw [same]
  exact ⟨plain, rfl⟩

theorem reparse_position {target cs : List (List WChar)} (first : PlainPath target)
    (rest : ∀ c ∈ cs, backslash ∉ c) (fits : 2 * (pathString (target ++ cs)).length + 2 < 2 ^ 16) :
    Position ⟨pathString target ++ pathString cs,
      (rtlInitUnicodeString (pathString target)).length + (rtlInitUnicodeString (pathString cs)).length⟩ 0
      (target ++ cs) := by
  rw [pathString_append, List.length_append] at fits
  refine ⟨?_, (pathString_append target cs).symm, ?_, ?_⟩
  · simp only [rtlInitUnicodeString, BitVec.toNat_add, BitVec.toNat_ofNat, List.length_append]
    omega
  · simp [first.1]
  · intro c hc
    rcases List.mem_append.mp hc with h | h
    · exact first.2 c h
    · exact rest c h

/-! What each kind of entry says of its object. -/

theorem entry_branch {o e : Nat} (kind : s.entry o = .branch e) : (s.object o).objectType = .directory ∧ o = e := by
  unfold ObjectSpace.entry at kind
  unfold ObjectHeader.objectType
  cases body : (s.object o).body <;> simp_all

theorem entry_leaf {o e : Nat} (kind : s.entry o = .leaf e) : (∃ n, (s.object o).objectType = .other n) ∧ o = e := by
  unfold ObjectSpace.entry at kind
  unfold ObjectHeader.objectType
  cases body : (s.object o).body <;> simp_all

theorem entry_stop {o e : Nat} (kind : s.entry o = .stop e) : (s.object o).body = .device ∧ o = e := by
  unfold ObjectSpace.entry at kind
  cases body : (s.object o).body <;> simp_all

theorem entry_link {o e : Nat} (kind : s.entry o = .link e) : (∃ t, (s.object o).body = .symbolicLink t) ∧ o = e := by
  unfold ObjectSpace.entry at kind
  cases body : (s.object o).body <;> simp_all

section component

variable {d prevslash k fuel : Nat} {c : List WChar} {cs : List (List WChar)} {path : UnicodeString}
  {r : Result Nat (List WChar)}

/-- A component whose name is not there, or for which there is no room. -/
theorem resolves_missing (pos : Position path prevslash (c :: cs)) (room : (pathString (c :: cs)).length ≤ fuel)
    (none : s.named d c = none) (result : walkResult s objectType requestorMode parseContext r =
      ⟨.notFound, Option.none, Option.none, s⟩) :
    Resolves allocated s objectType requestorMode parseContext
      (nameLoop allocated s parseContext path fuel d prevslash (prevslash + 1) k) r := by
  obtain ⟨fuel, rfl⟩ : ∃ f, fuel = f + 1 + c.length := ⟨fuel - 1 - c.length, by simp at room; omega⟩
  rw [nameLoop_component pos]
  cases allocation : allocated k with
  | false => exact resolves_unallocated allocation
  | true =>
    simp only [Bool.not_true, Bool.false_eq_true, if_false, none]
    exact resolves_now fun _ => congrArg some result.symm

/-- A component that names an object, when there is room for the name. -/
theorem resolves_found {o : Nat} (pos : Position path prevslash (c :: cs))
    (room : (pathString (c :: cs)).length ≤ fuel) (found : s.named d c = some o)
    (next : ∀ left, (pathString cs).length ≤ left → Resolves allocated s objectType requestorMode parseContext
      (match afterParse o (k + 2) (parseRoutine (s.object o) (pathString cs) parseContext (allocated (k + 1))) with
        | some e => e
        | none =>
          if cs = [] then .finish o none
          else if (s.object o).objectType ≠ .directory then .returned .notFound
          else nameLoop allocated s parseContext path left o (prevslash + 1 + c.length)
            (prevslash + 1 + c.length + 1) (k + 1)) r) :
    Resolves allocated s objectType requestorMode parseContext
      (nameLoop allocated s parseContext path fuel d prevslash (prevslash + 1) k) r := by
  simp only [pathString_cons, List.length_cons, List.length_append] at room
  obtain ⟨left, rfl⟩ : ∃ f, fuel = f + 1 + c.length := ⟨fuel - 1 - c.length, by omega⟩
  rw [nameLoop_component pos]
  cases allocation : allocated k with
  | false => exact resolves_unallocated allocation
  | true =>
    simp only [Bool.not_true, Bool.false_eq_true, if_false, found]
    exact next left (by omega)

end component

/-- The loop follows the walk from wherever it stands; the induction is on the walk. -/
theorem nameLoop_walks (targets : s.PlainTargets) (notLink : parseContext ≠ 1) {d : Nat} {cs : List (List WChar)}
    {r : Result Nat (List WChar)} (walk : Walk s.tree d cs r) : ∀ {path : UnicodeString} {prevslash : Nat} (k fuel : Nat),
    Position path prevslash cs → Fits s.tree d cs → (pathString cs).length ≤ fuel →
    Resolves allocated s objectType requestorMode parseContext
      (nameLoop allocated s parseContext path fuel d prevslash (prevslash + 1) k) r := by
  induction walk with
  | done d => exact fun _ _ pos => absurd rfl pos.plain.1
  | @missing d c cs entry =>
    intro path prevslash k fuel pos _ room
    have none : s.named d c = none := by
      cases found : s.named d c with
      | none => rfl
      | some o => exact absurd ((named_entry found).symm.trans entry) (entry_missing o)
    exact resolves_missing pos room none rfl
  | @branch d e c cs r entry rest ih =>
    intro path prevslash k fuel pos fits room
    obtain ⟨o, found, kind⟩ := lookup_some entry (by simp)
    obtain ⟨type, rfl⟩ := entry_branch kind
    refine resolves_found pos room found fun left enough => ?_
    simp only [parseRoutine_none (.inl type), afterParse, type, ne_eq, not_true_eq_false, if_false]
    by_cases last : cs = []
    · subst last
      rw [if_pos rfl]
      cases rest
      refine resolves_now fun _ => ?_
      simp [endLoop, finishName, walkResult, type]
    · rw [if_neg last]
      exact ih (k + 1) left (pos.next last) (fits.step (.branch entry)) enough
  | @leaf d o c entry =>
    intro path prevslash k fuel pos _ room
    obtain ⟨p, found, kind⟩ := lookup_some entry (by simp)
    obtain ⟨⟨n, type⟩, rfl⟩ := entry_leaf kind
    refine resolves_found pos room found fun left enough => ?_
    simp only [parseRoutine_none (.inr ⟨n, type⟩), afterParse, if_true]
    refine resolves_now fun _ => ?_
    simp [endLoop, finishName, walkResult, type]
  | @middle d o c b cs entry =>
    intro path prevslash k fuel pos _ room
    obtain ⟨p, found, kind⟩ := lookup_some entry (by simp)
    obtain ⟨⟨n, type⟩, -⟩ := entry_leaf kind
    refine resolves_found pos room found fun left enough => ?_
    simp only [parseRoutine_none (.inr ⟨n, type⟩), afterParse, reduceCtorEq, if_false, type, ne_eq,
      not_false_eq_true, if_true]
    exact resolves_now fun _ => rfl
  | @stop d o c cs entry =>
    intro path prevslash k fuel pos _ room
    obtain ⟨p, found, kind⟩ := lookup_some entry (by simp)
    obtain ⟨body, rfl⟩ := entry_stop kind
    have type : (s.object p).objectType = .device := by simp [ObjectHeader.objectType, body]
    have after : afterParse p (k + 2)
        (parseRoutine (s.object p) (pathString cs) parseContext (allocated (k + 1))) =
        some (.finish p (if parseContext &&& 0xFFFF0000 ≠ 0 then some (pathString cs) else none)) := by
      simp [parseRoutine, body, iopParseDevice, afterParse, Status.isSuccess, Status.code]
    refine resolves_found pos room found fun left enough => ?_
    simp only [after]
    refine resolves_now fun _ => ?_
    simp [endLoop, finishName, walkResult, type]
  | @link d o c cs r entry rest ih =>
    intro path prevslash k fuel pos fits room
    obtain ⟨p, found, kind⟩ := lookup_some entry (by simp)
    obtain ⟨⟨t, body⟩, rfl⟩ := entry_link kind
    obtain ⟨first, string⟩ := target_string targets found body
    refine resolves_found pos room found fun left enough => ?_
    simp only [parseRoutine, body, obpParseSymbolicLink, ne_eq, notLink, not_false_eq_true, if_true]
    cases buffer : allocated (k + 1) with
    | false => exact resolves_unallocated buffer
    | true =>
      have next := fits.step (.link entry)
      have plain : ∀ b ∈ cs, backslash ∉ b := fun b hb => pos.plain.2 b (List.mem_cons_of_mem c hb)
      have start := reparse_position first plain (next _ .refl)
      rw [string]
      have size : (pathString (s.tree.target p ++ cs)).length ≤
          (pathString (s.tree.target p) ++ pathString cs).length + 1 := by
        rw [pathString_append]
        exact Nat.le_succ _
      obtain ⟨fuel₀, resolved⟩ := ih (k + 2) _ start next size
      refine ⟨fuel₀ + 1, fun fuel' more => ?_⟩
      obtain ⟨fuel', rfl⟩ : ∃ f, fuel' = f + 1 := ⟨fuel' - 1, by omega⟩
      have again := reparseName_start allocated s objectType requestorMode parseContext start fuel' (k + 2)
      rcases resolved fuel' (by omega) with outcome | ⟨failed, outcome⟩
      · exact .inl (again.trans outcome)
      · exact .inr ⟨failed, again.trans outcome⟩

end walk

theorem tree_links (ns : Namespace) : {m | IsLink ns.tree m}.Finite := by
  refine ns.links.subset ?_
  rintro m ⟨d, c, entry⟩
  obtain ⟨o, found, kind⟩ := lookup_some entry (by simp)
  obtain ⟨⟨t, body⟩, rfl⟩ := entry_link kind
  exact ⟨t, body⟩

def nameG : List WChar := [0x47]
def nameS : List WChar := [0x53]
def nameF : List WChar := [0x66]

/-- A directory G with an object f of type 7 in it, and a symbolic link S to G. -/
def smallSpace : ObjectSpace where
  object
    | 0 => { objectName := [], referenceCount := 1, body := .directory [1, 2] }
    | 1 => { objectName := nameG, referenceCount := 1, body := .directory [3] }
    | 2 => { objectName := nameS, referenceCount := 1, body := .symbolicLink (backslash :: nameG) }
    | 3 => { objectName := nameF, referenceCount := 1, body := .other 7 }
    | _ => { objectName := [], referenceCount := 1, body := .other 0 }
  obRootObjectDirectory := 0

def small : Namespace where
  toObjectSpace := smallSpace
  unique d := by
    match d with
    | 0 | 1 | 2 | 3 => decide
    | n + 4 => exact List.nodup_nil
  targets o t link := by
    match o with
    | 0 | 1 | 3 => cases link
    | n + 4 => cases link
    | 2 =>
      cases link
      refine ⟨[nameG], ⟨by decide, fun c hc => ?_⟩, rfl⟩
      rw [List.mem_singleton.mp hc]
      exact ⟨by decide, by decide⟩
  links := by
    refine (Set.finite_singleton 2).subset ?_
    rintro o ⟨t, link⟩
    match o with
    | 2 => rfl
    | 0 | 1 | 3 => cases link
    | n + 4 => cases link

theorem small_target {o : Nat} (other : o ≠ 2) : small.tree.target o = [] := by
  match o with
  | 2 => exact absurd rfl other
  | 0 | 1 | 3 => rfl
  | n + 4 => rfl

theorem small_acyclic : Acyclic small.tree := by
  intro l
  rintro ⟨d, c, cs, reached, link⟩
  by_cases isLink : l = 2
  · subst isLink
    have whole : Reach small.tree (0, [nameG]) (d, c :: cs) := reached
    rcases whole.head with same | ⟨z, next, rest⟩
    · cases same
      revert link
      decide
    · have there : small.tree.next (0, [nameG]) = some (1, []) := by decide
      cases Option.some.inj (there.symm.trans next)
      rcases rest.head with same | ⟨z, stuck, _⟩
      · cases same
      · cases stuck
  · rw [small_target isLink] at reached
    rcases reached.head with same | ⟨z, stuck, _⟩
    · cases same
    · cases stuck

theorem small_fits : Fits small.tree 0 [nameS, nameF] := by
  intro y reached
  have first : small.tree.next (0, [nameS, nameF]) = some (0, [nameG, nameF]) := by decide
  have second : small.tree.next (0, [nameG, nameF]) = some (1, [nameF]) := by decide
  have third : small.tree.next (1, [nameF]) = none := by decide
  rcases reached.head with rfl | ⟨z, next, rest⟩
  · decide
  cases Option.some.inj (first.symm.trans next)
  rcases rest.head with rfl | ⟨z, next, rest⟩
  · decide
  cases Option.some.inj (second.symm.trans next)
  rcases rest.head with rfl | ⟨z, next, rest⟩
  · decide
  · cases third.symm.trans next

theorem throughLink_absolute : AbsolutePath [nameS, nameF] := by
  refine ⟨by decide, fun c hc => ?_⟩
  simp only [List.mem_cons, List.not_mem_nil, or_false] at hc
  rcases hc with rfl | rfl
  · exact ⟨by decide, by decide⟩
  · exact ⟨by decide, by decide⟩

end Gr8os.Ob
