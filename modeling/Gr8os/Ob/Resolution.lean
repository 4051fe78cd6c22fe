import Mathlib.Data.List.Find
import Gr8os.Ob.Edits

/-! Name resolution ends as long as every link leads to something, and what keeps that. -/
namespace Gr8os.Ob

open PathWalk

theorem splitPath_eq (path : List WChar) :
    ∃ c cs, splitPath path = c :: cs ∧ backslash ∉ c ∧ (∀ b ∈ cs, backslash ∉ b) ∧ path = c ++ pathString cs := by
  induction path with
  | nil => exact ⟨[], [], rfl, by simp, by simp, rfl⟩
  | cons w ws ih =>
    obtain ⟨c, cs, split, plain, others, string⟩ := ih
    rcases Decidable.em (w = backslash) with rfl | other
    · refine ⟨[], c :: cs, by rw [splitPath, if_pos rfl, split], by simp, ?_, by rw [pathString_cons, ← string]; rfl⟩
      intro b member
      rcases List.mem_cons.mp member with rfl | later
      · exact plain
      · exact others b later
    · refine ⟨w :: c, cs, by rw [splitPath, if_neg other, split], ?_, others, by rw [string]; rfl⟩
      intro member
      rcases List.mem_cons.mp member with same | later
      · exact other same.symm
      · exact plain later

theorem plainPath_components {path : List WChar} (slash : path[0]? = some backslash) :
    PlainPath (components path) ∧ pathString (components path) = path := by
  cases path with
  | nil => exact absurd slash (by simp)
  | cons w ws =>
    cases Option.some.inj slash
    obtain ⟨c, cs, split, plain, others, string⟩ := splitPath_eq ws
    have here : components (backslash :: ws) = c :: cs := by rw [components, splitPath, if_pos rfl, split]; rfl
    rw [here, pathString_cons, ← string]
    refine ⟨⟨by simp, ?_⟩, rfl⟩
    intro b member
    rcases List.mem_cons.mp member with rfl | later
    · exact plain
    · exact others b later

/-- The target of a link is a path that leads to something. -/
def Found (s : ObjectSpace) (target : List WChar) : Prop :=
  ∃ cs, PlainPath cs ∧ target = pathString cs ∧ ∃ o rest, Walk s.tree s.obRootObjectDirectory cs (.found o rest)

structure Resolvable (m : ObjectManager) : Prop where
  bounded : ∀ d, ∀ o ∈ m.space.objectList d, o < m.created
  nodup : ∀ d, (m.space.objectList d).Nodup
  parent : ∀ d, ∀ o ∈ m.space.objectList d, (m.space.object o).parentDirectory ≠ none
  links : ∀ d, ∀ o ∈ m.space.objectList d, ∀ target, (m.space.object o).body = .symbolicLink target →
    Found m.space target

/-- No object is unlinked that the target of a remaining link leads through. -/
def Spares (s t : ObjectSpace) : Prop :=
  ∀ d, ∀ l ∈ t.objectList d, ∀ target, (t.object l).body = .symbolicLink target →
    ∀ e c cs o, Reach s.tree (s.obRootObjectDirectory, components target) (e, c :: cs) →
      s.named e c = some o → o ∈ t.objectList e

theorem find_sublist {p : Nat → Bool} {k l : List Nat} {o : Nat} (sub : k.Sublist l) (nodup : l.Nodup)
    (found : l.find? p = some o) (kept : o ∈ k) : k.find? p = some o := by
  induction sub with
  | slnil => exact found
  | cons a sub ih =>
    rw [List.nodup_cons] at nodup
    cases here : p a with
    | true =>
      rw [List.find?_cons_of_pos here] at found
      cases Option.some.inj found
      exact absurd (sub.subset kept) nodup.1
    | false =>
      rw [List.find?_cons_of_neg (by simp [here])] at found
      exact ih nodup.2 found kept
  | cons_cons a sub ih =>
    rw [List.nodup_cons] at nodup
    cases here : p a with
    | true =>
      rw [List.find?_cons_of_pos here] at found ⊢
      exact found
    | false =>
      rw [List.find?_cons_of_neg (by simp [here])] at found ⊢
      rcases List.mem_cons.mp kept with rfl | later
      · rw [List.find?_some found] at here
        exact absurd here (by simp)
      · exact ih nodup.2 found later

/-- What one call does to the names. -/
structure NameEdit (m m' : ObjectManager) (added : List Nat) : Prop where
  edited : Edited m.created added m.space m'.space
  created : m.created ≤ m'.created
  single : added.Nodup
  bounded : ∀ o ∈ added, o < m'.created
  parent : ∀ o ∈ added, (m'.space.object o).parentDirectory ≠ none
  unlisted : ∀ o ∈ added, ∀ d, o ∉ m.space.objectList d
  links : ∀ o ∈ added, ∀ target, (m'.space.object o).body = .symbolicLink target → Found m.space target

theorem Body.Alike.link {b b' : Body} (alike : b.Alike b') (target : List WChar) :
    b' = .symbolicLink target ↔ b = .symbolicLink target := by
  rcases alike with rfl | ⟨l, l', rfl, rfl⟩
  · exact Iff.rfl
  · simp

theorem entry_alike {s t : ObjectSpace} {o : Nat} (alike : (s.object o).body.Alike (t.object o).body) :
    t.entry o = s.entry o ∧ t.target o = s.target o := by
  unfold ObjectSpace.entry ObjectSpace.target
  rcases alike with same | ⟨l, l', here, there⟩
  · rw [same]
    exact ⟨rfl, rfl⟩
  · rw [here, there]
    exact ⟨rfl, rfl⟩

namespace NameEdit

variable {m m' : ObjectManager} {added : List Nat}

theorem nodup_extended (edit : NameEdit m m' added) (ok : Resolvable m) {new : List Nat}
    (ofAdded : new.Sublist added) (d : Nat) : (m.space.objectList d ++ new).Nodup := by
  refine List.nodup_append.mpr ⟨ok.nodup d, edit.single.sublist ofAdded, ?_⟩
  intro a old b fresh same
  exact edit.unlisted b (ofAdded.subset fresh) d (same ▸ old)

theorem listed (edit : NameEdit m m' added) {d o : Nat} (member : o ∈ m'.space.objectList d) :
    o ∈ m.space.objectList d ∨ o ∈ added := by
  obtain ⟨new, ofAdded, sub⟩ := edit.edited.lists d
  rcases List.mem_append.mp (sub.subset member) with old | fresh
  · exact .inl old
  · exact .inr (ofAdded.subset fresh)

/-- An object stays the first of its name as long as it is there: what is inserted comes behind it. -/
theorem named (edit : NameEdit m m' added) (ok : Resolvable m) {d o : Nat} {c : List WChar}
    (found : m.space.named d c = some o) (kept : o ∈ m'.space.objectList d) : m'.space.named d c = some o := by
  obtain ⟨new, ofAdded, sub⟩ := edit.edited.lists d
  unfold ObjectSpace.named at found ⊢
  refine find_sublist sub (edit.nodup_extended ok ofAdded d) ?_ kept
  rw [List.find?_append]
  have same : (m.space.objectList d).find? (fun p => (m'.space.object p).objectName = c) = some o := by
    rw [← found]
    apply List.find?_congr
    intro p member
    rw [edit.edited.name p (ok.bounded d p member)]
  rw [same]
  rfl

theorem found (edit : NameEdit m m' added) (ok : Resolvable m) {target : List WChar} (here : Found m.space target)
    (kept : ∀ e c cs o, Reach m.space.tree (m.space.obRootObjectDirectory, components target) (e, c :: cs) →
      m.space.named e c = some o → o ∈ m'.space.objectList e) : Found m'.space target := by
  obtain ⟨cs, plain, rfl, o, rest, walk⟩ := here
  rw [components_pathString plain.2] at kept
  refine ⟨cs, plain, rfl, o, rest, ?_⟩
  rw [edit.edited.root]
  refine walk.carry edit.edited.root ?_ ?_
  · intro e b bs reached there
    obtain ⟨p, named, entry⟩ := lookup_some rfl there
    have alike := edit.edited.alike p (ok.bounded e p (List.mem_of_find?_eq_some named))
    rw [named_entry (edit.named ok named (kept e b bs p reached named)), named_entry named, (entry_alike alike).1]
  · intro e b bs l reached link
    obtain ⟨p, named, entry⟩ := lookup_some link (by simp)
    have alike := edit.edited.alike p (ok.bounded e p (List.mem_of_find?_eq_some named))
    obtain ⟨-, rfl⟩ := entry_link entry
    exact (entry_alike alike).2

theorem resolvable (edit : NameEdit m m' added) (ok : Resolvable m) (spares : Spares m.space m'.space) :
    Resolvable m' := by
  constructor
  · intro d o member
    rcases edit.listed member with old | fresh
    · exact Nat.lt_of_lt_of_le (ok.bounded d o old) edit.created
    · exact edit.bounded o fresh
  · intro d
    obtain ⟨new, ofAdded, sub⟩ := edit.edited.lists d
    exact (edit.nodup_extended ok ofAdded d).sublist sub
  · intro d o member
    rcases edit.listed member with old | fresh
    · exact edit.edited.parent o (ok.bounded d o old) (ok.parent d o old)
    · exact edit.parent o fresh
  · intro d o member target link
    refine edit.found ok ?_ (spares d o member target link)
    rcases edit.listed member with old | fresh
    · have alike := edit.edited.alike o (ok.bounded d o old)
      exact ok.links d o old target ((alike.link target).mp link)
    · exact edit.links o fresh target link

end NameEdit

/-! Resolution ends when every link leads to something. -/

theorem Resolvable.plainTargets {m : ObjectManager} (ok : Resolvable m) : m.space.PlainTargets := by
  intro d o member target link
  obtain ⟨cs, plain, string, -⟩ := ok.links d o member target link
  exact ⟨cs, plain, string⟩

theorem Resolvable.walks {m : ObjectManager} (ok : Resolvable m) (d : Nat) (cs : List (List WChar)) :
    ∃ r, Walk m.space.tree d cs r := by
  apply walk_of_links
  rintro l ⟨e, c, link⟩
  obtain ⟨p, named, entry⟩ := lookup_some link (by simp)
  obtain ⟨⟨target, body⟩, rfl⟩ := entry_link entry
  obtain ⟨cs, plain, rfl, o, rest, walk⟩ := ok.links e p (List.mem_of_find?_eq_some named) target body
  have same : m.space.tree.target p = cs := by
    simp [ObjectSpace.tree, ObjectSpace.target, body, components_pathString plain.2]
  rw [same]
  exact ⟨_, walk⟩

section lookups

variable {allocated : Nat → Bool} {objectType : Option ObjectType} {requestorMode : ProcessorMode}
  {parseContext : BitVec 32} {path : List WChar}

/-- A path that starts with a backslash is resolved, to what its walk reaches. -/
theorem Resolvable.resolves {m : ObjectManager} (ok : Resolvable m) (slash : path[0]? = some backslash)
    (fits : Fits m.space.tree m.space.obRootObjectDirectory (components path)) (notLink : parseContext ≠ 1) :
    ∃ r, Walk m.space.tree m.space.obRootObjectDirectory (components path) r ∧ ∃ fuel₀, ∀ fuel, fuel₀ ≤ fuel →
      let result := obReferenceObjectByName allocated m.space fuel (rtlInitUnicodeString path) objectType
        requestorMode parseContext
      result = some (walkResult m.space objectType requestorMode parseContext r) ∨
        result = some ⟨.insufficientResources, none, none, m.space⟩ := by
  obtain ⟨plain, string⟩ := plainPath_components slash
  obtain ⟨r, walk⟩ := ok.walks m.space.obRootObjectDirectory (components path)
  refine ⟨r, walk, ?_⟩
  have start := start_position plain (fits _ .refl)
  rw [string] at start
  have room : (pathString (components path)).length ≤ (rtlInitUnicodeString path).buffer.length + 1 := by
    rw [string]
    exact Nat.le_succ _
  obtain ⟨fuel₀, resolved⟩ := @nameLoop_walks allocated m.space objectType requestorMode parseContext
    ok.plainTargets notLink _ _ _ walk _ _ 0 _ start fits room
  refine ⟨fuel₀ + 1, ?_⟩
  intro fuel more
  obtain ⟨fuel, rfl⟩ : ∃ f, fuel = f + 1 := ⟨fuel - 1, by omega⟩
  have again := reparseName_start allocated m.space objectType requestorMode parseContext start fuel 0
  rcases resolved fuel (by omega) with outcome | ⟨-, outcome⟩
  · exact .inl (again.trans outcome)
  · exact .inr (again.trans outcome)

theorem reparseName_mono {s : ObjectSpace} {fuel more heapCalls : Nat} {name : UnicodeString} {r : NameResult}
    (run : reparseName allocated s objectType requestorMode parseContext fuel name heapCalls = some r)
    (enough : fuel ≤ more) :
    reparseName allocated s objectType requestorMode parseContext more name heapCalls = some r := by
  induction fuel generalizing more name heapCalls with
  | zero => contradiction
  | succ fuel ih =>
    obtain ⟨more, rfl⟩ : ∃ f, more = f + 1 := ⟨more - 1, by omega⟩
    unfold reparseName at run ⊢
    split at run
    case isTrue relative =>
      rw [if_pos relative]
      exact run
    case isFalse absolute =>
      rw [if_neg absolute]
      split at run
      case h_1 => exact run
      case h_2 => exact run
      case h_3 => exact ih run (by omega)
      case h_4 => contradiction

/-- A name that is looked up with success starts with a backslash and leads to something. -/
theorem Resolvable.found {m : ObjectManager} (ok : Resolvable m)
    (fits : Fits m.space.tree m.space.obRootObjectDirectory (components path)) {fuel o : Nat} {r : NameResult}
    (run : obReferenceObjectByName allocated m.space fuel (rtlInitUnicodeString path) none .kernelMode 0 = some r)
    (success : r.object = some o) : Found m.space path := by
  have slash : path[0]? = some backslash := by
    apply Decidable.byContradiction
    intro relative
    cases fuel with
    | zero => contradiction
    | succ fuel =>
      have absent : (rtlInitUnicodeString path).buffer[0]? ≠ some backslash := relative
      rw [obReferenceObjectByName, reparseName, if_pos absent] at run
      cases Option.some.inj run
      exact absurd success (by simp)
  obtain ⟨plain, string⟩ := plainPath_components slash
  obtain ⟨result, walk, fuel₀, resolved⟩ := @Resolvable.resolves allocated none .kernelMode 0 path m ok
    slash fits (by decide)
  have long := reparseName_mono run (Nat.le_max_left fuel fuel₀)
  refine ⟨_, plain, string.symm, ?_⟩
  rcases resolved (max fuel fuel₀) (Nat.le_max_right _ _) with outcome | outcome
  · cases Option.some.inj (long.symm.trans outcome)
    cases result with
    | found p rest => exact ⟨p, rest, walk⟩
    | notFound => exact absurd success (by simp [walkResult])
  · cases Option.some.inj (long.symm.trans outcome)
    exact absurd success (by simp)

end lookups

end Gr8os.Ob
