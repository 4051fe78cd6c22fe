import Gr8os.Ob.Publication

/-! ObQueryDirectoryObject called over and over from NULL, with insertions between the calls. A call that holds the
DirectoryLock throughout is one step. -/
namespace Gr8os.Ob.Publication

open Ke Intrusive Runs

def obInsertObject (s : State) (directory : Option Nat) (object : Nat) : State :=
  s.insert (directory.getD obRootObjectDirectory) object

/-- An object is known by the DirectoryList of its header. -/
def obQueryDirectoryObject (s : State) (directory : Nat) (previousObject : Option Entry) : Status × Option Entry :=
  let objhdr := previousObject.getD (.objectList directory)
  let nexthdr := s.links.flink objhdr
  if nexthdr = .objectList directory then (.noMoreEntries, none) else (.success, some nexthdr)

/-- What the calls returned so far, and the status of the last one. -/
structure Enumeration where
  space : State
  previousObject : Option Entry := none
  returned : List Entry := []
  status : Option Status := none

inductive Move
  | insert (directory : Option Nat) (object : Nat)
  | query
deriving DecidableEq, Repr

/-- The result is fed back, until there are no more entries. -/
def Enumeration.next (directory : Nat) (e : Enumeration) : Move → Option Enumeration
  | .insert into object => some { e with space := obInsertObject e.space into object }
  | .query =>
    if e.status = some .noMoreEntries then none
    else
      let (status, nextObject) := obQueryDirectoryObject e.space directory e.previousObject
      some { e with previousObject := nextObject, returned := e.returned ++ nextObject.toList, status := some status }

/-- Objects that are in no directory yet are inserted into directories that are ready for them. -/
def Insertable (e : Enumeration) : Move → Prop
  | .insert into object =>
    e.space.parentDirectory object = none ∧ e.space.mutexReady (into.getD obRootObjectDirectory) = true
  | .query => True

instance (e : Enumeration) : (m : Move) → Decidable (Insertable e m)
  | .insert _ _ => inferInstanceAs (Decidable (_ ∧ _))
  | .query => isTrue trivial

/-- An enumeration of the directory in which each move is allowed. -/
abbrev Enumerates (directory : Nat) : Enumeration → List Move → Enumeration → Prop :=
  Run (Guarded Insertable fun e m e' => e.next directory m = some e')

def State.Linked (s : State) : Prop := ∀ d, s.mutexReady d = true → Listed s d

theorem Inv.linked {s : State} (inv : Inv s) : s.Linked := fun d ready => (inv.lists d ready).2

/-- The enumeration has returned the first objects of the list, in its order, and the others are still to come. -/
structure Stands (s : State) (d : Nat) (seen rest : List Nat) (e : Enumeration) : Prop where
  linked : e.space.Linked
  listed : ListedAs e.space d (seen ++ rest)
  kept : ∀ o, s.parentDirectory o = some d → e.space.parentDirectory o = some d
  returned : e.returned = seen.map .directoryList
  cursor : e.status ≠ some .noMoreEntries → e.previousObject = (seen.map Entry.directoryList).getLast?
  whole : e.status = some .noMoreEntries → ∀ o, s.parentDirectory o = some d → o ∈ seen

section moves

variable {s : State} {d : Nat} {seen rest : List Nat} {e e' : Enumeration}

/-- New objects come behind all that is there, or into another directory. -/
theorem Stands.insert {into : Option Nat} {o : Nat} (stands : Stands s d seen rest e)
    (insertable : Insertable e (.insert into o)) (step : e.next d (.insert into o) = some e') :
    ∃ rest', Stands s d seen rest' e' := by
  obtain ⟨unlinked, ready⟩ := insertable
  cases Option.some.inj step
  have target := stands.linked _ ready
  have linked : (obInsertObject e.space into o).Linked := fun d' ready' =>
    insert_listed target unlinked (stands.linked d' ready')
  have kept : ∀ p, s.parentDirectory p = some d → (obInsertObject e.space into o).parentDirectory p = some d :=
    fun p parent => insert_parent_kept unlinked (stands.kept p parent)
  by_cases here : into.getD obRootObjectDirectory = d
  · refine ⟨rest ++ [o], linked, ?_, kept, stands.returned, stands.cursor, stands.whole⟩
    change ListedAs (e.space.insert (into.getD obRootObjectDirectory) o) d (seen ++ (rest ++ [o]))
    rw [here, ← List.append_assoc]
    exact stands.listed.insert unlinked
  · obtain ⟨os, others⟩ := target
    exact ⟨rest, linked, stands.listed.insert_elsewhere others (Ne.symm here) unlinked, kept, stands.returned,
      stands.cursor, stands.whole⟩

/-- What ObQueryDirectoryObject returns: the first of the objects to come, if there is one. -/
theorem Stands.answer (stands : Stands s d seen rest e) (going : e.status ≠ some .noMoreEntries) :
    obQueryDirectoryObject e.space d e.previousObject =
      (if rest = [] then .noMoreEntries else .success, rest.head?.map .directoryList) := by
  have ring := stands.listed.1
  rw [List.map_append] at ring
  have next := ring_next _ ring
  rw [obQueryDirectoryObject, stands.cursor going, next]
  cases rest with
  | nil => exact if_pos rfl
  | cons o rest => exact if_neg Entry.noConfusion

theorem next_query (going : e.status ≠ some .noMoreEntries) {answer : Status × Option Entry}
    (query : obQueryDirectoryObject e.space d e.previousObject = answer) :
    e.next d .query = some ⟨e.space, answer.2, e.returned ++ answer.2.toList, some answer.1⟩ := by
  rw [Enumeration.next, if_neg going, query]

theorem Stands.last (stands : Stands s d seen [] e) (going : e.status ≠ some .noMoreEntries) :
    ∃ e', e.next d .query = some e' ∧ Stands s d seen [] e' ∧ e'.status = some .noMoreEntries := by
  refine ⟨_, next_query going (stands.answer going),
    ⟨stands.linked, stands.listed, stands.kept, ?_, fun again => absurd rfl again, fun _ o parent => ?_⟩, rfl⟩
  · exact (List.append_nil _).trans stands.returned
  · have member := (stands.listed.2 o).mpr (stands.kept o parent)
    rwa [List.append_nil] at member

theorem Stands.more {o : Nat} (stands : Stands s d seen (o :: rest) e) (going : e.status ≠ some .noMoreEntries) :
    ∃ e', e.next d .query = some e' ∧ Stands s d (seen ++ [o]) rest e' ∧ e'.status ≠ some .noMoreEntries := by
  have listed := stands.listed
  rw [List.append_cons] at listed
  refine ⟨_, next_query going (stands.answer going),
    ⟨stands.linked, listed, stands.kept, ?_, fun _ => ?_, fun ended => nomatch ended⟩, fun ended => nomatch ended⟩
  · rw [List.map_append, ← stands.returned]
    rfl
  · rw [List.map_append]
    exact List.getLast?_concat.symm

theorem Stands.next {m : Move} (stands : Stands s d seen rest e)
    (step : Guarded Insertable (fun e m e' => e.next d m = some e') e m e') :
    ∃ seen' rest', Stands s d seen' rest' e' := by
  obtain ⟨insertable, step⟩ := step
  cases m with
  | insert into o => exact ⟨seen, stands.insert insertable step⟩
  | query =>
    by_cases ended : e.status = some .noMoreEntries
    · rw [Enumeration.next, if_pos ended] at step
      cases step
    · cases rest with
      | nil =>
        obtain ⟨after, query, last, _⟩ := stands.last ended
        cases Option.some.inj (query.symm.trans step)
        exact ⟨seen, [], last⟩
      | cons o rest =>
        obtain ⟨after, query, later, _⟩ := stands.more ended
        cases Option.some.inj (query.symm.trans step)
        exact ⟨seen ++ [o], rest, later⟩

theorem Stands.run {moves : List Move} (stands : Stands s d seen rest e) (run : Enumerates d e moves e') :
    ∃ seen' rest', Stands s d seen' rest' e' := by
  induction run generalizing seen rest with
  | done => exact ⟨seen, rest, stands⟩
  | next first _ ih =>
    obtain ⟨seen', rest', between⟩ := stands.next first
    exact ih between

/-- Without insertions the calls come to the end of the list. -/
theorem Stands.ends (stands : Stands s d seen rest e) : ∃ n e', Enumerates d e (List.replicate n .query) e' ∧
    e'.status = some .noMoreEntries := by
  by_cases ended : e.status = some .noMoreEntries
  · exact ⟨0, e, .done e, ended⟩
  · induction rest generalizing seen e with
    | nil =>
      obtain ⟨after, query, _, status⟩ := stands.last ended
      exact ⟨1, after, .next ⟨trivial, query⟩ (.done after), status⟩
    | cons o rest ih =>
      obtain ⟨after, query, later, going⟩ := stands.more ended
      obtain ⟨n, e', run, done⟩ := ih later going
      exact ⟨n + 1, e', .next ⟨trivial, query⟩ run, done⟩

/-- An object gets into a directory by being inserted there. -/
theorem Enumerates.origin {moves : List Move} (run : Enumerates d e moves e') {o : Nat}
    (parent : e'.space.parentDirectory o = some d) :
    e.space.parentDirectory o = some d ∨ ∃ into, into.getD obRootObjectDirectory = d ∧ .insert into o ∈ moves := by
  induction run with
  | done => exact .inl parent
  | @next e between _ m ms first _ ih =>
    rcases ih parent with before | ⟨into, there, member⟩
    · cases m with
      | query =>
        have same : between.space = e.space := by
          by_cases ended : e.status = some .noMoreEntries
          · exact absurd ((if_pos ended).symm.trans first.2) nofun
          · cases Option.some.inj ((next_query ended rfl).symm.trans first.2)
            rfl
        rw [same] at before
        exact .inl before
      | insert into p =>
        cases Option.some.inj first.2
        by_cases new : o = p
        · subst new
          have there : some (into.getD obRootObjectDirectory) = some d := 
            (Function.update_self o _ e.space.parentDirectory).symm.trans before
          exact .inr ⟨into, Option.some.inj there, List.mem_cons_self⟩
        · exact .inl ((insert_parent_of_ne new).symm.trans before)
    · exact .inr ⟨into, there, List.mem_cons_of_mem m member⟩

end moves

/-- Whatever is inserted on the way: every object is returned at most once, those that were there at the start once
until the end, the list head never, and the end comes when no more is inserted. -/
theorem directory_enumerated {s : State} {d : Nat} {e : Enumeration} {moves : List Move} (linked : s.Linked)
    (ready : s.mutexReady d = true) (run : Enumerates d { space := s } moves e) :
    (∀ x, e.returned.count x ≤ 1) ∧ .objectList d ∉ e.returned ∧
    (∀ x ∈ e.returned, ∃ o, x = .directoryList o ∧ (s.parentDirectory o = some d ∨
      ∃ into, into.getD obRootObjectDirectory = d ∧ .insert into o ∈ moves)) ∧
    (e.status = some .noMoreEntries → ∀ o, s.parentDirectory o = some d → e.returned.count (.directoryList o) = 1) ∧
    ∃ n e', Enumerates d e (List.replicate n .query) e' ∧ e'.status = some .noMoreEntries := by
  obtain ⟨os, listed⟩ := linked d ready
  have start : Stands s d [] os { space := s } :=
    ⟨linked, listed, fun _ => id, rfl, fun _ => rfl, fun ended => nomatch ended⟩
  obtain ⟨seen, rest, stands⟩ := start.run run
  have distinct : (seen.map Entry.directoryList).Nodup := by
    have whole := (List.nodup_cons.mp stands.listed.1.1).2
    rw [List.map_append] at whole
    exact (List.nodup_append.mp whole).1
  have once : ∀ x, e.returned.count x ≤ 1 := by
    rw [stands.returned]
    exact List.nodup_iff_count.mp distinct
  refine ⟨once, ?_, ?_, ?_, stands.ends⟩
  · rw [stands.returned]
    intro member
    obtain ⟨o, _, head⟩ := List.mem_map.mp member
    cases head
  · intro x member
    rw [stands.returned] at member
    obtain ⟨o, inside, rfl⟩ := List.mem_map.mp member
    exact ⟨o, rfl, run.origin ((stands.listed.2 o).mp (List.mem_append_left rest inside))⟩
  · intro ended o parent
    have member : Entry.directoryList o ∈ e.returned := by
      rw [stands.returned]
      exact List.mem_map_of_mem (stands.whole ended o parent)
    exact Nat.le_antisymm (once _) (List.count_pos_iff.mpr member)

/-- The root with two objects, to which another comes between the calls. -/
def twoObjects : State := (start.insert 0 1).insert 0 2

theorem twoObjects_linked : twoObjects.Linked := by
  have first : (start.insert 0 1).Linked := fun d ready =>
    insert_listed (start_inv.linked 0 rfl) rfl (start_inv.linked d ready)
  exact fun d ready => insert_listed (first 0 rfl) rfl (first d ready)

def insertedBetween : List Move := [.query, .insert none 3, .query, .query, .query]

theorem twoObjects_enumerated : ∃ e, Enumerates 0 { space := twoObjects } insertedBetween e ∧
    e.returned = [.directoryList 1, .directoryList 2, .directoryList 3] ∧ e.status = some .noMoreEntries ∧
    (∀ x, e.returned.count x ≤ 1) ∧ .objectList 0 ∉ e.returned := by
  have run := @guarded_run _ _ Insertable _ (fun e m => Enumeration.next 0 e m) { space := twoObjects }
    ((exec (guarded Insertable fun e m => Enumeration.next 0 e m) { space := twoObjects } insertedBetween).get
      (by decide)) insertedBetween (Option.some_get _).symm
  have all := directory_enumerated twoObjects_linked rfl run
  exact ⟨_, run, by decide, by decide, all.1, all.2.1⟩

end Gr8os.Ob.Publication
