import Gr8os.Lib.Partial
import Gr8os.Ob.Accounts
import Gr8os.Ob.Links
import Gr8os.Ob.NameWalk

/-! What the calls of the object manager do to the names: entries leave the lists of directories, and an
object that is inserted comes last in one of them. -/
namespace Gr8os.Ob

open Partial

/-- The same object, but for the entries of a directory. -/
def Body.Alike (b b' : Body) : Prop := b' = b ∨ ∃ l l', b = .directory l ∧ b' = .directory l'

theorem Body.Alike.trans {b c d : Body} (first : b.Alike c) (second : c.Alike d) : b.Alike d := by
  rcases first with rfl | ⟨l, l', rfl, rfl⟩
  · exact second
  · rcases second with rfl | ⟨k, k', _, rfl⟩
    · exact .inr ⟨l, l', rfl, rfl⟩
    · exact .inr ⟨l, k', rfl, rfl⟩

theorem Body.alike_removeEntry (b : Body) (o : Nat) : b.Alike (b.removeEntry o) := by
  cases b with
  | directory l => exact .inr ⟨l, l.erase o, rfl, rfl⟩
  | _ => exact .inl rfl

theorem Body.alike_insertTail (b : Body) (o : Nat) : b.Alike (b.insertTail o) := by
  cases b with
  | directory l => exact .inr ⟨l, l ++ [o], rfl, rfl⟩
  | _ => exact .inl rfl

/-- The objects below `n` stay what they are, and only `added` may come to the end of a list. -/
structure Edited (n : Nat) (added : List Nat) (s t : ObjectSpace) : Prop where
  root : t.obRootObjectDirectory = s.obRootObjectDirectory
  name : ∀ o < n, (t.object o).objectName = (s.object o).objectName
  alike : ∀ o < n, (s.object o).body.Alike (t.object o).body
  parent : ∀ o < n, (s.object o).parentDirectory ≠ none → (t.object o).parentDirectory ≠ none
  lists : ∀ d, ∃ new, new.Sublist added ∧ (t.objectList d).Sublist (s.objectList d ++ new)

variable {n : Nat} {added : List Nat} {s t u : ObjectSpace}

theorem Edited.refl (n : Nat) (s : ObjectSpace) : Edited n [] s s where
  root := rfl
  name _ _ := rfl
  alike _ _ := .inl rfl
  parent _ _ h := h
  lists d := ⟨[], .slnil, by rw [List.append_nil]⟩

theorem Edited.mono {k : Nat} (h : Edited n added s t) (fewer : k ≤ n) : Edited k added s t where
  root := h.root
  name o less := h.name o (by omega)
  alike o less := h.alike o (by omega)
  parent o less := h.parent o (by omega)
  lists := h.lists

theorem Edited.trans {more : List Nat} (first : Edited n added s t) (second : Edited n more t u) :
    Edited n (added ++ more) s u where
  root := second.root.trans first.root
  name o less := (second.name o less).trans (first.name o less)
  alike o less := (first.alike o less).trans (second.alike o less)
  parent o less h := second.parent o less (first.parent o less h)
  lists d := by
    obtain ⟨new, ofAdded, here⟩ := first.lists d
    obtain ⟨new', ofMore, there⟩ := second.lists d
    refine ⟨new ++ new', ofAdded.append ofMore, ?_⟩
    rw [← List.append_assoc]
    exact there.trans (here.append_right new')

/-- A header is rewritten: what it may do to an object below `n`, and to the list of any object. -/
theorem edited_modify {m : ObjectManager} {o : Nat} {f : ObjectHeader → ObjectHeader}
    (name : o < n → ∀ h, (f h).objectName = h.objectName) (alike : o < n → ∀ h : ObjectHeader, h.body.Alike (f h).body)
    (parent : o < n → ∀ h : ObjectHeader, h.parentDirectory ≠ none → (f h).parentDirectory ≠ none)
    (list : ∀ h : ObjectHeader, ∃ new, new.Sublist added ∧ (f h).body.entries.Sublist (h.body.entries ++ new)) :
    Edited n added m.space (m.modify o f).space := by
  have other {p : Nat} (apart : p ≠ o) : (m.modify o f).space.object p = m.space.object p := if_neg apart
  have self : (m.modify o f).space.object o = f (m.space.object o) := if_pos rfl
  constructor
  · rfl
  · intro p less
    rcases Decidable.em (p = o) with rfl | apart
    · rw [self, name less]
    · rw [other apart]
  · intro p less
    rcases Decidable.em (p = o) with rfl | apart
    · rw [self]
      exact alike less _
    · rw [other apart]
      exact .inl rfl
  · intro p less
    rcases Decidable.em (p = o) with rfl | apart
    · rw [self]
      exact parent less _
    · rw [other apart]
      exact id
  · intro d
    rcases Decidable.em (d = o) with rfl | apart
    · obtain ⟨new, ofAdded, sub⟩ := list (m.space.object d)
      refine ⟨new, ofAdded, ?_⟩
      rw [objectList_listed, objectList_listed m]
      change ((m.modify d f).space.object d).body.entries.Sublist _
      rw [self]
      exact sub
    · refine ⟨[], List.nil_sublist _, ?_⟩
      rw [List.append_nil]
      unfold ObjectSpace.objectList
      rw [other apart]

/-- An object that was not there before may become anything that lists no more objects. -/
theorem edited_above {m : ObjectManager} {o : Nat} {f : ObjectHeader → ObjectHeader} (above : n ≤ o)
    (list : ∀ h : ObjectHeader, (f h).body.entries.Sublist h.body.entries) :
    Edited n [] m.space (m.modify o f).space := by
  have outside : ¬ o < n := Nat.not_lt.mpr above
  apply edited_modify
  · exact fun less => absurd less outside
  · exact fun less => absurd less outside
  · exact fun less => absurd less outside
  · intro h
    exact ⟨[], .slnil, by rw [List.append_nil]; exact list h⟩

theorem edited_counts {m : ObjectManager} {o : Nat} {f : ObjectHeader → ObjectHeader}
    (name : ∀ h, (f h).objectName = h.objectName) (body : ∀ h, (f h).body = h.body)
    (parent : ∀ h, (f h).parentDirectory = h.parentDirectory) : Edited n [] m.space (m.modify o f).space := by
  apply edited_modify
  · exact fun _ => name
  · exact fun _ h => .inl (body h)
  · intro _ h
    rw [parent]
    exact id
  · intro h
    exact ⟨[], .slnil, by rw [body, List.append_nil]⟩

theorem edited_unlink (m : ObjectManager) (o : Nat) : Edited n [] m.space (m.unlink o).space := by
  unfold ObjectManager.unlink
  split
  · exact .refl n _
  · apply edited_modify
    · exact fun _ _ => rfl
    · exact fun _ h => h.body.alike_removeEntry o
    · exact fun _ _ h => h
    · intro h
      refine ⟨[], .slnil, ?_⟩
      rw [entries_removeEntry, List.append_nil]
      exact List.erase_sublist

/-- Names as they were, but for entries that left their lists, and no object more. -/
structure Trimmed (n : Nat) (m m' : ObjectManager) : Prop where
  edited : Edited n [] m.space m'.space
  created : m'.created = m.created

theorem Trimmed.refl (n : Nat) (m : ObjectManager) : Trimmed n m m := ⟨.refl n _, rfl⟩

theorem Trimmed.trans {m m' m'' : ObjectManager} (first : Trimmed n m m') (second : Trimmed n m' m'') :
    Trimmed n m m'' := ⟨first.edited.trans second.edited, second.created.trans first.created⟩

theorem trimmed_decrement (m : ObjectManager) (o : Nat) : Trimmed n m (m.decrement o) :=
  ⟨edited_counts (fun _ => rfl) (fun _ => rfl) fun _ => rfl, rfl⟩

theorem trimmed_pending (m : ObjectManager) (o : Nat) : Trimmed n m (markDeletePending m o) :=
  ⟨edited_counts (fun _ => rfl) (fun _ => rfl) fun _ => rfl, rfl⟩

theorem trimmed_dereferenceEx (m : ObjectManager) (o : Nat) (count : BitVec 32) :
    Trimmed n m (obDereferenceObjectEx m o count) :=
  ⟨edited_counts (fun _ => rfl) (fun _ => rfl) fun _ => rfl, rfl⟩

section delete

variable {checked : Bool} {fuel : Nat} {deleteInternal : ObjectManager → Nat → Option (Status × ObjectManager)}

theorem dereferenceWith_trimmed (deletes : ∀ m o, Ends (deleteInternal m o) fun r => Trimmed n m r.2)
    (m : ObjectManager) (o : Nat) : Ends (dereferenceWith deleteInternal checked m o) (Trimmed n m) := by
  have dropped := trimmed_decrement (n := n) m o
  unfold dereferenceWith
  apply Ends.ite
  · intro _
    apply Ends.ite
    · intro _
      exact .none
    · intro _
      constructor
      intro t gone
      obtain ⟨r, code, rfl⟩ := Option.map_eq_some_iff.mp gone
      exact dropped.trans ((deletes _ o).of_eq code)
  · intro _
    exact .some dropped

theorem dereferenceAll_trimmed (deletes : ∀ m o, Ends (deleteInternal m o) fun r => Trimmed n m r.2)
    (ps : List Nat) (m : ObjectManager) :
    Ends (ps.foldlM (dereferenceWith deleteInternal checked) m) (Trimmed n m) := by
  induction ps generalizing m with
  | nil => exact .some (.refl n m)
  | cons p ps ih =>
    apply Ends.bind (dereferenceWith_trimmed deletes m p)
    intro m' first
    exact (ih m').mono fun m'' rest => first.trans rest

theorem obpDeleteObjectInternal_trimmed (m : ObjectManager) (o : Nat) :
    Ends (obpDeleteObjectInternal checked fuel m o) fun r => Trimmed n m r.2 := by
  induction fuel generalizing m o with
  | zero => exact .none
  | succ fuel ih =>
    unfold obpDeleteObjectInternal
    apply Ends.ite
    · intro _
      exact .some (.refl n m)
    · intro _
      have begun : Trimmed n m (m.begin o) := by
        have marked : Edited n [] m.space (m.mark o).space :=
          edited_counts (fun _ => rfl) (fun _ => rfl) fun _ => rfl
        exact ⟨marked.trans (edited_unlink (m.mark o) o), (frame_unlink (m.mark o) o).1⟩
      constructor
      intro r gone
      obtain ⟨m', code, rfl⟩ := Option.map_eq_some_iff.mp gone
      have rest := (dereferenceAll_trimmed ih _ _).of_eq code
      exact ⟨(begun.trans rest).edited, (begun.trans rest).created⟩

theorem obDereferenceObject_trimmed (m : ObjectManager) (o : Nat) :
    Ends (obDereferenceObject checked fuel m o) (Trimmed n m) :=
  dereferenceWith_trimmed obpDeleteObjectInternal_trimmed m o

end delete

end Gr8os.Ob
