import Gr8os.Lib.Partial
import Gr8os.Ob.Release

/-! What every edit of a deletion keeps, a deletion keeps with all the deletions it sets off. -/
namespace Gr8os.Ob

open Partial

/-- A relation between states that the single edits of a deletion stay in. -/
structure KeptByEdits (R : ObjectManager → ObjectManager → Prop) : Prop where
  refl : ∀ s, R s s
  trans : ∀ {s t u}, R s t → R t u → R s u
  decrement : ∀ s o, R s (s.decrement o)
  mark : ∀ s o, R s (s.mark o)
  unlink : ∀ s o, R s (s.unlink o)
  free : ∀ s o, R s (s.free o)

section kept

variable {R : ObjectManager → ObjectManager → Prop} {checked : Bool} {fuel : Nat}
  {deleteInternal : ObjectManager → Nat → Option (Status × ObjectManager)}

theorem dereferenceWith_kept (kept : KeptByEdits R) (deletes : ∀ s o, Ends (deleteInternal s o) fun r => R s r.2)
    (s : ObjectManager) (o : Nat) : Ends (dereferenceWith deleteInternal checked s o) (R s) := by
  have dropped := kept.decrement s o
  unfold dereferenceWith
  apply Ends.ite
  · intro _
    apply Ends.ite
    · intro _
      exact .none
    · intro _
      constructor
      intro t gone
      obtain ⟨r, code, rfl⟩ := Option.map_eq_some_iff.mp gone
      exact kept.trans dropped ((deletes _ o).of_eq code)
  · intro _
    exact .some dropped

theorem dereferenceAll_kept (kept : KeptByEdits R) (deletes : ∀ s o, Ends (deleteInternal s o) fun r => R s r.2)
    (ps : List Nat) (s : ObjectManager) : Ends (ps.foldlM (dereferenceWith deleteInternal checked) s) (R s) := by
  induction ps generalizing s with
  | nil => exact .some (kept.refl s)
  | cons p ps ih =>
    apply Ends.bind (dereferenceWith_kept kept deletes s p)
    intro t first
    exact (ih t).mono fun u rest => kept.trans first rest

theorem deleteBegun_kept (kept : KeptByEdits R)
    (deletes : ∀ s o, Ends (obpDeleteObjectInternal checked fuel s o) fun r => R s r.2) {s : ObjectManager} {o : Nat}
    {r : Status × ObjectManager} (unused : (s.header o).referenceCount = 0)
    (run : obpDeleteObjectInternal checked (fuel + 1) s o = some r) : R (s.mark o) r.2 := by
  unfold obpDeleteObjectInternal at run
  obtain ⟨t, released, rfl⟩ := Option.map_eq_some_iff.mp ((if_neg (not_not_intro unused)).symm.trans run)
  have unlinked := kept.unlink (s.mark o) o
  have rest := (dereferenceAll_kept kept deletes _ _).of_eq released
  exact kept.trans (kept.trans unlinked rest) (kept.free t o)

theorem obpDeleteObjectInternal_kept (kept : KeptByEdits R) (s : ObjectManager) (o : Nat) :
    Ends (obpDeleteObjectInternal checked fuel s o) fun r => R s r.2 := by
  induction fuel generalizing s o with
  | zero => exact .none
  | succ fuel ih =>
    constructor
    intro r run
    by_cases unused : (s.header o).referenceCount = 0
    · exact kept.trans (kept.mark s o) (deleteBegun_kept kept ih unused run)
    · unfold obpDeleteObjectInternal at run
      cases Option.some.inj ((if_pos unused).symm.trans run)
      exact kept.refl s

theorem obDereferenceObject_kept (kept : KeptByEdits R) (s : ObjectManager) (o : Nat) :
    Ends (obDereferenceObject checked fuel s o) (R s) :=
  dereferenceWith_kept kept (obpDeleteObjectInternal_kept kept) s o

end kept

theorem going_mark (s : ObjectManager) (o : Nat) : ((s.mark o).header o).going := by
  simp only [ObjectManager.mark, header_modify_self]
  exact progress_going _

/-- An object whose deletion has begun is not brought back. -/
def KeepsGoing (s t : ObjectManager) : Prop := ∀ o, (s.header o).going → (t.header o).going

theorem going_modify (s : ObjectManager) (o : Nat) {f : ObjectHeader → ObjectHeader} (kept : ∀ h, h.going → (f h).going) :
    KeepsGoing s (s.modify o f) := by
  intro p going
  by_cases same : p = o
  · rw [same, header_modify_self]
    exact kept _ (same ▸ going)
  · rw [header_modify_of_ne s f same]
    exact going

theorem keepsGoing_edits : KeptByEdits KeepsGoing where
  refl _ _ going := going
  trans first second o going := second o (first o going)
  decrement s o := going_modify s o fun _ going => going
  mark s o := going_modify s o fun _ _ => progress_going _
  unlink s o p going := by
    have flags := header_unlink_same s o ObjectHeader.flags (fun _ _ => rfl) p
    rw [ObjectHeader.going, flags]
    exact going
  free _ _ _ going := going

section last

variable {checked : Bool} {fuel : Nat} {s t : ObjectManager} {o : Nat}

/-- With another reference left a dereference only counts down. -/
theorem dereference_more (more : (s.header o).referenceCount ≠ 1) (run : obDereferenceObject checked fuel s o = some t) :
    t = s.decrement o := by
  have used : ¬((s.decrement o).header o).Unused := by
    intro unused
    have below := unused.1
    simp only [ObjectManager.decrement, header_modify_self] at below
    exact more (by bv_omega)
  unfold obDereferenceObject dereferenceWith at run
  exact (Option.some.inj ((if_neg used).symm.trans run)).symm

theorem dereference_last {R : ObjectManager → ObjectManager → Prop} (kept : KeptByEdits R)
    (last : (s.header o).referenceCount = 1) (temporary : (s.header o).flags &&& objPermanent = 0)
    (run : obDereferenceObject checked fuel s o = some t) : R ((s.decrement o).mark o) t := by
  have none : ((s.decrement o).header o).referenceCount = 0 := by
    simp only [ObjectManager.decrement, header_modify_self, last]
    rfl
  have unused : ((s.decrement o).header o).Unused := by
    constructor
    · exact none
    · simp only [ObjectManager.decrement, header_modify_self]
      exact .inl temporary
  unfold obDereferenceObject dereferenceWith at run
  rw [if_pos unused] at run
  split at run
  · contradiction
  · obtain ⟨r, deleted, rfl⟩ := Option.map_eq_some_iff.mp run
    cases fuel with
    | zero => contradiction
    | succ fuel => exact deleteBegun_kept kept (obpDeleteObjectInternal_kept kept) none deleted

end last

end Gr8os.Ob
