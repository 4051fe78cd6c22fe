import Gr8os.Lib.RefCount
import Gr8os.Ob.References

/-! What a dereference does to the counts: the deletions that it sets off give up references one by one. -/
namespace Gr8os.Ob

open RefCount

def ObjectHeader.going (h : ObjectHeader) : Prop := h.flags &&& objDeleteInProgress ≠ 0

instance (h : ObjectHeader) : Decidable h.going := inferInstanceAs (Decidable (_ ≠ _))

def Body.entries : Body → List Nat
  | .directory objectList => objectList
  | _ => []

/-- Objects that were created and whose deletion has not begun. -/
def ObjectManager.alive (s : ObjectManager) : Finset Nat :=
  (Finset.range s.created).filter fun o => ¬(s.header o).going

def ObjectManager.graph (s : ObjectManager) : Graph Nat where
  alive := s.alive
  count o := (s.header o).referenceCount.toNat
  children o := (s.header o).references

def ObjectManager.listed (s : ObjectManager) (directory : Nat) : List Nat := (s.header directory).body.entries

structure Sound (s : ObjectManager) : Prop where
  nodup : ∀ d, (s.listed d).Nodup
  inList : ∀ d, ∀ o ∈ s.listed d, o ∈ s.alive ∧ (s.header o).parentDirectory = some d
  temporary : ∀ o, (s.header o).flags &&& objPermanent = 0
  freed : ∀ o, s.freed o = true → o < s.created ∧ o ∉ s.alive

@[simp] theorem header_modify_self (s : ObjectManager) (o : Nat) (f : ObjectHeader → ObjectHeader) :
    (s.modify o f).header o = f (s.header o) := by
  simp [ObjectManager.modify, ObjectManager.header]

theorem header_modify_of_ne (s : ObjectManager) {o p : Nat} (f : ObjectHeader → ObjectHeader) (other : p ≠ o) :
    (s.modify o f).header p = s.header p := by
  simp [ObjectManager.modify, ObjectManager.header, other]

/-- What one edit leaves alone in a header, it leaves alone in every header. -/
theorem header_modify_same (s : ObjectManager) (o : Nat) {f : ObjectHeader → ObjectHeader} {α : Type}
    (field : ObjectHeader → α) (same : ∀ h, field (f h) = field h) (p : Nat) :
    field ((s.modify o f).header p) = field (s.header p) := by
  rcases Decidable.em (p = o) with rfl | other
  · rw [header_modify_self, same]
  · rw [header_modify_of_ne s f other]

@[simp] theorem created_modify (s : ObjectManager) (o : Nat) (f : ObjectHeader → ObjectHeader) :
    (s.modify o f).created = s.created := rfl

@[simp] theorem freed_modify (s : ObjectManager) (o : Nat) (f : ObjectHeader → ObjectHeader) :
    (s.modify o f).freed = s.freed := rfl

@[simp] theorem handleTables_modify (s : ObjectManager) (o : Nat) (f : ObjectHeader → ObjectHeader) :
    (s.modify o f).handleTables = s.handleTables := rfl

theorem mem_alive {s : ObjectManager} {o : Nat} : o ∈ s.alive ↔ o < s.created ∧ ¬(s.header o).going := by
  simp [ObjectManager.alive]

/-- An edit that leaves the flag of a deletion in progress alone. -/
theorem alive_modify (s : ObjectManager) (o : Nat) {f : ObjectHeader → ObjectHeader}
    (same : ∀ h, (f h).flags &&& objDeleteInProgress = h.flags &&& objDeleteInProgress) :
    (s.modify o f).alive = s.alive := by
  apply Finset.ext
  intro p
  have flag := header_modify_same s o (fun h => h.flags &&& objDeleteInProgress) same p
  simp only [mem_alive, ObjectHeader.going, flag, created_modify]

theorem sound_modify {s : ObjectManager} (sound : Sound s) (o : Nat) {f : ObjectHeader → ObjectHeader}
    (body : ∀ h, (f h).body = h.body) (parent : ∀ h, (f h).parentDirectory = h.parentDirectory)
    (going : ∀ h, (f h).flags &&& objDeleteInProgress = h.flags &&& objDeleteInProgress)
    (permanent : ∀ h, (f h).flags &&& objPermanent = h.flags &&& objPermanent) : Sound (s.modify o f) := by
  have alive := alive_modify s o going
  have listed : ∀ d, (s.modify o f).listed d = s.listed d :=
    header_modify_same s o (fun h => h.body.entries) fun h => by rw [body]
  constructor
  · intro d
    rw [listed]
    exact sound.nodup d
  · intro d p member
    rw [listed] at member
    rw [alive, header_modify_same s o _ parent]
    exact sound.inList d p member
  · intro p
    have flag := header_modify_same s o (fun h => h.flags &&& objPermanent) permanent p
    exact flag.trans (sound.temporary p)
  · rw [alive]
    exact sound.freed

theorem pending_going (flags : BitVec 32) :
    (flags ||| objDeletePending) &&& objDeleteInProgress = flags &&& objDeleteInProgress := by
  rw [BitVec.and_or_distrib_right]
  exact BitVec.or_zero

theorem pending_permanent (flags : BitVec 32) :
    (flags ||| objDeletePending) &&& objPermanent = flags &&& objPermanent := by
  rw [BitVec.and_or_distrib_right]
  exact BitVec.or_zero

theorem progress_permanent (flags : BitVec 32) :
    (flags ||| objDeleteInProgress) &&& objPermanent = flags &&& objPermanent := by
  rw [BitVec.and_or_distrib_right]
  exact BitVec.or_zero

theorem progress_going (flags : BitVec 32) : (flags ||| objDeleteInProgress) &&& objDeleteInProgress ≠ 0 := by
  rw [BitVec.and_or_distrib_right]
  intro none
  exact absurd (BitVec.or_eq_zero_iff.mp none).2 (by decide)

theorem sound_decrement {s : ObjectManager} (sound : Sound s) (o : Nat) : Sound (s.decrement o) :=
  sound_modify sound o (fun _ => rfl) (fun _ => rfl) (fun _ => rfl) fun _ => rfl

theorem alive_decrement (s : ObjectManager) (o : Nat) : (s.decrement o).alive = s.alive := alive_modify s o fun _ => rfl

theorem graph_decrement {s : ObjectManager} {o : Nat} (held : 0 < (s.header o).referenceCount.toNat) :
    (s.decrement o).graph = s.graph.drop o := by
  have alive := alive_decrement s o
  have count : ∀ p, ((s.decrement o).header p).referenceCount.toNat = (s.graph.drop o).count p := by
    intro p
    rcases Decidable.em (p = o) with rfl | other
    · simp only [ObjectManager.decrement, header_modify_self, ObjectManager.graph, Graph.drop, Function.update_self]
      bv_omega
    · simp only [ObjectManager.decrement, header_modify_of_ne s _ other, ObjectManager.graph, Graph.drop,
        Function.update_of_ne other]
  have children : ∀ p, ((s.decrement o).header p).references = (s.header p).references :=
    header_modify_same s o ObjectHeader.references fun _ => rfl
  simp only [ObjectManager.graph, Graph.drop, alive, RefCount.Graph.mk.injEq, true_and]
  exact ⟨funext count, funext children⟩

def ObjectManager.mark (s : ObjectManager) (o : Nat) : ObjectManager :=
  s.modify o fun h => { h with flags := h.flags ||| objDeleteInProgress }

/-- ObpDeleteObjectInternal up to the call of the delete routine. -/
def ObjectManager.begin (s : ObjectManager) (o : Nat) : ObjectManager := (s.mark o).unlink o

theorem header_unlink_same (s : ObjectManager) (o : Nat) {α : Type} (field : ObjectHeader → α)
    (same : ∀ h b, field { h with body := b } = field h) (p : Nat) :
    field ((s.unlink o).header p) = field (s.header p) := by
  unfold ObjectManager.unlink
  split
  · rfl
  · exact header_modify_same s _ field (fun h => same h _) p

theorem header_begin_same (s : ObjectManager) (o : Nat) {α : Type} (field : ObjectHeader → α)
    (body : ∀ h b, field { h with body := b } = field h) (flags : ∀ h b, field { h with flags := b } = field h)
    (p : Nat) : field ((s.begin o).header p) = field (s.header p) :=
  (header_unlink_same _ o field body p).trans (header_modify_same s o field (fun h => flags h _) p)

theorem frame_unlink (s : ObjectManager) (o : Nat) : (s.unlink o).created = s.created ∧
    (s.unlink o).freed = s.freed ∧ (s.unlink o).handleTables = s.handleTables := by
  unfold ObjectManager.unlink
  split <;> simp

theorem alive_begin (s : ObjectManager) (o : Nat) : (s.begin o).alive = s.alive.erase o := by
  apply Finset.ext
  intro p
  have flags : ((s.begin o).header p).flags = ((s.mark o).header p).flags :=
    header_unlink_same (s.mark o) o ObjectHeader.flags (fun _ _ => rfl) p
  have created : (s.begin o).created = s.created := (frame_unlink (s.mark o) o).1
  simp only [mem_alive, ObjectHeader.going, Finset.mem_erase, created, flags]
  rcases Decidable.em (p = o) with rfl | other
  · simp only [ObjectManager.mark, header_modify_self]
    constructor
    · intro h
      exact absurd (progress_going _) h.2
    · intro h
      exact absurd rfl h.1
  · simp only [ObjectManager.mark, header_modify_of_ne s _ other, ne_eq, other, not_false_eq_true, true_and]

theorem graph_begin (s : ObjectManager) (o : Nat) : (s.begin o).graph = s.graph.kill o := by
  have count := header_begin_same s o (fun h => h.referenceCount.toNat) (fun _ _ => rfl) fun _ _ => rfl
  have children := header_begin_same s o ObjectHeader.references (fun _ _ => rfl) fun _ _ => rfl
  simp only [ObjectManager.graph, Graph.kill, alive_begin, RefCount.Graph.mk.injEq, true_and]
  exact ⟨funext count, funext children⟩

theorem entries_removeEntry (b : Body) (o : Nat) : (b.removeEntry o).entries = b.entries.erase o := by
  cases b <;> simp [Body.removeEntry, Body.entries]

theorem listed_begin {s : ObjectManager} (sound : Sound s) (o d : Nat) :
    (s.begin o).listed d = (s.listed d).erase o := by
  have kept : ∀ p, ((s.mark o).header p).body.entries = s.listed p :=
    header_modify_same s o (fun h => h.body.entries) fun _ => rfl
  have absent : (s.header o).parentDirectory ≠ some d → (s.listed d).erase o = s.listed d := by
    intro other
    exact List.erase_of_not_mem fun member => other (sound.inList d o member).2
  have same : ((s.mark o).header o).parentDirectory = (s.header o).parentDirectory := by
    simp only [ObjectManager.mark, header_modify_self]
  unfold ObjectManager.begin ObjectManager.unlink
  rw [same]
  cases parent : (s.header o).parentDirectory with
  | none =>
    rw [absent (by simp [parent])]
    exact kept d
  | some e =>
    rcases Decidable.em (d = e) with rfl | other
    · simp only [ObjectManager.listed, header_modify_self, entries_removeEntry]
      exact congrArg (·.erase o) (kept d)
    · simp only [ObjectManager.listed, header_modify_of_ne _ _ other]
      rw [kept d, ← ObjectManager.listed, absent]
      intro same
      exact other (Option.some.inj (parent ▸ same)).symm

theorem sound_begin {s : ObjectManager} (sound : Sound s) (o : Nat) : Sound (s.begin o) := by
  have frame := frame_unlink (s.mark o) o
  constructor
  · intro d
    rw [listed_begin sound]
    exact (sound.nodup d).erase o
  · intro d p member
    rw [listed_begin sound, (sound.nodup d).mem_erase_iff] at member
    obtain ⟨alive, parent⟩ := sound.inList d p member.2
    rw [alive_begin, header_begin_same s o ObjectHeader.parentDirectory (fun _ _ => rfl) fun _ _ => rfl]
    exact ⟨Finset.mem_erase.mpr ⟨member.1, alive⟩, parent⟩
  · intro p
    have flags := header_unlink_same (s.mark o) o (fun h => h.flags &&& objPermanent) (fun _ _ => rfl) p
    have kept : ((s.mark o).header p).flags &&& objPermanent = (s.header p).flags &&& objPermanent :=
      header_modify_same s o (fun h => h.flags &&& objPermanent) (fun h => progress_permanent h.flags) p
    exact flags.trans (kept.trans (sound.temporary p))
  · intro p freed
    have before := sound.freed p ((congrFun frame.2.1 p).symm.trans freed)
    rw [alive_begin]
    exact ⟨before.1.trans_eq frame.1.symm, fun member => before.2 (Finset.mem_of_mem_erase member)⟩

@[simp] theorem alive_free (s : ObjectManager) (o : Nat) : (s.free o).alive = s.alive := rfl

@[simp] theorem graph_free (s : ObjectManager) (o : Nat) : (s.free o).graph = s.graph := rfl

theorem sound_free {s : ObjectManager} (sound : Sound s) {o : Nat} (created : o < s.created) (gone : o ∉ s.alive) :
    Sound (s.free o) := by
  refine ⟨sound.nodup, sound.inList, sound.temporary, fun p freed => ?_⟩
  simp only [ObjectManager.free] at freed
  split at freed
  · rename_i same
    subst same
    exact ⟨created, gone⟩
  · exact sound.freed p freed

/-- What holds across a dereference and all deletions it sets off. -/
structure Cascade (s t : ObjectManager) : Prop where
  sound : Sound t
  created : t.created = s.created
  handleTables : t.handleTables = s.handleTables
  pending : ∀ o < s.created, o ∉ t.alive → t.freed o = false → o ∉ s.alive ∧ s.freed o = false

theorem Cascade.refl {s : ObjectManager} (sound : Sound s) : Cascade s s :=
  ⟨sound, rfl, rfl, fun _ _ gone kept => ⟨gone, kept⟩⟩

theorem Cascade.trans {s t u : ObjectManager} (first : Cascade s t) (second : Cascade t u) : Cascade s u where
  sound := second.sound
  created := second.created.trans first.created
  handleTables := second.handleTables.trans first.handleTables
  pending o bound gone kept := by
    obtain ⟨gone, kept⟩ := second.pending o (first.created ▸ bound) gone kept
    exact first.pending o bound gone kept

theorem Cascade.decrement {s : ObjectManager} (sound : Sound s) (o : Nat) : Cascade s (s.decrement o) where
  sound := sound_decrement sound o
  created := rfl
  handleTables := rfl
  pending _ _ gone kept := ⟨alive_decrement s o ▸ gone, kept⟩

/-- What a deletion does when the counts are right: the object dies, and its references are given up. -/
def DeletesTo (deleteInternal : ObjectManager → Nat → Option (Status × ObjectManager)) : Prop :=
  ∀ {s : ObjectManager} {o : Nat} {outer : Nat → Nat} {r : Status × ObjectManager}, Sound s → o ∈ s.alive →
    (s.header o).referenceCount = 0 → s.graph.Counted outer → deleteInternal s o = some r →
    Cascade s r.2 ∧ Releases (s.graph.kill o) (s.graph.children o) r.2.graph

section release

variable {deleteInternal : ObjectManager → Nat → Option (Status × ObjectManager)} {checked : Bool}
  {s t : ObjectManager} {outer : Nat → Nat}

theorem dereferenceWith_releases (deletes : DeletesTo deleteInternal) {o : Nat} (sound : Sound s)
    (counted : s.graph.Counted fun q => outer q + [o].count q)
    (run : dereferenceWith deleteInternal checked s o = some t) :
    Cascade s t ∧ Releases s.graph [o] t.graph := by
  have alive : o ∈ s.graph.alive := counted.alive_of_outer (by simp)
  have held : 0 < (s.header o).referenceCount.toNat := by
    have exact : (s.header o).referenceCount.toNat = _ := counted.exact o
    rw [exact, List.count_singleton_self]
    omega
  have graph := graph_decrement held
  have dropped := counted.drop
  have below : ((s.decrement o).header o).referenceCount = (s.header o).referenceCount - 1 := by
    simp only [ObjectManager.decrement, header_modify_self]
  unfold dereferenceWith at run
  split at run
  · rename_i last
    split at run
    · contradiction
    · obtain ⟨r, deleted, rfl⟩ := Option.map_eq_some_iff.mp run
      have one : (s.header o).referenceCount.toNat = 1 := by
        have none := below.symm.trans last.1
        bv_omega
      obtain ⟨cascade, releases⟩ :=
        deletes (sound_decrement sound o) ((alive_decrement s o).symm ▸ alive) last.1 (graph ▸ dropped) deleted
      rw [graph] at releases
      exact ⟨(Cascade.decrement sound o).trans cascade, .last one releases (.nil _)⟩
  · rename_i more
    cases Option.some.inj run
    have several : (s.header o).referenceCount.toNat ≠ 1 := by
      intro one
      refine more ⟨?_, .inl ((sound_decrement sound o).temporary o)⟩
      rw [below]
      bv_omega
    exact ⟨Cascade.decrement sound o, .more several (graph ▸ .nil _)⟩

theorem dereferenceAll_releases (deletes : DeletesTo deleteInternal) {ps : List Nat} (sound : Sound s)
    (counted : s.graph.Counted fun q => outer q + ps.count q)
    (run : ps.foldlM (dereferenceWith deleteInternal checked) s = some t) :
    Cascade s t ∧ Releases s.graph ps t.graph := by
  induction ps generalizing s with
  | nil =>
    cases Option.some.inj run
    exact ⟨.refl sound, .nil _⟩
  | cons p ps ih =>
    obtain ⟨u, first, rest⟩ := Option.bind_eq_some_iff.mp (List.foldlM_cons.symm.trans run)
    have split : s.graph.Counted fun q => (outer q + ps.count q) + [p].count q :=
      counted.congr fun q => by rw [← List.singleton_append, List.count_append]; omega
    obtain ⟨cascade, releases⟩ := dereferenceWith_releases deletes sound split first
    obtain ⟨cascade', releases'⟩ := ih cascade.sound (releases.counted split) rest
    exact ⟨cascade.trans cascade', releases.append releases'⟩

end release

theorem obpDeleteObjectInternal_deletes (checked : Bool) (fuel : Nat) :
    DeletesTo (obpDeleteObjectInternal checked fuel) := by
  induction fuel with
  | zero =>
    intro s o outer r sound alive none counted run
    contradiction
  | succ fuel ih =>
    intro s o outer r sound alive none counted run
    have enter : obpDeleteObjectInternal checked (fuel + 1) s o =
        (((s.begin o).header o).references.foldlM (dereferenceWith (obpDeleteObjectInternal checked fuel) checked)
          (s.begin o)).map fun s => (.success, s.free o) := if_neg (not_not_intro none)
    obtain ⟨t, released, rfl⟩ := Option.map_eq_some_iff.mp (enter.symm.trans run)
    have children : ((s.begin o).header o).references = (s.header o).references :=
      header_begin_same s o ObjectHeader.references (fun _ _ => rfl) (fun _ _ => rfl) o
    rw [children] at released
    have killed := counted.kill alive (by simp only [ObjectManager.graph, none]; rfl)
    have graph := graph_begin s o
    obtain ⟨cascade, releases⟩ := dereferenceAll_releases ih (sound_begin sound o) (graph ▸ killed) released
    have bound : o < s.created := (mem_alive.mp alive).1
    have frame := frame_unlink (s.mark o) o
    have created : t.created = s.created := cascade.created.trans frame.1
    rw [graph] at releases
    have gone : o ∉ t.alive := by
      intro member
      exact Finset.notMem_erase o s.alive (releases.alive member)
    refine ⟨⟨sound_free cascade.sound (created ▸ bound) gone, created, cascade.handleTables.trans frame.2.2, ?_⟩,
      releases⟩
    intro p inside dead kept
    simp only [ObjectManager.free] at kept
    split at kept
    · contradiction
    · rename_i other
      have before := cascade.pending p (frame.1 ▸ inside) dead kept
      rw [alive_begin] at before
      refine ⟨fun member => before.1 (Finset.mem_erase.mpr ⟨other, member⟩), ?_⟩
      exact (congrFun frame.2.1 p).symm.trans before.2

theorem obDereferenceObject_releases {checked : Bool} {fuel : Nat} {s t : ObjectManager} {outer : Nat → Nat} {o : Nat}
    (sound : Sound s) (counted : s.graph.Counted fun q => outer q + [o].count q)
    (run : obDereferenceObject checked fuel s o = some t) : Cascade s t ∧ t.graph.Counted outer := by
  obtain ⟨cascade, releases⟩ :=
    dereferenceWith_releases (obpDeleteObjectInternal_deletes checked fuel) sound counted run
  exact ⟨cascade, releases.counted counted⟩

end Gr8os.Ob
