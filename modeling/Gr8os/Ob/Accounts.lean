import Gr8os.Ob.Release

/-! What each operation on objects does to the accounts: which references are held from outside the objects. -/
namespace Gr8os.Ob

open RefCount

/-- Between two calls: the counts are right, and no deletion has stopped half way. -/
structure Accounted (s : ObjectManager) (outer : Nat → Nat) : Prop where
  sound : Sound s
  counted : s.graph.Counted outer
  complete : ∀ o < s.created, o ∉ s.alive → s.freed o = true

variable {s t : ObjectManager} {outer : Nat → Nat} {o : Nat} {checked : Bool} {fuel : Nat}

theorem Accounted.congr {outer' : Nat → Nat} (ok : Accounted s outer) (same : ∀ q, outer q = outer' q) :
    Accounted s outer' :=
  { ok with counted := ok.counted.congr same }

theorem Accounted.alive (ok : Accounted s outer) (created : o < s.created) (kept : s.freed o = false) : o ∈ s.alive := by
  apply Decidable.byContradiction
  intro gone
  exact absurd (ok.complete o created gone) (by simp [kept])

theorem Accounted.alive_of_held (ok : Accounted s outer) (held : 0 < outer o) : o ∈ s.alive :=
  ok.counted.alive_of_outer held

theorem Accounted.after (ok : Accounted s outer) {outer' : Nat → Nat} (cascade : Cascade s t)
    (counted : t.graph.Counted outer') : Accounted t outer' where
  sound := cascade.sound
  counted := counted
  complete p bound gone := by
    apply Decidable.byContradiction
    intro kept
    have kept : t.freed p = false := by simpa using kept
    obtain ⟨gone, kept⟩ := cascade.pending p (cascade.created ▸ bound) gone kept
    exact absurd (ok.complete p (cascade.created ▸ bound) gone) (by simp [kept])

theorem Accounted.dereference (ok : Accounted s fun q => outer q + [o].count q)
    (run : obDereferenceObject checked fuel s o = some t) :
    Accounted t outer ∧ t.handleTables = s.handleTables := by
  obtain ⟨cascade, counted⟩ := obDereferenceObject_releases ok.sound ok.counted run
  exact ⟨ok.after cascade counted, cascade.handleTables⟩

/-- An edit of fields that neither the counts nor the lists read. -/
theorem Accounted.modify (ok : Accounted s outer) (o : Nat) {f : ObjectHeader → ObjectHeader}
    (body : ∀ h, (f h).body = h.body) (parent : ∀ h, (f h).parentDirectory = h.parentDirectory)
    (going : ∀ h, (f h).flags &&& objDeleteInProgress = h.flags &&& objDeleteInProgress)
    (permanent : ∀ h, (f h).flags &&& objPermanent = h.flags &&& objPermanent)
    (count : ∀ h, (f h).referenceCount = h.referenceCount) (references : ∀ h, (f h).references = h.references) :
    Accounted (s.modify o f) outer := by
  have alive := alive_modify s o going
  have graph : (s.modify o f).graph = s.graph := by
    simp only [ObjectManager.graph, alive, RefCount.Graph.mk.injEq, true_and]
    exact ⟨funext (header_modify_same s o (fun h => h.referenceCount.toNat) fun h => by rw [count]),
      funext (header_modify_same s o _ references)⟩
  refine ⟨sound_modify ok.sound o body parent going permanent, graph.symm ▸ ok.counted, ?_⟩
  intro p bound gone
  exact ok.complete p bound (alive ▸ gone)

theorem Accounted.pending (ok : Accounted s outer) (o : Nat) : Accounted (markDeletePending s o) outer :=
  ok.modify o (fun _ => rfl) (fun _ => rfl) (fun h => pending_going h.flags) (fun h => pending_permanent h.flags)
    (fun _ => rfl) fun _ => rfl

theorem Accounted.setEntry (ok : Accounted s outer) (process i : Nat) (entry : Option ObjectHandle) :
    Accounted (s.setEntry process i entry) outer :=
  ⟨⟨ok.sound.nodup, ok.sound.inList, ok.sound.temporary, ok.sound.freed⟩, ok.counted, ok.complete⟩

theorem Accounted.setLock (ok : Accounted s outer) (process : Nat) (held : Bool) :
    Accounted (s.setLock process held) outer :=
  ⟨⟨ok.sound.nodup, ok.sound.inList, ok.sound.temporary, ok.sound.freed⟩, ok.counted, ok.complete⟩

theorem reference_modify (s : ObjectManager) (o : Nat) : s.obReferenceObject o =
    s.modify o fun h => { h with referenceCount := h.referenceCount + 1 } := rfl

theorem alive_reference (s : ObjectManager) (o : Nat) : (s.obReferenceObject o).alive = s.alive := by
  rw [reference_modify]
  exact alive_modify s o fun _ => rfl

theorem graph_take {s : ObjectManager} {o : Nat} (room : (s.header o).referenceCount ≠ 0xFFFFFFFF) :
    (s.obReferenceObject o).graph = s.graph.take o := by
  have count : ∀ p, ((s.obReferenceObject o).header p).referenceCount.toNat = (s.graph.take o).count p := by
    intro p
    rw [reference_modify]
    rcases Decidable.em (p = o) with rfl | other
    · simp only [header_modify_self, ObjectManager.graph, Graph.take, Function.update_self]
      bv_omega
    · simp only [header_modify_of_ne s _ other, ObjectManager.graph, Graph.take, Function.update_of_ne other]
  have children : ∀ p, ((s.obReferenceObject o).header p).references = (s.header p).references := by
    rw [reference_modify]
    exact header_modify_same s o ObjectHeader.references fun _ => rfl
  simp only [ObjectManager.graph, Graph.take, alive_reference, RefCount.Graph.mk.injEq, true_and]
  exact ⟨funext count, funext children⟩

theorem Accounted.reference (ok : Accounted s outer) (alive : o ∈ s.alive)
    (room : (s.header o).referenceCount ≠ 0xFFFFFFFF) :
    Accounted (s.obReferenceObject o) fun q => outer q + [o].count q := by
  refine ⟨?_, graph_take room ▸ ok.counted.take alive,
    fun p bound gone => ok.complete p bound (alive_reference s o ▸ gone)⟩
  rw [reference_modify]
  exact sound_modify ok.sound o (fun _ => rfl) (fun _ => rfl) (fun _ => rfl) fun _ => rfl

/-- A deletion of an object that nobody refers to any more. -/
theorem Accounted.deleteInternal (ok : Accounted s outer) (alive : o ∈ s.alive)
    (none : (s.header o).referenceCount = 0) {r : Status × ObjectManager}
    (run : obpDeleteObjectInternal checked fuel s o = some r) :
    Accounted r.2 outer ∧ r.2.handleTables = s.handleTables := by
  obtain ⟨cascade, releases⟩ :=
    obpDeleteObjectInternal_deletes checked fuel ok.sound alive none ok.counted run
  have killed := ok.counted.kill alive (by simp only [ObjectManager.graph, none]; rfl)
  exact ⟨ok.after cascade (releases.counted killed), cascade.handleTables⟩

/-- A deletion asked for by pointer gives up one reference, the one that ObCreateObject made. -/
theorem Accounted.deleteObject (ok : Accounted s fun q => outer q + [o].count q) {r : Status × ObjectManager}
    (run : obpDeleteObject checked fuel s o = some r) :
    Accounted r.2 outer ∧ r.2.handleTables = s.handleTables := by
  unfold obpDeleteObject at run
  split at run
  · obtain ⟨t, released, rfl⟩ := Option.map_eq_some_iff.mp run
    exact (ok.pending o).dereference released
  · obtain ⟨t, released, rfl⟩ := Option.map_eq_some_iff.mp run
    exact ok.dereference released

/-- A deletion asked for by name gives up two: that one, and the one of the lookup. -/
theorem Accounted.deleteReferenced (ok : Accounted s fun q => outer q + [o].count q + [o].count q)
    {r : Status × ObjectManager} (run : deleteReferenced checked fuel s o = some r) :
    Accounted r.2 outer ∧ r.2.handleTables = s.handleTables := by
  have exact : (s.header o).referenceCount.toNat = _ := ok.counted.exact o
  simp only [List.count_singleton_self] at exact
  have alive : o ∈ s.alive := ok.alive_of_held (by simp)
  have twice : ∀ {u : ObjectManager}, Accounted u (fun q => outer q + [o].count q + [o].count q) →
      (u.header o).referenceCount.toNat = (s.header o).referenceCount.toNat →
      Accounted (obDereferenceObjectEx u o 2) outer := by
    intro u uOk same
    have first : 0 < (u.header o).referenceCount.toNat := by omega
    have header : ((u.decrement o).header o).referenceCount = (u.header o).referenceCount - 1 := by
      simp only [ObjectManager.decrement, header_modify_self]
    have second : 0 < ((u.decrement o).header o).referenceCount.toNat := by
      rw [header]
      bv_omega
    have edits : obDereferenceObjectEx u o 2 = (u.decrement o).decrement o := by
      simp only [obDereferenceObjectEx, ObjectManager.decrement, ObjectManager.modify, ObjectManager.mk.injEq,
        ObjectSpace.mk.injEq, and_true]
      funext p
      split
      · simp only [ObjectHeader.mk.injEq, and_true, true_and]
        bv_omega
      · rfl
    have graph := (graph_decrement second).trans (congrArg (Graph.drop · o) (graph_decrement first))
    have gone : ((u.decrement o).decrement o).alive = u.alive :=
      (alive_decrement _ o).trans (alive_decrement u o)
    rw [edits]
    refine ⟨sound_decrement (sound_decrement uOk.sound o) o, ?_, fun p bound dead => uOk.complete p bound (gone ▸ dead)⟩
    rw [graph]
    exact uOk.counted.drop.drop
  unfold Ob.deleteReferenced at run
  split at run
  · cases Option.some.inj run
    have same := header_modify_same s o (f := fun h => { h with flags := h.flags ||| objDeletePending })
      (fun h => h.referenceCount.toNat) (fun _ => rfl) o
    exact ⟨twice (ok.pending o) same, rfl⟩
  · rename_i few
    obtain ⟨r, deleted, rfl⟩ := Option.map_eq_some_iff.mp run
    have ok' := twice ok rfl
    have none : ((obDereferenceObjectEx s o 2).header o).referenceCount = 0 := by
      simp only [obDereferenceObjectEx, header_modify_self]
      bv_omega
    have same : (obDereferenceObjectEx s o 2).alive = s.alive :=
      alive_modify s o (f := fun h => { h with referenceCount := h.referenceCount - 2 }) fun _ => rfl
    have freed := ok'.deleteInternal (same ▸ alive) none deleted
    exact freed

theorem entries_retarget (b : Body) (target : List WChar) : (b.retarget target).entries = b.entries := by
  cases b <;> rfl

/-- A reference from outside goes into the body of an object. -/
theorem Accounted.store {holder : Nat} (ok : Accounted s fun q => outer q + [o].count q) (alive : holder ∈ s.alive)
    (target : List WChar) : Accounted (storePointer s holder o target) outer := by
  have sameAlive : (storePointer s holder o target).alive = s.alive := alive_modify s holder
    (f := fun h => { h with body := h.body.retarget target, references := h.references ++ [o] }) fun _ => rfl
  have listed : ∀ d, (storePointer s holder o target).listed d = s.listed d :=
    header_modify_same s holder (fun h => h.body.entries) fun h => entries_retarget h.body target
  have parent : ∀ p, ((storePointer s holder o target).header p).parentDirectory = (s.header p).parentDirectory :=
    header_modify_same s holder ObjectHeader.parentDirectory fun _ => rfl
  have temporary : ∀ p, ((storePointer s holder o target).header p).flags = (s.header p).flags :=
    header_modify_same s holder ObjectHeader.flags fun _ => rfl
  have graph : (storePointer s holder o target).graph =
      { s.graph with children := Function.update s.graph.children holder (s.graph.children holder ++ [o]) } := by
    have count : ∀ p, ((storePointer s holder o target).header p).referenceCount = (s.header p).referenceCount :=
      header_modify_same s holder ObjectHeader.referenceCount fun _ => rfl
    simp only [ObjectManager.graph, sameAlive, RefCount.Graph.mk.injEq, true_and]
    refine ⟨funext fun p => by rw [count], funext fun p => ?_⟩
    rcases Decidable.em (p = holder) with rfl | other
    · rw [Function.update_self]
      simp only [storePointer, header_modify_self]
    · rw [Function.update_of_ne other]
      simp only [storePointer, header_modify_of_ne s _ other]
  refine ⟨⟨fun d => ?_, fun d p member => ?_, fun p => ?_, fun p freed => ?_⟩, ?_, fun p bound gone => ?_⟩
  · exact listed d ▸ ok.sound.nodup d
  · rw [sameAlive, parent]
    exact ok.sound.inList d p (listed d ▸ member)
  · rw [temporary]
    exact ok.sound.temporary p
  · exact sameAlive.symm ▸ ok.sound.freed p freed
  · exact graph ▸ ok.counted.store alive
  · exact ok.complete p bound (sameAlive ▸ gone)

theorem entries_insertTail (b : Body) (o : Nat) :
    (b.insertTail o).entries = b.entries ∨ (b.insertTail o).entries = b.entries ++ [o] := by
  cases b
  · exact .inr rfl
  all_goals exact .inl rfl

theorem Accounted.insert (ok : Accounted s outer) (alive : o ∈ s.alive) (apart : (s.header o).parentDirectory = none)
    (directory : Nat) : Accounted (obInsertObject s directory o) outer := by
  have keep : ∀ {α : Type} (field : ObjectHeader → α), (∀ h b, field { h with body := b } = field h) →
      (∀ h d, field { h with parentDirectory := d } = field h) →
      ∀ p, field ((obInsertObject s directory o).header p) = field (s.header p) := by
    intro α field body parent p
    have second := header_modify_same (s.modify directory fun h => { h with body := h.body.insertTail o }) o
      (f := fun h => { h with parentDirectory := some directory }) field (fun h => parent h _) p
    have first := header_modify_same s directory (f := fun h => { h with body := h.body.insertTail o }) field
      (fun h => body h _) p
    exact second.trans first
  have flags := keep ObjectHeader.flags (fun _ _ => rfl) fun _ _ => rfl
  have sameAlive : (obInsertObject s directory o).alive = s.alive := by
    apply Finset.ext
    intro p
    have created : (obInsertObject s directory o).created = s.created := rfl
    simp only [mem_alive, ObjectHeader.going, flags, created]
  have graph : (obInsertObject s directory o).graph = s.graph := by
    simp only [ObjectManager.graph, sameAlive, RefCount.Graph.mk.injEq, true_and]
    exact ⟨funext (keep (fun h => h.referenceCount.toNat) (fun _ _ => rfl) fun _ _ => rfl),
      funext (keep ObjectHeader.references (fun _ _ => rfl) fun _ _ => rfl)⟩
  have outside : ∀ d, o ∉ s.listed d := by
    intro d member
    have listed := (ok.sound.inList d o member).2
    rw [apart] at listed
    contradiction
  have listed : ∀ d, (obInsertObject s directory o).listed d = s.listed d ∨
      d = directory ∧ (obInsertObject s directory o).listed d = s.listed d ++ [o] := by
    intro d
    have second := header_modify_same (s.modify directory fun h => { h with body := h.body.insertTail o }) o
      (f := fun h => { h with parentDirectory := some directory }) (fun h => h.body.entries) (fun _ => rfl) d
    have unfolded : (obInsertObject s directory o).listed d =
        ((s.modify directory fun h => { h with body := h.body.insertTail o }).header d).body.entries := second
    rw [unfolded]
    rcases Decidable.em (d = directory) with rfl | other
    · rw [header_modify_self]
      rcases entries_insertTail (s.header d).body o with same | longer
      · exact .inl same
      · exact .inr ⟨rfl, longer⟩
    · rw [header_modify_of_ne s _ other]
      exact .inl rfl
  have parentOther : ∀ p ≠ o, ((obInsertObject s directory o).header p).parentDirectory =
      (s.header p).parentDirectory := by
    intro p other
    rw [obInsertObject, header_modify_of_ne _ _ other]
    exact header_modify_same s directory (f := fun h => { h with body := h.body.insertTail o })
      ObjectHeader.parentDirectory (fun _ => rfl) p
  have old : ∀ d, ∀ p ∈ s.listed d, p ∈ s.alive ∧
      ((obInsertObject s directory o).header p).parentDirectory = some d := by
    intro d p member
    have other : p ≠ o := fun same => outside d (same ▸ member)
    rw [parentOther p other]
    exact ok.sound.inList d p member
  refine ⟨⟨fun d => ?_, fun d p member => ?_, fun p => ?_, fun p freed => ?_⟩, graph ▸ ok.counted, fun p bound gone => ?_⟩
  · rcases listed d with same | ⟨_, longer⟩
    · exact same ▸ ok.sound.nodup d
    · rw [longer]
      exact List.nodup_append.mpr ⟨ok.sound.nodup d, List.nodup_singleton o, fun p member q single same =>
        outside d (List.mem_singleton.mp single ▸ same ▸ member)⟩
  · rw [sameAlive]
    rcases listed d with same | ⟨rfl, longer⟩
    · exact old d p (same ▸ member)
    · rw [longer, List.mem_append, List.mem_singleton] at member
      rcases member with member | rfl
      · exact old d p member
      · exact ⟨alive, by rw [obInsertObject, header_modify_self]⟩
  · rw [flags]
    exact ok.sound.temporary p
  · exact sameAlive.symm ▸ ok.sound.freed p freed
  · exact ok.complete p bound (sameAlive ▸ gone)

theorem entries_zeroed (objectType : ObjectType) : objectType.zeroed.entries = [] := by
  cases objectType <;> rfl

theorem Accounted.create (ok : Accounted s outer) {allocated : Bool} {objectType : ObjectType}
    {objectName : List WChar} {r : Status × Option Nat × ObjectManager}
    (run : obCreateObject allocated s objectType objectName = r) :
    r.2.2.handleTables = s.handleTables ∧ match r.2.1 with
      | some o => o ∉ s.alive ∧ Accounted r.2.2 fun q => outer q + [o].count q
      | none => Accounted r.2.2 outer := by
  subst run
  unfold obCreateObject
  split
  · exact ⟨rfl, ok⟩
  have fresh : s.created ∉ s.alive := fun member => absurd (mem_alive.mp member).1 (Nat.lt_irrefl _)
  refine ⟨rfl, fresh, ?_⟩
  let header : ObjectHeader := { objectName, referenceCount := 1, body := objectType.zeroed }
  let t : ObjectManager := { s.modify s.created (fun _ => header) with created := s.created + 1 }
  change Accounted t fun q => outer q + [s.created].count q
  have plain : ∀ mask, header.flags &&& mask = 0 := fun mask => BitVec.zero_and
  have new : t.header s.created = header := header_modify_self s s.created fun _ => header
  have old : ∀ p ≠ s.created, t.header p = s.header p := fun p other => header_modify_of_ne s (fun _ => header) other
  have alive : t.alive = Insert.insert s.created s.alive := by
    apply Finset.ext
    intro p
    have created : t.created = s.created + 1 := rfl
    rw [Finset.mem_insert, mem_alive, mem_alive, created]
    rcases Decidable.em (p = s.created) with rfl | other
    · rw [new]
      constructor
      · exact fun _ => .inl rfl
      · exact fun _ => ⟨Nat.lt_succ_self _, fun going => going (plain _)⟩
    · rw [old p other]
      constructor
      · exact fun ⟨bound, going⟩ => .inr ⟨by omega, going⟩
      · rintro (same | ⟨bound, going⟩)
        · contradiction
        · exact ⟨by omega, going⟩
  have listed : ∀ d, ∀ p ∈ t.listed d, p ∈ s.listed d := by
    intro d p member
    rcases Decidable.em (d = s.created) with rfl | other
    · rw [ObjectManager.listed, new, entries_zeroed] at member
      contradiction
    · rwa [ObjectManager.listed, old d other] at member
  refine ⟨⟨fun d => ?_, fun d p member => ?_, fun p => ?_, fun p freed => ?_⟩, ?_, fun p bound gone => ?_⟩
  · rcases Decidable.em (d = s.created) with rfl | other
    · rw [ObjectManager.listed, new, entries_zeroed]
      exact List.nodup_nil
    · rw [ObjectManager.listed, old d other]
      exact ok.sound.nodup d
  · have before := ok.sound.inList d p (listed d p member)
    have other : p ≠ s.created := fun same => fresh (same ▸ before.1)
    rw [alive, old p other]
    exact ⟨Finset.mem_insert_of_mem before.1, before.2⟩
  · rcases Decidable.em (p = s.created) with rfl | other
    · rw [new]
      exact plain _
    · rw [old p other]
      exact ok.sound.temporary p
  · have before := ok.sound.freed p freed
    refine ⟨Nat.lt_succ_of_lt before.1, fun member => ?_⟩
    rcases Finset.mem_insert.mp (alive ▸ member) with same | member
    · exact absurd before.1 (by omega)
    · exact before.2 member
  · refine ok.counted.create fresh t.graph alive (funext fun p => ?_) ?_ fun p other => ?_
    · rcases Decidable.em (p = s.created) with rfl | other
      · rw [Function.update_self]
        simp only [ObjectManager.graph, new]
        rfl
      · rw [Function.update_of_ne other]
        simp only [ObjectManager.graph, old p other]
    · simp only [ObjectManager.graph, new]
      rfl
    · simp only [ObjectManager.graph, old p other]
  · rw [alive, Finset.mem_insert, not_or] at gone
    have bound : p < s.created + 1 := bound
    exact ok.complete p (by omega) gone.2

section lookup

variable {allocated : Nat → Bool} {parseContext : BitVec 32}

theorem objectList_listed (s : ObjectManager) (d : Nat) : s.space.objectList d = s.listed d := by
  unfold ObjectSpace.objectList ObjectManager.listed ObjectManager.header
  cases (s.space.object d).body <;> rfl

theorem findObject_mem {s : ObjectSpace} {objectName : List WChar} {l : List Nat}
    (found : findObject s objectName l = some o) : o ∈ l := by
  induction l with
  | nil => contradiction
  | cons p l ih =>
    unfold findObject at found
    split at found
    · cases Option.some.inj found
      exact List.mem_cons_self
    · exact List.mem_cons_of_mem p (ih found)

theorem afterParse_object {p heapCalls : Nat} {parsed : Option Parsed} {packet : Option (List WChar)}
    (ends : afterParse p heapCalls parsed = some (.finish o packet)) : o = p := by
  unfold afterParse at ends
  split at ends
  · contradiction
  · split at ends
    · cases Option.some.inj ends
    · split at ends
      · cases Option.some.inj ends
      · split at ends
        · cases Option.some.inj ends
          rfl
        · contradiction

/-- The loop finishes at an object of some directory's list. -/
theorem nameLoop_listed {s : ObjectSpace} {path : UnicodeString} {fuel currentDirectory prevslash wc heapCalls : Nat}
    {packet : Option (List WChar)}
    (ends : nameLoop allocated s parseContext path fuel currentDirectory prevslash wc heapCalls = .finish o packet) :
    ∃ d, o ∈ s.objectList d := by
  induction fuel generalizing currentDirectory prevslash wc heapCalls with
  | zero => contradiction
  | succ fuel ih =>
    unfold nameLoop at ends
    split at ends
    · split at ends
      · contradiction
      · simp only at ends
        split at ends
        · contradiction
        · rename_i p found
          split at ends
          · rename_i e parsed
            have same := afterParse_object (parsed.trans (congrArg some ends))
            exact ⟨currentDirectory, same ▸ findObject_mem found⟩
          · split at ends
            · cases ends
              exact ⟨currentDirectory, findObject_mem found⟩
            · split at ends
              · contradiction
              · exact ih ends
    · exact ih ends

theorem reparseName_listed {s : ObjectSpace} {objectType : Option ObjectType} {requestorMode : ProcessorMode}
    {fuel heapCalls : Nat} {path : UnicodeString} {r : NameResult}
    (run : reparseName allocated s objectType requestorMode parseContext fuel path heapCalls = some r) :
    (r.object = none ∧ r.space = s) ∨
    ∃ o, r.object = some o ∧ r.space = obReferenceObject s o ∧ ∃ d, o ∈ s.objectList d := by
  induction fuel generalizing path heapCalls with
  | zero => contradiction
  | succ fuel ih =>
    unfold reparseName at run
    split at run
    · cases Option.some.inj run
      exact .inl ⟨rfl, rfl⟩
    · split at run
      · cases Option.some.inj run
        exact .inl ⟨rfl, rfl⟩
      · rename_i o packet ends
        cases Option.some.inj run
        unfold finishName
        split
        · exact .inl ⟨rfl, rfl⟩
        · exact .inr ⟨o, rfl, rfl, nameLoop_listed ends⟩
      · exact ih run
      · contradiction

/-- A lookup takes a reference on the object it returns, which is alive, or changes nothing. -/
theorem Accounted.referenceByName (ok : Accounted s outer) (room : ∀ p < s.created, (s.header p).referenceCount ≠ 0xFFFFFFFF)
    {objectName : UnicodeString} {objectType : Option ObjectType} {requestorMode : ProcessorMode}
    {r : Status × Option Nat × ObjectManager}
    (run : referenceByName allocated fuel s objectName objectType requestorMode parseContext = some r) :
    r.2.2.handleTables = s.handleTables ∧
    ((r.2.1 = none ∧ r.2.2 = s) ∨ ∃ o, r.2.1 = some o ∧ Accounted r.2.2 fun q => outer q + [o].count q) := by
  obtain ⟨result, looked, rfl⟩ := Option.map_eq_some_iff.mp run
  refine ⟨rfl, ?_⟩
  rcases reparseName_listed looked with ⟨none, same⟩ | ⟨o, found, space, d, member⟩
  · exact .inl ⟨none, by rw [same]⟩
  · have alive := (ok.sound.inList d o (objectList_listed s d ▸ member)).1
    refine .inr ⟨o, found, ?_⟩
    simp only [space]
    exact ok.reference alive (room o (mem_alive.mp alive).1)

end lookup

end Gr8os.Ob
