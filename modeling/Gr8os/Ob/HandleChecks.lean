import Gr8os.Ob.TableMemory
import Mathlib.Data.Nat.ModEq
import Mathlib.Data.Nat.GCD.Basic

/-! For which values the checks of a handle suffice, and on which calls the table's lock is given back. -/
namespace Gr8os.Ob.TableMemory

open LittleEndian

/-- The address is that of an entry of the table. -/
def IsEntry (t : HandleTable) (a : Address) : Prop := ∃ i < t.currentSize, a = t.objectTable + 12 * BitVec.ofNat 32 i

/-- The call accesses entries of the table only, and turns down the value 0, values above the table's size and
handles of free entries. -/
def Validated (t : HandleTable) (m : Memory) (handle : BitVec 32) (call : Outcome) : Prop :=
  (∀ a, .access a ∈ call.events → IsEntry t a) ∧
  (handle = 0 ∨ t.currentSize < handle.toNat ∨ entryObject m (t.objHandle handle) = 0 → call.status = .invalidHandle)

/-- The index that the entry's address stands for: entries so far apart that their distance wraps around coincide. -/
def entryIndex (handle : BitVec 32) : Nat := (handle - 1).toNat % 2 ^ 30

/-- The range check turns the value down, or it selects an entry of the table and, where it is above the table's size,
a free one. -/
def Checked (t : HandleTable) (m : Memory) (handle : BitVec 32) : Prop :=
  OutOfRange handle ∨ entryIndex handle < t.currentSize ∧
    (handle.toNat ≤ t.currentSize ∨ entryObject m (t.objHandle handle) = 0)

/-- The lock is given back as often as it is taken. -/
def Balanced (events : List TableEvent) : Prop := events.count .acquire = events.count .release

instance (events : List TableEvent) : Decidable (Balanced events) := inferInstanceAs (Decidable (_ = _))

section validation

variable {t : HandleTable} {m : Memory} {handle desiredAccess : BitVec 32} {keepLock alreadyLocked : Bool}
  {dereference reference : Memory → Address → Memory}

theorem currentSize_lt (t : HandleTable) : t.currentSize < 2 ^ 30 - 1 := by
  have fits := t.fits
  omega

/-- Twelve times an index, modulo the address space, tells the index modulo a quarter of it. -/
theorem twelve_mod {x y : Nat} (small : y < 2 ^ 30) : 12 * x % 2 ^ 32 = 12 * y % 2 ^ 32 ↔ x % 2 ^ 30 = y := by
  have gcd : 2 ^ 32 / Nat.gcd (2 ^ 32) 12 = 2 ^ 30 := by decide
  have least : y % 2 ^ 30 = y := Nat.mod_eq_of_lt small
  constructor
  · intro same
    have quarter : x ≡ y [MOD 2 ^ 32 / Nat.gcd (2 ^ 32) 12] := Nat.ModEq.cancel_left_div_gcd (by decide) same
    rw [gcd] at quarter
    have equal : x % 2 ^ 30 = y % 2 ^ 30 := quarter
    exact equal.trans least
  · intro same
    have quarter : x ≡ y [MOD 2 ^ 30] := same.trans least.symm
    have whole : 4 * (3 * x) ≡ 4 * (3 * y) [MOD 4 * 2 ^ 30] := (quarter.mul_left 3).mul_left' 4
    rwa [← Nat.mul_assoc, ← Nat.mul_assoc] at whole

theorem isEntry_iff : IsEntry t (t.objHandle handle) ↔ entryIndex handle < t.currentSize := by
  have small := currentSize_lt t
  have place : ∀ i < t.currentSize, t.objHandle handle = t.objectTable + 12 * BitVec.ofNat 32 i ↔ entryIndex handle = i := by
    intro i less
    have index : (BitVec.ofNat 32 i).toNat = i := by
      rw [BitVec.toNat_ofNat]
      omega
    unfold HandleTable.objHandle entryIndex
    rw [BitVec.add_right_inj, ← BitVec.toNat_inj, BitVec.toNat_mul, BitVec.toNat_mul, index]
    exact twelve_mod (by omega)
  constructor
  · rintro ⟨i, less, same⟩
    exact (place i less).mp same ▸ less
  · intro less
    exact ⟨_, less, (place _ less).mpr rfl⟩

theorem entryIndex_zero : ¬entryIndex 0 < t.currentSize := by
  have small := currentSize_lt t
  have index : entryIndex 0 = 2 ^ 30 - 1 := by decide
  omega

/-- A call that accesses the selected entry alone, and says that the handle is invalid exactly if the entry is free. -/
theorem validated_iff {call : Outcome} (inRange : ¬OutOfRange handle)
    (accesses : ∀ a, .access a ∈ call.events ↔ a = t.objHandle handle)
    (status : call.status = .invalidHandle ↔ entryObject m (t.objHandle handle) = 0) :
    Validated t m handle call ↔ Checked t m handle := by
  unfold Validated Checked
  rw [status]
  constructor
  · rintro ⟨inside, turnsDown⟩
    refine Or.inr ⟨isEntry_iff.mp (inside _ ((accesses _).mpr rfl)), ?_⟩
    rcases Nat.lt_or_ge t.currentSize handle.toNat with above | within
    · exact Or.inr (turnsDown (Or.inr (Or.inl above)))
    · exact Or.inl within
  · rintro (outside | ⟨selected, cases⟩)
    · exact absurd outside inRange
    · refine ⟨fun a accessed => (accesses a).mp accessed ▸ isEntry_iff.mpr selected, ?_⟩
      rintro (rfl | above | free)
      · exact absurd selected entryIndex_zero
      · exact cases.resolve_left (Nat.not_le_of_lt above)
      · exact free

theorem validated_outOfRange {call : Outcome} (outside : OutOfRange handle) (status : call.status = .invalidHandle)
    (quiet : call.events = []) : Validated t m handle call ↔ Checked t m handle := by
  refine ⟨fun _ => Or.inl outside, fun _ => ⟨fun a accessed => ?_, fun _ => status⟩⟩
  rw [quiet] at accessed
  cases accessed

/-- What a call in range does: it takes the lock, reads the entry, and keeps or gives back the lock. -/
theorem mapHandle_spec (inRange : ¬OutOfRange handle) :
    (obpMapHandleToPointer t m handle desiredAccess keepLock).events =
      [.acquire, .access (t.objHandle handle)] ++ (if keepLock then [] else [.release]) ∧
    ((obpMapHandleToPointer t m handle desiredAccess keepLock).status = .invalidHandle ↔
      entryObject m (t.objHandle handle) = 0) ∧
    ((obpMapHandleToPointer t m handle desiredAccess keepLock).object = none ↔
      entryObject m (t.objHandle handle) = 0 ∨
        desiredAccess ≠ 0 ∧ entryGrantedAccess m (t.objHandle handle) &&& desiredAccess = 0) := by
  unfold obpMapHandleToPointer
  rw [if_neg inRange]
  by_cases free : entryObject m (t.objHandle handle) = 0
  · rw [if_pos free]
    exact ⟨rfl, ⟨fun _ => free, fun _ => rfl⟩, ⟨fun _ => Or.inl free, fun _ => rfl⟩⟩
  · rw [if_neg free]
    by_cases denied : desiredAccess ≠ 0 ∧ entryGrantedAccess m (t.objHandle handle) &&& desiredAccess = 0
    · rw [if_pos denied]
      exact ⟨rfl, ⟨fun impossible => (nomatch impossible), fun zero => absurd zero free⟩,
        ⟨fun _ => Or.inr denied, fun _ => rfl⟩⟩
    · rw [if_neg denied]
      exact ⟨rfl, ⟨fun impossible => (nomatch impossible), fun zero => absurd zero free⟩,
        ⟨fun impossible => (nomatch impossible), fun refused => absurd refused (not_or.mpr ⟨free, denied⟩)⟩⟩

theorem mapHandle_outOfRange (outside : OutOfRange handle) :
    obpMapHandleToPointer t m handle desiredAccess keepLock = ⟨.invalidHandle, none, m, []⟩ := if_pos outside

theorem deleteHandle_spec (inRange : ¬OutOfRange handle) :
    (obpDeleteHandle t m handle alreadyLocked).events =
      (if alreadyLocked then [] else [.acquire]) ++ [.access (t.objHandle handle), .release] ∧
    ((obpDeleteHandle t m handle alreadyLocked).status = .invalidHandle ↔ entryObject m (t.objHandle handle) = 0) := by
  unfold obpDeleteHandle
  rw [if_neg inRange]
  by_cases free : entryObject m (t.objHandle handle) = 0
  · rw [if_pos free]
    exact ⟨rfl, fun _ => free, fun _ => rfl⟩
  · rw [if_neg free]
    exact ⟨rfl, fun impossible => (nomatch impossible), fun zero => absurd zero free⟩

theorem deleteHandle_outOfRange (outside : OutOfRange handle) :
    obpDeleteHandle t m handle alreadyLocked = ⟨.invalidHandle, none, m, []⟩ := if_pos outside

theorem mapHandle_validated :
    Validated t m handle (obpMapHandleToPointer t m handle desiredAccess keepLock) ↔ Checked t m handle := by
  by_cases outside : OutOfRange handle
  · rw [mapHandle_outOfRange outside]
    exact validated_outOfRange outside rfl rfl
  · obtain ⟨events, status, _⟩ := @mapHandle_spec t m _ desiredAccess keepLock outside
    refine validated_iff outside (fun a => ?_) status
    rw [events]
    cases keepLock <;> simp

theorem deleteHandle_validated :
    Validated t m handle (obpDeleteHandle t m handle alreadyLocked) ↔ Checked t m handle := by
  by_cases outside : OutOfRange handle
  · rw [deleteHandle_outOfRange outside]
    exact validated_outOfRange outside rfl rfl
  · obtain ⟨events, status⟩ := @deleteHandle_spec t m _ alreadyLocked outside
    refine validated_iff outside (fun a => ?_) status
    rw [events]
    cases alreadyLocked <;> simp

/-- A reference by handle returns and accesses what mapping the handle does. -/
theorem referenceByHandle_same :
    (obReferenceObjectByHandle t m reference handle desiredAccess).status =
      (obpMapHandleToPointer t m handle desiredAccess false).status ∧
    (obReferenceObjectByHandle t m reference handle desiredAccess).events =
      (obpMapHandleToPointer t m handle desiredAccess false).events := by
  unfold obReferenceObjectByHandle
  simp only []
  split
  · exact ⟨rfl, rfl⟩
  · exact ⟨rfl, rfl⟩

theorem referenceByHandle_validated :
    Validated t m handle (obReferenceObjectByHandle t m reference handle desiredAccess) ↔ Checked t m handle := by
  obtain ⟨status, events⟩ := @referenceByHandle_same t m handle desiredAccess reference
  have same : Validated t m handle (obReferenceObjectByHandle t m reference handle desiredAccess) ↔
      Validated t m handle (obpMapHandleToPointer t m handle desiredAccess false) := by
    unfold Validated
    rw [status, events]
  exact same.trans mapHandle_validated

/-- A close that is refused does no more than the mapping. -/
theorem close_refused (refused : (obpMapHandleToPointer t m handle 0 true).object = none) :
    obClose t m dereference handle = obpMapHandleToPointer t m handle 0 true := by
  unfold obClose
  simp only [refused]

/-- A close that gets past the mapping takes the lock there and gives it back where it clears the entry. -/
theorem close_events (inRange : ¬OutOfRange handle) :
    (obClose t m dereference handle).events =
      if entryObject m (t.objHandle handle) = 0 then [.acquire, .access (t.objHandle handle)]
      else [.acquire, .access (t.objHandle handle), .access (t.objHandle handle), .release] := by
  obtain ⟨mapped, _, refused⟩ := @mapHandle_spec t m _ 0 true inRange
  unfold obClose
  simp only []
  split
  · rename_i none
    have free := (refused.mp none).resolve_right fun denied => denied.1 rfl
    rw [if_pos free]
    exact mapped
  · rename_i object some
    have used : ¬entryObject m (t.objHandle handle) = 0 := by
      intro free
      rw [refused.mpr (Or.inl free)] at some
      cases some
    rw [if_neg used, mapped, (deleteHandle_spec inRange).1]
    rfl

/-- A close of a checked handle accesses the table only and turns down what it is to. -/
theorem close_validated (checked : Checked t m handle) : Validated t m handle (obClose t m dereference handle) := by
  by_cases outside : OutOfRange handle
  · rw [close_refused (by rw [mapHandle_outOfRange outside]), mapHandle_outOfRange outside]
    exact (validated_outOfRange outside rfl rfl).mpr checked
  · obtain ⟨selected, cases⟩ := checked.resolve_left outside
    constructor
    · intro a accessed
      rw [close_events outside] at accessed
      have same : a = t.objHandle handle := by
        split at accessed <;> simpa using accessed
      exact same ▸ isEntry_iff.mpr selected
    · intro turned
      have free : entryObject m (t.objHandle handle) = 0 := by
        rcases turned with rfl | above | free
        · exact absurd selected entryIndex_zero
        · exact cases.resolve_left (Nat.not_le_of_lt above)
        · exact free
      obtain ⟨_, status, refused⟩ := @mapHandle_spec t m _ 0 true outside
      rw [close_refused (refused.mpr (Or.inl free))]
      exact status.mpr free

end validation

/-- The checks of a handle are complete in all four functions if and only if its value passes them as the table's
entries do. -/
theorem handles_validated (t : HandleTable) (m : Memory) (handle desiredAccess : BitVec 32) (keepLock alreadyLocked : Bool)
    (dereference reference : Memory → Address → Memory) :
    (Validated t m handle (obpMapHandleToPointer t m handle desiredAccess keepLock) ∧
      Validated t m handle (obpDeleteHandle t m handle alreadyLocked) ∧
      Validated t m handle (obReferenceObjectByHandle t m reference handle desiredAccess) ∧
      Validated t m handle (obClose t m dereference handle)) ↔ Checked t m handle := by
  constructor
  · rintro ⟨mapped, _⟩
    exact mapHandle_validated.mp mapped
  · intro checked
    exact ⟨mapHandle_validated.mpr checked, deleteHandle_validated.mpr checked,
      referenceByHandle_validated.mpr checked, close_validated checked⟩

/-- An empty table of OB_INITIAL_HANDLES entries. -/
def initialTable : HandleTable := ⟨0x500000, 128, by decide⟩

/-- The value 0 has the entry before the table accessed. -/
theorem zero_not_validated :
    ¬Validated initialTable (fun _ => 0) 0 (obpMapHandleToPointer initialTable (fun _ => 0) 0 0 false) := by
  rintro ⟨inside, _⟩
  have entry := isEntry_iff.mp (inside (initialTable.objHandle 0) (by decide))
  exact absurd entry (by decide)

section locks

variable {t : HandleTable} {m : Memory} {handle desiredAccess : BitVec 32} {dereference reference : Memory → Address → Memory}

theorem firstFree_locks (n : Nat) (i : BitVec 32) :
    .acquire ∉ (firstFree t m n i).1 ∧ .release ∉ (firstFree t m n i).1 := by
  induction n generalizing i with
  | zero => exact ⟨List.not_mem_nil, List.not_mem_nil⟩
  | succ n ih =>
    unfold firstFree
    split
    · simp
    · simpa using ih (i + 1)

theorem createHandle_balanced {checked : Bool} {object grantedAccess owner : BitVec 32} {r : BitVec 32 × Memory × List TableEvent}
    (returned : obpCreateHandle t m checked object grantedAccess owner = some r) : Balanced r.2.2 := by
  obtain ⟨acquires, releases⟩ := firstFree_locks (t := t) (m := m) t.currentSize 0
  have balanced : Balanced ([.acquire] ++ (firstFree t m t.currentSize 0).1 ++ [.release]) := by
    unfold Balanced
    rw [List.count_append, List.count_append, List.count_append, List.count_append, List.count_eq_zero.mpr acquires,
      List.count_eq_zero.mpr releases]
    rfl
  unfold obpCreateHandle at returned
  simp only [] at returned
  split at returned
  · cases returned
    exact balanced
  · split at returned
    · cases returned
    · cases returned
      exact balanced

theorem mapHandle_balanced : Balanced (obpMapHandleToPointer t m handle desiredAccess false).events := by
  by_cases outside : OutOfRange handle
  · rw [mapHandle_outOfRange outside]
    rfl
  · rw [(mapHandle_spec outside).1]
    unfold Balanced
    simp

theorem close_balanced : Balanced (obClose t m dereference handle).events ↔
    OutOfRange handle ∨ entryObject m (t.objHandle handle) ≠ 0 := by
  by_cases outside : OutOfRange handle
  · rw [close_refused (by rw [mapHandle_outOfRange outside]), mapHandle_outOfRange outside]
    exact ⟨fun _ => Or.inl outside, fun _ => rfl⟩
  · rw [close_events outside]
    by_cases free : entryObject m (t.objHandle handle) = 0
    · rw [if_pos free]
      have left : ¬Balanced [.acquire, .access (t.objHandle handle)] := by simp [Balanced]
      exact ⟨fun balanced => absurd balanced left, fun used => absurd free (used.resolve_left outside)⟩
    · rw [if_neg free]
      have given : Balanced [.acquire, .access (t.objHandle handle), .access (t.objHandle handle), .release] := by simp [Balanced]
      exact ⟨fun _ => Or.inr free, fun _ => given⟩

/-- The four calls give back the lock as often as they take it if and only if the value that is closed is turned down
by the range check or selects an entry in use. -/
theorem handles_balanced (t : HandleTable) (m : Memory) (handle desiredAccess object grantedAccess owner : BitVec 32)
    (checked : Bool) (dereference reference : Memory → Address → Memory) :
    ((∀ r, obpCreateHandle t m checked object grantedAccess owner = some r → Balanced r.2.2) ∧
      Balanced (obpMapHandleToPointer t m handle desiredAccess false).events ∧
      Balanced (obReferenceObjectByHandle t m reference handle desiredAccess).events ∧
      Balanced (obClose t m dereference handle).events) ↔
    OutOfRange handle ∨ entryObject m (t.objHandle handle) ≠ 0 := by
  constructor
  · rintro ⟨_, _, _, closed⟩
    exact close_balanced.mp closed
  · intro used
    exact ⟨fun r returned => createHandle_balanced returned, mapHandle_balanced,
      referenceByHandle_same.2 ▸ mapHandle_balanced, close_balanced.mpr used⟩

/-- Closing a handle of a free entry leaves the table locked. -/
theorem close_free_locked : ¬Balanced (obClose initialTable (fun _ => 0) (fun m _ => m) 1).events := by decide

end locks

/-- The memory of the table holds a list of entries. -/
structure Represents (t : HandleTable) (m : Memory) (table : List (Option ObjectHandle)) : Prop where
  size : table.length = t.currentSize
  free : ∀ handle, table[(handle - 1).toNat]? = some none → entryObject m (t.objHandle handle) = 0
  used : ∀ handle e, table[(handle - 1).toNat]? = some (some e) →
    entryObject m (t.objHandle handle) ≠ 0 ∧ entryGrantedAccess m (t.objHandle handle) = e.grantedAccess

/-- For the values of a table's handles, the map over lists of entries returns what the map over the memory does. -/
theorem mapHandle_represented {t : HandleTable} {m : Memory} {s : ObjectManager} {process : Nat}
    (represents : Represents t m (s.table process)) (unlocked : s.tableLocked process = false) {handle : BitVec 32}
    (positive : handle ≠ 0) (within : handle.toNat ≤ t.currentSize) (desiredAccess : BitVec 32) (keepLock : Bool) :
    ∃ object after, Ob.obpMapHandleToPointer s process handle desiredAccess keepLock =
      some ((obpMapHandleToPointer t m handle desiredAccess keepLock).status, object, after) := by
  unfold Ob.obpMapHandleToPointer obpMapHandleToPointer
  by_cases outside : OutOfRange handle
  · have large : 0xFFFF < handle &&& 0xFFFFFFF := outside
    rw [if_pos large, if_pos outside]
    exact ⟨none, s, rfl⟩
  · have inside : (handle - 1).toNat < (s.table process).length := by
      have size := represents.size
      bv_omega
    have under : ¬0xFFFF < handle &&& 0xFFFFFFF := outside
    rw [if_neg under, if_neg outside, unlocked, handleEntry, List.getElem?_eq_getElem inside]
    have here := List.getElem?_eq_getElem inside
    cases entry : (s.table process)[(handle - 1).toNat] with
    | none =>
      rw [entry] at here
      rw [if_pos (represents.free handle here)]
      exact ⟨_, _, rfl⟩
    | some e =>
      rw [entry] at here
      obtain ⟨object, granted⟩ := represents.used handle e here
      rw [if_neg object, granted]
      by_cases denied : desiredAccess ≠ 0 ∧ e.grantedAccess &&& desiredAccess = 0
      · rw [if_pos denied]
        exact ⟨none, _, congrArg some (if_pos denied)⟩
      · rw [if_neg denied]
        exact ⟨some e.object, _, congrArg some (if_neg denied)⟩

end Gr8os.Ob.TableMemory
