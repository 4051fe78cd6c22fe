import Gr8os.Ob.Accounts

/-! The type that a lookup is asked for and the type of what it returns. -/
namespace Gr8os.Ob

section Lookup

variable {allocated : Nat → Bool} {s : ObjectSpace} {parseContext : BitVec 32}

theorem afterParse_failed {o heapCalls : Nat} {parsed : Option Parsed} {status : Status}
    (ends : afterParse o heapCalls parsed = some (.returned status)) : status.isSuccess = false := by
  unfold afterParse at ends
  split at ends
  · cases ends
  · split at ends
    case isTrue failed =>
      cases Option.some.inj ends
      simpa using failed
    case isFalse =>
      split at ends
      · cases Option.some.inj ends
      · split at ends
        · cases Option.some.inj ends
        · cases ends

/-- The loop returns by itself only to report a failure. -/
theorem nameLoop_failed {path : UnicodeString} {fuel currentDirectory prevslash wc heapCalls : Nat} {status : Status}
    (ends : nameLoop allocated s parseContext path fuel currentDirectory prevslash wc heapCalls = .returned status) :
    status.isSuccess = false := by
  induction fuel generalizing currentDirectory prevslash wc heapCalls with
  | zero => cases ends
  | succ fuel ih =>
    unfold nameLoop at ends
    split at ends
    · split at ends
      · cases ends
        rfl
      · dsimp only at ends
        split at ends
        · cases ends
          rfl
        · split at ends
          case h_1 parsed => exact afterParse_failed (parsed.trans (congrArg some ends))
          case h_2 =>
            split at ends
            · cases ends
            · split at ends
              · cases ends
                rfl
              · exact ih ends
    · exact ih ends

/-- The walk reads neither the type nor the mode: they only decide what becomes of the object it comes to. -/
theorem reparseName_walk {objectType : Option ObjectType} {requestorMode : ProcessorMode} {fuel heapCalls : Nat}
    {path : UnicodeString} {r : NameResult}
    (run : reparseName allocated s objectType requestorMode parseContext fuel path heapCalls = some r) :
    r.status.isSuccess = false ∨ ∃ o packet, ∀ wanted mode,
      reparseName allocated s wanted mode parseContext fuel path heapCalls = some (finishName s wanted mode o packet) := by
  induction fuel generalizing path heapCalls with
  | zero => cases run
  | succ fuel ih =>
    unfold reparseName at run ⊢
    split at run
    · cases Option.some.inj run
      exact .inl rfl
    case isFalse absolute =>
      simp only [if_neg absolute]
      split at run
      case h_1 ends =>
        cases Option.some.inj run
        exact .inl (nameLoop_failed ends)
      case h_2 o packet _ => exact .inr ⟨o, packet, fun _ _ => rfl⟩
      case h_3 => exact ih run
      case h_4 => cases run

theorem finishName_typed {objectType : Option ObjectType} {requestorMode : ProcessorMode} {o : Nat}
    {packet : Option (List WChar)} (success : (finishName s objectType requestorMode o packet).status.isSuccess = true) :
    finishName s objectType requestorMode o packet = ⟨.success, some o, packet, obReferenceObject s o⟩ ∧
      (requestorMode = .userMode → some (s.object o).objectType = objectType) := by
  unfold finishName at success ⊢
  split at success
  · cases success
  case isFalse passed =>
    refine ⟨if_neg passed, ?_⟩
    intro user
    exact Decidable.byContradiction fun other => passed ⟨user, other⟩

theorem reference_type (o p : Nat) : ((obReferenceObject s o).object p).objectType = (s.object p).objectType := by
  change ObjectHeader.objectType (if p = o then _ else _) = _
  split <;> rfl

theorem reference_by_name_typed {fuel : Nat} {objectName : UnicodeString} {objectType : ObjectType}
    {requestorMode : ProcessorMode} {r : NameResult}
    (call : obReferenceObjectByName allocated s fuel objectName (some objectType) requestorMode parseContext = some r)
    (success : r.status.isSuccess = true) :
    ∃ o, r.object = some o ∧ (requestorMode = .userMode → (r.space.object o).objectType = objectType) ∧
      (requestorMode ≠ .userMode → ∀ wanted,
        obReferenceObjectByName allocated s fuel objectName wanted requestorMode parseContext = some r) := by
  rcases reparseName_walk call with failed | ⟨o, packet, walk⟩
  · rw [failed] at success
    cases success
  · cases Option.some.inj (call.symm.trans (walk _ _))
    obtain ⟨result, typed⟩ := finishName_typed success
    rw [result]
    refine ⟨o, rfl, ?_, ?_⟩
    · intro user
      rw [reference_type]
      exact Option.some.inj (typed user)
    · intro other wanted
      rw [obReferenceObjectByName, walk wanted requestorMode, finishName, if_neg fun both => other both.1]

end Lookup

/-- The root with one directory in it, called G. -/
def oneDirectory : ObjectSpace where
  object o := match o with
    | 0 => { objectName := [], referenceCount := 1, body := .directory [1] }
    | _ => { objectName := [0x47], referenceCount := 1, body := .directory [], parentDirectory := some 0 }
  obRootObjectDirectory := 0

def pathG : UnicodeString := rtlInitUnicodeString [backslash, 0x47]

theorem user_directory_typed : ∃ r,
    obReferenceObjectByName (fun _ => true) oneDirectory 1 pathG (some .directory) .userMode 0 = some r ∧
      ∃ o, r.object = some o ∧ (r.space.object o).objectType = .directory := by
  have finishes : (obReferenceObjectByName (fun _ => true) oneDirectory 1 pathG (some .directory) .userMode 0).map
      (fun r => r.status.isSuccess) = some true := by decide
  obtain ⟨r, call, success⟩ := Option.map_eq_some_iff.mp finishes
  obtain ⟨o, object, typed, -⟩ := reference_by_name_typed call success
  exact ⟨r, call, o, object, typed rfl⟩

/-- The call of IoCreateFile, which asks for a device in kernel mode and passes a packet. -/
theorem kernel_directory_for_device : ∃ r,
    obReferenceObjectByName (fun _ => true) oneDirectory 1 pathG (some .device) .kernelMode 0x80001000 = some r ∧
      r.status.isSuccess = true ∧ ∃ o, r.object = some o ∧ (r.space.object o).objectType ≠ .device := by
  have finishes : (obReferenceObjectByName (fun _ => true) oneDirectory 1 pathG (some .device) .kernelMode
      0x80001000).map (fun r => (r.status.isSuccess, r.object, (r.space.object 1).objectType)) =
      some (true, some 1, .directory) := by decide
  obtain ⟨r, call, ends⟩ := Option.map_eq_some_iff.mp finishes
  simp only [Prod.mk.injEq] at ends
  obtain ⟨success, object, type⟩ := ends
  refine ⟨r, call, success, 1, object, ?_⟩
  rw [type]
  decide

end Gr8os.Ob
