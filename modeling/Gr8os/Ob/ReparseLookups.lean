import Gr8os.Ob.ReparseOwnership

/-! The model with the buffers returns what the lookup's model does. -/
namespace Gr8os.Ob.ReparseBuffers

variable {c : Circumstances} {parseContext : BitVec 32} {path : UnicodeString} {l : Locals}
  {o wc fuel heapCalls : Nat} {p : Cursor}

theorem callParseRoutine_fuel {outcome : Option Outcome} : (callParseRoutine l o heapCalls outcome).2 ≠ some .fuel := by
  cases outcome with
  | none => simp [callParseRoutine]
  | some outcome =>
    unfold callParseRoutine
    dsimp only
    split
    · simp
    · split
      · simp
      · split <;> simp

/-- A turn goes on with the next character, and not behind the length. -/
def Advances (path : UnicodeString) (p : Cursor) : Turn → Prop
  | .ends e => e ≠ .fuel
  | .goesOn next => next.wc = p.wc + 1 ∧ 2 * p.wc < path.length.toNat

theorem nameStep_advances : Advances path p (nameStep c parseContext path p l).2 := by
  unfold nameStep
  dsimp only
  split
  · split
    · simp [Advances]
    · split
      · simp [Advances]
      · rename_i o _
        have ended := @callParseRoutine_fuel l.read o p.heapCalls (c.parse parseContext path p.wc p.heapCalls o)
        rcases run : callParseRoutine l.read o p.heapCalls _ with ⟨after, _ | e⟩
        · dsimp only
          split
          · simp [Advances]
          · split
            · simp [Advances]
            · exact ⟨rfl, Nat.lt_of_not_le ‹_›⟩
        · rw [run] at ended
          exact fun same => ended (congrArg some same)
  case isFalse inside => exact ⟨rfl, Nat.lt_of_not_le (not_or.mp inside).2⟩

/-- The loop ends once it has passed all characters that the length counts. -/
theorem nameLoop_returns (enough : path.length.toNat ≤ 2 * (p.wc + fuel)) :
    (nameLoop c parseContext path (fuel + 1) p l).2 ≠ .fuel := by
  induction fuel generalizing p l with
  | zero =>
    have advances := @nameStep_advances c parseContext path l p
    unfold nameLoop
    rcases step : nameStep c parseContext path p l with ⟨after, e | next⟩
    · rw [step] at advances
      exact advances
    · rw [step] at advances
      exact absurd advances.2 (Nat.not_lt.mpr enough)
  | succ fuel ih =>
    have advances := @nameStep_advances c parseContext path l p
    unfold nameLoop
    rcases step : nameStep c parseContext path p l with ⟨after, e | next⟩
    · rw [step] at advances
      exact advances
    · rw [step] at advances
      obtain ⟨nextWc, _⟩ : next.wc = p.wc + 1 ∧ _ := advances
      exact ih (by rw [nextWc]; omega)

theorem nameLoop_more {more : Nat} (ends : (nameLoop c parseContext path fuel p l).2 ≠ .fuel) :
    nameLoop c parseContext path (fuel + more) p l = nameLoop c parseContext path fuel p l := by
  induction fuel generalizing p l with
  | zero => exact absurd rfl ends
  | succ fuel ih =>
    rw [Nat.succ_add]
    unfold nameLoop at ends ⊢
    rcases step : nameStep c parseContext path p l with ⟨after, e | next⟩
    · rfl
    · rw [step] at ends
      exact ih ends

section kernel

variable {s : ObjectSpace} {allocated : Nat → Bool}

/-- How the loop ends, without and with its buffers. -/
def EndsAlike : LoopEnd → PathEnd → Prop
  | .returned status, e => e = .returned status.code ∨ e = .parseFailed status.code
  | .finish o _, e => ∃ parsed heapCalls, e = .finish o parsed heapCalls
  | .reparse path heapCalls, e => e = .reparse path heapCalls
  | .fuel, _ => True

theorem kernel_parse (o : Nat) : (kernelCircumstances allocated s).parse parseContext path wc heapCalls o =
    kernelParseRoutine (s.object o) (path.buffer.drop wc) parseContext (allocated (heapCalls + 1)) := by
  unfold Circumstances.parse
  split
  case isTrue directory =>
    have list : ∃ objectList, (s.object o).body = .directory objectList := by
      change (s.object o).objectType = .directory at directory
      unfold ObjectHeader.objectType at directory
      split at directory
      case h_1 objectList body => exact ⟨objectList, body⟩
      all_goals cases directory
    obtain ⟨objectList, body⟩ := list
    unfold kernelParseRoutine
    rw [body]
  case isFalse => rfl

/-- The two models of a parse routine's result end the loop in the same way. -/
theorem afterParse_alike (h : ObjectHeader) (remainingPath : List WChar) (room : Bool) :
    Option.Rel EndsAlike (afterParse o (heapCalls + 2) (parseRoutine h remainingPath parseContext room))
      (callParseRoutine l o heapCalls (kernelParseRoutine h remainingPath parseContext room)).2 := by
  unfold parseRoutine kernelParseRoutine
  cases h.body with
  | directory objectList => exact .none
  | other n => exact .none
  | device => exact .some ⟨true, heapCalls, rfl⟩
  | symbolicLink target =>
    dsimp only
    unfold obpParseSymbolicLink
    by_cases resolved : parseContext ≠ 1
    · simp only [if_pos resolved]
      cases room with
      | false => exact .some (.inr rfl)
      | true => exact .some rfl
    · simp only [if_neg resolved]
      exact .none

/-- A turn ends the lookup's model in the same way, or that goes on from where the turn does. -/
def TurnsAlike (allocated : Nat → Bool) (s : ObjectSpace) (parseContext : BitVec 32) (path : UnicodeString)
    (fuel : Nat) (loop : LoopEnd) : Turn → Prop
  | .ends e => EndsAlike loop e
  | .goesOn next =>
    loop = Ob.nameLoop allocated s parseContext path fuel next.currentDirectory next.prevslash next.wc next.heapCalls

theorem nameStep_alike : TurnsAlike allocated s parseContext path fuel
    (Ob.nameLoop allocated s parseContext path (fuel + 1) p.currentDirectory p.prevslash p.wc p.heapCalls)
    (nameStep (kernelCircumstances allocated s) parseContext path p l).2 := by
  have heap : (kernelCircumstances allocated s).allocated = allocated := rfl
  have objects : ∀ k, (kernelCircumstances allocated s).space k = s := fun _ => rfl
  have parses := @kernel_parse parseContext path p.wc p.heapCalls s allocated
  generalize kernelCircumstances allocated s = c at heap objects parses
  unfold nameStep Ob.nameLoop
  simp only [heap, objects, parses]
  by_cases name : path.buffer[p.wc]? = some backslash ∨ 2 * p.wc ≥ path.length.toNat
  · rw [if_pos name, if_pos name]
    by_cases failed : (!allocated p.heapCalls) = true
    · rw [if_pos failed, if_pos failed]
      exact Or.inl rfl
    · rw [if_neg failed, if_neg failed]
      cases obpFindObjectInDirectory s p.currentDirectory
        (wcssubstr (path.buffer.drop (p.prevslash + 1)) 0 ((2 * p.wc - 2 * p.prevslash) / 2 - 1)) with
      | none => exact Or.inl rfl
      | some o =>
        have alike := @afterParse_alike parseContext l.read o p.heapCalls (s.object o) (path.buffer.drop p.wc)
          (allocated (p.heapCalls + 1))
        dsimp only
        generalize afterParse o (p.heapCalls + 2) _ = decided at alike ⊢
        generalize callParseRoutine l.read o p.heapCalls _ = called at alike ⊢
        obtain ⟨after, e⟩ := called
        dsimp only at alike
        cases alike with
        | some same => exact same
        | none =>
          dsimp only
          by_cases last : 2 * p.wc ≥ path.length.toNat
          · rw [if_pos last, if_pos last]
            exact ⟨_, _, rfl⟩
          · rw [if_neg last, if_neg last]
            by_cases leaf : (s.object o).objectType ≠ .directory
            · rw [if_pos leaf, if_pos leaf]
              exact Or.inl rfl
            · rw [if_neg leaf, if_neg leaf]
              rfl
  · rw [if_neg name, if_neg name]
    rfl

theorem nameLoop_alike : EndsAlike
    (Ob.nameLoop allocated s parseContext path fuel p.currentDirectory p.prevslash p.wc p.heapCalls)
    (nameLoop (kernelCircumstances allocated s) parseContext path fuel p l).2 := by
  induction fuel generalizing p l with
  | zero => trivial
  | succ fuel ih =>
    have alike := @nameStep_alike parseContext path l fuel p s allocated
    unfold nameLoop
    rcases step : nameStep (kernelCircumstances allocated s) parseContext path p l with ⟨after, e | next⟩
    · rw [step] at alike
      exact alike
    · rw [step] at alike
      have same : Ob.nameLoop allocated s parseContext path (fuel + 1) p.currentDirectory p.prevslash p.wc p.heapCalls =
        _ := alike
      rw [same]
      exact ih

theorem finishName_alike {objectType : Option ObjectType} {requestorMode : ProcessorMode}
    {packet : Option (List WChar)} :
    (finishName s objectType requestorMode o l).status = (Ob.finishName s objectType requestorMode o packet).status.code ∧
      (finishName s objectType requestorMode o l).object = (Ob.finishName s objectType requestorMode o packet).object := by
  unfold finishName Ob.finishName
  dsimp only
  split
  · exact ⟨rfl, rfl⟩
  · exact ⟨rfl, rfl⟩

/-- Wherever the lookup's model returns, its result is that of the model with the buffers. -/
theorem reparseName_alike {objectType : Option ObjectType} {requestorMode : ProcessorMode} {r : NameResult}
    (returns : Ob.reparseName allocated s objectType requestorMode parseContext fuel path heapCalls = some r) :
    ∃ r', reparseName (kernelCircumstances allocated s) objectType requestorMode parseContext fuel path heapCalls l =
      some r' ∧ r'.status = r.status.code ∧ r'.object = r.object := by
  induction fuel generalizing path heapCalls l with
  | zero => cases returns
  | succ fuel ih =>
    unfold Ob.reparseName at returns
    unfold reparseName
    dsimp only
    split at returns
    case isTrue relative =>
      cases returns
      exact ⟨_, if_pos relative, rfl, rfl⟩
    case isFalse absolute =>
      rw [if_neg absolute]
      have alike := @nameLoop_alike parseContext path l.read (path.buffer.length + 1)
        ((kernelCircumstances allocated s).start heapCalls) s allocated
      change EndsAlike (Ob.nameLoop allocated s parseContext path (path.buffer.length + 1) s.obRootObjectDirectory 0 1
        heapCalls) _ at alike
      have lasts : (nameLoop (kernelCircumstances allocated s) parseContext path (path.length.toNat + 1)
          ((kernelCircumstances allocated s).start heapCalls) l.read).2 ≠ .fuel :=
        nameLoop_returns (Nat.le_trans (Nat.le_add_left _ 1) (Nat.le_mul_of_pos_left _ (by decide)))
      have same (ends : (nameLoop (kernelCircumstances allocated s) parseContext path (path.buffer.length + 1)
          ((kernelCircumstances allocated s).start heapCalls) l.read).2 ≠ .fuel) :
          nameLoop (kernelCircumstances allocated s) parseContext path (path.length.toNat + 1)
            ((kernelCircumstances allocated s).start heapCalls) l.read =
          nameLoop (kernelCircumstances allocated s) parseContext path (path.buffer.length + 1)
            ((kernelCircumstances allocated s).start heapCalls) l.read := by
        rw [← nameLoop_more lasts, ← nameLoop_more ends, Nat.add_comm]
      rcases run : nameLoop (kernelCircumstances allocated s) parseContext path (path.buffer.length + 1)
        ((kernelCircumstances allocated s).start heapCalls) l.read with ⟨after, e⟩
      rw [run] at alike same
      generalize Ob.nameLoop allocated s parseContext path (path.buffer.length + 1) s.obRootObjectDirectory 0 1
        heapCalls = loop at alike returns
      cases loop with
      | returned status =>
        cases returns
        rcases alike with rfl | rfl
        · rw [same PathEnd.noConfusion]
          exact ⟨_, rfl, rfl, rfl⟩
        · rw [same PathEnd.noConfusion]
          exact ⟨_, rfl, rfl, rfl⟩
      | finish o packet =>
        cases returns
        obtain ⟨parsed, k, rfl⟩ := alike
        rw [same PathEnd.noConfusion]
        exact ⟨_, rfl, finishName_alike⟩
      | reparse next k =>
        obtain rfl : e = .reparse next k := alike
        rw [same PathEnd.noConfusion]
        exact ih returns
      | fuel => cases returns

theorem obReferenceObjectByName_alike {objectName : UnicodeString} {objectType : Option ObjectType}
    {requestorMode : ProcessorMode} {r : NameResult}
    (returns : Ob.obReferenceObjectByName allocated s fuel objectName objectType requestorMode parseContext = some r) :
    ∃ r', obReferenceObjectByName (kernelCircumstances allocated s) fuel objectName objectType requestorMode parseContext =
      some r' ∧ r'.status = r.status.code ∧ r'.object = r.object := reparseName_alike returns

end kernel

end Gr8os.Ob.ReparseBuffers
