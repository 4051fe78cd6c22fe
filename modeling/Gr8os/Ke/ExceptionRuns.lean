import Gr8os.Ke.HandlerEntry
import Gr8os.Lib.Run

/-! Exceptions of one thread, one after another. -/
namespace Gr8os.Ke.Exceptions

open Runs Visits

/-- A new exception, and the frames of the thread when it is raised. The other flags are set on the way. -/
structure Raise where
  exceptionList : BitVec 32
  frames : BitVec 32 → ExceptionFrame
  args : ExceptionArguments
  fresh : args.flags &&& (ehUnwinding ||| ehExitUnwind) = 0 ∧ args.flags &&& ehContinuing = 0

def Raise.state (r : Raise) (currentException : Option ExceptionArguments) : Pcb :=
  { exceptionList := r.exceptionList, currentException, frames := r.frames, trace := [] }

/-- The exception is offered to the frames, and one of them handles it. The thread goes on with the exception that is
current then. -/
def Offered (currentException : Option ExceptionArguments) (r : Raise) (after : Option ExceptionArguments) : Prop :=
  ∃ fuel t, t.currentException = after ∧
    ((∃ args, keRaiseException fuel (r.state currentException) r.args = some (.continues args t)) ∨
      ∃ frame trylevel, keRaiseException fuel (r.state currentException) r.args = some (.executes frame trylevel t))

def Raise.Handled (r : Raise) : Prop := ∃ after, Offered none r after

section answers

variable {table : ScopeTable} {args : ExceptionArguments} {current : BitVec 32}

theorem Selected.not_mem {levels : List (BitVec 32)} {level disposition : BitVec 32}
    (selected : Selected table args level disposition) (passed : ∀ l ∈ levels, Passed table args l) : level ∉ levels :=
  fun member => selected.not_passed (passed level member)

theorem Selected.ne_none {level disposition : BitVec 32} (selected : Selected table args level disposition) :
    level ≠ trylevelNone := by
  obtain ⟨entry, filter, here, -⟩ := selected.answer
  rintro rfl
  exact absurd (ScopeTable.level_small here) (by decide)

theorem trylevelNone_not_mem {levels : List (BitVec 32)} {level last : BitVec 32}
    (leads : Leads table.parent level levels last) : trylevelNone ∉ levels := by
  intro member
  obtain ⟨_, _, -, -, outer, step, -⟩ := leads.of_mem member
  rw [ScopeTable.parent_none] at step
  cases step

theorem SearchEnds.unique {found found' : Option (BitVec 32 × BitVec 32)} (ends : SearchEnds table args current found)
    (ends' : SearchEnds table args current found') : found = found' := by
  cases found with
  | none =>
    obtain ⟨levels, leads, passed⟩ := ends
    cases found' with
    | none => rfl
    | some found' =>
      obtain ⟨levels', leads', -, selected⟩ := ends'
      exact absurd (leads'.same_end leads (selected.not_mem passed) (trylevelNone_not_mem leads')) selected.ne_none
  | some found =>
    obtain ⟨levels, leads, passed, selected⟩ := ends
    cases found' with
    | none =>
      obtain ⟨levels', leads', passed'⟩ := ends'
      exact absurd (leads.same_end leads' (selected.not_mem passed') (trylevelNone_not_mem leads)) selected.ne_none
    | some found' =>
      obtain ⟨levels', leads', passed', selected'⟩ := ends'
      obtain ⟨level, disposition⟩ := found
      obtain ⟨level', disposition'⟩ := found'
      obtain rfl : level = level' := leads.same_end leads' (selected.not_mem passed') (selected'.not_mem passed)
      obtain ⟨entry, filter, here, filters, rfl⟩ := selected.answer
      obtain ⟨entry', filter', here', filters', rfl⟩ := selected'.answer
      cases here.symm.trans here'
      cases filters.symm.trans filters'
      rfl

def ExceptionFrame.Decides (frame : ExceptionFrame) (args : ExceptionArguments) (disposition : BitVec 32) : Prop :=
  match frame.handler with
  | .exceptHandler3 => ∃ found, SearchEnds frame.scopeTable args frame.trylevel found ∧
      (found.map Prod.snd).getD exceptionContinueSearch = disposition
  | .other answer => (answer args).1.setWidth 32 = disposition

theorem ExceptionFrame.Decides.unique {frame : ExceptionFrame} {d d' : BitVec 32} (decides : frame.Decides args d)
    (decides' : frame.Decides args d') : d = d' := by
  unfold Decides at decides decides'
  cases kind : frame.handler with
  | exceptHandler3 =>
    rw [kind] at decides decides'
    obtain ⟨found, ends, rfl⟩ := decides
    obtain ⟨found', ends', rfl⟩ := decides'
    rw [ends.unique ends']
  | other answer =>
    rw [kind] at decides decides'
    exact Eq.trans (Eq.symm decides) decides'

/-- The frames in front of the first one that takes the exception go on with the search. -/
structure Decided (frames : BitVec 32 → ExceptionFrame) (args : ExceptionArguments) (record : BitVec 32)
    (passed : List (BitVec 32)) (frame disposition : BitVec 32) : Prop where
  leads : Leads (frameAfter frames) record passed frame
  passes : ∀ f ∈ passed, (frames f).Decides args exceptionContinueSearch
  decides : (frames frame).Decides args disposition
  taken : disposition ≠ exceptionContinueSearch

theorem Decided.unique {frames : BitVec 32 → ExceptionFrame} {record frame frame' d d' : BitVec 32}
    {passed passed' : List (BitVec 32)} (decided : Decided frames args record passed frame d)
    (decided' : Decided frames args record passed' frame' d') : d = d' := by
  have apart : frame ∉ passed' := fun member => decided.taken (decided.decides.unique (decided'.passes frame member))
  have apart' : frame' ∉ passed := fun member => decided'.taken (decided'.decides.unique (decided.passes frame' member))
  obtain rfl : frame = frame' := decided.leads.same_end decided'.leads apart apart'
  exact decided.decides.unique decided'.decides

end answers

section dispatch

variable {s t : Pcb} {args : ExceptionArguments} {record : BitVec 32} {fuel : Nat}

/-- What a handler has done when it ends: a search leaves the frames as they are. -/
def Handles (s : Pcb) (args : ExceptionArguments) (record : BitVec 32) : Handling → Prop
  | .returns value t =>
    (s.frames record).Decides args (value.setWidth 32) ∧ t.frames = s.frames ∧ t.currentException = s.currentException
  | .executes _ _ t =>
    (∃ d, (s.frames record).Decides args d ∧ d ≠ exceptionContinueSearch ∧ d ≠ exceptionContinueExecution) ∧
      t.currentException = s.currentException
  | .raises _ _ => True

theorem exceptHandler3_handles (fresh : args.flags &&& (ehUnwinding ||| ehExitUnwind) = 0) {handling : Handling}
    (kind : (s.frames record).handler = .exceptHandler3) (run : exceptHandler3 fuel s args record = some handling) :
    Handles s args record handling := by
  have decides : ∀ {d found}, SearchEnds (s.frames record).scopeTable args (s.frames record).trylevel found →
      (found.map Prod.snd).getD exceptionContinueSearch = d → (s.frames record).Decides args d := by
    intro d found ends answer
    unfold ExceptionFrame.Decides
    rw [kind]
    exact ⟨found, ends, answer⟩
  cases handling with
  | executes frame level t =>
    obtain ⟨disposition, levels, leads, passed, selected, other, u, v, first, spared, locally, -, rfl⟩ :=
      exceptHandler3_executes run
    obtain ⟨_, _, -, -, -, rfl⟩ := localUnwind2_inv locally
    have ends : SearchEnds (s.frames record).scopeTable args (s.frames record).trylevel (some (level, disposition)) :=
      ⟨levels, leads, passed, selected⟩
    exact ⟨⟨disposition, decides ends rfl, selected.taken, other⟩, spared.currentException⟩
  | raises => trivial
  | returns value t =>
    unfold exceptHandler3 at run
    rw [if_neg (not_not_intro fresh)] at run
    obtain ⟨found, search, rest⟩ := Option.bind_eq_some_iff.mp run
    have ends := searchScopes_ends search
    cases found with
    | none =>
      cases rest
      exact ⟨decides ends rfl, rfl, rfl⟩
    | some found =>
      dsimp only at rest
      split at rest
      · next continues =>
        cases rest
        exact ⟨decides ends continues, rfl, rfl⟩
      · unfold executeHandler at rest
        obtain ⟨unwind, -, rest⟩ := Option.bind_eq_some_iff.mp rest
        cases unwind with
        | raises => cases rest
        | returns u =>
          obtain ⟨v, -, rest⟩ := Option.bind_eq_some_iff.mp rest
          obtain ⟨first, -, differs⟩ := Option.map_eq_some_iff.mp rest
          cases differs

theorem callHandler_handles (fresh : args.flags &&& (ehUnwinding ||| ehExitUnwind) = 0) {handling : Handling}
    (run : callHandler fuel s args record = some handling) : Handles s args record handling := by
  cases kind : (s.frames record).handler with
  | exceptHandler3 =>
    have call : callHandler fuel s args record =
        exceptHandler3 fuel (s.call (.handler record args.flags)) args record := by
      simp only [callHandler, Pcb.call_frames, kind]
    rw [call] at run
    exact exceptHandler3_handles (s := s.call (.handler record args.flags)) fresh kind run
  | other answer =>
    have call : callHandler fuel s args record =
        some (.returns (answer args).1 (s.call (.handler record args.flags))) := by
      simp only [callHandler, Pcb.call_frames, kind]
    rw [call] at run
    cases run
    refine ⟨?_, rfl, rfl⟩
    unfold ExceptionFrame.Decides
    rw [kind]

/-- How the dispatcher ends: the exception is current until the execution goes on. -/
def Dispatches (s : Pcb) (args : ExceptionArguments) (record : BitVec 32) : Dispatch → Prop
  | .continues _ t =>
    (∃ passed frame, Decided s.frames args record passed frame exceptionContinueExecution) ∧ t.currentException = none
  | .executes _ _ t =>
    (∃ passed frame d, Decided s.frames args record passed frame d ∧ d ≠ exceptionContinueExecution) ∧
      t.currentException = s.currentException
  | .exits _ _ => True

theorem Decided.outward {frames : BitVec 32 → ExceptionFrame} {passed : List (BitVec 32)} {frame d : BitVec 32}
    (valid : record ≠ 0) (passes : (frames record).Decides args exceptionContinueSearch)
    (rest : Decided frames args (frames record).next passed frame d) :
    Decided frames args record (record :: passed) frame d where
  leads := ⟨rfl, _, if_neg valid, rest.leads⟩
  passes := List.forall_mem_cons.mpr ⟨passes, rest.passes⟩
  decides := rest.decides
  taken := rest.taken

theorem Decided.here {frames : BitVec 32 → ExceptionFrame} {d : BitVec 32} (decides : (frames record).Decides args d)
    (taken : d ≠ exceptionContinueSearch) : Decided frames args record [] record d where
  leads := rfl
  passes _ member := absurd member List.not_mem_nil
  decides := decides
  taken := taken

theorem continueExecution_ends {dispatch : Dispatch} (run : continueExecution fuel s args = some dispatch) :
    (∃ a t, dispatch = .continues a t ∧ t.currentException = none) ∨ ∃ code t, dispatch = .exits code t := by
  unfold continueExecution at run
  dsimp only at run
  split at run
  · cases run
    exact .inr ⟨_, _, rfl⟩
  · obtain ⟨unwind, -, rfl⟩ := Option.map_eq_some_iff.mp run
    cases unwind with
    | returns t => exact .inl ⟨_, _, rfl, rfl⟩
    | raises code t => exact .inr ⟨_, _, rfl⟩

theorem walkHandlers_dispatches (fresh : args.flags &&& (ehUnwinding ||| ehExitUnwind) = 0) {dispatch : Dispatch}
    (run : walkHandlers args fuel s record = some dispatch) : Dispatches s args record dispatch := by
  induction fuel generalizing s record with
  | zero => cases run
  | succ fuel ih =>
    rw [walkHandlers] at run
    by_cases null : record = 0
    · rw [if_pos null] at run
      cases run
      trivial
    · rw [if_neg null] at run
      obtain ⟨handling, call, rest⟩ := Option.bind_eq_some_iff.mp run
      have handles := callHandler_handles fresh call
      cases handling with
      | raises code t =>
        cases rest
        trivial
      | executes frame level t =>
        cases rest
        obtain ⟨⟨d, decides, taken, other⟩, current⟩ := handles
        exact ⟨⟨[], record, d, .here decides taken, other⟩, current⟩
      | returns value t =>
        obtain ⟨decides, frames, current⟩ := handles
        dsimp only at rest
        by_cases search : value = exceptionContinueSearch
        · subst search
          rw [if_pos rfl] at rest
          have later := ih rest
          cases dispatch with
          | continues a u =>
            obtain ⟨⟨passed, frame, decided⟩, none⟩ := later
            rw [frames] at decided
            exact ⟨⟨record :: passed, frame, decided.outward null decides⟩, none⟩
          | executes frame level u =>
            obtain ⟨⟨passed, frame, d, decided, other⟩, same⟩ := later
            rw [frames] at decided
            exact ⟨⟨record :: passed, frame, d, decided.outward null decides, other⟩, same.trans current⟩
          | exits => trivial
        · rw [if_neg search] at rest
          by_cases continues : value = exceptionContinueExecution
          · subst continues
            rw [if_pos rfl] at rest
            rcases continueExecution_ends rest with ⟨a, u, rfl, none⟩ | ⟨code, u, rfl⟩
            · exact ⟨⟨[], record, .here decides (by decide)⟩, none⟩
            · trivial
          · rw [if_neg continues] at rest
            cases rest
            trivial

/-- An exception that must not be continued is not: those that are raised while frames are unwound do not come back. -/
theorem walkHandlers_continuable {a : ExceptionArguments}
    (run : walkHandlers args fuel s record = some (.continues a t)) : args.flags &&& ehNoncontinuable = 0 := by
  induction fuel generalizing s record with
  | zero => cases run
  | succ fuel ih =>
    rw [walkHandlers] at run
    split at run
    · cases run
    · obtain ⟨handling, -, rest⟩ := Option.bind_eq_some_iff.mp run
      cases handling with
      | raises => cases rest
      | executes => cases rest
      | returns value u =>
        dsimp only at rest
        split at rest
        · exact ih rest
        · split at rest
          · unfold continueExecution at rest
            by_contra flagged
            rw [if_pos flagged] at rest
            cases rest
          · cases rest

end dispatch

section runs

variable {r : Raise} {raises : List Raise} {current after : Option ExceptionArguments}

/-- The frame that takes the exception answers that the execution is to go on. -/
def Raise.Continued (r : Raise) : Prop :=
  ∃ passed frame, Decided r.frames r.args r.exceptionList passed frame exceptionContinueExecution

theorem Offered.none_before (offered : Offered current r after) : current = none := by
  obtain ⟨fuel, t, -, run⟩ := offered
  cases current with
  | none => rfl
  | some args =>
    have nested : keRaiseException fuel (r.state (some args)) r.args =
        some (nestedException r.args.exceptionCode (r.state (some args))) := by
      unfold keRaiseException
      rw [if_neg (not_not_intro r.fresh.2)]
      rfl
    rw [nested] at run
    rcases run with ⟨a, differs⟩ | ⟨frame, level, differs⟩
    · cases differs
    · cases differs

/-- An exception after which the execution goes on is not current any more, another one is. -/
theorem Offered.cases (offered : Offered none r after) : r.Continued ∧ after = none ∨ ¬r.Continued ∧ after ≠ none := by
  obtain ⟨fuel, t, rfl, run⟩ := offered
  have walk : keRaiseException fuel (r.state none) r.args =
      walkHandlers r.args fuel (r.state (some r.args)) r.exceptionList := by
    unfold keRaiseException
    rw [if_neg (not_not_intro r.fresh.2)]
    rfl
  rw [walk] at run
  rcases run with ⟨a, run⟩ | ⟨frame, level, run⟩
  · obtain ⟨decided, none⟩ := walkHandlers_dispatches r.fresh.1 run
    exact .inl ⟨decided, none⟩
  · obtain ⟨⟨passed, frame, d, decided, other⟩, same⟩ := walkHandlers_dispatches r.fresh.1 run
    refine .inr ⟨?_, ?_⟩
    · rintro ⟨passed', frame', decided'⟩
      exact other (decided.unique decided')
    · rw [same]
      exact Option.some_ne_none r.args

/-- All exceptions of a thread are offered just if no `__except` block is begun for any of them but the last: the
exception stays the current one then, and the next one ends the thread. -/
theorem offered_all_iff (handled : ∀ r ∈ raises, r.Handled) :
    (∃ after, Run Offered none raises after) ↔ ∀ r ∈ raises.dropLast, r.Continued := by
  induction raises with
  | nil => exact iff_of_true ⟨none, .done none⟩ (fun r member => absurd member List.not_mem_nil)
  | cons r raises ih =>
    obtain ⟨⟨middle, first⟩, later⟩ := List.forall_mem_cons.mp handled
    cases raises with
    | nil => exact iff_of_true ⟨middle, .next first (.done middle)⟩ (fun r member => absurd member List.not_mem_nil)
    | cons next raises =>
      rw [List.dropLast_cons_cons, List.forall_mem_cons, ← ih later]
      constructor
      · rintro ⟨after, run⟩
        cases run with
        | next offered rest =>
          rcases offered.cases with ⟨continued, rfl⟩ | ⟨-, some⟩
          · exact ⟨continued, after, rest⟩
          · cases rest with
            | next second _ => exact absurd second.none_before some
      · rintro ⟨continued, after, rest⟩
        rcases first.cases with ⟨-, rfl⟩ | ⟨other, -⟩
        · exact ⟨after, .next first rest⟩
        · exact absurd continued other

end runs

def executedRaise : Raise where
  exceptionList := 0x1000
  frames := (twoScopes 0).frames
  args := divisionByZero
  fresh := by decide

def continuedRaise : Raise where
  exceptionList := 0x1000
  frames _ := {
    next := 0
    handler := .other fun _ => (exceptionContinueExecution, none)
    scopeTable := noScopes
    trylevel := trylevelNone }
  args := divisionByZero
  fresh := by decide

theorem executedRaise_offered : Offered none executedRaise (some divisionByZero) :=
  ⟨4, _, rfl, .inr ⟨0x1000, 0, rfl⟩⟩

theorem continuedRaise_offered : Offered none continuedRaise none :=
  ⟨4, _, rfl, .inl ⟨_, rfl⟩⟩

theorem offered_continued_executed : ∃ after, Run Offered none [continuedRaise, executedRaise] after := by
  have handled : ∀ r ∈ [continuedRaise, executedRaise], r.Handled := by
    simp only [List.forall_mem_cons]
    exact ⟨⟨_, continuedRaise_offered⟩, ⟨_, executedRaise_offered⟩, fun r member => absurd member List.not_mem_nil⟩
  refine (offered_all_iff handled).mpr (List.forall_mem_singleton.mpr ?_)
  rcases continuedRaise_offered.cases with ⟨continued, -⟩ | ⟨-, some⟩
  · exact continued
  · exact absurd rfl some

theorem executed_twice : executedRaise.Handled ∧
    ¬∃ after, Run Offered none [executedRaise, executedRaise] after := by
  refine ⟨⟨_, executedRaise_offered⟩, ?_⟩
  rintro ⟨after, run⟩
  have other : ¬executedRaise.Continued := by
    rcases executedRaise_offered.cases with ⟨-, none⟩ | ⟨other, -⟩
    · cases none
    · exact other
  cases run with
  | next first rest =>
    rcases first.cases with ⟨continued, -⟩ | ⟨-, some⟩
    · exact other continued
    · cases rest with
      | next second _ => exact some second.none_before

end Gr8os.Ke.Exceptions
