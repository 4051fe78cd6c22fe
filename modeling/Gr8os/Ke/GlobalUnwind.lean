import Gr8os.Ke.LocalUnwind

/-! Global unwinding: which handlers are called, and where it leaves the list of frames. -/
namespace Gr8os.Ke.Exceptions

open Visits

/-- The list ends at the null pointer. -/
def frameAfter (frames : BitVec 32 → ExceptionFrame) (frame : BitVec 32) : Option (BitVec 32) :=
  if frame = 0 then none else some (frames frame).next

def Event.called : Event → Option (BitVec 32 × BitVec 32)
  | handler frame flags => some (frame, flags)
  | finallyBlock .. => none

/-- The handlers that were called, with the flags that they saw. -/
def Pcb.calls (s : Pcb) : List (BitVec 32 × BitVec 32) := s.trace.filterMap Event.called

/-- How a handler answers while frames are unwound, if it does. -/
def ExceptionFrame.Answers (frame : ExceptionFrame) (args : ExceptionArguments) (value : BitVec 8)
    (stored : Option (BitVec 32)) : Prop :=
  match frame.handler with
  | .exceptHandler3 =>
    value = exceptionContinueSearch ∧ stored = none ∧
      ∃ levels level, Leads frame.scopeTable.parent frame.trylevel levels level ∧ Stops trylevelNone level
  | .other answer => answer args = (value, stored)

structure Called (s t : Pcb) (frame flags : BitVec 32) : Prop where
  others : ∀ other, other ≠ frame → t.frames other = s.frames other
  next : ∀ other, (t.frames other).next = (s.frames other).next
  currentException : t.currentException = s.currentException
  trace : ∃ blocks, t.trace = s.trace ++ .handler frame flags :: blocks ∧
    ∀ e ∈ blocks, ∃ level trylevel, e = .finallyBlock frame level trylevel

section calls

variable {s t : Pcb} {frame : BitVec 32} {args : ExceptionArguments} {fuel : Nat} {value : BitVec 8}
  {stored : Option (BitVec 32)}

theorem ScopeTable.mem_finallyBlocks {table : ScopeTable} {levels : List (BitVec 32)} {e : Event}
    (member : e ∈ table.finallyBlocks frame levels) : ∃ level trylevel, e = .finallyBlock frame level trylevel := by
  obtain ⟨level, -, block⟩ := List.mem_filterMap.mp member
  obtain ⟨entry, -, block⟩ := Option.bind_eq_some_iff.mp block
  split at block
  · exact ⟨level, _, (Option.some.inj block).symm⟩
  · cases block

/-- No level that has a scope around it is one at which everything is unwound. -/
theorem not_stops_none {table : ScopeTable} {levels : List (BitVec 32)} {level last l : BitVec 32}
    (leads : Leads table.parent level levels last) (member : l ∈ levels) : ¬Stops trylevelNone l := by
  obtain ⟨_, _, -, -, outer, step, -⟩ := leads.of_mem member
  obtain ⟨entry, here, -⟩ := ScopeTable.parent_eq_some step
  have small := table.level_small here
  rintro (rfl | le)
  · exact absurd small (by decide)
  · have negative : (trylevelNone).toInt = -1 := rfl
    rw [BitVec.sle_iff_toInt_le, BitVec.toInt_eq_toNat_of_lt (by omega)] at le
    omega

theorem Called.unwound (s : Pcb) (frame flags : BitVec 32) (levels : List (BitVec 32)) (level : BitVec 32) :
    Called s ((s.call (.handler frame flags)).unwound frame levels level) frame flags where
  others other differs := Pcb.setTrylevel_other (s := s) differs
  next other := by
    by_cases same : other = frame
    · subst same
      change ((s.setTrylevel other level).frames other).next = (s.frames other).next
      rw [Pcb.setTrylevel_self]
    · exact congrArg ExceptionFrame.next (Pcb.setTrylevel_other (s := s) same)
  currentException := rfl
  trace := by
    refine ⟨_, List.append_assoc .., ?_⟩
    intro e member
    exact ScopeTable.mem_finallyBlocks member

theorem callUnwinding_exceptHandler3 (kind : (s.frames frame).handler = .exceptHandler3) :
    callUnwinding fuel s args frame =
      (localUnwind2 frame trylevelNone fuel (s.call (.handler frame args.flags))).map fun s =>
        (exceptionContinueSearch, none, s) := by
  simp only [callUnwinding, Pcb.call_frames, kind]

theorem callUnwinding_other {answer : ExceptionArguments → BitVec 8 × Option (BitVec 32)}
    (kind : (s.frames frame).handler = .other answer) : callUnwinding fuel s args frame =
      some ((answer args).1, (answer args).2, s.call (.handler frame args.flags)) := by
  simp only [callUnwinding, Pcb.call_frames, kind]

theorem callUnwinding_inv (run : callUnwinding fuel s args frame = some (value, stored, t)) :
    (s.frames frame).Answers args value stored ∧ Called s t frame args.flags := by
  unfold ExceptionFrame.Answers
  cases kind : (s.frames frame).handler with
  | exceptHandler3 =>
    rw [callUnwinding_exceptHandler3 kind] at run
    obtain ⟨u, unwound, same⟩ := Option.map_eq_some_iff.mp run
    cases same
    obtain ⟨levels, level, leads, -, stops, rfl⟩ := localUnwind2_inv unwound
    exact ⟨⟨rfl, rfl, levels, level, leads, stops⟩, .unwound s frame args.flags levels level⟩
  | other answer =>
    rw [callUnwinding_other kind] at run
    cases run
    exact ⟨rfl, fun _ _ => rfl, fun _ => rfl, rfl, [], rfl, fun e member => absurd member List.not_mem_nil⟩

theorem callUnwinding_answers (answers : (s.frames frame).Answers args value stored) :
    ∃ t n, ∀ fuel ≥ n, callUnwinding fuel s args frame = some (value, stored, t) := by
  unfold ExceptionFrame.Answers at answers
  cases kind : (s.frames frame).handler with
  | exceptHandler3 =>
    rw [kind] at answers
    obtain ⟨rfl, rfl, levels, level, leads, stops⟩ := answers
    refine ⟨(s.call (.handler frame args.flags)).unwound frame levels level, levels.length + 1, fun fuel enough => ?_⟩
    have unwound := localUnwind2_of_leads (s := s.call (.handler frame args.flags)) leads
      (fun l member => not_stops_none leads member) stops enough
    rw [callUnwinding_exceptHandler3 kind, unwound, Option.map_some]
  | other answer =>
    rw [kind] at answers
    refine ⟨s.call (.handler frame args.flags), 0, fun fuel _ => ?_⟩
    rw [callUnwinding_other kind, answers]

theorem Called.calls {flags : BitVec 32} (called : Called s t frame flags) : t.calls = s.calls ++ [(frame, flags)] := by
  obtain ⟨blocks, trace, all⟩ := called.trace
  have none : blocks.filterMap Event.called = [] := by
    rw [List.filterMap_eq_nil_iff]
    intro e member
    obtain ⟨level, trylevel, rfl⟩ := all e member
    rfl
  unfold Pcb.calls
  rw [trace, List.filterMap_append, List.filterMap_cons, none]
  rfl

end calls

section loop

variable {s t : Pcb} {target frame newFrame : BitVec 32} {args : ExceptionArguments} {fuel : Nat}

theorem unwindFrames_done (done : frame = 0 ∨ frame = target) :
    unwindFrames target args (fuel + 1) s frame newFrame = some (.returns s) := by
  rw [unwindFrames]
  rcases done with null | here
  · exact if_pos null
  · rw [if_pos here, ite_self]

/-- A frame is called, and the loop goes on from it or from the frame that its handler stored. -/
structure Passes (s u : Pcb) (target frame : BitVec 32) (args : ExceptionArguments) (value : BitVec 8)
    (stored : Option (BitVec 32)) : Prop where
  inside : ¬(target ≠ 0 ∧ target ≤ frame)
  answers : (s.frames frame).Answers args value stored
  called : Called s u frame args.flags

def lastFrame (value : BitVec 8) (frame newFrame : BitVec 32) : BitVec 32 :=
  if value = exceptionContinueSearch then frame else newFrame

theorem unwindFrames_inv (valid : frame ≠ 0) (other : frame ≠ target)
    (run : unwindFrames target args (fuel + 1) s frame newFrame = some (.returns t)) :
    ∃ value stored u, Passes s u target frame args value stored ∧
      (value = exceptionContinueSearch ∨ value = exceptionCollidedUnwind) ∧
        unwindFrames target args fuel { u with exceptionList := lastFrame value frame (stored.getD newFrame) }
          (u.frames (lastFrame value frame (stored.getD newFrame))).next (stored.getD newFrame) =
            some (.returns t) := by
  rw [unwindFrames, if_neg valid, if_neg other] at run
  split at run
  · cases run
  · next inside =>
    obtain ⟨⟨value, stored, u⟩, call, rest⟩ := Option.bind_eq_some_iff.mp run
    obtain ⟨answers, called⟩ := callUnwinding_inv call
    refine ⟨value, stored, u, ⟨inside, answers, called⟩, ?_⟩
    unfold lastFrame
    by_cases search : value = exceptionContinueSearch
    · rw [if_pos search] at rest ⊢
      exact ⟨.inl search, rest⟩
    · rw [if_neg search] at rest ⊢
      by_cases collided : value = exceptionCollidedUnwind
      · rw [if_pos collided] at rest
        exact ⟨.inr collided, rest⟩
      · rw [if_neg collided] at rest
        cases rest

theorem unwindFrames_calls (run : unwindFrames target args fuel s frame newFrame = some (.returns t)) :
    (frame = 0 ∨ frame = target) ∧ t = s ∨
      frame ≠ 0 ∧ frame ≠ target ∧ ∃ more, t.calls = s.calls ++ (frame, args.flags) :: more := by
  induction fuel generalizing s frame newFrame with
  | zero => cases run
  | succ fuel ih =>
    by_cases done : frame = 0 ∨ frame = target
    · rw [unwindFrames_done done] at run
      cases run
      exact .inl ⟨done, rfl⟩
    · obtain ⟨valid, other⟩ := not_or.mp done
      obtain ⟨value, stored, u, passes, -, rest⟩ := unwindFrames_inv valid other run
      have calls : u.calls = s.calls ++ [(frame, args.flags)] := passes.called.calls
      refine .inr ⟨valid, other, ?_⟩
      rcases ih rest with ⟨-, rfl⟩ | ⟨-, -, more, later⟩
      · exact ⟨[], calls⟩
      · refine ⟨((u.frames (lastFrame value frame (stored.getD newFrame))).next, args.flags) :: more, ?_⟩
        rw [later]
        change u.calls ++ _ = _
        rw [calls, List.append_assoc, List.singleton_append]

end loop

/-- Every handler lets the unwinding go on to the frame behind its own, and the last one reports that it has come to the
target in another unwinding. -/
def Collides (frames : BitVec 32 → ExceptionFrame) (args : ExceptionArguments) (target : BitVec 32) :
    BitVec 32 → List (BitVec 32) → Prop
  | _, [] => False
  | newFrame, [frame] =>
    frame < target ∧ ∃ stored, (frames frame).Answers args exceptionCollidedUnwind stored ∧
      stored.getD newFrame = target
  | newFrame, frame :: outer :: rest =>
    frame < target ∧ ∃ value stored, (frames frame).Answers args value stored ∧
      (value = exceptionContinueSearch ∨
        value = exceptionCollidedUnwind ∧ (frames (stored.getD newFrame)).next = outer) ∧
        Collides frames args target (stored.getD newFrame) (outer :: rest)

/-- The handlers of the frames are called in this order with the unwinding flag, and the list begins at the target when
the call returns. -/
def Unwinds (s : Pcb) (target : BitVec 32) (args : Option ExceptionArguments) (inner : List (BitVec 32)) : Prop :=
  ∃ fuel t flags, rtlUnwind fuel s target args = some (.returns t) ∧ flags &&& ehUnwinding ≠ 0 ∧
    t.calls = s.calls ++ inner.map (·, flags) ∧ t.exceptionList = target

section unwinding

variable {s t : Pcb} {target frame newFrame : BitVec 32} {args : ExceptionArguments} {fuel : Nat}
  {frames : BitVec 32 → ExceptionFrame}

/-- The frames that are still to be called are as they were, and the links as well. -/
structure Untouched (frames : BitVec 32 → ExceptionFrame) (s : Pcb) (rest : List (BitVec 32)) : Prop where
  same : ∀ frame ∈ rest, s.frames frame = frames frame
  next : ∀ frame, (s.frames frame).next = (frames frame).next

theorem Untouched.call {u : Pcb} {rest : List (BitVec 32)} {flags list : BitVec 32}
    (untouched : Untouched frames s (frame :: rest)) (called : Called s u frame flags) (apart : frame ∉ rest) :
    Untouched frames { u with exceptionList := list } rest where
  same other member := by
    have differs : other ≠ frame := fun same => apart (same ▸ member)
    exact (called.others other differs).trans (untouched.same other (List.mem_cons_of_mem frame member))
  next other := (called.next other).trans (untouched.next other)

theorem unwindFrames_first {rest : List (BitVec 32)} (some_ : target ≠ 0)
    (untouched : Untouched frames s (frame :: rest)) (valid : frame ≠ 0 ∧ frame ≠ target)
    (run : unwindFrames target args fuel s frame newFrame = some (.returns t)) : ∃ value stored u fuel,
      frame < target ∧ (frames frame).Answers args value stored ∧ Called s u frame args.flags ∧
        (value = exceptionContinueSearch ∨ value = exceptionCollidedUnwind) ∧
          unwindFrames target args fuel { u with exceptionList := lastFrame value frame (stored.getD newFrame) }
            (u.frames (lastFrame value frame (stored.getD newFrame))).next (stored.getD newFrame) =
              some (.returns t) := by
  cases fuel with
  | zero => cases run
  | succ fuel =>
    obtain ⟨value, stored, u, passes, kind, later⟩ := unwindFrames_inv valid.1 valid.2 run
    have inside : frame < target := BitVec.not_le.mp fun le => passes.inside ⟨some_, le⟩
    have answers := untouched.same frame List.mem_cons_self ▸ passes.answers
    exact ⟨value, stored, u, fuel, inside, answers, passes.called, kind, later⟩

/-- The last frame that is called reports a collided unwind to the target, and nothing lies outside of the target. -/
theorem collides_last (outside : (frames target).next ≠ target) (some_ : target ≠ 0)
    (untouched : Untouched frames s [frame]) (valid : frame ≠ 0 ∧ frame ≠ target)
    (run : unwindFrames target args fuel s frame newFrame = some (.returns t))
    (calls : t.calls = s.calls ++ [(frame, args.flags)]) (list : t.exceptionList = target) :
    Collides frames args target newFrame [frame] ∧ (frames target).next = 0 := by
  obtain ⟨value, stored, u, fuel, inside, answers, called, kind, later⟩ :=
    unwindFrames_first some_ untouched valid run
  rcases unwindFrames_calls later with ⟨stop, rfl⟩ | ⟨-, -, more, longer⟩
  · have last : lastFrame value frame (stored.getD newFrame) = target := list
    have collided : value = exceptionCollidedUnwind := by
      refine kind.resolve_left fun search => valid.2 ?_
      rwa [lastFrame, if_pos search] at last
    subst collided
    have ended : (frames target).next = 0 := by
      rw [last] at stop
      have link : (u.frames target).next = (frames target).next := (called.next target).trans (untouched.next target)
      rw [link] at stop
      exact stop.resolve_right outside
    exact ⟨⟨inside, stored, answers, last⟩, ended⟩
  · change t.calls = u.calls ++ _ at longer
    rw [calls, called.calls] at longer
    have length := congrArg List.length longer
    simp at length

theorem collides_of_unwindFrames {rest : List (BitVec 32)} (outside : (frames target).next ≠ target)
    (some_ : target ≠ 0) (untouched : Untouched frames s (frame :: rest)) (nodup : (frame :: rest).Nodup)
    (valid : ∀ x ∈ frame :: rest, x ≠ 0 ∧ x ≠ target)
    (run : unwindFrames target args fuel s frame newFrame = some (.returns t))
    (calls : t.calls = s.calls ++ (frame :: rest).map (·, args.flags)) (list : t.exceptionList = target) :
    Collides frames args target newFrame (frame :: rest) ∧ (frames target).next = 0 := by
  induction rest generalizing s frame newFrame fuel with
  | nil => exact collides_last outside some_ untouched (valid frame List.mem_cons_self) run calls list
  | cons outer rest ih =>
    obtain ⟨apart, rest_nodup⟩ := List.nodup_cons.mp nodup
    obtain ⟨value, stored, u, fuel, inside, answers, called, kind, later⟩ :=
      unwindFrames_first some_ untouched (valid frame List.mem_cons_self) run
    rcases unwindFrames_calls later with ⟨-, rfl⟩ | ⟨-, -, more, longer⟩
    · change u.calls = _ at calls
      rw [called.calls] at calls
      have length := congrArg List.length calls
      simp at length
    · change t.calls = u.calls ++ _ at longer
      have next : (u.frames (lastFrame value frame (stored.getD newFrame))).next = outer := by
        rw [calls, called.calls] at longer
        simp only [List.map_cons, List.append_assoc, List.singleton_append, List.append_cancel_left_eq,
          List.cons.injEq, Prod.mk.injEq, and_true, true_and] at longer
        exact longer.1.symm
      have rest_calls : t.calls = u.calls ++ (outer :: rest).map (·, args.flags) := by
        rw [calls, called.calls]
        simp
      rw [next] at later
      obtain ⟨collides, ended⟩ := ih (untouched.call called apart) rest_nodup
        (fun x member => valid x (List.mem_cons_of_mem frame member)) later rest_calls
      refine ⟨⟨inside, value, stored, answers, kind.imp_right fun collided => ⟨collided, ?_⟩, collides⟩, ended⟩
      subst collided
      exact ((called.next _).trans (untouched.next _)).symm.trans next

theorem unwindFrames_passes {value : BitVec 8} {stored : Option (BitVec 32)} {u : Pcb} (valid : frame ≠ 0)
    (inside : frame < target) (call : callUnwinding fuel s args frame = some (value, stored, u))
    (goes : value = exceptionContinueSearch ∨ value = exceptionCollidedUnwind) :
    unwindFrames target args (fuel + 1) s frame newFrame =
      unwindFrames target args fuel { u with exceptionList := lastFrame value frame (stored.getD newFrame) }
        (u.frames (lastFrame value frame (stored.getD newFrame))).next (stored.getD newFrame) := by
  have other : frame ≠ target := by
    rintro rfl
    exact absurd inside (BitVec.lt_irrefl frame)
  have under : ¬(target ≠ 0 ∧ target ≤ frame) := fun above => absurd inside (BitVec.not_lt.mpr above.2)
  rw [unwindFrames, if_neg valid, if_neg other, if_neg under, call, Option.bind_some]
  unfold lastFrame
  rcases goes with rfl | rfl
  · rfl
  · rfl

theorem unwindFrames_of_collides {rest : List (BitVec 32)} (ended : (frames target).next = 0)
    (untouched : Untouched frames s (frame :: rest)) (nodup : (frame :: rest).Nodup)
    (valid : ∀ x ∈ frame :: rest, x ≠ 0)
    (links : ∀ front x y back, frame :: rest = front ++ x :: y :: back → (frames x).next = y)
    (collides : Collides frames args target newFrame (frame :: rest)) :
    ∃ t n, (∀ fuel ≥ n, unwindFrames target args fuel s frame newFrame = some (.returns t)) ∧
      t.calls = s.calls ++ (frame :: rest).map (·, args.flags) ∧ t.exceptionList = target := by
  induction rest generalizing s frame newFrame with
  | nil =>
    obtain ⟨inside, stored, answers, reached⟩ := collides
    rw [← untouched.same frame List.mem_cons_self] at answers
    obtain ⟨u, n, call⟩ := callUnwinding_answers answers
    have called := (callUnwinding_inv (call n (Nat.le_refl n))).2
    have last : lastFrame (exceptionCollidedUnwind : BitVec 8) frame (stored.getD newFrame) = target := reached
    have null : (u.frames target).next = 0 := (called.next target).trans ((untouched.next target).trans ended)
    refine ⟨{ u with exceptionList := target }, n + 2, fun fuel enough => ?_, called.calls, rfl⟩
    obtain ⟨fuel, rfl⟩ : ∃ k, fuel = k + 2 := ⟨fuel - 2, by omega⟩
    rw [unwindFrames_passes (valid frame List.mem_cons_self) inside (call (fuel + 1) (by omega)) (.inr rfl), last, null]
    exact unwindFrames_done (.inl rfl)
  | cons outer rest ih =>
    obtain ⟨inside, value, stored, answers, kind, collides⟩ := collides
    obtain ⟨apart, rest_nodup⟩ := List.nodup_cons.mp nodup
    rw [← untouched.same frame List.mem_cons_self] at answers
    obtain ⟨u, n, call⟩ := callUnwinding_answers answers
    have called := (callUnwinding_inv (call n (Nat.le_refl n))).2
    have next : (u.frames (lastFrame value frame (stored.getD newFrame))).next = outer := by
      rw [called.next, untouched.next]
      rcases kind with rfl | ⟨rfl, collided⟩
      · exact links [] frame outer rest rfl
      · exact collided
    have later : ∀ front x y back, outer :: rest = front ++ x :: y :: back → (frames x).next = y := by
      intro front x y back same
      exact links (frame :: front) x y back (congrArg (frame :: ·) same)
    obtain ⟨t, m, run, calls, list⟩ := ih
      (s := { u with exceptionList := lastFrame value frame (stored.getD newFrame) })
      (untouched.call called apart) rest_nodup (fun x member => valid x (List.mem_cons_of_mem frame member)) later
      collides
    refine ⟨t, max n m + 1, fun fuel enough => ?_, ?_, list⟩
    · obtain ⟨fuel, rfl⟩ : ∃ k, fuel = k + 1 := ⟨fuel - 1, by omega⟩
      rw [unwindFrames_passes (valid frame List.mem_cons_self) inside (call fuel (by omega))
        (kind.imp_right And.left), next]
      exact run fuel (by omega)
    · rw [calls]
      change u.calls ++ _ = _
      rw [called.calls]
      simp

end unwinding

section claim

variable {s : Pcb} {target : BitVec 32} {args : Option ExceptionArguments} {inner outer : List (BitVec 32)}

theorem frameAfter_eq_some {frames : BitVec 32 → ExceptionFrame} {frame next : BitVec 32}
    (step : frameAfter frames frame = some next) : frame ≠ 0 ∧ (frames frame).next = next := by
  unfold frameAfter at step
  split at step
  · cases step
  · next valid => exact ⟨valid, Option.some.inj step⟩

theorem unwindArguments_unwinding (target : BitVec 32) (args : Option ExceptionArguments) :
    (unwindArguments target args).flags &&& ehUnwinding ≠ 0 := by
  unfold unwindArguments ehUnwinding ehExitUnwind
  dsimp only
  intro none
  have bit := congrArg (·.getLsbD 1) none
  simp at bit

theorem leads_links {frames : BitVec 32 → ExceptionFrame} {head last x y : BitVec 32} {l front back : List (BitVec 32)}
    (leads : Leads (frameAfter frames) head l last) (place : l = front ++ x :: y :: back) : (frames x).next = y := by
  subst place
  obtain ⟨c, -, rest⟩ := leads.split
  obtain ⟨rfl, d, step, rfl, -⟩ := rest
  exact (frameAfter_eq_some step).2

theorem next_ne {head : BitVec 32} (chain : Leads (frameAfter s.frames) head (inner ++ target :: outer) 0)
    (nodup : (inner ++ target :: outer).Nodup) : (s.frames target).next ≠ target := by
  obtain ⟨first, -, rfl, behind, step, rest⟩ := chain.split
  obtain ⟨valid, link⟩ := frameAfter_eq_some step
  rw [link]
  rintro rfl
  cases outer with
  | nil => exact valid rest
  | cons x outer =>
    obtain ⟨rfl, -⟩ := rest
    exact (List.nodup_cons.mp (List.nodup_append.mp nodup).2.1).1 List.mem_cons_self

/-- The unwinding ends with the target in front of the list if nothing lies inside the target, or if the target is the
last frame and a collided unwind leads to it. Otherwise the list begins at a frame that is already unwound. -/
theorem unwinds_iff (chain : Leads (frameAfter s.frames) s.exceptionList (inner ++ target :: outer) 0) :
    Unwinds s target args inner ↔
      inner = [] ∨ outer = [] ∧ Collides s.frames (unwindArguments target args) target 0 inner := by
  have null : frameAfter s.frames 0 = none := if_pos rfl
  have valid : ∀ x ∈ inner ++ target :: outer, x ≠ 0 := by
    intro x member
    obtain ⟨_, _, -, -, next, step, -⟩ := chain.of_mem member
    exact (frameAfter_eq_some step).1
  have nodup := chain.nodup fun member => valid 0 member rfl
  have flagged := unwindArguments_unwinding target args
  obtain ⟨first, front, back⟩ := chain.split
  obtain ⟨rfl, behind, step, rest⟩ := back
  obtain ⟨target_valid, link⟩ := frameAfter_eq_some step
  cases inner with
  | nil =>
    refine iff_of_true ⟨1, s, _, ?_, flagged, by simp, front⟩ (.inl rfl)
    obtain rfl : s.exceptionList = first := front
    exact unwindFrames_done (.inr rfl)
  | cons frame inner =>
    obtain ⟨inner_nodup, -, apart⟩ := List.nodup_append.mp nodup
    have inner_valid : ∀ x ∈ frame :: inner, x ≠ 0 ∧ x ≠ first := fun x member =>
      ⟨valid x (List.mem_append_left _ member), apart x member first List.mem_cons_self⟩
    have head : s.exceptionList = frame := front.1
    have untouched : Untouched s.frames s (frame :: inner) := ⟨fun _ _ => rfl, fun _ => rfl⟩
    rw [or_iff_right (List.cons_ne_nil frame inner)]
    unfold Unwinds rtlUnwind
    rw [head]
    constructor
    · rintro ⟨fuel, t, flags, run, -, calls, list⟩
      obtain ⟨stop, -⟩ | ⟨-, -, more, first_call⟩ := unwindFrames_calls run
      · exact absurd stop (not_or.mpr (inner_valid frame List.mem_cons_self))
      · have same : (unwindArguments first args).flags = flags := by
          rw [calls] at first_call
          simp only [List.map_cons, List.append_cancel_left_eq, List.cons.injEq, Prod.mk.injEq, true_and] at first_call
          exact first_call.1.symm
        subst same
        obtain ⟨collides, ended⟩ :=
          collides_of_unwindFrames (next_ne chain nodup) target_valid untouched inner_nodup inner_valid run calls list
        rw [ended] at link
        subst link
        cases outer with
        | nil => exact ⟨rfl, collides⟩
        | cons x outer =>
          obtain ⟨rfl, -⟩ := rest
          exact absurd rfl (valid 0 (List.mem_append_right _ (List.mem_cons_of_mem _ List.mem_cons_self)))
    · rintro ⟨rfl, collides⟩
      obtain rfl : behind = 0 := rest
      obtain ⟨t, n, run, calls, list⟩ := unwindFrames_of_collides link untouched inner_nodup
        (fun x member => (inner_valid x member).1) (fun _ _ _ _ place => leads_links front place) collides
      exact ⟨n, t, _, run n (Nat.le_refl n), flagged, calls, list⟩

end claim

def noScopes : ScopeTable where
  entries := []
  fits := by decide

def twoFrames : Pcb where
  exceptionList := 0x1000
  currentException := none
  frames frame := {
    next := if frame = 0x1000 then 0x2000 else 0
    handler := .exceptHandler3
    scopeTable := noScopes
    trylevel := trylevelNone }
  trace := []

theorem twoFrames_chain : Leads (frameAfter twoFrames.frames) twoFrames.exceptionList [0x1000, 0x2000] 0 :=
  ⟨rfl, 0x2000, rfl, rfl, 0, rfl, rfl⟩

theorem unwinds_first : Unwinds twoFrames 0x1000 none [] :=
  (@unwinds_iff twoFrames 0x1000 none [] [0x2000] twoFrames_chain).mpr (.inl rfl)

theorem unwound_frame_stays : Leads (frameAfter twoFrames.frames) twoFrames.exceptionList [0x1000, 0x2000] 0 ∧
    ¬Unwinds twoFrames 0x2000 none [0x1000] := by
  refine ⟨twoFrames_chain, ?_⟩
  rintro ⟨fuel, t, flags, run, -, -, list⟩
  rcases fuel with _ | _ | fuel
  · cases run
  · cases run
  · cases run
    exact absurd list (by decide)

end Gr8os.Ke.Exceptions
