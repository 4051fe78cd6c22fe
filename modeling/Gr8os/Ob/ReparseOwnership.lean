import Mathlib.Logic.Relation
import Gr8os.Ob.ReparseBuffers

/-! Which lookups free every reparse buffer once. -/
namespace Gr8os.Ob.ReparseBuffers

open Ownership Relation

/-- Where the name that starts at an absolute path leads to; the locals of the call do not matter. -/
def pathEnd (c : Circumstances) (parseContext : BitVec 32) (path : UnicodeString) (heapCalls : Nat) : PathEnd :=
  (nameLoop c parseContext path (path.length.toNat + 1) (c.start heapCalls) {}).2

/-- From one path, and the heap calls before it, to the one that a parse routine replaces it with. -/
def Restarts (c : Circumstances) (parseContext : BitVec 32) (start next : UnicodeString × Nat) : Prop :=
  start.1.buffer[0]? = some backslash ∧ pathEnd c parseContext start.1 start.2 = .reparse next.1 next.2

/-- A parse routine fails, or the last name's object has no parse routine called. -/
def PathEnd.FreesTwice : PathEnd → Prop
  | .parseFailed _ => True
  | .finish _ parsed _ => parsed = false
  | _ => False

/-- A path on which a buffer that is held is freed twice. -/
def FreesTwice (c : Circumstances) (parseContext : BitVec 32) (path : UnicodeString × Nat) : Prop :=
  path.1.buffer[0]? = some backslash ∧ (pathEnd c parseContext path.1 path.2).FreesTwice

/-- ReparsePath.Buffer is the one buffer that is held, and the path is read from it. -/
structure Locals.Sound (l : Locals) : Prop where
  owns : Owns l.trace l.reparsePath
  reads : l.parseBuffer = l.reparsePath
  fresh : ∀ e ∈ l.trace, e.buffer < l.buffers

/-- What the loop over one path leaves behind, from the buffer that was held before. -/
def EndsWith (held : Option Nat) (after : Locals) : PathEnd → Prop
  | .returned _ => Owns after.trace none
  | .parseFailed _ => if held = none then Owns after.trace none else ¬FreedOnce after.trace
  | .finish _ parsed _ =>
    Owns after.trace none ∧ (after.reparsePath = if parsed then none else held) ∧
      ∀ b, after.reparsePath = some b → .acquired b ∈ after.trace
  | .reparse _ _ => after.Sound ∧ after.reparsePath ≠ none
  | .fuel => True

/-- A turn that does not end the path leaves the buffer as it is. -/
def TurnsWith (held : Option Nat) (after : Locals) : Turn → Prop
  | .ends e => EndsWith held after e
  | .goesOn _ => after.Sound ∧ after.reparsePath = held

variable {c : Circumstances} {parseContext : BitVec 32} {path : UnicodeString} {l : Locals}
  {o wc fuel heapCalls : Nat} {p : Cursor}

@[simp] theorem read_reparsePath : l.read.reparsePath = l.reparsePath := rfl
@[simp] theorem exFreeHeap_reparsePath {buffer : Option Nat} : (l.exFreeHeap buffer).reparsePath = l.reparsePath := rfl

theorem exFreeHeap_trace {buffer : Option Nat} :
    (l.exFreeHeap buffer).trace = l.trace ++ (buffer.map .freed).toList := rfl

@[simp] theorem store_trace {stored : Option (Option UnicodeString)} : (l.store stored).trace = l.trace := by
  rcases stored with _ | _ | _ <;> rfl

namespace Locals.Sound

theorem start : ({} : Locals).Sound := ⟨Owns.nil, rfl, fun _ member => absurd member List.not_mem_nil⟩

theorem read (sound : l.Sound) : l.read.Sound := by
  obtain ⟨owns, reads, fresh⟩ := sound
  have trace : l.read.trace = l.trace ++ (l.reparsePath.map .read).toList := by
    rw [← reads]
    rfl
  cases held : l.reparsePath with
  | none =>
    rw [held] at trace owns
    rw [Option.map_none, Option.toList_none, List.append_nil] at trace
    exact ⟨by rwa [trace, read_reparsePath, held], reads, by rwa [trace]⟩
  | some b =>
    rw [held] at trace owns
    refine ⟨by rw [trace, read_reparsePath, held]; exact owns.read, reads, ?_⟩
    rw [trace]
    intro e member
    rcases List.mem_append.mp member with before | last
    · exact fresh e before
    · rw [List.mem_singleton.mp last]
      exact fresh (.acquired b) (owns.taken b rfl)

/-- Who frees ReparsePath.Buffer holds nothing any more. -/
theorem free (sound : l.Sound) : Owns (l.exFreeHeap l.reparsePath).trace none := by
  have owns := sound.owns
  rw [exFreeHeap_trace]
  cases held : l.reparsePath with
  | none =>
    rw [held] at owns
    simpa using owns
  | some b =>
    rw [held] at owns
    exact owns.free

theorem fresh_freed (sound : l.Sound) : ∀ e ∈ (l.exFreeHeap l.reparsePath).trace, e.buffer < l.buffers := by
  intro e member
  rcases List.mem_append.mp member with before | last
  · exact sound.fresh e before
  · obtain ⟨b, held, rfl⟩ := Option.map_eq_some_iff.mp (Option.mem_toList.mp last)
    exact sound.fresh (.acquired b) (sound.owns.taken b held)

theorem acquired (sound : l.Sound) {b : Nat} (held : l.reparsePath = some b) :
    .acquired b ∈ (l.exFreeHeap l.reparsePath).trace :=
  List.mem_append_left _ (sound.owns.taken b held)

end Locals.Sound

theorem exFreeHeap_again {buffer : Option Nat} (owns : Owns l.trace none)
    (taken : ∀ b, buffer = some b → .acquired b ∈ l.trace) :
    if buffer = none then Owns (l.exFreeHeap buffer).trace none else ¬FreedOnce (l.exFreeHeap buffer).trace := by
  rw [exFreeHeap_trace]
  cases buffer with
  | none => simpa using owns
  | some b => simpa using owns.freed_again (taken b rfl)

section routine

variable {outcome : Outcome} {after : Locals}

/-- After the call the old buffer is freed, whatever the routine stored. -/
theorem callParseRoutine_frees (sound : l.Sound) :
    Owns ((l.read.store outcome.reparsePath).exFreeHeap l.reparsePath).trace none := by
  have freed := sound.read.free
  rw [exFreeHeap_trace] at freed ⊢
  rw [store_trace]
  exact freed

theorem callParseRoutine_ends {e : PathEnd} (sound : l.Sound) (obeys : outcome.Obeys)
    (ends : callParseRoutine l o heapCalls (some outcome) = (after, some e)) : EndsWith l.reparsePath after e := by
  have freed := @callParseRoutine_frees l outcome sound
  unfold callParseRoutine at ends
  dsimp only at ends
  split at ends
  case isTrue failed =>
    have untouched := obeys.1 (by simpa using failed)
    cases ends
    rw [untouched] at freed ⊢
    exact exFreeHeap_again freed fun b held => sound.read.acquired held
  case isFalse =>
    split at ends
    case isTrue reparsed =>
      obtain ⟨next, stored⟩ := obeys.2 reparsed
      cases ends
      rw [stored] at freed ⊢
      have fresh := sound.read.fresh_freed
      refine ⟨⟨freed.acquire fun e member => Nat.ne_of_lt (fresh e member), rfl, ?_⟩, Option.some_ne_none _⟩
      intro e member
      rcases List.mem_append.mp member with before | last
      · exact Nat.lt_succ_of_lt (fresh e before)
      · rw [List.mem_singleton.mp last]
        exact Nat.lt_succ_self l.buffers
    case isFalse =>
      split at ends
      · cases ends
        refine ⟨?_, rfl, fun b held => by cases held⟩
        rw [exFreeHeap_trace]
        simpa using freed
      · cases ends

theorem callParseRoutine_continues (sound : l.Sound) (ends : callParseRoutine l o heapCalls (some outcome) = (after, none)) :
    Owns after.trace none ∧ after.reparsePath = none := by
  have freed := @callParseRoutine_frees l outcome sound
  unfold callParseRoutine at ends
  dsimp only at ends
  split at ends
  · cases ends
  · split at ends
    · cases ends
    · split at ends
      · cases ends
      · cases ends
        exact ⟨freed, rfl⟩

end routine

theorem parse_some {outcome : Outcome} (called : c.parse parseContext path wc heapCalls o = some outcome) :
    ((c.space heapCalls).object o).objectType ≠ .directory ∧
      c.parseRoutine heapCalls o path.buffer (path.buffer.drop wc) parseContext = some outcome := by
  unfold Circumstances.parse at called
  split at called
  · cases called
  · exact ⟨‹_›, called⟩

theorem nameStep_turns (obey : c.Obey) (sound : l.Sound) :
    TurnsWith l.reparsePath (nameStep c parseContext path p l).1 (nameStep c parseContext path p l).2 := by
  have read := sound.read
  rw [← read_reparsePath]
  unfold nameStep
  dsimp only
  split
  · split
    · exact read.free
    · split
      · exact read.free
      · rename_i o _
        cases called : c.parse parseContext path p.wc p.heapCalls o with
        | none =>
          dsimp only [callParseRoutine]
          split
          · exact ⟨read.free, rfl, fun b held => read.acquired held⟩
          · split
            · exact read.free
            · exact ⟨read, rfl⟩
        | some outcome =>
          obtain ⟨other, routine⟩ := parse_some called
          rcases ends : callParseRoutine l.read o p.heapCalls (some outcome) with ⟨after, _ | e⟩
          · obtain ⟨owns, nothing⟩ := callParseRoutine_continues read ends
            have rest : Owns (after.exFreeHeap after.reparsePath).trace none := by
              rw [nothing, exFreeHeap_trace]
              simpa using owns
            dsimp only
            split
            · exact ⟨rest, nothing, fun b held => by cases nothing.symm.trans held⟩
            · exact rest
          · exact callParseRoutine_ends read (obey _ _ _ _ _ _ routine) ends
  · exact ⟨read, rfl⟩

theorem nameLoop_ends (obey : c.Obey) (sound : l.Sound) :
    EndsWith l.reparsePath (nameLoop c parseContext path fuel p l).1 (nameLoop c parseContext path fuel p l).2 := by
  induction fuel generalizing p l with
  | zero => trivial
  | succ fuel ih =>
    have turn := @nameStep_turns c parseContext path l p obey sound
    unfold nameLoop
    rcases step : nameStep c parseContext path p l with ⟨after, e | next⟩
    · rw [step] at turn
      exact turn
    · rw [step] at turn
      rw [← turn.2]
      exact ih turn.1

theorem finishName_frees {s : ObjectSpace} {objectType : Option ObjectType} {requestorMode : ProcessorMode} :
    (finishName s objectType requestorMode o l).locals = l.exFreeHeap l.reparsePath := by
  unfold finishName
  dsimp only
  split <;> rfl

theorem callParseRoutine_pathEnd {l l' : Locals} {outcome : Option Outcome} :
    (callParseRoutine l o heapCalls outcome).2 = (callParseRoutine l' o heapCalls outcome).2 := by
  cases outcome with
  | none => rfl
  | some outcome =>
    unfold callParseRoutine
    dsimp only
    split
    · rfl
    · split
      · rfl
      · split <;> rfl

theorem nameStep_turn {l l' : Locals} :
    (nameStep c parseContext path p l).2 = (nameStep c parseContext path p l').2 := by
  unfold nameStep
  dsimp only
  split
  · split
    · rfl
    · split
      · rfl
      · rename_i o _
        have same := @callParseRoutine_pathEnd o p.heapCalls l.read l'.read
          (c.parse parseContext path p.wc p.heapCalls o)
        rcases run : callParseRoutine l.read o p.heapCalls _ with ⟨after, e⟩
        rcases run' : callParseRoutine l'.read o p.heapCalls _ with ⟨after', e'⟩
        rw [run, run'] at same
        cases same
        cases e with
        | some e => rfl
        | none =>
          dsimp only
          split
          · rfl
          · split <;> rfl
  · rfl

theorem nameLoop_pathEnd {l l' : Locals} :
    (nameLoop c parseContext path fuel p l).2 = (nameLoop c parseContext path fuel p l').2 := by
  induction fuel generalizing p l l' with
  | zero => rfl
  | succ fuel ih =>
    have same := @nameStep_turn c parseContext path p l l'
    unfold nameLoop
    rcases step : nameStep c parseContext path p l with ⟨after, turn⟩
    rcases step' : nameStep c parseContext path p l' with ⟨after', turn'⟩
    rw [step, step'] at same
    cases same
    cases turn with
    | ends e => rfl
    | goesOn next => exact ih

section kernel

variable {s : ObjectSpace} {allocated : Nat → Bool}

theorem obeys_of_success {status : Status} {stored : Option (Option UnicodeString)} (success : status.isSuccess = true)
    (goesOn : status.code ≠ Status.reparse.code) : Outcome.Obeys ⟨status.code, stored⟩ :=
  ⟨fun failed => absurd (success.symm.trans failed) Bool.noConfusion, fun reparsed => absurd reparsed goesOn⟩

theorem obeys_of_reparse {path : UnicodeString} : Outcome.Obeys ⟨Status.reparse.code, some (some path)⟩ :=
  ⟨fun failed => absurd (show succeeded Status.reparse.code = false from failed) (by decide), fun _ => ⟨path, rfl⟩⟩

/-- With heap for every buffer, the kernel's own parse routines keep to the contract. -/
theorem kernelCircumstances_obey (room : ∀ k, allocated k = true) : (kernelCircumstances allocated s).Obey := by
  intro heapCalls o _ remainingPath parseContext outcome called
  unfold kernelCircumstances kernelParseRoutine at called
  dsimp only at called
  split at called
  case h_1 target _ =>
    rw [room] at called
    cases called
    by_cases resolved : parseContext ≠ 1
    · rw [if_pos resolved, obpParseSymbolicLink, if_pos resolved]
      exact obeys_of_reparse
    · rw [if_neg resolved, obpParseSymbolicLink, if_neg resolved]
      exact obeys_of_success (by decide) (by decide)
  case h_2 =>
    cases called
    exact @obeys_of_success .finishParsing _ (by decide) (by decide)
  case h_3 => cases called

end kernel

/-- A path that a parse routine puts in its place, at once or after others, leads to a buffer that is freed again. -/
def LaterFreesTwice (c : Circumstances) (parseContext : BitVec 32) (path : UnicodeString × Nat) : Prop :=
  ∃ next, TransGen (Restarts c parseContext) path next ∧ FreesTwice c parseContext next

section lookup

variable {start next : UnicodeString × Nat}

theorem laterFreesTwice_iff (restarts : Restarts c parseContext start next) :
    LaterFreesTwice c parseContext start ↔ FreesTwice c parseContext next ∨ LaterFreesTwice c parseContext next := by
  constructor
  · rintro ⟨last, chain, twice⟩
    obtain ⟨first, step, rest⟩ := TransGen.head'_iff.mp chain
    have same : first = next := by
      have pair := step.2.symm.trans restarts.2
      exact Prod.ext (PathEnd.reparse.inj pair).1 (PathEnd.reparse.inj pair).2
    subst same
    rcases reflTransGen_iff_eq_or_transGen.mp rest with rfl | later
    · exact Or.inl twice
    · exact Or.inr ⟨last, later, twice⟩
  · rintro (twice | ⟨last, chain, twice⟩)
    · exact ⟨next, TransGen.single restarts, twice⟩
    · exact ⟨last, TransGen.head restarts chain, twice⟩

theorem not_laterFreesTwice (ends : ∀ next, ¬Restarts c parseContext start next) :
    ¬LaterFreesTwice c parseContext start := by
  rintro ⟨last, chain, -⟩
  obtain ⟨first, step, -⟩ := TransGen.head'_iff.mp chain
  exact ends first step

/-- The locals when the call returns. -/
def Locals.leave (l : Locals) : PathEnd → Locals
  | .finish _ _ _ => l.exFreeHeap l.reparsePath
  | _ => l

/-- Whether the call freed once what it took over, where it ends with this path. -/
theorem freedOnce_iff {held : Option Nat} {after : Locals} {e : PathEnd} (ends : EndsWith held after e)
    {r : Returned} (returned : r.locals = after.leave e) (last : ∀ next k, e ≠ .reparse next k) (ended : e ≠ .fuel) :
    (FreedOnce r.locals.trace ∧ NoReadAfterFree r.locals.trace) ↔ ¬(held ≠ none ∧ e.FreesTwice) := by
  have good (owns : Owns r.locals.trace none) (once : ¬(held ≠ none ∧ e.FreesTwice)) :
      (FreedOnce r.locals.trace ∧ NoReadAfterFree r.locals.trace) ↔ ¬(held ≠ none ∧ e.FreesTwice) :=
    iff_of_true ⟨owns.freedOnce, owns.noRead⟩ once
  have again (freed : if held = none then Owns r.locals.trace none else ¬FreedOnce r.locals.trace)
      (twice : e.FreesTwice) :
      (FreedOnce r.locals.trace ∧ NoReadAfterFree r.locals.trace) ↔ ¬(held ≠ none ∧ e.FreesTwice) := by
    by_cases nothing : held = none
    · rw [if_pos nothing] at freed
      exact good freed fun both => both.1 nothing
    · rw [if_neg nothing] at freed
      exact iff_of_false (fun both => freed both.1) fun once => once ⟨nothing, twice⟩
  cases e with
  | returned status => exact good (returned ▸ ends) fun both => both.2
  | parseFailed status => exact again (returned ▸ ends) trivial
  | finish o parsed k =>
    obtain ⟨owns, pointer, taken⟩ := ends
    have freed := exFreeHeap_again owns taken
    rw [show after.exFreeHeap after.reparsePath = r.locals from returned.symm] at freed
    cases parsed with
    | true =>
      have nothing : after.reparsePath = none := pointer
      rw [if_pos nothing] at freed
      exact good freed fun both => Bool.noConfusion both.2
    | false =>
      have same : after.reparsePath = held := pointer
      rw [same] at freed
      exact again freed rfl
  | reparse next k => exact absurd rfl (last next k)
  | fuel => exact absurd rfl ended

/-- A lookup that goes on from a path frees every buffer once, unless a buffer is freed again: one that is held at this
path, or one of a path that takes its place. -/
theorem reparseName_frees (obey : c.Obey) (sound : l.Sound) {objectType : Option ObjectType}
    {requestorMode : ProcessorMode} {r : Returned}
    (returns : reparseName c objectType requestorMode parseContext fuel path heapCalls l = some r) :
    (FreedOnce r.locals.trace ∧ NoReadAfterFree r.locals.trace) ↔
      ¬(l.reparsePath ≠ none ∧ FreesTwice c parseContext (path, heapCalls)) ∧
        ¬LaterFreesTwice c parseContext (path, heapCalls) := by
  induction fuel generalizing path heapCalls l with
  | zero => cases returns
  | succ fuel ih =>
    have read := sound.read
    unfold reparseName at returns
    dsimp only at returns
    split at returns
    case isTrue relative =>
      cases returns
      have owns := read.free
      exact iff_of_true ⟨owns.freedOnce, owns.noRead⟩
        ⟨fun twice => relative twice.2.1, not_laterFreesTwice fun _ restarts => relative restarts.1⟩
    case isFalse absolute =>
      have absolute := Decidable.not_not.mp absolute
      have ends := @nameLoop_ends c parseContext path l.read (path.length.toNat + 1) (c.start heapCalls) obey read
      have leads : pathEnd c parseContext path heapCalls = _ := @nameLoop_pathEnd c parseContext path _ _ {} l.read
      rcases run : nameLoop c parseContext path (path.length.toNat + 1) (c.start heapCalls) l.read with ⟨after, e⟩
      rw [run] at returns ends leads
      dsimp only at leads ends
      by_cases goesOn : ∃ next k, e = .reparse next k
      · obtain ⟨next, k, rfl⟩ := goesOn
        have restarts : Restarts c parseContext (path, heapCalls) (next, k) := ⟨absolute, leads⟩
        have here : ¬(l.reparsePath ≠ none ∧ FreesTwice c parseContext (path, heapCalls)) := by
          rintro ⟨-, -, twice⟩
          rw [leads] at twice
          exact twice
        rw [ih ends.1 returns, laterFreesTwice_iff restarts]
        exact ⟨fun both => ⟨here, not_or.mpr ⟨fun twice => both.1 ⟨ends.2, twice⟩, both.2⟩⟩,
          fun both => ⟨fun twice => both.2 (Or.inl twice.2), fun later => both.2 (Or.inr later)⟩⟩
      · have last : ∀ next k, e ≠ .reparse next k := fun next k same => goesOn ⟨next, k, same⟩
        have later := @not_laterFreesTwice c parseContext (path, heapCalls)
          fun next restarts => last _ _ (leads.symm.trans restarts.2)
        have twice : FreesTwice c parseContext (path, heapCalls) ↔ e.FreesTwice := by
          rw [← leads]
          exact and_iff_right absolute
        rw [and_iff_left later, twice]
        cases e with
        | returned status => exact freedOnce_iff ends (by cases returns; rfl) last PathEnd.noConfusion
        | parseFailed status => exact freedOnce_iff ends (by cases returns; rfl) last PathEnd.noConfusion
        | finish o parsed k => exact freedOnce_iff ends (by cases returns; exact finishName_frees) last PathEnd.noConfusion
        | reparse next k => exact absurd rfl (last next k)
        | fuel => cases returns

/-- Whatever the parse routines do within their contract, and after any number of reparses. -/
theorem reparse_buffers_freed_once (obey : c.Obey) {objectName : UnicodeString} {objectType : Option ObjectType}
    {requestorMode : ProcessorMode} {r : Returned}
    (returns : obReferenceObjectByName c fuel objectName objectType requestorMode parseContext = some r) :
    (FreedOnce r.locals.trace ∧ NoReadAfterFree r.locals.trace) ↔
      ¬∃ path, TransGen (Restarts c parseContext) (objectName, 0) path ∧ FreesTwice c parseContext path := by
  have frees := reparseName_frees obey Locals.Sound.start returns
  rw [frees]
  exact and_iff_right fun both => both.1 rfl

end lookup

/-- A root with the directory d and the link l to it. -/
def linkedDirectory : ObjectSpace where
  object o := match o with
    | 0 => { objectName := [], referenceCount := 1, body := .directory [1, 2] }
    | 1 => { objectName := [0x6C], referenceCount := 1, body := .symbolicLink [backslash, 0x64], parentDirectory := some 0 }
    | _ => { objectName := [0x64], referenceCount := 1, body := .directory [], parentDirectory := some 0 }
  obRootObjectDirectory := 0

/-- The path of the link frees the buffer at the last name and again at the end; the directory's own path has none. -/
theorem linked_directory_freed_twice :
    (kernelCircumstances (fun _ => true) linkedDirectory).Obey ∧
      ∃ r, obReferenceObjectByName (kernelCircumstances (fun _ => true) linkedDirectory) 2
        (rtlInitUnicodeString [backslash, 0x6C]) none .kernelMode 0 = some r ∧ r.status = Status.success.code ∧
        ¬FreedOnce r.locals.trace := by
  refine ⟨kernelCircumstances_obey fun _ => rfl, ?_⟩
  have run : (obReferenceObjectByName (kernelCircumstances (fun _ => true) linkedDirectory) 2
      (rtlInitUnicodeString [backslash, 0x6C]) none .kernelMode 0).map (fun r => (r.status, r.locals.trace)) =
      some (Status.success.code, [.acquired 0, .read 0, .read 0, .read 0, .freed 0, .freed 0]) := by decide
  obtain ⟨r, returns, ends⟩ := Option.map_eq_some_iff.mp run
  obtain ⟨status, trace⟩ := Prod.mk.inj ends
  refine ⟨r, returns, status, ?_⟩
  rw [trace]
  exact fun once => absurd (once 0 (by decide)) (by decide)

/-- A root with the device d and the link l to it. -/
def linkedDevice : ObjectSpace where
  object o := match o with
    | 0 => { objectName := [], referenceCount := 1, body := .directory [1, 2] }
    | 1 => { objectName := [0x6C], referenceCount := 1, body := .symbolicLink [backslash, 0x64], parentDirectory := some 0 }
    | _ => { objectName := [0x64], referenceCount := 1, body := .device, parentDirectory := some 0 }
  obRootObjectDirectory := 0

theorem linked_device_freed_once : ∃ r,
    obReferenceObjectByName (kernelCircumstances (fun _ => true) linkedDevice) 2
      (rtlInitUnicodeString [backslash, 0x6C]) none .kernelMode 0 = some r ∧
      FreedOnce r.locals.trace ∧ NoReadAfterFree r.locals.trace := by
  have run : (obReferenceObjectByName (kernelCircumstances (fun _ => true) linkedDevice) 2
      (rtlInitUnicodeString [backslash, 0x6C]) none .kernelMode 0).isSome = true := by decide
  obtain ⟨r, returns⟩ := Option.isSome_iff_exists.mp run
  refine ⟨r, returns, (reparse_buffers_freed_once (kernelCircumstances_obey fun _ => rfl) returns).mpr ?_⟩
  have restarts : Restarts (kernelCircumstances (fun _ => true) linkedDevice) 0
      (rtlInitUnicodeString [backslash, 0x6C], 0) (⟨[backslash, 0x64], 4⟩, 2) := ⟨by decide, by decide⟩
  have ends : pathEnd (kernelCircumstances (fun _ => true) linkedDevice) 0 ⟨[backslash, 0x64], 4⟩ 2 = .finish 2 true 2 := by
    decide
  intro later
  rcases (laterFreesTwice_iff restarts).mp later with ⟨_, twice⟩ | twice
  · rw [ends] at twice
    exact Bool.noConfusion twice
  · refine not_laterFreesTwice (fun next again => ?_) twice
    cases ends.symm.trans again.2

end Gr8os.Ob.ReparseBuffers
