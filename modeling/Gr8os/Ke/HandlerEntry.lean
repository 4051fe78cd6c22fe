import Gr8os.Ke.GlobalUnwind

/-! The try level of a frame when one of its `__except` blocks begins. -/
namespace Gr8os.Ke.Exceptions

open Visits

def Event.frame : Event → BitVec 32
  | handler frame _ => frame
  | finallyBlock frame _ _ => frame

/-- The frame is as it was, and nothing of it was called. -/
structure Spared (s t : Pcb) (frame : BitVec 32) : Prop where
  same : t.frames frame = s.frames frame
  currentException : t.currentException = s.currentException
  trace : ∃ more, t.trace = s.trace ++ more ∧ ∀ e ∈ more, e.frame ≠ frame

section spared

variable {s t u : Pcb} {target frame newFrame flags list : BitVec 32} {args : ExceptionArguments} {fuel : Nat}

theorem Spared.refl (s : Pcb) (frame : BitVec 32) : Spared s s frame where
  same := rfl
  currentException := rfl
  trace := ⟨[], (List.append_nil _).symm, fun _ member => absurd member List.not_mem_nil⟩

theorem Spared.trans (first : Spared s t frame) (second : Spared t u frame) : Spared s u frame where
  same := second.same.trans first.same
  currentException := second.currentException.trans first.currentException
  trace := by
    obtain ⟨front, trace, apart⟩ := first.trace
    obtain ⟨back, trace', apart'⟩ := second.trace
    refine ⟨front ++ back, by rw [trace', trace, List.append_assoc], ?_⟩
    intro e member
    exact (List.mem_append.mp member).elim (apart e) (apart' e)

theorem Called.spared (called : Called s t frame flags) (other : target ≠ frame) :
    Spared s { t with exceptionList := list } target where
  same := called.others target other
  currentException := called.currentException
  trace := by
    obtain ⟨blocks, trace, all⟩ := called.trace
    refine ⟨_, trace, ?_⟩
    rintro e member rfl
    rcases List.mem_cons.mp member with rfl | block
    · exact other rfl
    · obtain ⟨level, trylevel, rfl⟩ := all e block
      exact other rfl

theorem unwindFrames_spared (run : unwindFrames target args fuel s frame newFrame = some (.returns t)) :
    Spared s t target := by
  induction fuel generalizing s frame newFrame with
  | zero => cases run
  | succ fuel ih =>
    by_cases done : frame = 0 ∨ frame = target
    · rw [unwindFrames_done done] at run
      cases run
      exact .refl ..
    · obtain ⟨valid, other⟩ := not_or.mp done
      obtain ⟨value, stored, u, passes, -, rest⟩ := unwindFrames_inv valid other run
      exact (passes.called.spared (Ne.symm other)).trans (ih rest)

end spared

section search

variable {table : ScopeTable} {args : ExceptionArguments} {fuel : Nat} {current level disposition : BitVec 32}

def Passed (table : ScopeTable) (args : ExceptionArguments) (level : BitVec 32) : Prop :=
  ∀ entry filter, table.entry level = some entry → entry.filter = some filter →
    filter args = exceptionContinueSearch

/-- The filter of the scope takes the exception with this answer. -/
structure Selected (table : ScopeTable) (args : ExceptionArguments) (level disposition : BitVec 32) : Prop where
  answer : ∃ entry filter, table.entry level = some entry ∧ entry.filter = some filter ∧ filter args = disposition
  taken : disposition ≠ exceptionContinueSearch

theorem Selected.not_passed (selected : Selected table args level disposition) : ¬Passed table args level := by
  obtain ⟨entry, filter, here, filters, answer⟩ := selected.answer
  intro passed
  exact selected.taken (answer ▸ passed entry filter here filters)

/-- The search goes outwards to the first scope whose filter takes the exception, or out of all scopes. -/
def SearchEnds (table : ScopeTable) (args : ExceptionArguments) (current : BitVec 32) :
    Option (BitVec 32 × BitVec 32) → Prop
  | none => ∃ levels, Leads table.parent current levels trylevelNone ∧ ∀ l ∈ levels, Passed table args l
  | some (level, disposition) =>
    ∃ levels, Leads table.parent current levels level ∧ (∀ l ∈ levels, Passed table args l) ∧
      Selected table args level disposition

theorem SearchEnds.outward {found : Option (BitVec 32 × BitVec 32)} (step : table.parent current = some level)
    (passed : Passed table args current) (ends : SearchEnds table args level found) :
    SearchEnds table args current found := by
  cases found with
  | none =>
    obtain ⟨levels, leads, all⟩ := ends
    exact ⟨current :: levels, ⟨rfl, level, step, leads⟩, List.forall_mem_cons.mpr ⟨passed, all⟩⟩
  | some found =>
    obtain ⟨levels, leads, all, selected⟩ := ends
    exact ⟨current :: levels, ⟨rfl, level, step, leads⟩, List.forall_mem_cons.mpr ⟨passed, all⟩, selected⟩

theorem searchScopes_ends {found : Option (BitVec 32 × BitVec 32)}
    (run : searchScopes table args fuel current = some found) : SearchEnds table args current found := by
  induction fuel generalizing current with
  | zero => cases run
  | succ fuel ih =>
    rw [searchScopes] at run
    by_cases outside : current = trylevelNone
    · rw [if_pos outside] at run
      cases run
      exact ⟨[], outside, fun _ member => absurd member List.not_mem_nil⟩
    · rw [if_neg outside] at run
      obtain ⟨entry, here, rest⟩ := Option.bind_eq_some_iff.mp run
      have step : table.parent current = some entry.previousTryLevel := Option.map_eq_some_iff.mpr ⟨entry, here, rfl⟩
      cases filters : entry.filter with
      | none =>
        rw [filters] at rest
        have passed : Passed table args current := by
          intro entry' filter here' filters'
          cases here.symm.trans here'
          cases filters.symm.trans filters'
        exact (ih rest).outward step passed
      | some filter =>
        rw [filters] at rest
        dsimp only at rest
        by_cases search : filter args = exceptionContinueSearch
        · rw [if_pos search] at rest
          have passed : Passed table args current := by
            intro entry' filter' here' filters'
            cases here.symm.trans here'
            cases filters.symm.trans filters'
            exact search
          exact (ih rest).outward step passed
        · rw [if_neg search] at rest
          cases rest
          exact ⟨[], rfl, fun _ member => absurd member List.not_mem_nil, ⟨entry, filter, here, filters, rfl⟩, search⟩

end search

section blocks

variable {table : ScopeTable} {frame level l : BitVec 32} {levels : List (BitVec 32)} {s t : Pcb}

def ScopeTable.IsFinally (table : ScopeTable) (level : BitVec 32) : Prop :=
  ∃ entry, table.entry level = some entry ∧ entry.filter = none

def Event.isBlock (frame level : BitVec 32) : Event → Bool
  | handler .. => false
  | finallyBlock frame' level' _ => frame' = frame && level' = level

def Pcb.blockRuns (s : Pcb) (frame level : BitVec 32) : Nat := s.trace.countP (Event.isBlock frame level)

theorem Spared.blockRuns (spared : Spared s t frame) (level : BitVec 32) :
    t.blockRuns frame level = s.blockRuns frame level := by
  obtain ⟨more, trace, apart⟩ := spared.trace
  have none : more.countP (Event.isBlock frame level) = 0 := by
    rw [List.countP_eq_zero]
    intro e member
    have other := apart e member
    cases e with
    | handler => exact Bool.false_ne_true
    | finallyBlock frame' => simp [Event.isBlock, show frame' ≠ frame from other]
  unfold Pcb.blockRuns
  rw [trace, List.countP_append, none, Nat.add_zero]

theorem blockRuns_unwound (s : Pcb) (frame level l : BitVec 32) (levels : List (BitVec 32)) :
    (s.unwound frame levels level).blockRuns frame l = s.blockRuns frame l +
      ((s.frames frame).scopeTable.finallyBlocks frame levels).countP (Event.isBlock frame l) :=
  List.countP_append ..

theorem ScopeTable.countP_finallyBlocks_none (apart : l ∉ levels) :
    (table.finallyBlocks frame levels).countP (Event.isBlock frame l) = 0 := by
  rw [List.countP_eq_zero]
  intro e member
  obtain ⟨level, inside, block⟩ := List.mem_filterMap.mp member
  obtain ⟨entry, -, block⟩ := Option.bind_eq_some_iff.mp block
  have other : level ≠ l := fun same => apart (same ▸ inside)
  split at block
  · cases block
    simp [Event.isBlock, other]
  · cases block

theorem ScopeTable.countP_finallyBlocks_one (block : table.IsFinally l) (nodup : levels.Nodup) (member : l ∈ levels) :
    (table.finallyBlocks frame levels).countP (Event.isBlock frame l) = 1 := by
  obtain ⟨entry, here, filter⟩ := block
  obtain ⟨front, back, rfl⟩ := List.append_of_mem member
  obtain ⟨-, back_nodup, apart⟩ := List.nodup_append.mp nodup
  have before : l ∉ front := fun again => apart l again l List.mem_cons_self rfl
  have after : l ∉ back := (List.nodup_cons.mp back_nodup).1
  have parts : table.finallyBlocks frame (front ++ l :: back) =
      table.finallyBlocks frame front ++ table.finallyBlocks frame (l :: back) := List.filterMap_append
  rw [parts, finallyBlocks_cons here, List.countP_append, List.countP_append, countP_finallyBlocks_none before,
    countP_finallyBlocks_none after, filter]
  simp [Event.isBlock]

end blocks

section entry

variable {s t : Pcb} {frame level : BitVec 32} {args : ExceptionArguments} {fuel : Nat}

/-- What the `__except` block of a scope finds: the `__finally` blocks inside of it have run once, and the frame is at
the level around the scope. -/
structure EntersOutside (s t : Pcb) (frame level : BitVec 32) : Prop where
  blocks : ∀ levels, Leads (s.frames frame).scopeTable.parent (s.frames frame).trylevel levels level → level ∉ levels →
    ∀ l ∈ levels, (s.frames frame).scopeTable.IsFinally l → t.blockRuns frame l = s.blockRuns frame l + 1
  trylevel : ∃ entry, (s.frames frame).scopeTable.entry level = some entry ∧
    (t.frames frame).trylevel = entry.previousTryLevel

/-- The first entry of the table has the same scope around it as the entry of the level. -/
def ScopeTable.FirstAgrees (table : ScopeTable) (level : BitVec 32) : Prop :=
  ∃ first entry, table.entries.head? = some first ∧ table.entry level = some entry ∧
    first.previousTryLevel = entry.previousTryLevel

/-- On the way out to the level no `__finally` block comes after a level that is not above it. -/
def ScopeTable.BlocksAbove (table : ScopeTable) (current level : BitVec 32) : Prop :=
  ∀ levels, Leads table.parent current levels level → level ∉ levels →
    ∃ above rest, levels = above ++ rest ∧ (∀ l ∈ above, level.toNat < l.toNat) ∧ ∀ l ∈ rest, ¬table.IsFinally l

theorem exceptHandler3_executes {frame' : BitVec 32}
    (run : exceptHandler3 fuel s args frame = some (.executes frame' level t)) : ∃ disposition levels,
      Leads (s.frames frame).scopeTable.parent (s.frames frame).trylevel levels level ∧
        (∀ l ∈ levels, Passed (s.frames frame).scopeTable args l) ∧
          Selected (s.frames frame).scopeTable args level disposition ∧ disposition ≠ exceptionContinueExecution ∧
            ∃ u v first, Spared s u frame ∧ localUnwind2 frame level fuel u = some v ∧
              (s.frames frame).scopeTable.entries.head? = some first ∧
                t = v.setTrylevel frame first.previousTryLevel := by
  unfold exceptHandler3 at run
  split at run
  · obtain ⟨u, -, differs⟩ := Option.map_eq_some_iff.mp run
    cases differs
  · obtain ⟨found, search, rest⟩ := Option.bind_eq_some_iff.mp run
    have ends := searchScopes_ends search
    cases found with
    | none => cases rest
    | some found =>
      obtain ⟨selected, disposition⟩ := found
      obtain ⟨levels, leads, passed, taken⟩ := ends
      dsimp only at rest
      split at rest
      · cases rest
      · next other =>
        unfold executeHandler at rest
        obtain ⟨unwind, global, rest⟩ := Option.bind_eq_some_iff.mp rest
        cases unwind with
        | raises => cases rest
        | returns u =>
          obtain ⟨v, locally, rest⟩ := Option.bind_eq_some_iff.mp rest
          obtain ⟨first, head, same⟩ := Option.map_eq_some_iff.mp rest
          cases same
          have spared := unwindFrames_spared global
          obtain ⟨_, _, -, -, -, rfl⟩ := localUnwind2_inv locally
          refine ⟨disposition, levels, leads, passed, taken, other, u, _, first, spared, locally, ?_, rfl⟩
          rw [← head, ← spared.same]
          simp [Pcb.unwound]

/-- A level that stops the unwinding and has a scope around it is not above the level that is passed. -/
theorem Stops.not_above {table : ScopeTable} {stop : BitVec 32} {a b : ScopeEntry} (stops : Stops level stop)
    (here : table.entry stop = some a) (there : table.entry level = some b) : ¬level.toNat < stop.toNat := by
  have small := table.level_small here
  have small' := table.level_small there
  rcases stops with rfl | le
  · exact absurd small (by decide)
  · rw [BitVec.sle_iff_toInt_le, BitVec.toInt_eq_toNat_of_lt (by omega), BitVec.toInt_eq_toNat_of_lt (by omega)] at le
    omega

theorem above_of_not_stops {table : ScopeTable} {l : BitVec 32} {b : ScopeEntry} (goes : ¬Stops level l)
    (small : l.toNat < 357913942) (there : table.entry level = some b) : level.toNat < l.toNat := by
  have small' := table.level_small there
  refine Nat.lt_of_not_le fun le => goes (.inr ?_)
  rw [BitVec.sle_iff_toInt_le, BitVec.toInt_eq_toNat_of_lt (by omega), BitVec.toInt_eq_toNat_of_lt (by omega)]
  omega

theorem ScopeTable.BlocksAbove.reached {table : ScopeTable} {current stop l : BitVec 32} {left rest : List (BitVec 32)}
    {entry : ScopeEntry} (above : table.BlocksAbove current level)
    (leads : Leads table.parent current (left ++ rest) level) (apart : level ∉ left ++ rest)
    (tail : Leads table.parent stop rest level) (stops : Stops level stop) (there : table.entry level = some entry)
    (member : l ∈ left ++ rest) (block : table.IsFinally l) : l ∈ left := by
  refine (List.mem_append.mp member).resolve_right fun late => ?_
  obtain ⟨front, back, parts, higher, none⟩ := above _ leads apart
  cases rest with
  | nil => cases late
  | cons x rest =>
    obtain ⟨rfl, outer, step, -⟩ := tail
    obtain ⟨here_entry, here, -⟩ := ScopeTable.parent_eq_some step
    -- The level at which it stops is not above, so all that follows it lies behind.
    rcases List.append_eq_append_iff.mp parts with ⟨middle, rfl, same⟩ | ⟨middle, rfl, rfl⟩
    · cases middle with
      | nil =>
        rw [List.nil_append] at same
        exact none l (same ▸ late) block
      | cons y middle =>
        obtain ⟨rfl, -⟩ := List.cons.inj same
        exact stops.not_above here there (higher stop (List.mem_append_right left List.mem_cons_self))
    · exact none l (List.mem_append_right middle late) block

/-- An `__except` block begins outside of its scope just if the first entry of the table happens to tell what is around
the scope, and no `__finally` block is missed by the comparison of levels. -/
theorem entersOutside_iff {frame' : BitVec 32}
    (run : exceptHandler3 fuel s args frame = some (.executes frame' level t)) : EntersOutside s t frame level ↔
      (s.frames frame).scopeTable.FirstAgrees level ∧
        (s.frames frame).scopeTable.BlocksAbove (s.frames frame).trylevel level := by
  obtain ⟨disposition, levels, leads, passed, selected, -, u, v, first, spared, locally, head, rfl⟩ :=
    exceptHandler3_executes run
  obtain ⟨entry, -, there, -, -⟩ := selected.answer
  have apart : level ∉ levels := fun member => selected.not_passed (passed level member)
  obtain ⟨left, stop, way, goes, stops, rfl⟩ := localUnwind2_inv locally
  rw [spared.same] at way
  -- The unwinding stops on the way to the level, or at the level.
  have unpassed : level ∉ left := fun member => goes level member (.inr (by simp [BitVec.sle]))
  obtain ⟨rest, rfl, tail⟩ := leads.prefix_of way unpassed
  have nodup := List.nodup_append.mp (leads.nodup apart)
  have runs : ∀ l, ((u.unwound frame left stop).setTrylevel frame first.previousTryLevel).blockRuns frame l =
      s.blockRuns frame l + ((s.frames frame).scopeTable.finallyBlocks frame left).countP (Event.isBlock frame l) := by
    intro l
    rw [← spared.blockRuns, ← spared.same]
    exact blockRuns_unwound u frame stop l left
  have trylevel : (((u.unwound frame left stop).setTrylevel frame first.previousTryLevel).frames frame).trylevel =
      first.previousTryLevel := by
    rw [Pcb.setTrylevel_self]
  constructor
  · intro enters
    obtain ⟨entry', there', level_eq⟩ := enters.trylevel
    rw [trylevel] at level_eq
    refine ⟨⟨first, entry', head, there', level_eq⟩, ?_⟩
    intro levels leads' apart'
    refine ⟨left, rest, leads'.unique_way leads apart' apart, ?_, ?_⟩
    · intro l member
      obtain ⟨_, _, -, -, outer, step, -⟩ := way.of_mem member
      obtain ⟨entry', here, -⟩ := ScopeTable.parent_eq_some step
      exact above_of_not_stops (goes l member) (ScopeTable.level_small here) there
    · intro l member block
      have once := enters.blocks _ leads apart l (List.mem_append_right left member) block
      rw [runs, ScopeTable.countP_finallyBlocks_none fun again => nodup.2.2 l again l member rfl] at once
      omega
  · rintro ⟨⟨first', entry', head', there', agrees⟩, above⟩
    cases head.symm.trans head'
    refine ⟨?_, entry', there', trylevel.trans agrees⟩
    intro levels leads' apart' l member block
    obtain rfl := leads'.unique_way leads apart' apart
    have reached := above.reached leads apart tail stops there member block
    rw [runs, ScopeTable.countP_finallyBlocks_one block nodup.1 reached]

/-- Where scopes are numbered from outside, no block is missed. -/
theorem ScopeTable.WellFormed.blocksAbove {table : ScopeTable} {entry : ScopeEntry} (formed : table.WellFormed)
    (here : table.entry level = some entry) (current : BitVec 32) : table.BlocksAbove current level := by
  intro levels leads _
  refine ⟨levels, [], (List.append_nil levels).symm, ?_, fun l member => absurd member List.not_mem_nil⟩
  intro l member
  refine (formed.last_lt leads member).resolve_left ?_
  rintro rfl
  exact absurd (ScopeTable.level_small here) (by decide)

/-- Where scopes are numbered from outside, the first one is outside of all others. -/
theorem ScopeTable.WellFormed.firstAgrees_iff {table : ScopeTable} {entry : ScopeEntry} (formed : table.WellFormed)
    (here : table.entry level = some entry) :
    table.FirstAgrees level ↔ entry.previousTryLevel = trylevelNone := by
  have inside : 0 < table.entries.length := Nat.lt_of_le_of_lt (Nat.zero_le _) (table.inside here)
  have start : table.entry 0 = some table.entries[0] := List.getElem?_eq_getElem inside
  have head : table.entries.head? = some table.entries[0] := by
    rw [List.head?_eq_getElem?]
    exact start
  have outermost : table.entries[0].previousTryLevel = trylevelNone :=
    (formed 0 _ start).resolve_right (Nat.not_lt_zero _)
  constructor
  · rintro ⟨first, entry', first_eq, here', agrees⟩
    cases head.symm.trans first_eq
    cases here.symm.trans here'
    exact agrees.symm.trans outermost
  · intro outside
    exact ⟨_, entry, head, here, outermost.trans outside.symm⟩

end entry

def executes : ExceptionArguments → BitVec 32 := fun _ => exceptionExecuteHandler

def twoScopes (trylevel : BitVec 32) : Pcb where
  exceptionList := 0x1000
  currentException := none
  frames _ := {
    next := 0
    handler := .exceptHandler3
    scopeTable := ⟨[⟨trylevelNone, some executes⟩, ⟨0, some executes⟩], by decide⟩
    trylevel }
  trace := []

def divisionByZero : ExceptionArguments := { exceptionCode := 0xC0000094, flags := 0 }

theorem twoScopes_outer : ∃ t, exceptHandler3 4 (twoScopes 0) divisionByZero 0x1000 = some (.executes 0x1000 0 t) ∧
    EntersOutside (twoScopes 0) t 0x1000 0 := by
  have run : exceptHandler3 4 (twoScopes 0) divisionByZero 0x1000 = some (.executes 0x1000 0 _) := rfl
  refine ⟨_, run, (entersOutside_iff run).mpr ⟨⟨_, _, rfl, rfl, rfl⟩, ?_⟩⟩
  intro levels leads apart
  cases levels with
  | nil =>
    refine ⟨[], [], rfl, ?_, ?_⟩
    · exact fun l member => absurd member List.not_mem_nil
    · exact fun l member => absurd member List.not_mem_nil
  | cons l levels =>
    obtain ⟨rfl, -⟩ := leads
    exact absurd List.mem_cons_self apart

/-- The `__except` block of the inner scope begins outside of the outer scope as well. -/
theorem twoScopes_inner : ∃ t, exceptHandler3 4 (twoScopes 1) divisionByZero 0x1000 = some (.executes 0x1000 1 t) ∧
    (t.frames 0x1000).trylevel = trylevelNone ∧ ¬EntersOutside (twoScopes 1) t 0x1000 1 := by
  refine ⟨_, rfl, rfl, ?_⟩
  rintro ⟨-, entry, here, level⟩
  cases here
  cases level

end Gr8os.Ke.Exceptions
