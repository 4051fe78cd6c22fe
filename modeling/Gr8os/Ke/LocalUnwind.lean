import Gr8os.Ke.Exception
import Gr8os.Lib.Visits

/-! Local unwinding: the scopes that are left, and the `__finally` blocks that run. -/
namespace Gr8os.Ke.Exceptions

open Visits

def ScopeTable.parent (table : ScopeTable) (level : BitVec 32) : Option (BitVec 32) :=
  (table.entry level).map (·.previousTryLevel)

def ScopeTable.WellFormed (table : ScopeTable) : Prop :=
  ∀ level entry, table.entry level = some entry →
    entry.previousTryLevel = trylevelNone ∨ entry.previousTryLevel.toNat < level.toNat

/-- The `__finally` blocks of the levels, each with the level of the frame while it runs. -/
def ScopeTable.finallyBlocks (table : ScopeTable) (frame : BitVec 32) (levels : List (BitVec 32)) : List Event :=
  levels.filterMap fun level => (table.entry level).bind fun entry =>
    if entry.filter.isNone then some (.finallyBlock frame level entry.previousTryLevel) else none

def Pcb.unwound (s : Pcb) (frame : BitVec 32) (levels : List (BitVec 32)) (level : BitVec 32) : Pcb :=
  { s.setTrylevel frame level with trace := s.trace ++ (s.frames frame).scopeTable.finallyBlocks frame levels }

def Stops (tryLevelPassed level : BitVec 32) : Prop := level = trylevelNone ∨ level.sle tryLevelPassed = true

section unwinding

variable {s t : Pcb} {frame level passed : BitVec 32} {levels : List (BitVec 32)} {entry : ScopeEntry} {fuel : Nat}

@[simp] theorem Pcb.call_frames (s : Pcb) (e : Event) : (s.call e).frames = s.frames := rfl

@[simp] theorem Pcb.setTrylevel_self (s : Pcb) (frame level : BitVec 32) :
    (s.setTrylevel frame level).frames frame = { s.frames frame with trylevel := level } :=
  Function.update_self ..

theorem Pcb.setTrylevel_other {other : BitVec 32} (differs : other ≠ frame) :
    (s.setTrylevel frame level).frames other = s.frames other :=
  Function.update_of_ne differs ..

theorem Pcb.leave_frames (s : Pcb) (frame level : BitVec 32) (entry : ScopeEntry) :
    (s.leave frame level entry).frames = (s.setTrylevel frame entry.previousTryLevel).frames := by
  unfold Pcb.leave
  split <;> rfl

theorem Pcb.unwound_nil (s : Pcb) (frame : BitVec 32) : s.unwound frame [] (s.frames frame).trylevel = s := by
  have same : Function.update s.frames frame { s.frames frame with trylevel := (s.frames frame).trylevel } = s.frames :=
    Function.update_eq_self ..
  unfold Pcb.unwound Pcb.setTrylevel
  rw [same]
  simp [ScopeTable.finallyBlocks]

theorem ScopeTable.finallyBlocks_cons {table : ScopeTable} (here : table.entry level = some entry) :
    table.finallyBlocks frame (level :: levels) =
      (if entry.filter.isNone then [.finallyBlock frame level entry.previousTryLevel] else []) ++
        table.finallyBlocks frame levels := by
  unfold finallyBlocks
  rw [List.filterMap_cons, here, Option.bind_some]
  cases entry.filter with
  | none => rfl
  | some filter => rfl

theorem Pcb.leave_unwound (here : (s.frames frame).scopeTable.entry level = some entry) (last : BitVec 32) :
    (s.leave frame level entry).unwound frame levels last = s.unwound frame (level :: levels) last := by
  unfold Pcb.unwound
  rw [ScopeTable.finallyBlocks_cons here, ← List.append_assoc]
  unfold Pcb.leave
  cases entry.filter with
  | none => simp [Pcb.setTrylevel, Pcb.call]
  | some filter => simp [Pcb.setTrylevel]

theorem localUnwind2_stops (stops : Stops passed (s.frames frame).trylevel) :
    localUnwind2 frame passed (fuel + 1) s = some s := by
  rw [localUnwind2]
  rcases stops with none | above
  · exact if_pos none
  · rw [if_pos above, ite_self]

theorem localUnwind2_leaves (goes : ¬Stops passed (s.frames frame).trylevel) : localUnwind2 frame passed (fuel + 1) s =
    ((s.frames frame).scopeTable.entry (s.frames frame).trylevel).bind fun entry =>
      localUnwind2 frame passed fuel (s.leave frame (s.frames frame).trylevel entry) := by
  obtain ⟨some, inside⟩ := not_or.mp goes
  rw [localUnwind2, if_neg some, if_neg inside]

theorem ScopeTable.parent_eq_some {table : ScopeTable} {outer : BitVec 32} (step : table.parent level = some outer) :
    ∃ entry, table.entry level = some entry ∧ entry.previousTryLevel = outer :=
  Option.map_eq_some_iff.mp step

/-- The levels in front of the first one that stops are left. -/
theorem localUnwind2_of_leads (leads : Leads (s.frames frame).scopeTable.parent (s.frames frame).trylevel levels level)
    (before : ∀ l ∈ levels, ¬Stops passed l) (stops : Stops passed level) (enough : levels.length < fuel) :
    localUnwind2 frame passed fuel s = some (s.unwound frame levels level) := by
  obtain ⟨fuel, rfl⟩ := Nat.exists_eq_succ_of_ne_zero (Nat.ne_of_gt (Nat.lt_of_le_of_lt (Nat.zero_le _) enough))
  induction levels generalizing s fuel with
  | nil =>
    obtain rfl : (s.frames frame).trylevel = level := leads
    rw [localUnwind2_stops stops, Pcb.unwound_nil]
  | cons l levels ih =>
    obtain ⟨rfl, outer, step, rest⟩ := leads
    obtain ⟨goes, later⟩ := List.forall_mem_cons.mp before
    obtain ⟨entry, here, rfl⟩ := ScopeTable.parent_eq_some step
    obtain ⟨fuel, rfl⟩ := Nat.exists_eq_succ_of_ne_zero
      (Nat.ne_of_gt (Nat.lt_of_le_of_lt (Nat.zero_le _) (Nat.lt_of_succ_lt_succ enough)))
    have next : Leads ((s.leave frame (s.frames frame).trylevel entry).frames frame).scopeTable.parent
        ((s.leave frame (s.frames frame).trylevel entry).frames frame).trylevel levels level := by
      rw [Pcb.leave_frames, Pcb.setTrylevel_self]
      exact rest
    rw [localUnwind2_leaves goes, here, Option.bind_some, ih next later fuel (Nat.lt_of_succ_lt_succ enough),
      Pcb.leave_unwound here]

theorem localUnwind2_inv (run : localUnwind2 frame passed fuel s = some t) : ∃ levels level,
    Leads (s.frames frame).scopeTable.parent (s.frames frame).trylevel levels level ∧ (∀ l ∈ levels, ¬Stops passed l) ∧
      Stops passed level ∧ t = s.unwound frame levels level := by
  induction fuel generalizing s with
  | zero => cases run
  | succ fuel ih =>
    by_cases stops : Stops passed (s.frames frame).trylevel
    · rw [localUnwind2_stops stops] at run
      cases run
      exact ⟨[], _, rfl, fun l member => absurd member List.not_mem_nil, stops, (Pcb.unwound_nil ..).symm⟩
    · rw [localUnwind2_leaves stops] at run
      obtain ⟨entry, here, rest⟩ := Option.bind_eq_some_iff.mp run
      obtain ⟨levels, level, leads, before, last, rfl⟩ := ih rest
      rw [Pcb.leave_frames, Pcb.setTrylevel_self] at leads
      refine ⟨_ :: levels, level, ⟨rfl, _, ?_, leads⟩, List.forall_mem_cons.mpr ⟨stops, before⟩, last,
        Pcb.leave_unwound here level⟩
      exact Option.map_eq_some_iff.mpr ⟨entry, here, rfl⟩

end unwinding

section wellFormed

variable {table : ScopeTable} {level outer last : BitVec 32} {levels : List (BitVec 32)}

theorem ScopeTable.inside {entry : ScopeEntry} (here : table.entry level = some entry) :
    level.toNat < table.entries.length := (List.getElem?_eq_some_iff.mp here).1

/-- No table is so long that its last level is negative. -/
theorem ScopeTable.level_small {entry : ScopeEntry} (here : table.entry level = some entry) :
    level.toNat < 357913942 := by
  have inside := table.inside here
  have fits := table.fits
  omega

theorem ScopeTable.parent_none (table : ScopeTable) : table.parent trylevelNone = none := by
  unfold parent
  cases here : table.entry trylevelNone with
  | none => rfl
  | some entry =>
    have small := table.level_small here
    exact absurd small (by decide)

theorem leads_none_nil (leads : Leads table.parent trylevelNone levels last) : levels = [] ∧ last = trylevelNone := by
  cases levels with
  | nil => exact ⟨rfl, Eq.symm leads⟩
  | cons l levels =>
    obtain ⟨-, outer, step, -⟩ := leads
    rw [ScopeTable.parent_none] at step
    cases step

namespace ScopeTable.WellFormed

variable (formed : table.WellFormed)

include formed

theorem parent_lt (step : table.parent level = some outer) : outer = trylevelNone ∨ outer.toNat < level.toNat := by
  obtain ⟨entry, here, rfl⟩ := parent_eq_some step
  exact formed level entry here

theorem leads_le (leads : Leads table.parent level levels last) :
    (last = trylevelNone ∨ last.toNat ≤ level.toNat) ∧ ∀ l ∈ levels, l.toNat ≤ level.toNat := by
  induction levels generalizing level with
  | nil =>
    exact ⟨.inr (Nat.le_of_eq (congrArg BitVec.toNat (Eq.symm leads))), fun l member => absurd member List.not_mem_nil⟩
  | cons l levels ih =>
    obtain ⟨rfl, outer, step, rest⟩ := leads
    rcases formed.parent_lt step with rfl | below
    · obtain ⟨rfl, rfl⟩ := leads_none_nil rest
      exact ⟨.inl rfl, by simp⟩
    · obtain ⟨end_, inner⟩ := ih rest
      refine ⟨end_.imp_right fun le => Nat.le_trans le (Nat.le_of_lt below), ?_⟩
      refine List.forall_mem_cons.mpr ⟨Nat.le_refl _, ?_⟩
      exact fun m member => Nat.le_trans (inner m member) (Nat.le_of_lt below)

theorem last_lt (leads : Leads table.parent level levels last) {l : BitVec 32} (member : l ∈ levels) :
    last = trylevelNone ∨ last.toNat < l.toNat := by
  obtain ⟨_, _, -, -, outer, step, rest⟩ := leads.of_mem member
  rcases formed.parent_lt step with rfl | below
  · exact .inl (leads_none_nil rest).2
  · exact (formed.leads_le rest).1.imp_right fun le => Nat.lt_of_le_of_lt le below

theorem nodup (leads : Leads table.parent level levels last) : levels.Nodup := by
  induction levels generalizing level with
  | nil => exact List.nodup_nil
  | cons l levels ih =>
    obtain ⟨rfl, outer, step, rest⟩ := leads
    refine List.nodup_cons.mpr ⟨fun again => ?_, ih rest⟩
    rcases formed.parent_lt step with rfl | below
    · rw [(leads_none_nil rest).1] at again
      cases again
    · exact absurd ((formed.leads_le rest).2 level again) (Nat.not_le_of_lt below)

theorem leads_none (current : level = trylevelNone ∨ ∃ entry, table.entry level = some entry) :
    ∃ levels, Leads table.parent level levels trylevelNone := by
  generalize bound : level.toNat = n
  induction n using Nat.strongRecOn generalizing level with
  | ind n ih =>
    rcases current with rfl | ⟨entry, here⟩
    · exact ⟨[], rfl⟩
    · have step : table.parent level = some entry.previousTryLevel := Option.map_eq_some_iff.mpr ⟨entry, here, rfl⟩
      rcases formed level entry here with none | below
      · exact ⟨[level], rfl, trylevelNone, none ▸ step, rfl⟩
      · have inside : entry.previousTryLevel.toNat < table.entries.length := Nat.lt_trans below (table.inside here)
        obtain ⟨levels, rest⟩ := ih _ (bound ▸ below) (.inr ⟨_, List.getElem?_eq_getElem inside⟩) rfl
        exact ⟨level :: levels, rfl, _, step, rest⟩

end ScopeTable.WellFormed

/-- A level that is left is in the table, and it lies above the one that is reached. -/
theorem not_stops (formed : table.WellFormed) (leads : Leads table.parent level levels last) {l : BitVec 32}
    (member : l ∈ levels) : ¬Stops last l := by
  obtain ⟨_, _, -, -, outer, step, rest⟩ := leads.of_mem member
  obtain ⟨entry, here, rfl⟩ := ScopeTable.parent_eq_some step
  have small := table.level_small here
  rintro (rfl | le)
  · exact absurd small (by decide)
  · rw [BitVec.sle_iff_toInt_le, BitVec.toInt_eq_toNat_of_lt (by omega)] at le
    rcases formed.last_lt leads member with rfl | below
    · have negative : (trylevelNone).toInt = -1 := rfl
      omega
    · rw [BitVec.toInt_eq_toNat_of_lt (by omega)] at le
      omega

end wellFormed

/-- The levels from the current one on are left in their order up to the one that is passed, each once, and just their
`__finally` blocks run. -/
theorem localUnwind2_runs {s : Pcb} {frame tryLevelPassed : BitVec 32} (formed : (s.frames frame).scopeTable.WellFormed)
    (current : (s.frames frame).trylevel = trylevelNone ∨
      ∃ entry, (s.frames frame).scopeTable.entry (s.frames frame).trylevel = some entry)
    (outer : tryLevelPassed = trylevelNone ∨
      ∃ n, visit (s.frames frame).scopeTable.parent (some (s.frames frame).trylevel) n = some tryLevelPassed) :
    ∃ levels, Leads (s.frames frame).scopeTable.parent (s.frames frame).trylevel levels tryLevelPassed ∧
      levels.Nodup ∧ tryLevelPassed ∉ levels ∧
        ∃ fuel, localUnwind2 frame tryLevelPassed fuel s = some (s.unwound frame levels tryLevelPassed) := by
  have way : ∃ levels, Leads (s.frames frame).scopeTable.parent (s.frames frame).trylevel levels tryLevelPassed := by
    rcases outer with rfl | ⟨n, visited⟩
    · exact formed.leads_none current
    · exact leads_of_visit visited
  obtain ⟨levels, leads⟩ := way
  have apart : tryLevelPassed ∉ levels := fun member => not_stops formed leads member (.inr (by simp [BitVec.sle]))
  have stops : Stops tryLevelPassed tryLevelPassed := .inr (by simp [BitVec.sle])
  exact ⟨levels, leads, formed.nodup leads, apart, levels.length + 1,
    localUnwind2_of_leads leads (fun l member => not_stops formed leads member) stops (Nat.lt_succ_self _)⟩

def threeScopes : ScopeTable where
  entries := [⟨trylevelNone, none⟩, ⟨0, some fun _ => exceptionContinueSearch⟩, ⟨1, none⟩]
  fits := by decide

def inThreeScopes : Pcb where
  exceptionList := 0x1000
  currentException := none
  frames _ := { next := 0, handler := .exceptHandler3, scopeTable := threeScopes, trylevel := 2 }
  trace := []

theorem threeScopes_wellFormed : threeScopes.WellFormed := by
  intro level entry here
  unfold ScopeTable.entry threeScopes at here
  rcases place : level.toNat with _ | _ | _ | n
  all_goals rw [place] at here
  all_goals cases here
  · exact .inl rfl
  · exact .inr (by decide)
  · exact .inr (by decide)

theorem localUnwind2_runs_threeScopes : ∃ levels : List (BitVec 32), levels.Nodup ∧
    ∃ fuel, localUnwind2 0x1000 0 fuel inThreeScopes = some (inThreeScopes.unwound 0x1000 levels 0) := by
  obtain ⟨levels, -, nodup, -, run⟩ :=
    @localUnwind2_runs inThreeScopes 0x1000 0 threeScopes_wellFormed (.inr ⟨_, rfl⟩) (.inr ⟨2, rfl⟩)
  exact ⟨levels, nodup, run⟩

end Gr8os.Ke.Exceptions
