import Gr8os.Kd.Receive
import Gr8os.Lib.FirstRun

/-! Where a packet header begins: KdpReceivePacketLeader as a search for four equal leader bytes, and what its caller does
with its answers. -/
namespace Gr8os.Kd

open FirstRun

def Leads (e : PortByte) : Prop := e = .success PACKET_LEADER_BYTE ∨ e = .success CONTROL_PACKET_LEADER_BYTE

/-- A break-in, or nothing on the line. -/
def Breaks (e : PortByte) : Prop := e = .noData ∨ e = .success BREAKIN_PACKET_BYTE

def leaderOf (e : PortByte) : BitVec 32 := if e = .success PACKET_LEADER_BYTE then PACKET_LEADER else CONTROL_PACKET_LEADER

/-- Four consecutive equal leader bytes come before any break-in byte and any time without data. -/
def Recognised (line : List PortByte) (e : PortByte) (rest : List PortByte) : Prop :=
  ∃ before, line = before ++ List.replicate 4 e ++ rest ∧ Leads e ∧ (∀ e ∈ before, ¬Breaks e) ∧
    ∀ before' e' rest', line = before' ++ List.replicate 4 e' ++ rest' → Leads e' → before.length ≤ before'.length

/-- There is no data before there has been a leader or a break-in. -/
def FallsSilent (line rest : List PortByte) : Prop := Stopped Leads Breaks 4 line .noData rest

section recogniser

variable {index : Nat} {prevByte : BitVec 8} {line rest : List PortByte} {w : BitVec 32}

theorem recognised_iff {e : PortByte} : Recognised line e rest ↔ Found Leads Breaks 4 line e rest := found_iff.symm

theorem leads_quiet {e : PortByte} (leads : Leads e) : ¬Breaks e := by
  rcases leads with rfl | rfl <;> simp [Breaks, PACKET_LEADER_BYTE, CONTROL_PACKET_LEADER_BYTE, BREAKIN_PACKET_BYTE]

/-- What the variables of the loop stand for: so many bytes of the last kind, as a part of the line. -/
def seen (index : Nat) (prevByte : BitVec 8) (line : List PortByte) : List PortByte :=
  List.replicate index (.success prevByte) ++ line

/-- The answers of the loop, by what is found in the bytes seen and those to come. -/
structure Answers (answer : Option (LeaderCode × List PortByte)) (line : List PortByte) : Prop where
  received : ∀ w rest, answer = some (.received w, rest) ↔ ∃ e, Found Leads Breaks 4 line e rest ∧ w = leaderOf e
  timeout : ∀ rest, answer = some (.timeout, rest) ↔ Stopped Leads Breaks 4 line .noData rest

theorem answers_congr {answer : Option (LeaderCode × List PortByte)} {line line' : List PortByte}
    (answers : Answers answer line)
    (found : ∀ e rest, Found Leads Breaks 4 line' e rest ↔ Found Leads Breaks 4 line e rest)
    (stopped : ∀ rest, Stopped Leads Breaks 4 line' .noData rest ↔ Stopped Leads Breaks 4 line .noData rest) :
    Answers answer line' := by
  constructor
  · intro w rest
    rw [answers.received]
    simp only [found]
  · intro rest
    rw [answers.timeout, stopped]

theorem answers_cons {answer : Option (LeaderCode × List PortByte)} {e : PortByte} (other : ¬Leads e) (quiet : ¬Breaks e)
    (answers : Answers answer line) : Answers answer (e :: line) :=
  answers_congr answers (fun _ _ => found_cons_iff quiet (noRun_nonleader (by decide) other))
    fun _ => stopped_cons_iff quiet (noRun_nonleader (by decide) other)

theorem answers_skip {answer : Option (LeaderCode × List PortByte)} {e : PortByte} (few : index < 4)
    (leads : index ≠ 0 → Leads (.success prevByte)) (other : index ≠ 0 → e ≠ .success prevByte)
    (answers : Answers answer (e :: line)) : Answers answer (seen index prevByte (e :: line)) := by
  by_cases none : index = 0
  · subst none
    exact answers
  · exact answers_congr answers (fun _ _ => found_skip (fun _ => leads_quiet (leads none)) few (other none))
      fun _ => stopped_skip (fun _ => leads_quiet (leads none)) few (other none)

theorem answers_stop {e : PortByte} {code : LeaderCode} (stops : Breaks e) (other : ¬Leads e)
    (received : ∀ w, code ≠ .received w) (timeout : code = .timeout ↔ e = .noData) :
    Answers (some (code, line)) (e :: line) := by
  constructor
  · intro w rest
    constructor
    · intro same
      exact absurd (Prod.mk.inj (Option.some.inj same)).1 (received w)
    · rintro ⟨e', found, _⟩
      exact absurd found (not_found_of_stop (by decide) stops other)
  · intro rest
    rw [stopped_of_stop stops, Option.some.injEq, Prod.mk.injEq, timeout]
    exact ⟨fun both => ⟨both.1.symm, both.2.symm⟩, fun both => ⟨both.1.symm, both.2.symm⟩⟩

theorem answers_run {e : PortByte} (leads : Leads e) :
    Answers (some (.received (leaderOf e), line)) (List.replicate 4 e ++ line) := by
  constructor
  · intro w rest
    constructor
    · intro same
      obtain ⟨code, rfl⟩ := Prod.mk.inj (Option.some.inj same)
      cases code
      exact ⟨e, .here leads, rfl⟩
    · rintro ⟨e', found, rfl⟩
      obtain ⟨rfl, rfl⟩ := (found_run (by decide) leads).mp found
      rfl
  · intro rest
    exact iff_of_false (fun same => nomatch same) (not_stopped_run leads (by decide) (leads_quiet leads))

theorem answers_end (few : index < 4) (leads : index ≠ 0 → Leads (.success prevByte)) :
    Answers none (seen index prevByte []) := by
  have quiet : ∀ e ∈ seen index prevByte [], ¬Breaks e := by
    intro e member
    rw [seen, List.append_nil] at member
    obtain ⟨some, rfl⟩ := List.mem_replicate.mp member
    exact leads_quiet (leads some)
  have short : (seen index prevByte []).length < 4 := by
    rw [seen, List.append_nil, List.length_replicate]
    exact few
  constructor
  · intro w rest
    constructor
    · intro same
      cases same
    · rintro ⟨e, found, _⟩
      exact absurd found (not_found_short short)
  · intro rest
    exact iff_of_false (fun same => nomatch same) (not_stopped_quiet quiet)

theorem seen_succ : seen index prevByte (.success prevByte :: line) = seen (index + 1) prevByte line := by
  rw [seen, seen, List.replicate_succ', List.append_assoc, List.singleton_append]

theorem leads_iff {byte : BitVec 8} :
    Leads (.success byte) ↔ (byte = PACKET_LEADER_BYTE || byte = CONTROL_PACKET_LEADER_BYTE) = true := by
  simp [Leads]

theorem answers_leader {byte : BitVec 8} (few : index < 4) (leads : index ≠ 0 → Leads (.success prevByte))
    (here : Leads (.success byte))
    (more : ∀ i < 4, Answers (kdpReceivePacketLeader i byte false line) (seen i byte line)) :
    Answers (kdpReceivePacketLeader index prevByte false (.success byte :: line))
      (seen index prevByte (.success byte :: line)) := by
  have isLeader := leads_iff.mp here
  rw [kdpReceivePacketLeader]
  simp only [isLeader, Bool.not_true, Bool.false_eq_true, if_false, if_true]
  have fresh := more 1 (by decide)
  by_cases none : index = 0
  · subst none
    exact fresh
  · by_cases same : byte = prevByte
    · subst same
      rw [seen_succ]
      simp only [none, if_false, if_true]
      by_cases unfinished : index + 1 < 4
      · rw [if_pos unfinished]
        exact more (index + 1) unfinished
      · obtain rfl : index = 3 := by omega
        have run := @answers_run line _ here
        simpa [leaderOf, seen] using run
    · simp only [none, same, if_false]
      refine answers_skip few leads (fun _ equal => same (PortByte.success.inj equal)) ?_
      exact fresh

theorem answers_other {byte : BitVec 8} (few : index < 4) (leads : index ≠ 0 → Leads (.success prevByte))
    (other : ¬Leads (.success byte)) (rest : Answers (kdpReceivePacketLeader 0 prevByte false line) line) :
    Answers (kdpReceivePacketLeader index prevByte false (.success byte :: line))
      (seen index prevByte (.success byte :: line)) := by
  have isLeader := Bool.eq_false_iff.mpr (mt leads_iff.mpr other)
  rw [kdpReceivePacketLeader]
  simp only [isLeader, Bool.not_false, Bool.false_eq_true, if_false, if_true]
  refine answers_skip few leads (fun some same => ?_) ?_
  · rw [same] at other
    exact other (leads some)
  · by_cases breakin : byte = BREAKIN_PACKET_BYTE
    · simp only [breakin, decide_true, if_true]
      rw [breakin] at other
      exact answers_stop (Or.inr rfl) other (by simp) (by simp)
    · simp only [breakin, decide_false, Bool.false_eq_true, if_false]
      exact answers_cons other (by simp [Breaks, breakin]) rest

/-- One lemma for the loop: its variables stand for the bytes of the run that it is in. -/
theorem kdpReceivePacketLeader_answers (few : index < 4) (leads : index ≠ 0 → Leads (.success prevByte)) :
    Answers (kdpReceivePacketLeader index prevByte false line) (seen index prevByte line) := by
  induction line generalizing index prevByte with
  | nil => exact answers_end few leads
  | cons e line ih =>
    have again := @ih 0 prevByte (by decide) (fun some => absurd rfl some)
    cases e with
    | noData =>
      refine answers_skip (e := .noData) few leads (by simp) ?_
      exact answers_stop (Or.inl rfl) (by simp [Leads]) (by simp) (by simp)
    | error =>
      refine answers_skip (e := .error) few leads (by simp) ?_
      exact answers_cons (by simp [Leads]) (by simp [Breaks]) again
    | success byte =>
      by_cases here : Leads (.success byte)
      · exact answers_leader few leads here fun i less => ih less fun _ => here
      · exact answers_other few leads here again

theorem received_iff : kdpReceivePacketLeader 0 0 false line = some (.received w, rest) ↔
    ∃ e, Recognised line e rest ∧ w = leaderOf e := by
  have answers := @kdpReceivePacketLeader_answers 0 0 line (by decide)
    (fun some => absurd rfl some)
  simp only [recognised_iff]
  exact answers.received w rest

theorem timeout_iff : kdpReceivePacketLeader 0 0 false line = some (.timeout, rest) ↔ FallsSilent line rest := by
  have answers := @kdpReceivePacketLeader_answers 0 0 line (by decide)
    (fun some => absurd rfl some)
  exact answers.timeout rest

end recogniser

section caller

variable (c : Caller) (s : Receiving) (line : List PortByte)

/-- The leader that a header is read for, and where on the line its fields begin. Only a break-in keeps the caller from
reading one. -/
def headerFrom : Option (BitVec 32 × List PortByte) :=
  match kdpReceivePacketLeader 0 0 false line with
  | none => none
  | some (.resend, _) => none
  | some (.timeout, line) => some (s.packetLeader, line)
  | some (.received packetLeader, line) => some (packetLeader, line)

theorem receiveFront_header {packetLeader : BitVec 32} {rest : List PortByte}
    (header : headerFrom s line = some (packetLeader, rest)) :
    receiveFront c s line = receiveFields c s packetLeader rest := by
  rw [headerFrom] at header
  rw [receiveFront]
  cases answer : kdpReceivePacketLeader 0 0 false line with
  | none =>
    rw [answer] at header
    cases header
  | some found =>
    obtain ⟨code, left⟩ := found
    rw [answer] at header
    cases code with
    | resend => cases header
    | timeout =>
      cases header
      rfl
    | received leader =>
      cases header
      rfl

theorem receiveFront_no_header (none : headerFrom s line = none) :
    receiveFront c s line = .waits ∨ ∃ rest, receiveFront c s line = .turns (turnOn c s .breakIn) s.packetLeader rest := by
  rw [headerFrom] at none
  rw [receiveFront]
  cases answer : kdpReceivePacketLeader 0 0 false line with
  | none => exact Or.inl rfl
  | some found =>
    obtain ⟨code, left⟩ := found
    rw [answer] at none
    cases code with
    | resend => exact Or.inr ⟨left, rfl⟩
    | timeout => cases none
    | received leader => cases none

/-- The states and lines that the turns of the loop begin with. -/
def turnStarts : Nat → Receiving → List PortByte → List (Receiving × List PortByte)
  | 0, _, _ => []
  | turns + 1, s, line =>
    (s, line) ::
      match (receiveTurn c s line).ends with
      | none => []
      | some (t, packetLeader, line) =>
        match t.result with
        | some _ => []
        | none => turnStarts turns { ids := t.ids, packetType := t.packetType, packetLeader } line

/-- The fields of a header are read only behind the four bytes of its leader. -/
def Synchronised (p : Receiving × List PortByte) : Prop :=
  ∀ packetLeader rest, headerFrom p.1 p.2 = some (packetLeader, rest) →
    ∃ e, Recognised p.2 e rest ∧ packetLeader = leaderOf e

theorem synchronised_iff : Synchronised (s, line) ↔ ¬∃ rest, FallsSilent line rest := by
  unfold Synchronised headerFrom
  constructor
  · rintro only ⟨rest, silent⟩
    have answer := timeout_iff.mpr silent
    obtain ⟨e, recognised, leader⟩ := only s.packetLeader rest (by simp only [answer])
    have other := received_iff.mpr ⟨e, recognised, rfl⟩
    rw [answer] at other
    cases other
  · intro never packetLeader rest header
    dsimp only at header
    split at header
    · cases header
    · cases header
    · rename_i answer
      exact absurd ⟨_, timeout_iff.mp answer⟩ never
    · rename_i answer
      cases header
      exact received_iff.mp answer

end caller

/-- The search finds the first four equal leader bytes. Its caller reads a header only behind these just where no turn
has its line fall silent before. -/
theorem frame_synchronisation_iff (c : Caller) (turns : Nat) (s : Receiving) (line : List PortByte) :
    (∀ w rest, kdpReceivePacketLeader 0 0 false line = some (.received w, rest) ↔
      ∃ e, Recognised line e rest ∧ w = leaderOf e) ∧
    ((∀ p ∈ turnStarts c turns s line, Synchronised p) ↔
      ∀ p ∈ turnStarts c turns s line, ¬∃ rest, FallsSilent p.2 rest) :=
  ⟨fun _ _ => received_iff, forall₂_congr fun p _ => synchronised_iff p.1 p.2⟩

def quietCaller : Caller where
  messageHeader := none
  messageData := none
  nullMemory _ := 0

def waiting : Receiving where
  ids := { packetIdExpected := 0x80800000, nextPacketIdToSend := 0x80800800 }
  packetType := 2
  packetLeader := 0

def garbage : List PortByte := [.noData, .success 7, .success 0]

theorem garbage_read_as_header : ¬∀ p ∈ turnStarts quietCaller 1 waiting garbage, Synchronised p := by
  intro all
  have first := all (waiting, garbage) (List.mem_cons_self ..)
  exact (synchronised_iff waiting garbage).mp first ⟨_, .here (Or.inl rfl)⟩

end Gr8os.Kd
