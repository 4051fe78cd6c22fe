import Gr8os.Status
import Mathlib.Data.List.TakeWhile

/-! Reading from a serial port. The waits count their iterations in a byte. -/
namespace Gr8os.Hal

def comportDataready : BitVec 8 := 0x01
def comportReaderError : BitVec 8 := 0x0E
def comportReader : BitVec 8 := comportDataready ||| comportReaderError

/-- How a wait for data ends. The polls that are left follow the one that found data. -/
inductive Wait
  | ready (state : BitVec 8) (polls : List (BitVec 8))
  | timedOut
deriving DecidableEq, Repr

/-- The wait for the first byte. It goes on as long as there are polls. -/
def waitFirst : BitVec 8 → List (BitVec 8) → Option Wait
  | _, [] => none
  | iterations, poll :: polls =>
    let state := poll &&& comportReader
    if state &&& comportDataready ≠ 0 then some (.ready state polls)
    else if iterations.toNat > 400 then some .timedOut
    else waitFirst (iterations + 1) polls

def waitNext : BitVec 8 → List (BitVec 8) → Option Wait
  | _, [] => none
  | iterations, state :: polls =>
    if state &&& comportDataready ≠ 0 then some (.ready state polls)
    else if (iterations + 1).toNat = 400 then some .timedOut
    else waitNext (iterations + 1) polls

/-- A byte that was read and stored, and the state of the port before that. -/
structure Received where
  state : BitVec 8
  byte : BitVec 8
deriving DecidableEq, Repr

structure ComRead where
  status : Status
  dataSize : Nat
  stored : List Received
deriving DecidableEq, Repr

/-- The loop over the bytes still to be read, from a place in the buffer on. -/
def readBytes (data : Nat → BitVec 8) (dataSize : Nat) :
    Nat → Nat → BitVec 8 → List (BitVec 8) → List Received → Option ComRead
  | 0, _, _, _, stored => some ⟨.success, dataSize, stored⟩
  | left + 1, datapos, state, polls, stored =>
    let stored := stored ++ [⟨state, data datapos⟩]
    if state &&& comportReaderError ≠ 0 then some ⟨.partialCompletion, datapos, stored⟩
    else if datapos + 1 = dataSize then some ⟨.success, dataSize, stored⟩
    else
      match waitNext 0 polls with
      | none => none
      | some .timedOut => some ⟨.partialCompletion, datapos, stored⟩
      | some (.ready state polls) => readBytes data dataSize left (datapos + 1) state polls stored

def halReadComPort (data : Nat → BitVec 8) (dataSize : Nat) (polls : List (BitVec 8)) : Option ComRead :=
  match waitFirst 0 polls with
  | none => none
  | some .timedOut => some ⟨.deviceNotReady, dataSize, []⟩
  | some (.ready state polls) => readBytes data dataSize dataSize 0 state polls []

section waits

variable {polls : List (BitVec 8)} {iterations : BitVec 8}

def dataReady (poll : BitVec 8) : Bool := poll &&& comportDataready ≠ 0

def Faulty (poll : BitVec 8) : Prop := dataReady poll = true ∧ poll &&& comportReaderError ≠ 0

theorem masked_ready (poll : BitVec 8) : poll &&& comportReader &&& comportDataready = poll &&& comportDataready := by
  rw [BitVec.and_assoc]
  rfl

theorem masked_error (poll : BitVec 8) :
    poll &&& comportReader &&& comportReaderError = poll &&& comportReaderError := by
  rw [BitVec.and_assoc]
  rfl

/-- A byte never exceeds the limit, and the wait ends where data is ready. -/
theorem waitFirst_eq (polls : List (BitVec 8)) (iterations : BitVec 8) : waitFirst iterations polls =
    (polls.dropWhile (!dataReady ·)).head?.map fun poll =>
      .ready (poll &&& comportReader) (polls.dropWhile (!dataReady ·)).tail := by
  induction polls generalizing iterations with
  | nil => rfl
  | cons poll polls ih =>
    have short : ¬iterations.toNat > 400 := by omega
    rw [waitFirst, if_neg short, masked_ready, List.dropWhile_cons]
    by_cases ready : poll &&& comportDataready ≠ 0
    · rw [if_pos ready, if_neg (by simpa [dataReady] using ready)]
      rfl
    · rw [if_neg ready, if_pos (by simpa [dataReady] using ready)]
      exact ih (iterations + 1)

theorem waitNext_eq (polls : List (BitVec 8)) (iterations : BitVec 8) : waitNext iterations polls =
    (polls.dropWhile (!dataReady ·)).head?.map fun poll => .ready poll (polls.dropWhile (!dataReady ·)).tail := by
  induction polls generalizing iterations with
  | nil => rfl
  | cons poll polls ih =>
    have short : ¬(iterations + 1).toNat = 400 := by omega
    rw [waitNext, if_neg short, List.dropWhile_cons]
    by_cases ready : poll &&& comportDataready ≠ 0
    · rw [if_pos ready, if_neg (by simpa [dataReady] using ready)]
      rfl
    · rw [if_neg ready, if_pos (by simpa [dataReady] using ready)]
      exact ih (iterations + 1)

/-- What is skipped before the first poll that finds data counts for nothing. -/
theorem dropWhile_empty (none : polls.dropWhile (!dataReady ·) = []) :
    polls.countP dataReady = 0 ∧ ¬∃ poll ∈ polls, Faulty poll := by
  have all := List.dropWhile_eq_nil_iff.mp none
  refine ⟨List.countP_eq_zero.mpr fun poll member => by simpa using all poll member, ?_⟩
  rintro ⟨poll, member, ready, -⟩
  exact absurd (all poll member) (by simp [ready])

theorem dropWhile_found {poll : BitVec 8} {rest : List (BitVec 8)}
    (found : polls.dropWhile (!dataReady ·) = poll :: rest) :
    dataReady poll = true ∧ polls.countP dataReady = rest.countP dataReady + 1 ∧
      ((∃ p ∈ polls, Faulty p) ↔ Faulty poll ∨ ∃ p ∈ rest, Faulty p) := by
  induction polls with
  | nil => cases found
  | cons first polls ih =>
    rw [List.dropWhile_cons] at found
    cases ready : dataReady first with
    | true =>
      rw [ready] at found
      cases found
      exact ⟨ready, List.countP_cons_of_pos ready, by simp⟩
    | false =>
      rw [ready] at found
      obtain ⟨last, count, faults⟩ := ih found
      refine ⟨last, ?_, ?_⟩
      · rw [List.countP_cons_of_neg (by simp [ready]), count]
      · rw [← faults]
        simp [Faulty, ready]

end waits

section reading

variable {data : Nat → BitVec 8} {dataSize left datapos : Nat} {state : BitVec 8} {polls : List (BitVec 8)}
  {stored : List Received} {r : ComRead}

/-- The bytes that are stored came from the port in this order, without an error. -/
def Received.Valid (data : Nat → BitVec 8) (stored : List Received) : Prop :=
  ∀ k rec, stored[k]? = some rec → rec.byte = data k ∧ rec.state &&& comportReaderError = 0

/-- The size that is returned counts the bytes without an error, and these are the first bytes of the buffer. -/
structure ComRead.Truthful (data : Nat → BitVec 8) (r : ComRead) : Prop where
  count : r.dataSize = r.stored.countP fun rec => rec.state &&& comportReaderError = 0
  stored : r.dataSize ≤ r.stored.length
  valid : Received.Valid data (r.stored.take r.dataSize)

theorem Received.Valid.concat (valid : Valid data stored) (clean : state &&& comportReaderError = 0) :
    Valid data (stored ++ [⟨state, data stored.length⟩]) := by
  intro k rec here
  rcases Nat.lt_trichotomy k stored.length with before | rfl | after
  · rw [List.getElem?_append_left before] at here
    exact valid k rec here
  · rw [List.getElem?_concat_length] at here
    cases here
    exact ⟨rfl, clean⟩
  · rw [List.getElem?_eq_none (by simpa using Nat.succ_le_of_lt after)] at here
    cases here

theorem Received.Valid.countP (valid : Valid data stored) :
    stored.countP (fun rec => rec.state &&& comportReaderError = 0) = stored.length := by
  rw [List.countP_eq_length]
  intro rec member
  obtain ⟨k, here⟩ := List.getElem?_of_mem member
  simpa using (valid k rec here).2

theorem ComRead.Truthful.all {status : Status} (valid : Received.Valid data stored) (full : stored.length = dataSize) :
    ComRead.Truthful data ⟨status, dataSize, stored⟩ where
  count := full ▸ valid.countP.symm
  stored := Nat.le_of_eq full.symm
  valid := by
    change Received.Valid data (stored.take dataSize)
    rwa [← full, List.take_length]

theorem ComRead.Truthful.faulty {status : Status} (valid : Received.Valid data stored)
    (fault : state &&& comportReaderError ≠ 0) (byte : BitVec 8) :
    ComRead.Truthful data ⟨status, stored.length, stored ++ [⟨state, byte⟩]⟩ where
  count := by
    rw [List.countP_append, valid.countP, List.countP_singleton, if_neg (by simpa using fault), Nat.add_zero]
  stored := by simp
  valid := by
    change Received.Valid data ((stored ++ [(⟨state, byte⟩ : Received)]).take stored.length)
    rwa [List.take_left]

theorem readBytes_truthful (valid : Received.Valid data stored) (place : stored.length = datapos)
    (total : datapos + left = dataSize) (run : readBytes data dataSize left datapos state polls stored = some r) :
    ComRead.Truthful data r := by
  induction left generalizing datapos state polls stored with
  | zero =>
    cases run
    exact .all valid (by omega)
  | succ left ih =>
    subst place
    rw [readBytes] at run
    by_cases fault : state &&& comportReaderError ≠ 0
    · rw [if_pos fault] at run
      cases run
      exact .faulty valid fault _
    · rw [if_neg fault] at run
      have more := valid.concat (Decidable.of_not_not fault)
      by_cases last : stored.length + 1 = dataSize
      · rw [if_pos last] at run
        cases run
        exact .all more (by simpa using last)
      · rw [if_neg last, waitNext_eq] at run
        cases found : polls.dropWhile (!dataReady ·) with
        | nil =>
          rw [found] at run
          cases run
        | cons poll rest =>
          rw [found] at run
          exact ih more (by simp) (by omega) run

theorem readBytes_returns (total : datapos + (left + 1) = dataSize) :
    (∃ r, readBytes data dataSize (left + 1) datapos state polls stored = some r) ↔
      left ≤ polls.countP dataReady ∨ state &&& comportReaderError ≠ 0 ∨ ∃ p ∈ polls, Faulty p := by
  induction left generalizing datapos state polls stored with
  | zero =>
    refine iff_of_true ?_ (.inl (Nat.zero_le _))
    rw [readBytes]
    by_cases fault : state &&& comportReaderError ≠ 0
    · rw [if_pos fault]
      exact ⟨_, rfl⟩
    · rw [if_neg fault, if_pos total]
      exact ⟨_, rfl⟩
  | succ left ih =>
    rw [readBytes]
    by_cases fault : state &&& comportReaderError ≠ 0
    · rw [if_pos fault]
      exact iff_of_true ⟨_, rfl⟩ (.inr (.inl fault))
    · rw [if_neg fault, if_neg (by omega), waitNext_eq, or_iff_right fault]
      cases found : polls.dropWhile (!dataReady ·) with
      | nil =>
        obtain ⟨none, clean⟩ := dropWhile_empty found
        rw [none]
        refine iff_of_false ?_ ?_
        · rintro ⟨r, run⟩
          cases run
        · rintro (few | fault)
          · exact absurd few (by omega)
          · exact clean fault
      | cons poll rest =>
        obtain ⟨ready, count, faults⟩ := dropWhile_found found
        have error : Faulty poll ↔ poll &&& comportReaderError ≠ 0 := and_iff_right ready
        rw [count, faults, error, Nat.succ_le_succ_iff]
        exact ih (by omega)

end reading

/-- The port is polled so often at most, and what is returned is true. -/
def ReturnsWithin (status data : Nat → BitVec 8) (dataSize polls : Nat) : Prop :=
  ∃ r, halReadComPort data dataSize ((List.range polls).map status) = some r ∧ r.Truthful data

theorem halReadComPort_truthful {data : Nat → BitVec 8} {dataSize : Nat} {polls : List (BitVec 8)} {r : ComRead}
    (run : halReadComPort data dataSize polls = some r) : r.Truthful data := by
  rw [halReadComPort, waitFirst_eq] at run
  cases found : polls.dropWhile (!dataReady ·) with
  | nil =>
    rw [found] at run
    cases run
  | cons poll rest =>
    rw [found] at run
    have empty : Received.Valid data [] := by
      intro k rec here
      cases here
    exact readBytes_truthful empty rfl (Nat.zero_add dataSize) run

/-- A read returns just if the port has data often enough or shows an error with it: the waits have no end of their
own. -/
theorem returnsWithin_iff (status data : Nat → BitVec 8) (dataSize polls : Nat) :
    ReturnsWithin status data dataSize polls ↔
      max 1 dataSize ≤ ((List.range polls).map status).countP dataReady ∨
        ∃ p ∈ (List.range polls).map status, Faulty p := by
  unfold ReturnsWithin
  generalize (List.range polls).map status = polls
  have truthful : (∃ r, halReadComPort data dataSize polls = some r ∧ r.Truthful data) ↔
      ∃ r, halReadComPort data dataSize polls = some r :=
    ⟨fun ⟨r, run, _⟩ => ⟨r, run⟩, fun ⟨r, run⟩ => ⟨r, run, halReadComPort_truthful run⟩⟩
  rw [truthful, halReadComPort, waitFirst_eq]
  cases found : polls.dropWhile (!dataReady ·) with
  | nil =>
    obtain ⟨none, clean⟩ := dropWhile_empty found
    rw [none]
    refine iff_of_false ?_ ?_
    · rintro ⟨r, run⟩
      cases run
    · rintro (few | fault)
      · omega
      · exact clean fault
  | cons poll rest =>
    obtain ⟨ready, count, faults⟩ := dropWhile_found found
    have error : Faulty poll ↔ poll &&& comportReader &&& comportReaderError ≠ 0 := by
      rw [masked_error]
      exact and_iff_right ready
    rw [count, faults, error]
    cases dataSize with
    | zero => exact iff_of_true ⟨_, rfl⟩ (.inl (by omega))
    | succ left =>
      have enough : max 1 (left + 1) ≤ rest.countP dataReady + 1 ↔ left ≤ rest.countP dataReady := by omega
      rw [enough]
      exact readBytes_returns (Nat.zero_add _)

theorem silent_line_waits : ¬∃ polls, ReturnsWithin (fun _ => 0) (fun _ => 0) 1 polls := by
  rintro ⟨polls, r, run, -⟩
  have none : ((List.range polls).map fun _ => (0 : BitVec 8)).dropWhile (!dataReady ·) = [] := by
    rw [List.dropWhile_eq_nil_iff]
    intro p member
    obtain ⟨_, -, rfl⟩ := List.mem_map.mp member
    rfl
  rw [halReadComPort, waitFirst_eq, none] at run
  cases run

end Gr8os.Hal
