import Gr8os.Keyboard.Driver

/-! In what order the keyboard driver returns the characters that it has stored. -/
namespace Gr8os.Keyboard

open Runs

/-- How many characters are in the buffer. -/
def Keybd.unread (s : Keybd) : Nat := (s.keybdCurrentPos + 1).toNat

/-- The characters in the buffer, in the order in which they were stored. -/
def Keybd.buffered (s : Keybd) : List (BitVec 8) :=
  (List.range s.unread).map fun i => s.keybdCyclicBuffer (BitVec.ofNat 32 i)

/-- What the reads have returned is what was stored first, and the rest is in the buffer. -/
def Fifo (s : Keybd) : Prop := s.returned ++ s.buffered = s.stored

/-- Fewer characters are unread than the buffer has room for, also after the next one has been stored. -/
def NotFull (s : Keybd) : KeybdOp → Prop
  | .irq1 _ => s.stored.length + 1 - s.returned.length < kbdBufferSize.toNat
  | _ => True

/-- A read that does not wait for more finds its characters at the end of the buffer as it does at the start, and
what is left is the same, too. -/
def EitherEnd (buffered : List (BitVec 8)) (n : Nat) : Prop :=
  n ≤ buffered.length ∧ buffered.reverse.take n ++ buffered.take (buffered.length - n) = buffered

/-- The lengths of the reads that the step completes. -/
def Keybd.completes (s : Keybd) : KeybdOp → Option (BitVec 32)
  | .read n => if s.short n then none else some n
  | .wake i => s.waiting[i]?.filter fun n => !s.short n
  | _ => none

def Harmless (s : Keybd) (op : KeybdOp) : Prop := ∀ n ∈ s.completes op, EitherEnd s.buffered n.toNat

/-- The steps in which the buffer does not overflow and no read tells its ends apart. -/
def HarmlessStep (checked : Bool) : Keybd → KeybdOp → Keybd → Prop :=
  Guarded (fun s op => NotFull s op ∧ Harmless s op) fun s op t => keybdStep checked s op = some t

section steps

variable {checked : Bool} {s t : Keybd} {op : KeybdOp} {n : BitVec 32}

@[simp] theorem buffered_length (s : Keybd) : s.buffered.length = s.unread := by
  unfold Keybd.buffered
  rw [List.length_map, List.length_range]

@[simp] theorem readData_length (s : Keybd) (n : BitVec 32) : (s.readData n).length = n.toNat := by
  unfold Keybd.readData
  rw [List.length_map, List.length_range]

theorem Fifo.length (fifo : Fifo s) : s.returned.length + s.unread = s.stored.length := by
  rw [← fifo, List.length_append, buffered_length]

/-- A character is stored behind those that are in the buffer. -/
theorem store_fifo (fifo : Fifo s) (room : s.unread < 255) (asciiCode : BitVec 8) : Fifo (s.store asciiCode) := by
  unfold Keybd.unread at room
  have inside : s.keybdCurrentPos ≠ kbdBufferSize - 1 := by
    intro atEnd
    rw [atEnd] at room
    exact absurd room (by decide)
  have pos : (s.store asciiCode).keybdCurrentPos = s.keybdCurrentPos + 1 := by
    unfold Keybd.store
    simp only [if_neg inside]
  have more : (s.store asciiCode).unread = s.unread + 1 := by
    unfold Keybd.unread
    rw [pos]
    bv_omega
  have kept : (s.store asciiCode).buffered = s.buffered ++ [asciiCode] := by
    unfold Keybd.buffered
    rw [more, List.range_succ, List.map_append, List.map_singleton]
    apply congrArg₂
    · apply List.map_congr_left
      intro i member
      have below := List.mem_range.mp member
      have other : BitVec.ofNat 32 i ≠ s.keybdCurrentPos + 1 := by
        unfold Keybd.unread at below
        bv_omega
      unfold Keybd.store
      simp only [if_neg inside, if_neg other]
    · unfold Keybd.store Keybd.unread
      simp only [if_neg inside, BitVec.ofNat_toNat, BitVec.setWidth_eq, if_true]
  have before : s.returned ++ s.buffered = s.stored := fifo
  change s.returned ++ (s.store asciiCode).buffered = s.stored ++ [asciiCode]
  rw [kept, ← before, List.append_assoc]

/-- The data of a read is the end of the buffer, last character first. -/
theorem readData_eq (s : Keybd) (enough : n.toNat ≤ s.unread) : s.readData n = s.buffered.reverse.take n.toNat := by
  apply List.ext_getElem
  · rw [readData_length, List.length_take, List.length_reverse, buffered_length, Nat.min_eq_left enough]
  · intro i inData _
    rw [readData_length] at inData
    rw [List.getElem_take, List.getElem_reverse]
    simp only [Keybd.readData, Keybd.buffered, List.getElem_map, List.getElem_range, List.length_map, List.length_range]
    apply congrArg
    unfold Keybd.unread at *
    bv_omega

theorem performRead_buffered (s : Keybd) (enough : n.toNat ≤ s.unread) :
    (keybdSynchPerformRead s n).buffered = s.buffered.take (s.unread - n.toNat) := by
  have fewer : (keybdSynchPerformRead s n).unread = s.unread - n.toNat := by
    change (s.keybdCurrentPos - n + 1).toNat = (s.keybdCurrentPos + 1).toNat - n.toNat
    unfold Keybd.unread at enough
    bv_omega
  unfold Keybd.buffered
  rw [fewer, ← List.map_take, List.take_range, Nat.min_eq_left (Nat.sub_le _ _)]
  rfl

/-- A read keeps the order exactly where the ends of the buffer are alike. -/
theorem performRead_fifo (fifo : Fifo s) : Fifo (keybdSynchPerformRead s n) ↔ EitherEnd s.buffered n.toNat := by
  have before : s.returned ++ s.buffered = s.stored := fifo
  have after : Fifo (keybdSynchPerformRead s n) ↔
      s.readData n ++ (keybdSynchPerformRead s n).buffered = s.buffered := by
    change s.returned ++ s.readData n ++ (keybdSynchPerformRead s n).buffered = s.stored ↔ _
    rw [← before, List.append_assoc, List.append_cancel_left_eq]
  rw [after]
  unfold EitherEnd
  rw [buffered_length]
  by_cases enough : n.toNat ≤ s.unread
  · rw [readData_eq s enough, performRead_buffered s enough]
    exact (and_iff_right enough).symm
  · apply iff_of_false
    · intro same
      have length := congrArg List.length same
      rw [List.length_append, readData_length, buffered_length s] at length
      omega
    · exact fun both => enough both.1

theorem irq1_fifo (fifo : Fifo s) {port : BitVec 8} (room : NotFull s (.irq1 port))
    (step : keybdIrq1Interrupt s port = some t) : Fifo t := by
  have length := fifo.length
  have few : s.unread < 255 := by
    change s.stored.length + 1 - s.returned.length < 256 at room
    omega
  unfold keybdIrq1Interrupt at step
  simp only at step
  split at step
  · contradiction
  · obtain rfl := Option.some.inj step
    exact store_fifo (s := { s with keybdStatusByte := _, keybdIndicators := _ }) fifo few _

/-- A step keeps the order exactly where it completes no read that tells the ends of the buffer apart. -/
theorem step_fifo (fifo : Fifo s) (room : NotFull s op) (step : keybdStep checked s op = some t) :
    Fifo t ↔ Harmless s op := by
  have nothing (idle : s.completes op = none) : Harmless s op := by
    intro n completed
    rw [idle] at completed
    contradiction
  have exactly (n : BitVec 32) (completed : s.completes op = some n) :
      Harmless s op ↔ EitherEnd s.buffered n.toNat := by
    unfold Harmless
    rw [completed]
    constructor
    · exact fun all => all n rfl
    · rintro each m same
      exact Option.some.inj same ▸ each
  cases op with
  | irq1 port => exact iff_of_true (irq1_fifo fifo room step) (nothing rfl)
  | setIndicators indicators =>
    obtain rfl := Option.some.inj step
    exact iff_of_true fifo (nothing rfl)
  | read n =>
    obtain rfl := Option.some.inj step
    by_cases short : s.short n = true
    · rw [if_pos short]
      exact iff_of_true fifo (nothing (if_pos short))
    · rw [if_neg short, exactly n (if_neg short)]
      exact performRead_fifo fifo
  | wake i =>
    obtain ⟨n, waits, step⟩ := Option.bind_eq_some_iff.mp step
    split at step
    · contradiction
    · obtain rfl := Option.some.inj step
      have completes : s.completes (.wake i) = if s.short n then none else some n := by
        unfold Keybd.completes
        simp only [waits, Option.filter_some]
        cases s.short n <;> rfl
      by_cases short : s.short n = true
      · rw [if_pos short]
        exact iff_of_true fifo (nothing (completes.trans (if_pos short)))
      · rw [if_neg short, exactly n (completes.trans (if_neg short))]
        exact performRead_fifo (s := { s with waiting := s.waiting.eraseIdx i }) fifo

end steps

theorem driverEntry_fifo (status : KeyboardStatusByte) (memory : BitVec 32 → BitVec 8) :
    Fifo (driverEntry status memory) := by
  have empty : (driverEntry status memory).unread = 0 := by
    change ((-1 : BitVec 32) + 1).toNat = 0
    decide
  unfold Fifo Keybd.buffered
  rw [empty]
  rfl

/-- While the buffer does not overflow, the reads return the characters in the order in which they were stored for as
long as each read that completes finds both ends of the buffer alike, and no longer. -/
theorem keybd_fifo_iff {checked : Bool} {s : Keybd} {ops : List KeybdOp} (status : KeyboardStatusByte)
    (memory : BitVec 32 → BitVec 8) (run : Run (HarmlessStep checked) (driverEntry status memory) ops s) :
    (s.returned <+: s.stored ∧ Fifo s) ∧
      ∀ op t, NotFull s op → keybdStep checked s op = some t → (Fifo t ↔ Harmless s op) := by
  have fifo : Fifo s := by
    apply run.invariant (I := Fifo) _ (driverEntry_fifo status memory)
    rintro s op t fifo ⟨⟨room, harmless⟩, step⟩
    exact (step_fifo fifo room step).mpr harmless
  exact ⟨⟨⟨s.buffered, fifo⟩, fifo⟩, fun op t room step => step_fifo fifo room step⟩

instance (b : List (BitVec 8)) (n : Nat) : Decidable (EitherEnd b n) := inferInstanceAs (Decidable (_ ∧ _))

instance (s : Keybd) : (op : KeybdOp) → Decidable (NotFull s op)
  | .irq1 _ => inferInstanceAs (Decidable (_ < _))
  | .read _ | .wake _ | .setIndicators _ => isTrue trivial

-- Not by trying each length there is.
instance (s : Keybd) (op : KeybdOp) : Decidable (Harmless s op) :=
  Option.decidableForallMem (s.completes op)

/-- The driver over zeroed memory. -/
def freshKeybd : Keybd := driverEntry {} fun _ => 0

/-- Keys are pressed and let go one at a time, and each character is read before the next one comes; one read waits. -/
def oneByOne : List KeybdOp :=
  [.irq1 30, .read 1, .read 1, .irq1 158, .wake 0, .irq1 42, .read 1, .irq1 30, .read 1]

theorem oneByOne_fifo : ∃ s, Run (HarmlessStep true) freshKeybd oneByOne s ∧ s.returned = [0x61, 0x61, 0, 0x41] ∧
    s.returned <+: s.stored := by
  have returns : (exec (guarded (fun s op => NotFull s op ∧ Harmless s op) (keybdStep true)) freshKeybd oneByOne).map
      Keybd.returned = some [0x61, 0x61, 0, 0x41] := by decide
  obtain ⟨s, runs, data⟩ := Option.map_eq_some_iff.mp returns
  exact ⟨s, guarded_run runs, data, (keybd_fifo_iff {} (fun _ => 0) (guarded_run runs)).1.1⟩

/-- The keys A and B are pressed, and then two characters are read: they come back in the other order. -/
theorem twoKeys_reversed : ∃ s, Run (Guarded NotFull fun s op t => keybdStep true s op = some t) freshKeybd
    [.irq1 30, .irq1 48, .read 2] s ∧ s.stored = [0x61, 0x62] ∧ s.returned = [0x62, 0x61] ∧
      ¬s.returned <+: s.stored := by
  have returns : (exec (guarded NotFull (keybdStep true)) freshKeybd [.irq1 30, .irq1 48, .read 2]).map
      (fun s => (s.stored, s.returned)) = some ([0x61, 0x62], [0x62, 0x61]) := by decide
  obtain ⟨s, runs, data⟩ := Option.map_eq_some_iff.mp returns
  obtain ⟨stored, returned⟩ := Prod.mk.inj data
  refine ⟨s, guarded_run runs, stored, returned, ?_⟩
  rw [stored, returned]
  decide

end Gr8os.Keyboard
