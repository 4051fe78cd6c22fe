import Gr8os.Ke.BlockOperations

/-! How the debugger's request for virtual memory is answered. -/
namespace Gr8os.Kd

open LittleEndian BlockMoves

def STATUS_ACCESS_VIOLATION : BitVec 32 := 0xF0000004

/-- The processor with the memory it works on, and the pages whose page table entry is valid. -/
structure Debuggee where
  cpu : Ke.Cpu
  valid : BitVec 20 → Bool

/-- ReadMemory64 and the status of a DBGKD_MANIPULATE_STATE32. -/
structure ReadMemory64 where
  targetBaseAddress : BitVec 64
  transferCount : BitVec 32
  actualBytesRead : BitVec 32
  returnStatus : BitVec 32
deriving DecidableEq, Repr

/-- What KdSendPacket is given. -/
structure ReadReply where
  header : ReadMemory64
  data : List (BitVec 8)
deriving DecidableEq, Repr

def bytesAt (m : Memory) (a : Address) (n : Nat) : List (BitVec 8) :=
  (List.range n).map fun i => m (a + BitVec.ofNat 32 i)

namespace Debuggee

variable (t : Debuggee)

def memory : Memory := t.cpu.memory

def mmIsAddressValid (virtualAddress : Address) : Bool := t.valid (virtualAddress.extractLsb' 12 20)

/-- Every byte of the range is on a valid page. Other pages cannot be touched without a fault. -/
def mapped (a : Address) (n : Nat) : Bool := (List.range n).all fun i => t.mmIsAddressValid (a + BitVec.ofNat 32 i)

def withMemory (m : Memory) : Debuggee := { t with cpu := { t.cpu with memory := m } }

def keZeroMemory (dest length : BitVec 32) : Debuggee :=
  t.withMemory (Ke.keZeroMemory (t.cpu.fastcall t.cpu.eip dest length)).memory

def memcpy (dest source length : BitVec 32) : Debuggee :=
  t.withMemory (Ke.memcpy (t.cpu.call t.cpu.eip [dest, source, length])).memory

end Debuggee

/-- The case of DbgKdReadVirtualMemoryApi. What ExAllocateHeap returns for the bytes is given, and a fault has no result. -/
def dbgKdReadVirtualMemory (t : Debuggee) (cdata : Address) (hdr : ReadMemory64) : Option (Debuggee × ReadReply) :=
  let addr := hdr.targetBaseAddress.setWidth 32
  let cnt := hdr.transferCount
  let hdr := { hdr with actualBytesRead := cnt, returnStatus := 0 }
  if t.mapped cdata cnt.toNat then
    let t := t.keZeroMemory cdata cnt
    if addr &&& 0xFFFFF000 = 0xFFDF0000 then
      -- KUSER_SHARED_DATA is not copied.
      some (t, { header := hdr, data := bytesAt t.memory cdata (cnt.setWidth 16).toNat })
    else if t.mmIsAddressValid addr then
      if t.mapped addr cnt.toNat then
        let t := t.memcpy addr cdata cnt
        some (t, { header := hdr, data := bytesAt t.memory cdata (cnt.setWidth 16).toNat })
      else none
    else some (t, { header := { hdr with returnStatus := STATUS_ACCESS_VIOLATION }, data := [] })
  else none

section answers

variable {t : Debuggee} {cdata : Address} {hdr : ReadMemory64}

def ReadMemory64.addr (hdr : ReadMemory64) : Address := hdr.targetBaseAddress.setWidth 32

/-- The memory is as it was, but for the handler's own block. -/
def Unchanged (t u : Debuggee) (cdata : Address) (n : Nat) : Prop :=
  ∀ x, (cdata = 0 ∨ ¬Covers cdata n x) → u.memory x = t.memory x

/-- What is asked of the handler, for memory that is mapped and for an address that is not. -/
structure Reads (t : Debuggee) (cdata : Address) (hdr : ReadMemory64) (answer : Option (Debuggee × ReadReply)) : Prop where
  mapped : t.mapped hdr.addr hdr.transferCount.toNat = true → ∃ u reply, answer = some (u, reply) ∧
    Unchanged t u cdata hdr.transferCount.toNat ∧
    reply.data = bytesAt t.memory hdr.addr hdr.transferCount.toNat ∧
    reply.header.actualBytesRead.toNat = reply.data.length
  unmapped : ¬t.mmIsAddressValid hdr.addr = true → ∃ u reply, answer = some (u, reply) ∧
    Unchanged t u cdata hdr.transferCount.toNat ∧
    reply.header.returnStatus = STATUS_ACCESS_VIOLATION ∧ reply.data = []

/-- The block can be written to. A null pointer is written through like any other. -/
def BlockOk (t : Debuggee) (cdata : Address) (n : Nat) : Prop :=
  t.mapped cdata n = true ∧ (cdata = 0 → ∀ i < n, t.memory (cdata + BitVec.ofNat 32 i) = 0)

section bytes

variable {m : Memory} {a x : Address} {n k : Nat} {b : BitVec 8}

theorem bytesAt_length : (bytesAt m a n).length = n := by
  rw [bytesAt, List.length_map, List.length_range]

theorem bytesAt_eq_replicate_iff : bytesAt m a n = List.replicate n b ↔ ∀ i < n, m (a + BitVec.ofNat 32 i) = b := by
  rw [List.eq_replicate_iff, bytesAt_length, bytesAt]
  simp

end bytes

theorem mapped_iff {a : Address} {n : Nat} :
    t.mapped a n = true ↔ ∀ i < n, t.mmIsAddressValid (a + BitVec.ofNat 32 i) = true := by
  rw [Debuggee.mapped, List.all_eq_true]
  exact ⟨fun all i less => all i (List.mem_range.mpr less), fun all i member => all i (List.mem_range.mp member)⟩

theorem memory_keZeroMemory (dest length : BitVec 32) :
    (t.keZeroMemory dest length).memory = filled t.memory dest 0 length.toNat := by
  change (Ke.keZeroMemory (t.cpu.fastcall t.cpu.eip dest length)).memory = _
  rw [Ke.keZeroMemory_eq]
  rfl

theorem memory_memcpy {dest source length : BitVec 32} (zeros : ∀ x, Covers source length.toNat x → t.memory x = 0) :
    (t.memcpy dest source length).memory = filled t.memory dest 0 length.toNat := by
  have unread : Unread t.cpu.memory dest source length.toNat := unread_of_alike length.isLt zeros
  change (Ke.memcpy (t.cpu.call t.cpu.eip [dest, source, length])).memory = _
  rw [Ke.memcpy_eq _ _ _ _ _ unread]
  exact moved_alike zeros

/-- The block is full of zeros, and any other byte that has changed is a zero of the range. -/
structure Zeroed (t u : Debuggee) (cdata addr : Address) (n : Nat) : Prop where
  block : ∀ x, Covers cdata n x → u.memory x = 0
  others : ∀ x, ¬Covers cdata n x → u.memory x = t.memory x ∨ Covers addr n x ∧ u.memory x = 0

theorem zeroed_keZeroMemory (addr : Address) (cnt : BitVec 32) :
    Zeroed t (t.keZeroMemory cdata cnt) cdata addr cnt.toNat where
  block x covered := by
    rw [memory_keZeroMemory]
    exact filled_inside covered
  others x outside := by
    rw [memory_keZeroMemory]
    exact Or.inl (filled_outside outside)

theorem zeroed_memcpy (addr : Address) (cnt : BitVec 32) :
    Zeroed t ((t.keZeroMemory cdata cnt).memcpy addr cdata cnt) cdata addr cnt.toNat := by
  have zeroed := @zeroed_keZeroMemory t cdata addr cnt
  have copied := @memory_memcpy _ addr _ _ zeroed.block
  constructor
  · intro x covered
    rw [copied, filled]
    split
    · rfl
    · exact zeroed.block x covered
  · intro x outside
    rw [copied]
    by_cases inside : Covers addr cnt.toNat x
    · exact Or.inr ⟨inside, filled_inside inside⟩
    · rw [filled_outside inside]
      exact zeroed.others x outside

theorem Zeroed.data {u : Debuggee} {addr : Address} {n k : Nat} (zeroed : Zeroed t u cdata addr n) (small : n ≤ 2 ^ 32)
    (most : k ≤ n) : bytesAt u.memory cdata k = List.replicate k 0 :=
  bytesAt_eq_replicate_iff.mpr fun _ less => zeroed.block _ (covers_add (Nat.lt_of_lt_of_le less most) small)

theorem Zeroed.unchanged_of {u : Debuggee} {addr : Address} {n : Nat} (zeroed : Zeroed t u cdata addr n)
    (null : cdata = 0 → ∀ i < n, t.memory (cdata + BitVec.ofNat 32 i) = 0)
    (zeros : ∀ i < n, t.memory (addr + BitVec.ofNat 32 i) = 0) : Unchanged t u cdata n := by
  intro x own
  by_cases covered : Covers cdata n x
  · have none : cdata = 0 := own.resolve_right fun outside => outside covered
    obtain ⟨i, less, rfl⟩ := covered.offset
    rw [zeroed.block _ covered, null none i less]
  · rcases zeroed.others x covered with same | ⟨inside, zero⟩
    · exact same
    · obtain ⟨i, less, rfl⟩ := inside.offset
      rw [zero, zeros i less]

theorem Zeroed.null_of_unchanged {u : Debuggee} {addr : Address} {n : Nat} (zeroed : Zeroed t u cdata addr n)
    (small : n ≤ 2 ^ 32) (unchanged : Unchanged t u cdata n) (none : cdata = 0) :
    ∀ i < n, t.memory (cdata + BitVec.ofNat 32 i) = 0 := by
  intro i less
  rw [← unchanged _ (Or.inl none)]
  exact zeroed.block _ (covers_add less small)

theorem unchanged_keZeroMemory_iff (cnt : BitVec 32) :
    Unchanged t (t.keZeroMemory cdata cnt) cdata cnt.toNat ↔
      (cdata = 0 → ∀ i < cnt.toNat, t.memory (cdata + BitVec.ofNat 32 i) = 0) := by
  have zeroed := @zeroed_keZeroMemory t cdata 0 cnt
  constructor
  · exact zeroed.null_of_unchanged (Nat.le_of_lt cnt.isLt)
  · intro null x own
    by_cases covered : Covers cdata cnt.toNat x
    · have none : cdata = 0 := own.resolve_right fun outside => outside covered
      obtain ⟨i, less, rfl⟩ := covered.offset
      rw [zeroed.block _ covered, null none i less]
    · rw [memory_keZeroMemory]
      exact filled_outside covered

def ReadMemory64.done (hdr : ReadMemory64) (status : BitVec 32) : ReadMemory64 :=
  { hdr with actualBytesRead := hdr.transferCount, returnStatus := status }

def zeroReply (u : Debuggee) (cdata : Address) (hdr : ReadMemory64) : ReadReply :=
  { header := hdr.done 0, data := bytesAt u.memory cdata (hdr.transferCount.setWidth 16).toNat }

/-- The bytes asked for are zeros and few enough, and so is what a null pointer points to. -/
def ZerosAsked (t : Debuggee) (cdata : Address) (hdr : ReadMemory64) : Prop :=
  (cdata = 0 → ∀ i < hdr.transferCount.toNat, t.memory (cdata + BitVec.ofNat 32 i) = 0) ∧
  (∀ i < hdr.transferCount.toNat, t.memory (hdr.addr + BitVec.ofNat 32 i) = 0) ∧
  hdr.transferCount.toNat < 2 ^ 16

theorem Zeroed.answer_iff {u : Debuggee} (zeroed : Zeroed t u cdata hdr.addr hdr.transferCount.toNat) :
    (Unchanged t u cdata hdr.transferCount.toNat ∧
      (zeroReply u cdata hdr).data = bytesAt t.memory hdr.addr hdr.transferCount.toNat ∧
      (zeroReply u cdata hdr).header.actualBytesRead.toNat = (zeroReply u cdata hdr).data.length) ↔ ZerosAsked t cdata hdr := by
  have small : hdr.transferCount.toNat ≤ 2 ^ 32 := Nat.le_of_lt hdr.transferCount.isLt
  have low : (hdr.transferCount.setWidth 16).toNat = hdr.transferCount.toNat % 2 ^ 16 := BitVec.toNat_setWidth ..
  have data : (zeroReply u cdata hdr).data = List.replicate (hdr.transferCount.setWidth 16).toNat 0 :=
    zeroed.data small (by omega)
  have actual : (zeroReply u cdata hdr).header.actualBytesRead = hdr.transferCount := rfl
  have asked := bytesAt_eq_replicate_iff (m := t.memory) (a := hdr.addr) (n := hdr.transferCount.toNat) (b := 0)
  rw [actual, data, List.length_replicate, ZerosAsked, ← asked]
  constructor
  · rintro ⟨unchanged, same, length⟩
    refine ⟨zeroed.null_of_unchanged small unchanged, ?_, by omega⟩
    rw [← same, ← length]
  · rintro ⟨null, zeros, few⟩
    have whole : (hdr.transferCount.setWidth 16).toNat = hdr.transferCount.toNat := by omega
    exact ⟨zeroed.unchanged_of null (asked.mp zeros), by rw [whole, zeros], whole.symm⟩

theorem valid_of_mapped {a : Address} {n : Nat} (mapped : t.mapped a n = true) (some : 0 < n) :
    t.mmIsAddressValid a = true := by
  have first := mapped_iff.mp mapped 0 some
  rwa [BitVec.add_zero] at first

theorem count_zero {a : Address} {n : Nat} (mapped : t.mapped a n = true) (invalid : ¬t.mmIsAddressValid a = true) :
    n = 0 := by
  by_contra some
  exact invalid (valid_of_mapped mapped (Nat.pos_of_ne_zero some))

def ReadMemory64.shared (hdr : ReadMemory64) : Prop := hdr.addr &&& 0xFFFFF000 = 0xFFDF0000

instance (hdr : ReadMemory64) : Decidable hdr.shared := inferInstanceAs (Decidable (_ = _))

/-- Where the block is no obstacle: a page of KUSER_SHARED_DATA, mapped memory, memory that is mapped in part, and an
address that is not valid. -/
theorem dbgKdReadVirtualMemory_eq (block : t.mapped cdata hdr.transferCount.toNat = true) :
    dbgKdReadVirtualMemory t cdata hdr =
      let z := t.keZeroMemory cdata hdr.transferCount
      let u := z.memcpy hdr.addr cdata hdr.transferCount
      if hdr.shared then some (z, zeroReply z cdata hdr)
      else if t.mmIsAddressValid hdr.addr then
        if t.mapped hdr.addr hdr.transferCount.toNat then some (u, zeroReply u cdata hdr) else none
      else some (z, { header := hdr.done STATUS_ACCESS_VIOLATION, data := [] }) := by
  unfold dbgKdReadVirtualMemory
  rw [if_pos block]
  rfl

/-- Exactly the requests that are answered as a read of memory should be. -/
def AnswersRight (t : Debuggee) (cdata : Address) (hdr : ReadMemory64) : Prop :=
  let n := hdr.transferCount.toNat
  (t.mapped hdr.addr n = true ∨ ¬t.mmIsAddressValid hdr.addr = true → BlockOk t cdata n) ∧
  (t.mapped hdr.addr n = true → (∀ i < n, t.memory (hdr.addr + BitVec.ofNat 32 i) = 0) ∧ n < 2 ^ 16) ∧
  (¬t.mmIsAddressValid hdr.addr = true → ¬hdr.shared)

theorem reads_zeroReply_iff {u : Debuggee} (zeroed : Zeroed t u cdata hdr.addr hdr.transferCount.toNat)
    (block : t.mapped cdata hdr.transferCount.toNat = true) (loud : ¬t.mmIsAddressValid hdr.addr = true → hdr.shared) :
    Reads t cdata hdr (some (u, zeroReply u cdata hdr)) ↔ AnswersRight t cdata hdr := by
  constructor
  · intro reads
    have valid : t.mmIsAddressValid hdr.addr = true := by
      by_contra invalid
      obtain ⟨_, _, answer, _, status, _⟩ := reads.unmapped invalid
      cases answer
      exact absurd status (by change (0 : BitVec 32) ≠ _; decide)
    have right (mapped : t.mapped hdr.addr hdr.transferCount.toNat = true) : ZerosAsked t cdata hdr := by
      obtain ⟨_, _, answer, rest⟩ := reads.mapped mapped
      cases answer
      exact zeroed.answer_iff.mp rest
    exact ⟨fun either => ⟨block, (right (either.resolve_right fun invalid => invalid valid)).1⟩,
      fun mapped => (right mapped).2, fun invalid => absurd valid invalid⟩
  · rintro ⟨ok, zeros, quiet⟩
    exact ⟨fun mapped => ⟨_, _, rfl, zeroed.answer_iff.mpr ⟨(ok (Or.inl mapped)).2, zeros mapped⟩⟩,
      fun invalid => absurd (loud invalid) (quiet invalid)⟩

/-- Without an answer nothing may have been asked for. -/
theorem reads_none_iff : Reads t cdata hdr none ↔
    ¬t.mapped hdr.addr hdr.transferCount.toNat = true ∧ t.mmIsAddressValid hdr.addr = true := by
  constructor
  · intro reads
    constructor
    · intro mapped
      obtain ⟨_, _, answer, _⟩ := reads.mapped mapped
      cases answer
    · by_contra invalid
      obtain ⟨_, _, answer, _⟩ := reads.unmapped invalid
      cases answer
  · rintro ⟨part, valid⟩
    exact ⟨fun mapped => absurd mapped part, fun invalid => absurd valid invalid⟩

theorem answersRight_of_nothing (part : ¬t.mapped hdr.addr hdr.transferCount.toNat = true)
    (valid : t.mmIsAddressValid hdr.addr = true) : AnswersRight t cdata hdr :=
  ⟨fun either => either.elim (fun mapped => absurd mapped part) fun invalid => absurd valid invalid,
    fun mapped => absurd mapped part, fun invalid => absurd valid invalid⟩

theorem reads_invalid_iff (block : t.mapped cdata hdr.transferCount.toNat = true)
    (invalid : ¬t.mmIsAddressValid hdr.addr = true) (other : ¬hdr.shared) :
    Reads t cdata hdr (some (t.keZeroMemory cdata hdr.transferCount, ⟨hdr.done STATUS_ACCESS_VIOLATION, []⟩)) ↔
      AnswersRight t cdata hdr := by
  have unchanged := @unchanged_keZeroMemory_iff t cdata hdr.transferCount
  constructor
  · intro reads
    obtain ⟨_, _, answer, kept, _⟩ := reads.unmapped invalid
    cases answer
    refine ⟨fun _ => ⟨block, unchanged.mp kept⟩, fun mapped => ?_, fun _ => other⟩
    have none := count_zero mapped invalid
    exact ⟨fun i less => absurd less (by omega), by omega⟩
  · rintro ⟨ok, _, _⟩
    have kept := unchanged.mpr (ok (Or.inr invalid)).2
    refine ⟨fun mapped => ⟨_, _, rfl, kept, ?_, ?_⟩, fun _ => ⟨_, _, rfl, kept, rfl, rfl⟩⟩
    · rw [count_zero mapped invalid]
      rfl
    · exact count_zero mapped invalid

/-- The bytes of the block are copied over those that are asked for. -/
theorem reads_mapped_iff (block : t.mapped cdata hdr.transferCount.toNat = true) (other : ¬hdr.shared)
    (valid : t.mmIsAddressValid hdr.addr = true) (mapped : t.mapped hdr.addr hdr.transferCount.toNat = true) :
    Reads t cdata hdr (dbgKdReadVirtualMemory t cdata hdr) ↔ AnswersRight t cdata hdr := by
  rw [dbgKdReadVirtualMemory_eq block]
  simp only [other, if_false, valid, mapped, if_true]
  exact reads_zeroReply_iff (zeroed_memcpy _ _) block fun invalid => absurd valid invalid

/-- The handler reads memory as it should just where zeros are asked for, or an address that is not valid and not of
KUSER_SHARED_DATA. -/
theorem dbgKdReadVirtualMemory_reads_iff (t : Debuggee) (cdata : Address) (hdr : ReadMemory64) :
    Reads t cdata hdr (dbgKdReadVirtualMemory t cdata hdr) ↔ AnswersRight t cdata hdr := by
  by_cases block : t.mapped cdata hdr.transferCount.toNat = true
  · by_cases shared : hdr.shared
    · rw [dbgKdReadVirtualMemory_eq block]
      simp only [shared, if_true]
      exact reads_zeroReply_iff (zeroed_keZeroMemory _ _) block fun _ => shared
    · by_cases valid : t.mmIsAddressValid hdr.addr = true
      · by_cases mapped : t.mapped hdr.addr hdr.transferCount.toNat = true
        · exact reads_mapped_iff block shared valid mapped
        · rw [dbgKdReadVirtualMemory_eq block]
          simp only [shared, if_false, valid, if_true, if_neg mapped]
          rw [reads_none_iff]
          exact iff_of_true ⟨mapped, valid⟩ (answersRight_of_nothing mapped valid)
      · rw [dbgKdReadVirtualMemory_eq block]
        simp only [shared, if_false, if_neg valid]
        exact reads_invalid_iff block valid shared
  · have fault : dbgKdReadVirtualMemory t cdata hdr = none := if_neg block
    rw [fault, reads_none_iff]
    constructor
    · rintro ⟨part, valid⟩
      exact answersRight_of_nothing part valid
    · rintro ⟨ok, _, _⟩
      exact ⟨fun mapped => block (ok (Or.inl mapped)).1, by_contra fun invalid => block (ok (Or.inr invalid)).1⟩

end answers

def readable : Debuggee where
  cpu := Ke.numbered
  valid _ := true

def fourBytes : ReadMemory64 where
  targetBaseAddress := 0xFFFFFFFF80100004
  transferCount := 4
  actualBytesRead := 0
  returnStatus := 0

theorem four_bytes_not_read : ¬Reads readable 0x80400000 fourBytes (dbgKdReadVirtualMemory readable 0x80400000 fourBytes) := by
  intro reads
  have mapped (a : Address) (n : Nat) : readable.mapped a n = true := mapped_iff.mpr fun _ _ => rfl
  have right := (reads_mapped_iff (mapped _ _) (by decide) rfl (mapped _ _)).mp reads
  exact absurd ((right.2.1 (mapped _ _)).1 0 (by decide)) (by decide)

end Gr8os.Kd
