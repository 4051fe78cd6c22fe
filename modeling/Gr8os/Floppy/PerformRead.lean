import Gr8os.Hal.DmaRequests

/-! The floppy disk driver: a sector of the diskette is read with a DMA request and a command to the controller. -/
namespace Gr8os.Floppy

open Bytes Hal Runs

/-- The fields of FD_MEDIA_TYPE that tell of the sectors, and the gap of the read command. -/
structure MediaType where
  numberOfSectors : BitVec 32
  sectorsPerTrack : BitVec 8
  numberOfHeads : BitVec 32
  numberOfTracks : BitVec 32
  gap1Size : BitVec 8
deriving DecidableEq, Repr

/-- FdpFloppyTypes. -/
def fdpFloppyTypes : List MediaType :=
  [⟨720, 9, 2, 40, 0x2A⟩, ⟨720, 9, 2, 40, 0x2A⟩, ⟨2400, 15, 2, 80, 0x1B⟩, ⟨720, 9, 2, 40, 0x23⟩,
    ⟨1440, 9, 2, 80, 0x2A⟩, ⟨1440, 9, 2, 80, 0x2A⟩, ⟨2880, 18, 2, 80, 0x1B⟩, ⟨1440, 9, 2, 80, 0x2A⟩]

/-- FdpCurrentType, as FdInit sets it. -/
def fdpCurrentType : MediaType := ⟨2880, 18, 2, 80, 0x1B⟩

structure Chs where
  cylinder : BitVec 32
  head : BitVec 32
  sector : BitVec 32
deriving DecidableEq, Repr

def lbaToChs (type : MediaType) (lbaSector : BitVec 32) : Chs where
  sector := lbaSector % type.sectorsPerTrack.setWidth 32 + 1
  head := lbaSector / type.sectorsPerTrack.setWidth 32 % type.numberOfHeads
  cylinder := lbaSector / type.sectorsPerTrack.setWidth 32 / type.numberOfHeads

def floppyDma : BitVec 8 := 2

def fdOperationRead : BitVec 8 := 0xE6

/-- The bytes that are written to the data port. The sector has 512 bytes. -/
def readCommand (type : MediaType) (chs : Chs) : List (BitVec 8) :=
  [fdOperationRead, chs.head.setWidth 8 <<< 2, chs.cylinder.setWidth 8, chs.head.setWidth 8, chs.sector.setWidth 8, 2,
    type.numberOfSectors.setWidth 8, type.gap1Size, 0xFF]

def fdNormalExit : BitVec 2 := 0
def fdAbort : BitVec 2 := 1
def fdInvalidCmd : BitVec 2 := 2
def fdNotReady : BitVec 2 := 3

/-- The first two of the seven bytes that the controller answers, and what stands in the pages of the request then. -/
structure Reply where
  st0 : BitVec 8
  st1 : BitVec 8
  page : Buffer

def Reply.interruptCode (reply : Reply) : BitVec 2 := reply.st0.extractLsb' 6 2

def Reply.sectorNotFound (reply : Reply) : Bool := reply.st1.getLsbD 2

/-- The controller, by the command and by what the DMA controller was told; one that never gets ready answers nothing. -/
abbrev Controller := List (BitVec 8) → List PortWrite → Option Reply

/-- An invalid command is taken for a success. -/
def Reply.status (reply : Reply) : Status :=
  if reply.interruptCode = fdNotReady then .deviceNotReady
  else if reply.interruptCode = fdAbort then
    if reply.sectorNotFound then .invalidParameter else .unsuccessful
  else .success

structure ReadResult (H : Type) where
  status : Status
  nBytesRead : Option (BitVec 32)
  state : DmaState H

/-- The pages of a request are mapped in one place. -/
def transferred {H : Type} (s : DmaState H) (request : DmaRequest) (page : Buffer) : DmaState H :=
  { s with memory := memcpy s.memory request.mappedPhysical.toNat page 0 (request.pageCount.toNat * 4096) }

section driver

variable {H : Type} (K : Ex.KernelHeap H) (ws : Nat → Bool) (checked : Bool) (type : MediaType)

/-- The command, when the request is made. -/
def readSector (s : DmaState H) (writes : List PortWrite) (controller : Controller) (chs : Chs) (size : BitVec 32)
    (dmaReq : Nat) : Option (ReadResult H) := do
  let request ← s.requests dmaReq
  let reply ← controller (readCommand type chs) writes
  let s ← halCompleteDmaRequest K checked (transferred s request reply.page) dmaReq
  some ⟨reply.status, if reply.status.isSuccess then some size else none, s⟩

def dmaCall (buffer size : BitVec 32) : DmaCall := ⟨dmaModeRead, floppyDma, buffer, size⟩

/-- The number behind that of the last sector passes the test, too. -/
def fdPerformRead (s : DmaState H) (controller : Controller) (clusterNumber buffer size : BitVec 32) (fuel : Nat) :
    Option (ReadResult H) :=
  if type.numberOfSectors < clusterNumber then some ⟨.invalidParameter, none, s⟩
  else
    let chs := lbaToChs type clusterNumber
    if type.sectorsPerTrack.setWidth 32 < chs.sector then some ⟨.invalidParameter, none, s⟩
    else
      (halInitializeDmaRequest K ws s (dmaCall buffer size) fuel).bind fun r =>
        if !r.status.isSuccess then some ⟨r.status, none, r.state⟩
        else r.dmaRequest.bind fun dmaReq => readSector K checked type r.state r.writes controller chs size dmaReq

end driver

section requests

variable {H : Type} {K : Ex.KernelHeap H} {ws : Nat → Bool} {checked : Bool} {s t : DmaState H} {call : DmaCall}
  {r : DmaResult H} {memory : Buffer} {fuel dmaReq : Nat}

/-- What a request that is made for a read tells of, while it leaves the memory alone. -/
structure ReadRequest (s : DmaState H) (call : DmaCall) (r : DmaResult H) (dmaReq : Nat) : Prop where
  request : ∃ request, r.state.requests dmaReq = some request ∧ request.readOperation = true ∧
    request.buffer = call.buffer ∧ request.bufferSize = call.size ∧ request.pageCount = pageCountOf call.size
  memory : r.state.memory = s.memory

/-- The memory plays no part until a request has its pages and their mapping. -/
theorem initializeDma_entry {q : Nat} (run : initializeDma K ws s call q fuel = some r) :
    (r.dmaRequest = none ∧ ∀ memory,
      initializeDma K ws { s with memory } call q fuel = some { r with state := { r.state with memory } }) ∨
    ∃ t i mapped, t.memory = s.memory ∧ r = startDma t call q i mapped ∧ ∀ memory,
      initializeDma K ws { s with memory } call q fuel = some (startDma { t with memory } call q i mapped) := by
  unfold initializeDma at run ⊢
  obtain ⟨⟨i, table⟩, found, rest⟩ := Option.bind_eq_some_iff.mp run
  simp only [found, Option.bind_some] at rest ⊢
  by_cases page : i = 0
  · rw [if_pos page] at rest
    cases rest
    refine .inl ⟨rfl, fun memory => ?_⟩
    rw [if_pos page]
    rfl
  rw [if_neg page] at rest
  obtain ⟨m, mapped, rest⟩ := Option.bind_eq_some_iff.mp rest
  simp only [if_neg page, mapped, Option.bind_some]
  by_cases nowhere : m.address = 0
  · rw [if_pos nowhere] at rest
    cases freed : halFreePhysicalLowMegPages table i (pageCountOf call.size) with
    | error _ =>
      rw [freed] at rest
      cases rest
    | ok lowMeg =>
      rw [freed] at rest
      cases rest
      refine .inl ⟨rfl, fun memory => ?_⟩
      rw [if_pos nowhere]
      rfl
  · rw [if_neg nowhere] at rest
    cases rest
    refine .inr ⟨{ s with lowMeg := table }, i, m, rfl, rfl, fun memory => ?_⟩
    rw [if_neg nowhere]

/-- Nor does it before a request has its channel and its block. -/
theorem halInitializeDmaRequest_entry (run : halInitializeDmaRequest K ws s call fuel = some r) :
    (r.dmaRequest = none ∧ ∀ memory,
      halInitializeDmaRequest K ws { s with memory } call fuel = some { r with state := { r.state with memory } }) ∨
    ∃ t q i mapped, t.memory = s.memory ∧ r = startDma t call q i mapped ∧ ∀ memory,
      halInitializeDmaRequest K ws { s with memory } call fuel = some (startDma { t with memory } call q i mapped) := by
  unfold halInitializeDmaRequest at run ⊢
  dsimp only at run ⊢
  by_cases busy : s.controllerBusy = 1
  · rw [if_pos busy] at run
    cases run
    refine .inl ⟨rfl, fun memory => ?_⟩
    rw [if_pos busy]
    rfl
  rw [if_neg busy] at run
  by_cases refused : (!(halRequestDma s.channelBusy call.channel).1.isSuccess) = true
  · rw [if_pos refused] at run
    cases run
    refine .inl ⟨rfl, fun memory => ?_⟩
    rw [if_neg busy, if_pos refused]
    rfl
  rw [if_neg refused] at run
  simp only [if_neg busy, if_neg refused]
  cases block : K.exAllocateHeap s.heap sizeofDmaRequest with
  | none =>
    rw [block] at run
    cases run
    exact .inl ⟨rfl, fun _ => rfl⟩
  | some b =>
    rw [block] at run
    obtain failed | ⟨t, i, mapped, same, made, again⟩ := initializeDma_entry run
    · exact .inl failed
    · exact .inr ⟨t, b.1, i, mapped, same, made, again⟩

theorem halInitializeDmaRequest_read (read : call.dmaCommand = dmaModeRead)
    (run : halInitializeDmaRequest K ws s call fuel = some r) (made : r.dmaRequest = some dmaReq) :
    ReadRequest s call r dmaReq := by
  obtain ⟨none, -⟩ | ⟨t, q, i, mapped, same, rfl, -⟩ := halInitializeDmaRequest_entry run
  · rw [made] at none
    cases none
  · cases made
    have reads : decide (call.dmaCommand = dmaModeRead) = true := decide_eq_true read
    exact ⟨⟨_, Function.update_self .., reads, rfl, rfl, rfl⟩, (if_pos reads).trans same⟩

/-- A read is made whatever the memory holds. -/
theorem halInitializeDmaRequest_memory (memory : Buffer) (read : call.dmaCommand = dmaModeRead)
    (run : halInitializeDmaRequest K ws s call fuel = some r) :
    halInitializeDmaRequest K ws { s with memory } call fuel = some { r with state := { r.state with memory } } := by
  obtain ⟨-, again⟩ | ⟨t, q, i, mapped, -, rfl, again⟩ := halInitializeDmaRequest_entry run
  · exact again memory
  · have reads : decide (call.dmaCommand = dmaModeRead) = true := decide_eq_true read
    rw [again memory]
    simp only [startDma, reads, if_true]

theorem halCompleteDmaRequest_read {request : DmaRequest} (here : s.requests dmaReq = some request)
    (read : request.readOperation = true)
    (complete : halCompleteDmaRequest K checked { s with memory } dmaReq = some t) :
    t.memory = memcpy memory request.buffer.toNat memory request.mappedPhysical.toNat request.bufferSize.toNat ∧
      ∃ u, halCompleteDmaRequest K checked s dmaReq = some u ∧ t = { u with memory := t.memory } := by
  unfold halCompleteDmaRequest at complete ⊢
  simp only [here, Option.bind_eq_bind, Option.bind_some] at complete ⊢
  split at complete
  · cases complete
  · next asserts =>
    rw [if_neg asserts]
    obtain ⟨mm, unmapped, rest⟩ := Option.bind_eq_some_iff.mp complete
    rw [unmapped, Option.bind_some]
    cases freed : halFreePhysicalLowMegPages s.lowMeg request.pageUsed request.pageCount with
    | error _ =>
      rw [freed] at rest
      cases rest
    | ok lowMeg =>
      rw [freed] at rest
      cases rest
      exact ⟨rfl, _, rfl, rfl⟩

end requests

section reads

variable {H : Type} {K : Ex.KernelHeap H} {ws : Nat → Bool} {checked : Bool} {type : MediaType} {s t u : DmaState H}
  {controller : Controller} {clusterNumber buffer size : BitVec 32} {fuel dmaReq : Nat} {m : DmaResult H}
  {r : ReadResult H}

/-- A read is refused for its number, or it ends with its request, or the command is sent. -/
theorem fdPerformRead_inv (run : fdPerformRead K ws checked type s controller clusterNumber buffer size fuel = some r) :
    r = ⟨.invalidParameter, none, s⟩ ∨ ∃ m, halInitializeDmaRequest K ws s (dmaCall buffer size) fuel = some m ∧
      (m.status.isSuccess = false ∧ r = ⟨m.status, none, m.state⟩ ∨ m.status.isSuccess = true ∧ ∃ dmaReq,
        m.dmaRequest = some dmaReq ∧
        readSector K checked type m.state m.writes controller (lbaToChs type clusterNumber) size dmaReq = some r) := by
  unfold fdPerformRead at run
  split at run
  · exact .inl (Option.some.inj run).symm
  · dsimp only at run
    split at run
    · exact .inl (Option.some.inj run).symm
    · obtain ⟨m, made, rest⟩ := Option.bind_eq_some_iff.mp run
      refine .inr ⟨m, made, ?_⟩
      cases success : m.status.isSuccess with
      | false =>
        rw [success] at rest
        exact .inl ⟨rfl, (Option.some.inj rest).symm⟩
      | true =>
        rw [success] at rest
        obtain ⟨dmaReq, here, read⟩ := Option.bind_eq_some_iff.mp rest
        exact .inr ⟨rfl, dmaReq, here, read⟩

theorem readSector_inv {chs : Chs} {writes : List PortWrite}
    (run : readSector K checked type s writes controller chs size dmaReq = some r) : ∃ request reply,
      s.requests dmaReq = some request ∧ controller (readCommand type chs) writes = some reply ∧
      halCompleteDmaRequest K checked (transferred s request reply.page) dmaReq = some r.state ∧
      r.status = reply.status := by
  unfold readSector at run
  simp only [Option.bind_eq_bind] at run
  obtain ⟨request, here, rest⟩ := Option.bind_eq_some_iff.mp run
  obtain ⟨reply, answered, rest⟩ := Option.bind_eq_some_iff.mp rest
  obtain ⟨t, complete, rest⟩ := Option.bind_eq_some_iff.mp rest
  cases rest
  exact ⟨request, reply, here, answered, complete, rfl⟩

theorem readSector_some {chs : Chs} {writes : List PortWrite} {request : DmaRequest} {reply : Reply}
    (found : s.requests dmaReq = some request) (answered : controller (readCommand type chs) writes = some reply)
    (complete : halCompleteDmaRequest K checked (transferred s request reply.page) dmaReq = some t) :
    readSector K checked type s writes controller chs size dmaReq =
      some ⟨reply.status, if reply.status.isSuccess then some size else none, t⟩ := by
  unfold readSector
  simp only [found, answered, complete, Option.bind_eq_bind, Option.bind_some]

theorem Reply.status_cases (reply : Reply) : reply.status = .deviceNotReady ∨ reply.status = .invalidParameter ∨
    reply.status = .unsuccessful ∨ reply.status = .success := by
  unfold Reply.status
  split
  · exact .inl rfl
  · split
    · split
      · exact .inr (.inl rfl)
      · exact .inr (.inr (.inl rfl))
    · exact .inr (.inr (.inr rfl))

/-- A sector that is read for a request: what the request is, what the controller answers, and how the request ends. -/
structure Exchange (K : Ex.KernelHeap H) (checked : Bool) (type : MediaType) (m : DmaResult H) (controller : Controller)
    (chs : Chs) (buffer size : BitVec 32) (dmaReq : Nat) (r : ReadResult H) (request : DmaRequest) (reply : Reply) :
    Prop where
  found : m.state.requests dmaReq = some request
  read : request.readOperation = true
  place : request.buffer = buffer
  length : request.bufferSize = size
  pages : request.pageCount = pageCountOf size
  answered : controller (readCommand type chs) m.writes = some reply
  complete : halCompleteDmaRequest K checked (transferred m.state request reply.page) dmaReq = some r.state
  status : r.status = reply.status

theorem readSector_exchange {chs : Chs} (made : halInitializeDmaRequest K ws s (dmaCall buffer size) fuel = some m)
    (here : m.dmaRequest = some dmaReq)
    (run : readSector K checked type m.state m.writes controller chs size dmaReq = some r) :
    ∃ request reply, Exchange K checked type m controller chs buffer size dmaReq r request reply := by
  obtain ⟨request, reply, found, answered, complete, status⟩ := readSector_inv run
  obtain ⟨request', found', read, place, length, pages⟩ := (halInitializeDmaRequest_read rfl made here).request
  cases found.symm.trans found'
  exact ⟨request, reply, found, read, place, length, pages, answered, complete, status⟩

/-- What the controller has put in the pages is in the buffer then. -/
theorem Exchange.bytes {chs : Chs} {request : DmaRequest} {reply : Reply} {j : Nat}
    (done : Exchange K checked type m controller chs buffer size dmaReq r request reply)
    (fits : size.toNat ≤ (pageCountOf size).toNat * 4096) (below : j < size.toNat) :
    r.state.memory (buffer.toNat + j) = reply.page j := by
  have copied := (halCompleteDmaRequest_read done.found done.read done.complete).1
  rw [done.place, done.length, done.pages] at copied
  have inBuffer : buffer.toNat + j < buffer.toNat + size.toNat := by omega
  have inPages : request.mappedPhysical.toNat + j <
      request.mappedPhysical.toNat + (pageCountOf size).toNat * 4096 := by omega
  have start : buffer.toNat + j - buffer.toNat = j := by omega
  have mapped : 0 + (request.mappedPhysical.toNat + j - request.mappedPhysical.toNat) = j := by omega
  rw [copied, memcpy_inside (Nat.le_add_right _ _) inBuffer, start, memcpy_inside (Nat.le_add_right _ _) inPages, mapped]

/-- When the command was sent, the request has given back what it had. -/
theorem readSector_unchanged {chs : Chs} (idle : s.controllerBusy = 0)
    (made : halInitializeDmaRequest K ws s (dmaCall buffer size) fuel = some m) (here : m.dmaRequest = some dmaReq)
    (run : readSector K checked type m.state m.writes controller chs size dmaReq = some r) :
    Unchanged K s r.state ∧ r.status ≠ .insufficientResources := by
  have ready : s.controllerBusy ≠ 1 := by
    rw [idle]
    decide
  obtain ⟨request, reply, done⟩ := readSector_exchange made here run
  obtain ⟨-, u, ends, same⟩ := halCompleteDmaRequest_read done.found done.read done.complete
  obtain ⟨controller, channels, pages, live⟩ := complete_restores ready made here ends
  refine ⟨?_, ?_⟩
  · rw [same]
    exact ⟨controller.trans idle.symm, channels, pages, live⟩
  · rw [done.status]
    rcases reply.status_cases with other | other | other | other <;> rw [other] <;> decide

theorem unchanged_trans (first : Unchanged K s t) (second : Unchanged K t u) : Unchanged K s u :=
  ⟨second.controllerBusy.trans first.controllerBusy, second.channelBusy.trans first.channelBusy,
    second.lowMeg.trans first.lowMeg, second.live.trans first.live⟩

structure SectorRead where
  controller : Controller
  clusterNumber : BitVec 32
  buffer : BitVec 32
  size : BitVec 32

/-- A read that returns with a status. -/
def sectorStep (K : Ex.KernelHeap H) (ws : Nat → Bool) (checked : Bool) (type : MediaType) (s : DmaState H)
    (c : SectorRead × Status) (t : DmaState H) : Prop :=
  ∃ fuel r, fdPerformRead K ws checked type s c.1.controller c.1.clusterNumber c.1.buffer c.1.size fuel = some r ∧
    r.status = c.2 ∧ r.state = t

variable {c : SectorRead × Status} {cs : List (SectorRead × Status)}

theorem idle_step (idle : s.controllerBusy = 0) (step : sectorStep K ws checked type s c t) :
    Unchanged K s t ∧ c.2 ≠ .insufficientResources ∨ t.controllerBusy = 1 ∧ c.2 = .insufficientResources := by
  have ready : s.controllerBusy ≠ 1 := by
    rw [idle]
    decide
  obtain ⟨fuel, r, run, status, rfl⟩ := step
  rw [← status]
  obtain rfl | ⟨m, made, ⟨failed, rfl⟩ | ⟨success, dmaReq, here, read⟩⟩ := fdPerformRead_inv run
  · have other : Status.invalidParameter ≠ .insufficientResources := by decide
    exact .inl ⟨⟨rfl, rfl, rfl, rfl⟩, other⟩
  · obtain ⟨taken, ⟨lacks, -⟩ | ⟨_, _, _, _, done⟩⟩ := halInitializeDmaRequest_inv ready made
    · exact .inr ⟨taken, lacks⟩
    · rw [done.status] at failed
      cases failed
  · exact .inl (readSector_unchanged idle made here read)

theorem stuck_step (busy : s.controllerBusy = 1) (step : sectorStep K ws checked type s c t) :
    t = s ∧ (c.2 = .busy ∨ c.2 = .invalidParameter) := by
  obtain ⟨fuel, r, run, status, rfl⟩ := step
  rw [← status]
  obtain rfl | ⟨m, made, rest⟩ := fdPerformRead_inv run
  · exact ⟨rfl, .inr rfl⟩
  · unfold halInitializeDmaRequest at made
    rw [if_pos busy] at made
    cases made
    obtain ⟨-, rfl⟩ | ⟨success, -⟩ := rest
    · exact ⟨rfl, .inl rfl⟩
    · cases success

theorem stuck_run (busy : s.controllerBusy = 1) (run : Run (sectorStep K ws checked type) s cs t) :
    t = s ∧ ∀ c ∈ cs, c.2 = .busy ∨ c.2 = .invalidParameter := by
  induction run with
  | done s => exact ⟨rfl, List.forall_mem_nil _⟩
  | next first _ ih =>
    obtain ⟨rfl, refused⟩ := stuck_step busy first
    obtain ⟨same, rest⟩ := ih busy
    exact ⟨same, List.forall_mem_cons.mpr ⟨refused, rest⟩⟩

/-- However many sectors are read: as long as no request lacks its channel, a block of the heap, a page or a mapping, every
read gives back what its request had; from then on every read is refused, and nothing is read any more. -/
theorem reads_until_failure (idle : s.controllerBusy = 0) (run : Run (sectorStep K ws checked type) s cs t) :
    Unchanged K s t ∧ (∀ c ∈ cs, c.2 ≠ .insufficientResources) ∨
      ∃ served c refused u, cs = served ++ c :: refused ∧ Run (sectorStep K ws checked type) s served u ∧
        Unchanged K s u ∧ (∀ d ∈ served, d.2 ≠ .insufficientResources) ∧ sectorStep K ws checked type u c t ∧
        c.2 = .insufficientResources ∧ ∀ d ∈ refused, d.2 = .busy ∨ d.2 = .invalidParameter := by
  induction run with
  | done s => exact .inl ⟨⟨rfl, rfl, rfl, rfl⟩, List.forall_mem_nil _⟩
  | @next s u t c cs first rest ih =>
    obtain ⟨same, served⟩ | ⟨busy, lacks⟩ := idle_step idle first
    · obtain ⟨after, others⟩ | ⟨front, d, refused, v, split, early, before, others, step, lacks, late⟩ :=
        ih (same.controllerBusy.trans idle)
      · exact .inl ⟨unchanged_trans same after, List.forall_mem_cons.mpr ⟨served, others⟩⟩
      · exact .inr ⟨c :: front, d, refused, v, by rw [split, List.cons_append], .next first early,
          unchanged_trans same before,
          List.forall_mem_cons.mpr ⟨served, others⟩, step, lacks, late⟩
    · obtain ⟨rfl, refused⟩ := stuck_run busy rest
      exact .inr ⟨[], c, cs, s, rfl, .done s, ⟨rfl, rfl, rfl, rfl⟩, List.forall_mem_nil _, first, lacks, refused⟩

end reads

/-- A machine without a block for a request: the first read takes the controller from all others. -/
def readFirst : SectorRead := ⟨fun _ _ => none, 0, 0x8000, 512⟩

theorem noBlock_run : ∃ t, Run (sectorStep (Ex.bumpHeap 0) (fun _ => false) true fdpCurrentType) (started 16)
    [(readFirst, .insufficientResources), (readFirst, .busy)] t := by
  have fails : (fdPerformRead (Ex.bumpHeap 0) (fun _ => false) true fdpCurrentType (started 16) readFirst.controller
      readFirst.clusterNumber readFirst.buffer readFirst.size 40).map (·.status) = some .insufficientResources := by
    decide
  obtain ⟨r, run, status⟩ := Option.map_eq_some_iff.mp fails
  have first : sectorStep (Ex.bumpHeap 0) (fun _ => false) true fdpCurrentType (started 16)
    (readFirst, .insufficientResources) r.state := ⟨40, r, run, status, rfl⟩
  have busy : r.state.controllerBusy = 1 := by
    obtain ⟨-, other⟩ | ⟨busy, -⟩ := idle_step rfl first
    · exact absurd rfl other
    · exact busy
  have inside : ¬fdpCurrentType.numberOfSectors < readFirst.clusterNumber := by decide
  have onTrack : ¬fdpCurrentType.sectorsPerTrack.setWidth 32 <
    (lbaToChs fdpCurrentType readFirst.clusterNumber).sector := by decide
  have refused : fdPerformRead (Ex.bumpHeap 0) (fun _ => false) true fdpCurrentType r.state readFirst.controller
      readFirst.clusterNumber readFirst.buffer readFirst.size 40 = some ⟨.busy, none, r.state⟩ := by
    unfold fdPerformRead halInitializeDmaRequest
    rw [if_neg inside]
    dsimp only
    rw [if_neg onTrack, if_pos busy]
    rfl
  exact ⟨r.state, .next first (.next ⟨40, _, refused, rfl, rfl⟩ (.done _))⟩

theorem noBlock_refused : ∃ served c refused,
    [(readFirst, Status.insufficientResources), (readFirst, .busy)] = served ++ c :: refused ∧
      c.2 = .insufficientResources ∧ ∀ d ∈ refused, d.2 = .busy ∨ d.2 = .invalidParameter := by
  obtain ⟨t, run⟩ := noBlock_run
  obtain ⟨-, others⟩ | ⟨served, c, refused, _, split, -, -, -, -, lacks, late⟩ := reads_until_failure rfl run
  · exact absurd rfl (others (readFirst, .insufficientResources) List.mem_cons_self)
  · exact ⟨served, c, refused, split, lacks, late⟩

end Gr8os.Floppy
