import Gr8os.Hal.Dma
import Gr8os.Hal.LowMegRuns

/-! What a DMA request leaves behind when it fails, and what the controller is told when it succeeds. -/
namespace Gr8os.Hal

section inversion

variable {H : Type} {K : Ex.KernelHeap H} {ws : Nat → Bool} {s : DmaState H} {call : DmaCall} {i : BitVec 8}
  {r : DmaResult H} {fuel : Nat}

/-- The channel, a block of the heap, a run of pages that does not begin at page 0, and a mapping are all there. -/
structure Granted (K : Ex.KernelHeap H) (ws : Nat → Bool) (s : DmaState H) (call : DmaCall) (i : BitVec 8) : Prop where
  channel : call.channel.toNat < maxDmaChannels
  free : s.channelBusy call.channel = 0
  block : ∃ b, K.exAllocateHeap s.heap sizeofDmaRequest = some b
  chosen : Chosen (pageCountOf call.size) s.lowMeg i
  page : i ≠ 0
  mapped : ∃ m, mmMapPhysicalPagesKernel ws s.mm (physicalAddress i) ((pageCountOf call.size).setWidth 32) = some m ∧
    m.address ≠ 0

/-- A request that is returned with success, after the channel and the block were taken. -/
structure Made (s : DmaState H) (call : DmaCall) (dmaReq : Nat) (i : BitVec 8) (r : DmaResult H) : Prop where
  status : r.status = .success
  writes : r.writes = programDma call i
  dmaRequest : r.dmaRequest = some dmaReq
  request : ∃ request, r.state.requests dmaReq = some request ∧ request.channel = call.channel ∧ request.pageUsed = i ∧
    request.pageCount = pageCountOf call.size
  lowMeg : r.state.lowMeg = allocatedRun s.lowMeg i (pageCountOf call.size)
  channelBusy : r.state.channelBusy = s.channelBusy
  heap : r.state.heap = s.heap

theorem Made.start (s : DmaState H) (call : DmaCall) (dmaReq : Nat) (mapped : Mm.MapResult) :
    Made s call dmaReq i
      (startDma { s with lowMeg := allocatedRun s.lowMeg i (pageCountOf call.size) } call dmaReq i mapped) where
  status := rfl
  writes := rfl
  dmaRequest := rfl
  request := ⟨_, Function.update_self .., rfl, rfl, rfl⟩
  lowMeg := rfl
  channelBusy := rfl
  heap := rfl

def claimed (s : DmaState H) (call : DmaCall) (heap : H) : DmaState H :=
  { s with controllerBusy := 1, channelBusy := Function.update s.channelBusy call.channel 1, heap }

theorem halRequestDma_granted {t : ChannelTable} {c : BitVec 8} (below : c.toNat < maxDmaChannels) (free : t c = 0) :
    halRequestDma t c = (.success, Function.update t c 1) := by
  unfold halRequestDma
  rw [if_neg (Nat.not_le_of_lt below), if_neg (not_not_intro free)]

theorem halRequestDma_success {t : ChannelTable} {c : BitVec 8} (success : (halRequestDma t c).1.isSuccess = true) :
    c.toNat < maxDmaChannels ∧ t c = 0 := by
  unfold halRequestDma at success
  split at success
  · cases success
  · next below =>
    refine ⟨Nat.lt_of_not_le below, ?_⟩
    by_contra taken
    rw [if_pos taken] at success
    cases success

/-- A request that has its channel and its block fails, or the pages and the mapping are there. -/
theorem initializeDma_inv {dmaReq : Nat} (run : initializeDma K ws s call dmaReq fuel = some r) :
    r.state.controllerBusy = s.controllerBusy ∧
      (r.status = .insufficientResources ∧ r.dmaRequest = none ∨
        ∃ i, Chosen (pageCountOf call.size) s.lowMeg i ∧ i ≠ 0 ∧
          (∃ m, mmMapPhysicalPagesKernel ws s.mm (physicalAddress i) ((pageCountOf call.size).setWidth 32) = some m ∧
            m.address ≠ 0) ∧ Made s call dmaReq i r) := by
  unfold initializeDma at run
  obtain ⟨⟨i, table⟩, found, rest⟩ := Option.bind_eq_some_iff.mp run
  dsimp only at rest
  obtain ⟨chosen, marks⟩ := allocates_iff.mp ⟨fuel, found⟩
  obtain rfl : table = allocatedRun s.lowMeg i (pageCountOf call.size) := marks
  by_cases page : i = 0
  · rw [if_pos page] at rest
    cases rest
    exact ⟨rfl, .inl ⟨rfl, rfl⟩⟩
  · rw [if_neg page] at rest
    obtain ⟨m, mapped, rest⟩ := Option.bind_eq_some_iff.mp rest
    by_cases nowhere : m.address = 0
    · rw [if_pos nowhere] at rest
      split at rest
      · cases rest
      · cases rest
        exact ⟨rfl, .inl ⟨rfl, rfl⟩⟩
    · rw [if_neg nowhere] at rest
      cases rest
      exact ⟨rfl, .inr ⟨i, chosen, page, ⟨m, mapped, nowhere⟩, .start ..⟩⟩

theorem halInitializeDmaRequest_inv (idle : s.controllerBusy ≠ 1)
    (run : halInitializeDmaRequest K ws s call fuel = some r) :
    r.state.controllerBusy = 1 ∧
      (r.status = .insufficientResources ∧ r.dmaRequest = none ∨ ∃ i block, Granted K ws s call i ∧
        K.exAllocateHeap s.heap sizeofDmaRequest = some block ∧ Made (claimed s call block.2) call block.1 i r) := by
  unfold halInitializeDmaRequest at run
  rw [if_neg idle] at run
  by_cases channel : (halRequestDma s.channelBusy call.channel).1.isSuccess = true
  · rw [if_neg (by simpa using channel)] at run
    obtain ⟨below, free⟩ := halRequestDma_success channel
    cases block : K.exAllocateHeap s.heap sizeofDmaRequest with
    | none =>
      rw [block] at run
      cases run
      exact ⟨rfl, .inl ⟨rfl, rfl⟩⟩
    | some b =>
      rw [block] at run
      obtain ⟨marked, failed | ⟨i, chosen, page, mapped, made⟩⟩ := initializeDma_inv run
      · exact ⟨marked, .inl failed⟩
      · rw [halRequestDma_granted below free] at made
        exact ⟨marked, .inr ⟨i, b, ⟨below, free, ⟨b, block⟩, chosen, page, mapped⟩, rfl, made⟩⟩
  · rw [if_pos (by simpa using channel)] at run
    cases run
    exact ⟨rfl, .inl ⟨rfl, rfl⟩⟩

theorem Granted.succeeds (granted : Granted K ws s call i) (idle : s.controllerBusy ≠ 1) :
    ∃ fuel r, halInitializeDmaRequest K ws s call fuel = some r ∧ r.status = .success := by
  obtain ⟨⟨dmaReq, heap⟩, block⟩ := granted.block
  obtain ⟨m, mapped, somewhere⟩ := granted.mapped
  have found : Allocates _ _ (i, allocatedRun s.lowMeg i (pageCountOf call.size)) :=
    allocates_iff.mpr ⟨granted.chosen, rfl⟩
  obtain ⟨fuel, found⟩ := found
  have allowed := halRequestDma_granted granted.channel granted.free
  refine ⟨fuel, ?_⟩
  unfold halInitializeDmaRequest
  rw [if_neg idle, allowed]
  simp only [block]
  unfold initializeDma
  simp only [found, Option.bind_some]
  rw [if_neg granted.page, mapped, Option.bind_some, if_neg somewhere]
  exact ⟨_, rfl, rfl⟩

end inversion

section controller

variable {call : DmaCall} {writes : List PortWrite} {request : DmaRequest}

def bytesWritten (writes : List PortWrite) (port : BitVec 16) : List (BitVec 8) :=
  (writes.filter fun w => w.port = port).map (·.value)

def InOneRegion (request : DmaRequest) : Prop :=
  ∃ region, ∀ address, request.pageUsed.toNat * 4096 ≤ address →
    address < (request.pageUsed.toNat + request.pageCount.toNat) * 4096 → address / 65536 = region

/-- The page and the offset that the channel is given lead to the first byte of the pages. -/
def Addressed (writes : List PortWrite) (request : DmaRequest) : Prop :=
  ∃ low high page, bytesWritten writes (halpDmaAddr.getD request.channel.toNat 0) = [low, high] ∧
    bytesWritten writes (halpDmaPage.getD request.channel.toNat 0) = [page] ∧
    page.toNat * 65536 + (high.toNat * 256 + low.toNat) = request.pageUsed.toNat * 4096

theorem inOneRegion_iff : InOneRegion request ↔
    request.pageUsed.toNat % 16 + request.pageCount.toNat ≤ 16 := by
  unfold InOneRegion
  generalize request.pageUsed.toNat = p
  generalize request.pageCount.toNat = n
  constructor
  · rintro ⟨region, within⟩
    by_cases none : n = 0
    · omega
    · have first := within (p * 4096) (Nat.le_refl _) (by omega)
      have last := within ((p + n) * 4096 - 1) (by omega) (by omega)
      omega
  · intro short
    refine ⟨p / 16, ?_⟩
    intro address above under
    omega

theorem channel_cases {c : BitVec 8} (below : c.toNat < maxDmaChannels) :
    c = 0 ∨ c = 1 ∨ c = 2 ∨ c = 3 ∨ c = 4 ∨ c = 5 ∨ c = 6 ∨ c = 7 := by
  unfold maxDmaChannels at below
  bv_omega

/-- No other port of the channel is the one of its address or of its page. -/
theorem programDma_bytes (below : call.channel.toNat < maxDmaChannels) (i : BitVec 8) :
    bytesWritten (programDma call i) (halpDmaAddr.getD call.channel.toNat 0) =
        [((physicalAddress i &&& 0xFFFF).setWidth 16).setWidth 8,
          ((physicalAddress i &&& 0xFFFF).setWidth 16 >>> 8).setWidth 8] ∧
      bytesWritten (programDma call i) (halpDmaPage.getD call.channel.toNat 0) =
        [(((physicalAddress i >>> 16) &&& 0xFF).setWidth 16).setWidth 8] := by
  obtain ⟨dmaCommand, channel, buffer, size⟩ := call
  rcases channel_cases below with rfl | rfl | rfl | rfl | rfl | rfl | rfl | rfl
  all_goals exact ⟨rfl, rfl⟩

theorem physicalAddress_parts (i : BitVec 8) :
    ((((physicalAddress i >>> 16) &&& 0xFF).setWidth 16).setWidth 8 : BitVec 8).toNat * 65536 +
        ((((physicalAddress i &&& 0xFFFF).setWidth 16 >>> 8).setWidth 8 : BitVec 8).toNat * 256 +
          (((physicalAddress i &&& 0xFFFF).setWidth 16).setWidth 8 : BitVec 8).toNat) = i.toNat * 4096 := by
  revert i
  decide

end controller

section pages

variable {H : Type} {K : Ex.KernelHeap H} {ws : Nat → Bool} {s : DmaState H} {call : DmaCall} {r : DmaResult H}

/-- The pages of a request that succeeds cross no boundary of 64 KB just if the run that the search comes to first
crosses none. -/
theorem dma_confined_iff {fuel dmaReq : Nat} {request : DmaRequest}
    (run : halInitializeDmaRequest K ws s call fuel = some r) (made : r.dmaRequest = some dmaReq)
    (here : r.state.requests dmaReq = some request) : InOneRegion request ∧ Addressed r.writes request ↔
      ∃ i, Chosen (pageCountOf call.size) s.lowMeg i ∧ i.toNat % 16 + (pageCountOf call.size).toNat ≤ 16 := by
  by_cases idle : s.controllerBusy = 1
  · unfold halInitializeDmaRequest at run
    rw [if_pos idle] at run
    cases run
    cases made
  obtain ⟨-, ⟨-, none⟩ | ⟨i, block, granted, -, done⟩⟩ := halInitializeDmaRequest_inv idle run
  · rw [made] at none
    cases none
  obtain ⟨found, there, channel, page, count⟩ := done.request
  have same := done.dmaRequest
  rw [made] at same
  cases same
  rw [here] at there
  cases there
  have addressed : Addressed r.writes request := by
    obtain ⟨offset, segment⟩ := programDma_bytes granted.channel i
    rw [done.writes]
    refine ⟨_, _, _, channel ▸ offset, channel ▸ segment, ?_⟩
    rw [page]
    exact physicalAddress_parts i
  rw [and_iff_left addressed, inOneRegion_iff, page, count]
  constructor
  · intro short
    exact ⟨i, granted.chosen, short⟩
  · rintro ⟨j, chosen, short⟩
    rwa [granted.chosen.unique chosen]

end pages

/-- The machine when it is started. The first pages are reserved up to some page. -/
def started (firstFree : BitVec 8) : DmaState Ex.Bump where
  controllerBusy := 0
  channelBusy c := if c = 0 ∨ c = 4 then 1 else 0
  lowMeg p := if p < firstFree then .reserved else .free
  heap := ⟨1, [], fun _ member => absurd member List.not_mem_nil⟩
  mm := {
    physicalMemoryPages := 256
    mmPpdDatabase := 1200
    ppd := fun _ => { u1 := 0, u2 := 0, pageLocation := .activeAndValid, modified := false }
    pageListHead := fun _ => 0
    pte := fun _ => 0 }
  memory _ := 0
  requests _ := none

def twoPages : DmaCall := { dmaCommand := dmaModeRead, channel := 2, buffer := 0x8000, size := 8192 }

def twoPagesRequest (i : BitVec 8) : DmaRequest where
  readOperation := true
  channel := 2
  buffer := 0x8000
  bufferSize := 8192
  pageUsed := i
  pageCount := 2
  mappedPhysical := 0xFF000000

theorem started_request (i : BitVec 8) (run : i = 15 ∨ i = 16) :
    ∃ r, halInitializeDmaRequest (Ex.bumpHeap 64) (fun _ => false) (started i) twoPages 40 = some r ∧
      r.dmaRequest = some 1 ∧ r.state.requests 1 = some (twoPagesRequest i) := by
  have made : (halInitializeDmaRequest (Ex.bumpHeap 64) (fun _ => false) (started i) twoPages 40).map
      (fun r => (r.dmaRequest, r.state.requests 1)) = some (some 1, some (twoPagesRequest i)) := by
    rcases run with rfl | rfl
    · decide
    · decide
  obtain ⟨r, returned, same⟩ := Option.map_eq_some_iff.mp made
  exact ⟨r, returned, congrArg Prod.fst same, congrArg Prod.snd same⟩

theorem started_chosen : Chosen 2 (started 16).lowMeg 16 :=
  (allocates_iff (r := (16, _)).mp ⟨40, rfl⟩).1

theorem dma_confined_started : ∃ r,
    halInitializeDmaRequest (Ex.bumpHeap 64) (fun _ => false) (started 16) twoPages 40 = some r ∧
      InOneRegion (twoPagesRequest 16) ∧ Addressed r.writes (twoPagesRequest 16) := by
  obtain ⟨r, run, made, here⟩ := started_request 16 (.inr rfl)
  exact ⟨r, run, (dma_confined_iff run made here).mpr ⟨16, started_chosen, by decide⟩⟩

theorem dma_crosses : ∃ r, halInitializeDmaRequest (Ex.bumpHeap 64) (fun _ => false) (started 15) twoPages 40 = some r ∧
    r.state.requests 1 = some (twoPagesRequest 15) ∧ ¬InOneRegion (twoPagesRequest 15) := by
  obtain ⟨r, run, -, here⟩ := started_request 15 (.inl rfl)
  refine ⟨r, run, here, fun within => ?_⟩
  exact absurd (inOneRegion_iff.mp within) (by decide)

section failures

variable {H : Type} {K : Ex.KernelHeap H} {ws : Nat → Bool} {s : DmaState H} {call : DmaCall} {r : DmaResult H}

/-- What a failed request is to leave as it was. -/
structure Unchanged (K : Ex.KernelHeap H) (s t : DmaState H) : Prop where
  controllerBusy : t.controllerBusy = s.controllerBusy
  channelBusy : t.channelBusy = s.channelBusy
  lowMeg : t.lowMeg = s.lowMeg
  live : K.live t.heap = K.live s.heap

/-- The request returns, and if it fails then nothing has changed. -/
def FailsUnchanged (K : Ex.KernelHeap H) (ws : Nat → Bool) (s : DmaState H) (call : DmaCall) : Prop :=
  ∃ fuel r, halInitializeDmaRequest K ws s call fuel = some r ∧ (r.status.isSuccess = false → Unchanged K s r.state)

/-- No way to fail but the first one gives the controller back. -/
theorem failsUnchanged_iff : FailsUnchanged K ws s call ↔ s.controllerBusy = 1 ∨ ∃ i, Granted K ws s call i := by
  by_cases idle : s.controllerBusy = 1
  · refine iff_of_true ⟨0, .failed .busy s, ?_, fun _ => ⟨rfl, rfl, rfl, rfl⟩⟩ (.inl idle)
    unfold halInitializeDmaRequest
    exact if_pos idle
  rw [or_iff_right idle]
  constructor
  · rintro ⟨fuel, r, run, unchanged⟩
    obtain ⟨marked, ⟨failed, -⟩ | ⟨i, _, granted, -⟩⟩ := halInitializeDmaRequest_inv idle run
    · have same := (unchanged (by rw [failed]; rfl)).controllerBusy
      exact absurd (same.symm.trans marked) idle
    · exact ⟨i, granted⟩
  · rintro ⟨i, granted⟩
    obtain ⟨fuel, r, run, success⟩ := granted.succeeds idle
    refine ⟨fuel, r, run, fun failed => ?_⟩
    rw [success] at failed
    cases failed

theorem refused_after_failure {fuel : Nat} (run : halInitializeDmaRequest K ws s call fuel = some r) (later : DmaCall)
    (more : Nat) (idle : s.controllerBusy ≠ 1) :
    halInitializeDmaRequest K ws r.state later more = some (.failed .busy r.state) := by
  unfold halInitializeDmaRequest
  exact if_pos (halInitializeDmaRequest_inv idle run).1

/-- The channel that joins the controllers is busy from the start. -/
theorem channelFour_keeps_controller :
    ¬FailsUnchanged (Ex.bumpHeap 64) (fun _ => false) (started 16) { twoPages with channel := 4 } := by
  rintro ⟨fuel, r, run, unchanged⟩
  obtain ⟨marked, ⟨failed, -⟩ | ⟨i, _, granted, -⟩⟩ := halInitializeDmaRequest_inv (by decide) run
  · have same := (unchanged (by rw [failed]; rfl)).controllerBusy
    rw [marked] at same
    cases same
  · exact absurd granted.free (by decide)

end failures

section completion

variable {H : Type} {K : Ex.KernelHeap H} {ws : Nat → Bool} {s t : DmaState H} {call : DmaCall} {r : DmaResult H}

theorem freed_allocatedRun {table : BusyTable} {i pageCount : BitVec 8} (fits : Fits pageCount table i) :
    halFreePhysicalLowMegPages (allocatedRun table i pageCount) i pageCount = .ok table := by
  have frees : halFreePhysicalLowMegPages (allocatedRun table i pageCount) i pageCount = _ :=
    @halFree_allocated _ ⟨i, pageCount⟩ fits.below fun p covers => allocatedRun_covered ⟨i, pageCount⟩ covers
  rw [frees]
  refine congrArg Except.ok (funext fun p => ?_)
  by_cases covers : PageRun.Covers ⟨i, pageCount⟩ p
  · rw [freedRun_covered covers, fits.free p covers.1 covers.2]
  · rw [freedRun_other covers, allocatedRun_other ⟨i, pageCount⟩ covers]

theorem halFreeDma_requested {c : BitVec 8} {busy : ChannelTable} (below : c.toNat < maxDmaChannels)
    (free : busy c = 0) : (halFreeDma (Function.update busy c 1) c).2 = busy := by
  have same : Function.update (Function.update busy c 1) c 0 = busy := by
    rw [Function.update_idem, ← free, Function.update_eq_self]
  unfold halFreeDma
  rw [if_neg (Nat.not_le_of_lt below), if_neg (by simp), same]

theorem complete_restores {fuel dmaReq : Nat} {checked : Bool} (idle : s.controllerBusy ≠ 1)
    (run : halInitializeDmaRequest K ws s call fuel = some r) (made : r.dmaRequest = some dmaReq)
    (complete : halCompleteDmaRequest K checked r.state dmaReq = some t) :
    t.controllerBusy = 0 ∧ t.channelBusy = s.channelBusy ∧ t.lowMeg = s.lowMeg ∧ K.live t.heap = K.live s.heap := by
  obtain ⟨-, ⟨-, none⟩ | ⟨i, block, granted, answer, done⟩⟩ := halInitializeDmaRequest_inv idle run
  · rw [made] at none
    cases none
  have same := done.dmaRequest
  rw [made] at same
  cases same
  obtain ⟨request, here, channel, page, count⟩ := done.request
  obtain ⟨k, -, fits, -⟩ := granted.chosen
  have freed : halFreePhysicalLowMegPages r.state.lowMeg request.pageUsed request.pageCount = .ok s.lowMeg := by
    rw [done.lowMeg, page, count]
    exact freed_allocatedRun fits
  unfold halCompleteDmaRequest at complete
  simp only [here, Option.bind_eq_bind, Option.bind_some, freed] at complete
  split at complete
  · cases complete
  obtain ⟨mm, -, rest⟩ := Option.bind_eq_some_iff.mp complete
  cases rest
  refine ⟨rfl, ?_, rfl, ?_⟩
  · change (halFreeDma r.state.channelBusy request.channel).2 = s.channelBusy
    rw [channel, done.channelBusy]
    exact halFreeDma_requested granted.channel granted.free
  · change K.live (K.exFreeHeap r.state.heap block.1) = K.live s.heap
    have live : K.live block.2 = insert block.1 (K.live s.heap) := K.allocated answer
    have member : block.1 ∈ K.live block.2 := live ▸ Set.mem_insert _ _
    rw [done.heap]
    change K.live (K.exFreeHeap block.2 block.1) = K.live s.heap
    rw [K.freed member, live, Set.insert_sdiff_self_of_notMem (K.fresh answer)]

end completion

end Gr8os.Hal
