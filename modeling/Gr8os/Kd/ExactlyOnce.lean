import Gr8os.Kd.Transport

/-! Both directions of the link are stop-and-wait directions, so acknowledged means delivered. -/
namespace Gr8os.Kd

open AlternatingId Runs

/-- The id of the packet with a number. -/
def packetId : Nat → BitVec 32
  | 0 => INITIAL_PACKET_ID
  | k + 1 => packetId k ^^^ 1

theorem packetId_cases (k : Nat) : packetId k = INITIAL_PACKET_ID ∨ packetId k = INITIAL_PACKET_ID ^^^ 1 := by
  induction k with
  | zero => exact .inl rfl
  | succ k ih =>
    rcases ih with h | h
    · exact .inr (by rw [packetId, h])
    · refine .inl ?_
      rw [packetId, h]
      decide

theorem packetId_alternates (k : Nat) : packetId k ≠ packetId (k + 1) := by
  rcases packetId_cases k with h | h <;> rw [packetId, h] <;> decide

theorem packetId_plain (k : Nat) : packetId k &&& ~~~SYNC_PACKET_ID = packetId k := by
  rcases packetId_cases k with h | h <;> rw [h] <;> decide

theorem packetId_unsynced (k : Nat) : packetId k &&& SYNC_PACKET_ID = 0 := by
  rcases packetId_cases k with h | h <;> rw [h] <;> decide

def dataTag : InFlight → Option Nat
  | ⟨.data _, tag⟩ => tag
  | _ => none

def ackTag : InFlight → Option (BitVec 32 × Nat)
  | ⟨.control type id, tag⟩ => if type = PACKET_TYPE_KD_ACKNOWLEDGE then tag.map fun t => (id, t) else none
  | _ => none

/-- The id the kernel sends under: the sync bit is set until a first packet is acknowledged. -/
def SendId (completed : Nat) (id : BitVec 32) : Prop :=
  id = packetId completed ∨ completed = 0 ∧ id = INITIAL_PACKET_ID ||| SYNC_PACKET_ID

theorem SendId.plain {c : Nat} {id : BitVec 32} (h : SendId c id) : id &&& ~~~SYNC_PACKET_ID = packetId c := by
  rcases h with rfl | ⟨rfl, rfl⟩
  · exact packetId_plain c
  · decide

theorem SendId.synced {c : Nat} {id : BitVec 32} (h : SendId c id) (sync : id &&& SYNC_PACKET_ID ≠ 0) : c = 0 := by
  rcases h with rfl | ⟨rfl, rfl⟩
  · exact absurd (packetId_unsynced c) sync
  · rfl

theorem SendId.next {c : Nat} {id : BitVec 32} (h : SendId c id) :
    SendId (c + 1) ((id ^^^ 1) &&& ~~~SYNC_PACKET_ID) := by
  rcases h with rfl | ⟨rfl, rfl⟩
  · exact .inl (packetId_plain (c + 1))
  · exact .inl (by decide)

/-- A frame nobody can take for a packet or an acknowledgement. -/
def Unreadable (x : InFlight) : Prop :=
  x.tag = none ∧ match x.frame with
    | .data f => ¬ f.Intact
    | .control type _ => type ≠ PACKET_TYPE_KD_ACKNOWLEDGE ∧ type ≠ PACKET_TYPE_KD_RESET

/-- What the peer, or damage, puts on the line to the kernel. -/
def FromPeer (peerSent : List Packet) (x : InFlight) : Prop :=
  Unreadable x ∨ match x.frame with
    | .data f => ∃ k p, x.tag = some k ∧ peerSent[k]? = some p ∧ f = p.frame (packetId k)
    | .control type _ => type = PACKET_TYPE_KD_ACKNOWLEDGE ∧ ∃ t, x.tag = some t

/-- What the kernel, or damage, puts on the line to the peer. -/
def FromKernel (x : InFlight) : Prop :=
  Unreadable x ∨ match x.frame with
    | .data f => ∃ k, x.tag = some k ∧ SendId k f.packetId
    | .control type _ => type = PACKET_TYPE_KD_ACKNOWLEDGE ∧ ∃ t, x.tag = some t

/-- The invariant of the link: `c` packets of the peer are confirmed, `n` packets of the kernel are taken. -/
structure Coherent (s : Link) (c n : Nat) : Prop where
  next : SendId s.returned.length s.ids.nextPacketIdToSend
  expected : s.ids.packetIdExpected = packetId s.delivered.length
  peerNext : s.peerNext = packetId c
  peerExpected : s.peerExpected = packetId n
  outgoing : Direction packetId s.returned.length s.kernelSent n (s.toPeer.filterMap dataTag)
    (s.toKernel.filterMap ackTag)
  incoming : Direction packetId c s.peerSent.length s.delivered.length (s.toKernel.filterMap dataTag)
    (s.toPeer.filterMap ackTag)
  outstanding : ∀ p, s.outstanding = some p → s.peerSent.length = c + 1 ∧ s.peerSent[c]? = some p
  resting : s.outstanding = none → s.peerSent.length = c
  sending : ∀ m r, s.mode = .sending m r →
    s.kernelSent = s.returned.length + 1 ∧ (r = 0 → m.mayGiveUp = false)
  waiting : (∀ m r, s.mode ≠ .sending m r) → s.kernelSent = s.returned.length
  fromPeer : ∀ x ∈ s.toKernel, FromPeer s.peerSent x
  fromKernel : ∀ x ∈ s.toPeer, FromKernel x
  inOrder : s.delivered.map Delivery.content = (s.peerSent.take s.delivered.length).map Packet.content
  acknowledged : ∀ k, k ∈ s.acknowledged ↔ k < s.delivered.length
  returned : ∀ k ∈ s.returned, k < n
  accepted : ∀ k < n, k ∈ s.accepted

theorem Coherent.exactlyOnce {s : Link} {c n : Nat} (ok : Coherent s c n) : ExactlyOnce s where
  inOrder := ok.inOrder
  acknowledged := ok.acknowledged
  returned := fun k hk => ok.accepted k (ok.returned k hk)

theorem start_coherent (sync : Bool) : Coherent (Link.start sync) 0 0 where
  next := by
    cases sync
    · exact .inl rfl
    · exact .inr ⟨rfl, rfl⟩
  expected := rfl
  peerNext := rfl
  peerExpected := rfl
  outgoing := Direction.start
  incoming := Direction.start
  outstanding := by
    intro p h
    cases h
  resting := fun _ => rfl
  sending := by
    intro m r h
    cases h
  waiting := fun _ => rfl
  fromPeer := by
    intro x hx
    cases hx
  fromKernel := by
    intro x hx
    cases hx
  inOrder := rfl
  acknowledged := by simp [Link.start]
  returned := by
    intro k hk
    cases hk
  accepted := by
    intro k hk
    omega

theorem dataTag_none {x : InFlight} (h : x.tag = none) : dataTag x = none := by
  obtain ⟨frame, tag⟩ := x
  cases frame with
  | control type id => rfl
  | data f => exact h

theorem ackTag_none {x : InFlight} (h : x.tag = none) : ackTag x = none := by
  obtain ⟨frame, tag⟩ := x
  cases frame with
  | control type id => simp [ackTag, show tag = none from h]
  | data f => rfl

theorem damaged_unreadable {f g : Frame} (broken : damaged f g = true) : Unreadable ⟨g, none⟩ := by
  refine ⟨rfl, ?_⟩
  cases f <;> cases g <;> simp_all [damaged]

theorem fault_mem {e : Fault} {frames frames' : List InFlight} (applied : e.apply frames = some frames') :
    ∀ x ∈ frames', x ∈ frames ∨ Unreadable x := by
  intro x hx
  cases e with
  | lose i =>
    cases applied
    exact .inl (List.mem_of_mem_eraseIdx hx)
  | double i =>
    cases applied
    exact .inl (mem_double.mp hx)
  | damage i f =>
    simp only [Fault.apply] at applied
    split at applied
    · rename_i broken
      cases applied
      rcases List.mem_or_eq_of_mem_set hx with h | h
      · exact .inl h
      · cases old : frames[i]? with
        | none => simp [old] at broken
        | some y =>
          rw [old] at broken
          exact .inr (h ▸ damaged_unreadable broken)
    · cases applied

theorem fault_project {β : Type} {p : InFlight → Option β} (silent : ∀ x : InFlight, x.tag = none → p x = none)
    {R : β → β → Prop} (refl : ∀ b, R b b) {e : Fault} {line line' : List InFlight}
    (applied : e.apply line = some line') :
    (∀ b ∈ line'.filterMap p, b ∈ line.filterMap p) ∧
    ((line.filterMap p).Pairwise R → (line'.filterMap p).Pairwise R) := by
  have sub : ∀ {l : List InFlight}, (l.filterMap p).Sublist (line.filterMap p) →
      (∀ b ∈ l.filterMap p, b ∈ line.filterMap p) ∧
      ((line.filterMap p).Pairwise R → (l.filterMap p).Pairwise R) :=
    fun h => ⟨fun b hb => h.mem hb, fun ordered => ordered.sublist h⟩
  cases e with
  | lose i =>
    cases applied
    exact sub ((List.eraseIdx_sublist line i).filterMap p)
  | double i =>
    cases applied
    exact ⟨fun b hb => filterMap_double_mem.mp hb, filterMap_double_pairwise refl⟩
  | damage i f =>
    simp only [Fault.apply] at applied
    split at applied
    · cases applied
      exact sub (filterMap_set_none (silent _ rfl))
    · cases applied

theorem faultToKernel_coherent {s : Link} {c n : Nat} {e : Fault} {line : List InFlight} (ok : Coherent s c n)
    (applied : e.apply s.toKernel = some line) : Coherent { s with toKernel := line } c n := by
  have acks := fault_project (fun _ => ackTag_none) (R := fun x y => x.2 ≤ y.2) (fun b => Nat.le_refl b.2) applied
  have data := fault_project (fun _ => dataTag_none) (R := (· ≤ ·)) Nat.le_refl applied
  refine { ok with
    outgoing := ok.outgoing.weaken ok.outgoing.dataOrder (fun _ h => h) (acks.2 ok.outgoing.ackOrder) acks.1
    incoming := ok.incoming.weaken (data.2 ok.incoming.dataOrder) data.1 ok.incoming.ackOrder fun _ h => h
    fromPeer := ?_ }
  intro x hx
  rcases fault_mem applied x hx with h | h
  · exact ok.fromPeer x h
  · exact .inl h

theorem faultToPeer_coherent {s : Link} {c n : Nat} {e : Fault} {line : List InFlight} (ok : Coherent s c n)
    (applied : e.apply s.toPeer = some line) : Coherent { s with toPeer := line } c n := by
  have acks := fault_project (fun _ => ackTag_none) (R := fun x y => x.2 ≤ y.2) (fun b => Nat.le_refl b.2) applied
  have data := fault_project (fun _ => dataTag_none) (R := (· ≤ ·)) Nat.le_refl applied
  refine { ok with
    outgoing := ok.outgoing.weaken (data.2 ok.outgoing.dataOrder) data.1 ok.outgoing.ackOrder fun _ h => h
    incoming := ok.incoming.weaken ok.incoming.dataOrder (fun _ h => h) (acks.2 ok.incoming.ackOrder) acks.1
    fromKernel := ?_ }
  intro x hx
  rcases fault_mem applied x hx with h | h
  · exact ok.fromKernel x h
  · exact .inl h

/-- Taking a frame off the line loses nothing the invariant needs. -/
theorem Coherent.pop {s : Link} {c n : Nat} {x : InFlight} {rest : List InFlight} (ok : Coherent s c n)
    (line : s.toKernel = x :: rest) : Coherent { s with toKernel := rest } c n := by
  refine faultToKernel_coherent (e := .lose 0) ok ?_
  simp [Fault.apply, line]

theorem Coherent.popPeer {s : Link} {c n : Nat} {x : InFlight} {rest : List InFlight} (ok : Coherent s c n)
    (line : s.toPeer = x :: rest) : Coherent { s with toPeer := rest } c n := by
  refine faultToPeer_coherent (e := .lose 0) ok ?_
  simp [Fault.apply, line]

@[simp] theorem dataTag_control (type : BitVec 16) (id : BitVec 32) (tag : Option Nat) :
    dataTag ⟨.control type id, tag⟩ = none := rfl
@[simp] theorem dataTag_data (f : DataFrame) (tag : Option Nat) : dataTag ⟨.data f, tag⟩ = tag := rfl
@[simp] theorem ackTag_data (f : DataFrame) (tag : Option Nat) : ackTag ⟨.data f, tag⟩ = none := rfl
@[simp] theorem ackTag_untagged (f : Frame) : ackTag ⟨f, none⟩ = none := ackTag_none rfl
@[simp] theorem ackTag_ack (id : BitVec 32) (t : Nat) :
    ackTag ⟨.control PACKET_TYPE_KD_ACKNOWLEDGE id, some t⟩ = some (id, t) := rfl

theorem resend_unreadable : Unreadable ⟨.control PACKET_TYPE_KD_RESEND 0, none⟩ := ⟨rfl, by decide, by decide⟩

theorem fromKernel_append {line : List InFlight} {x : InFlight} (old : ∀ y ∈ line, FromKernel y)
    (new : FromKernel x) : ∀ y ∈ line ++ [x], FromKernel y := by
  intro y hy
  rcases List.mem_append.mp hy with hy | hy
  · exact old y hy
  · exact List.mem_singleton.mp hy ▸ new

theorem fromPeer_append {sent : List Packet} {line : List InFlight} {x : InFlight}
    (old : ∀ y ∈ line, FromPeer sent y) (new : FromPeer sent x) : ∀ y ∈ line ++ [x], FromPeer sent y := by
  intro y hy
  rcases List.mem_append.mp hy with hy | hy
  · exact old y hy
  · exact List.mem_singleton.mp hy ▸ new

theorem Coherent.asksResend {s : Link} {c n : Nat} (ok : Coherent s c n) :
    Coherent { s with toPeer := s.toPeer ++ [⟨.control PACKET_TYPE_KD_RESEND 0, none⟩] } c n :=
  { ok with
    outgoing := by simpa [List.filterMap_append, List.filterMap_cons] using ok.outgoing
    incoming := by simpa [List.filterMap_append, List.filterMap_cons] using ok.incoming
    fromKernel := fromKernel_append ok.fromKernel (.inl resend_unreadable) }

theorem Coherent.peerAsksResend {s : Link} {c n : Nat} (ok : Coherent s c n) :
    Coherent { s with toKernel := s.toKernel ++ [⟨.control PACKET_TYPE_KD_RESEND 0, none⟩] } c n :=
  { ok with
    outgoing := by simpa [List.filterMap_append, List.filterMap_cons] using ok.outgoing
    incoming := by simpa [List.filterMap_append, List.filterMap_cons] using ok.incoming
    fromPeer := fromPeer_append ok.fromPeer (.inl resend_unreadable) }

/-- The kernel acknowledges a frame that does not carry the expected id. -/
theorem Coherent.acknowledges {s : Link} {c n : Nat} {id : BitVec 32} {tag : Option Nat} (ok : Coherent s c n)
    (other : id ≠ s.ids.packetIdExpected) (old : ∀ k, tag = some k → k < s.delivered.length) :
    Coherent { s with
      toPeer := s.toPeer ++ [⟨.control PACKET_TYPE_KD_ACKNOWLEDGE id, some s.delivered.length⟩]
      acknowledged := s.acknowledged ++ tag.toList } c n := by
  rw [ok.expected] at other
  refine { ok with
    outgoing := by simpa [List.filterMap_append, List.filterMap_cons] using ok.outgoing
    incoming := by simpa [List.filterMap_append, List.filterMap_cons] using ok.incoming.answer other
    fromKernel := fromKernel_append ok.fromKernel (.inr ⟨rfl, _, rfl⟩)
    acknowledged := ?_ }
  intro k
  rw [List.mem_append, ok.acknowledged k]
  constructor
  · intro h
    rcases h with h | h
    · exact h
    · exact old k (by simpa using h)
  · exact .inl

theorem frame_body (p : Packet) (id : BitVec 32) :
    (p.frame id).body.take (p.frame id).byteCount.toNat = p.body := by
  have size : (p.frame id).byteCount.toNat = p.body.length := by
    have fits := p.fits
    simp only [Packet.frame, BitVec.toNat_ofNat]
    exact Nat.mod_eq_of_lt fits
  rw [size]
  exact List.take_length

/-- The kernel takes the next packet off the line, delivers it and acknowledges it. -/
theorem Coherent.delivers {s : Link} {c n k : Nat} {p : Packet} {rest : List InFlight} {d : Delivery}
    (ok : Coherent s c n) (line : s.toKernel = ⟨.data (p.frame (packetId k)), some k⟩ :: rest)
    (known : s.peerSent[k]? = some p) (awaited : packetId k = s.ids.packetIdExpected)
    (content : d.content = p.content) :
    Coherent { s with
      toKernel := rest
      ids := { s.ids with packetIdExpected := s.ids.packetIdExpected ^^^ 1 }
      delivered := s.delivered ++ [d]
      toPeer := s.toPeer ++ [⟨.control PACKET_TYPE_KD_ACKNOWLEDGE (packetId k), some (s.delivered.length + 1)⟩]
      acknowledged := s.acknowledged ++ [k] } c n := by
  have popped := ok.pop line
  have incoming := ok.incoming
  rw [line, List.filterMap_cons, dataTag_data] at incoming
  rw [ok.expected] at awaited
  obtain ⟨here, taken⟩ := incoming.accept packetId_alternates awaited
  have answered := taken.answer (packetId_alternates s.delivered.length)
  refine { popped with
    expected := ?_
    outgoing := by simpa [List.filterMap_append, List.filterMap_cons] using popped.outgoing
    incoming := by simpa [List.filterMap_append, List.filterMap_cons, here] using answered
    fromKernel := fromKernel_append popped.fromKernel (.inr ⟨rfl, _, rfl⟩)
    inOrder := ?_
    acknowledged := ?_ }
  · simp [ok.expected, packetId]
  · have next : s.peerSent.take (s.delivered.length + 1) = s.peerSent.take s.delivered.length ++ [p] := by
      rw [List.take_add_one, ← here, known]
      rfl
    simp only [List.length_append, List.length_singleton, List.map_append, List.map_singleton]
    rw [next, List.map_append, ok.inOrder, content]
    rfl
  · intro m
    simp only [List.mem_append, List.mem_singleton, List.length_append, List.length_singleton]
    rw [ok.acknowledged m, here]
    omega

/-- An awaited acknowledgement ends KdSendPacket, and the peer has taken the packet. -/
theorem Coherent.confirms {s : Link} {c n t : Nat} {rest : List InFlight} (ok : Coherent s c n)
    (line : s.toKernel =
      ⟨.control PACKET_TYPE_KD_ACKNOWLEDGE (packetId s.returned.length), some t⟩ :: rest) :
    s.kernelSent = s.returned.length + 1 ∧
    Coherent { s with
      toKernel := rest
      ids := { s.ids with nextPacketIdToSend := (s.ids.nextPacketIdToSend ^^^ 1) &&& ~~~SYNC_PACKET_ID }
      mode := .idle
      returned := s.returned ++ [s.kernelSent - 1] } c n := by
  have popped := ok.pop line
  have outgoing := ok.outgoing
  rw [line, List.filterMap_cons, ackTag_ack] at outgoing
  obtain ⟨taken, confirmed⟩ := outgoing.confirm
  have sent : s.kernelSent = s.returned.length + 1 := by
    have h1 := confirmed.confirmed_le
    have h2 := confirmed.accepted_le
    have h3 := ok.outgoing.sent_le
    omega
  refine ⟨sent, { popped with
    next := ?_
    outgoing := ?_
    sending := ?_
    waiting := ?_
    returned := ?_ }⟩
  · simpa using ok.next.next
  · simpa using confirmed
  · intro m r h
    cases h
  · intro _
    simp [sent]
  · intro k hk
    rcases List.mem_append.mp hk with hk | hk
    · exact ok.returned k hk
    · have own : k = s.kernelSent - 1 := by simpa using hk
      omega

/-- KdSendPacket writes its packet, for the first time or again. -/
theorem Coherent.writes {s u : Link} {c n : Nat} {m : Message} {retries : BitVec 32} (ok : Coherent s c n)
    (count : u.kernelSent = s.returned.length + 1)
    (same : u = { s with kernelSent := u.kernelSent, mode := u.mode })
    (lasts : retries = 0 → m.mayGiveUp = false) : Coherent (u.sendLoop m retries) c n := by
  have stays : (retries = 0 && m.mayGiveUp) = false := by simpa using lasts
  have outgoing : Direction packetId s.returned.length (s.returned.length + 1) n
      (s.toPeer.filterMap dataTag ++ [s.returned.length]) (s.toKernel.filterMap ackTag) := by
    have h1 := ok.outgoing.confirmed_le
    have h2 := ok.outgoing.accepted_le
    have h3 := ok.outgoing.sent_le
    by_cases fresh : s.kernelSent = s.returned.length
    · have begun := ok.outgoing.begin fresh
      rw [fresh] at begun
      exact begun
    · have sent : s.kernelSent = s.returned.length + 1 := by omega
      have again := ok.outgoing.again sent
      rw [sent] at again
      exact again
  rw [same]
  unfold Link.sendLoop
  rw [stays]
  refine { ok with
    outgoing := by simpa [List.filterMap_append, List.filterMap_cons, count] using outgoing
    incoming := by simpa [List.filterMap_append, List.filterMap_cons] using ok.incoming
    sending := ?_
    waiting := ?_
    fromKernel := fromKernel_append ok.fromKernel (.inr ⟨_, rfl, ?_⟩) }
  · intro m' r' h
    cases h
    exact ⟨count, lasts⟩
  · intro h
    exact absurd rfl (h m retries)
  · simpa [count, Message.frame] using ok.next

theorem answer_nothing (s : Link) (type : BitVec 16) (tag : Option Nat) {result : Option (Code × Option Delivery)}
    (empty : result.bind Prod.snd = none) : s.answer ⟨s.ids, type, [], result⟩ tag = s := by
  simp [Link.answer, empty]

theorem answer_signal (s : Link) (type : BitVec 16) (tag : Option Nat) (code : Code) :
    s.answer ⟨s.ids, type, [], some (code, none)⟩ tag = s := answer_nothing s type tag rfl

theorem answer_resend (s : Link) (type : BitVec 16) (tag : Option Nat) :
    s.answer ⟨s.ids, type, [.control PACKET_TYPE_KD_RESEND 0], none⟩ tag =
      { s with toPeer := s.toPeer ++ [⟨.control PACKET_TYPE_KD_RESEND 0, none⟩] } := by
  simp [Link.answer, isAcknowledge, PACKET_TYPE_KD_RESEND, PACKET_TYPE_KD_ACKNOWLEDGE]

theorem answer_acknowledge (s : Link) (type : BitVec 16) (id : BitVec 32) (tag : Option Nat) :
    s.answer ⟨s.ids, type, [.control PACKET_TYPE_KD_ACKNOWLEDGE id], none⟩ tag =
      { s with
        toPeer := s.toPeer ++ [⟨.control PACKET_TYPE_KD_ACKNOWLEDGE id, some s.delivered.length⟩]
        acknowledged := s.acknowledged ++ tag.toList } := by
  simp [Link.answer, isAcknowledge]

/-- A frame that ends no wait, asks the sender to go on, or is delivered leaves the link coherent;
the only other one is the awaited acknowledgement. -/
theorem frame_turn {s : Link} {c n : Nat} {x : InFlight} {rest : List InFlight} (type maxLength : BitVec 16)
    (ok : Coherent s c n) (line : s.toKernel = x :: rest)
    (calm : ∀ f, x.frame = .data f → mishandled type maxLength f = true → f.packetId ≠ s.ids.packetIdExpected) :
    let turn := kdReceivePacketWithType s.ids type maxLength (.frame x.frame)
    (Coherent ({ s with toKernel := rest }.answer turn x.tag) c n ∧
      (turn.result = none ∨ turn.result = some (.resend, none) ∨
        type ≠ PACKET_TYPE_KD_ACKNOWLEDGE ∧ ∃ d, turn.result = some (.received, some d))) ∨
    (type = PACKET_TYPE_KD_ACKNOWLEDGE ∧
      (∃ t, x = ⟨.control PACKET_TYPE_KD_ACKNOWLEDGE (packetId s.returned.length), some t⟩) ∧
      turn = {
        ids := { s.ids with nextPacketIdToSend := s.ids.nextPacketIdToSend ^^^ 1 }
        packetType := type
        sent := []
        result := some (.received, none) }) := by
  have popped := ok.pop line
  have origin := ok.fromPeer x (by rw [line]; exact List.mem_cons_self)
  obtain ⟨frame, tag⟩ := x
  cases frame with
  | control kind id =>
    have noReset : kind ≠ PACKET_TYPE_KD_RESET := by
      rcases origin with ⟨_, _, h⟩ | ⟨h, _⟩
      · exact h
      · rw [h]
        decide
    dsimp only [kdReceivePacketWithType]
    by_cases isResend : kind = PACKET_TYPE_KD_RESEND
    · rw [if_pos isResend]
      exact .inl ⟨by rw [answer_nothing _ _ _ rfl]; exact popped, .inr (.inl rfl)⟩
    rw [if_neg isResend]
    by_cases isAck : kind = PACKET_TYPE_KD_ACKNOWLEDGE
    · rw [if_pos isAck]
      by_cases other : id ≠ s.ids.nextPacketIdToSend &&& ~~~SYNC_PACKET_ID
      · rw [if_pos other]
        exact .inl ⟨by rw [answer_nothing _ _ _ rfl]; exact popped, .inl rfl⟩
      rw [if_neg other]
      by_cases awaited : type = PACKET_TYPE_KD_ACKNOWLEDGE
      · rw [if_pos awaited]
        have same : id = packetId s.returned.length := by
          rw [← ok.next.plain]
          exact Decidable.of_not_not other
        rcases origin with ⟨_, h, _⟩ | ⟨_, t, h⟩
        · exact absurd isAck h
        · simp only at h
          exact .inr ⟨awaited, ⟨t, by rw [isAck, same, h]⟩, rfl⟩
      · rw [if_neg awaited]
        exact .inl ⟨by rw [answer_nothing _ _ _ rfl]; exact popped, .inl rfl⟩
    · rw [if_neg isAck, if_neg noReset]
      exact .inl ⟨by rw [answer_nothing _ _ _ rfl]; exact popped, .inl rfl⟩
  | data f =>
    have stale : f.packetId ≠ s.ids.packetIdExpected → ∀ k, tag = some k → k < s.delivered.length := by
      intro other k hk
      rcases origin with ⟨h, _⟩ | ⟨k', p, h, known, rfl⟩
      · simp only at h
        rw [h] at hk
        cases hk
      · simp only at h
        have member : k' ∈ s.toKernel.filterMap dataTag := by
          rw [line, List.filterMap_cons, dataTag_data, h]
          exact List.mem_cons_self
        rw [ok.expected] at other
        have old := ok.incoming.stale member other
        have same : k' = k := Option.some.inj (h.symm.trans hk)
        omega
    left
    dsimp only [kdReceivePacketWithType]
    by_cases waits : type = PACKET_TYPE_KD_ACKNOWLEDGE
    · have other := calm f rfl (by simp [mishandled, waits])
      rw [if_pos waits, if_neg other]
      refine ⟨?_, .inl rfl⟩
      rw [kdpSendControlPacket, answer_acknowledge]
      exact popped.acknowledges other (stale other)
    · rw [if_neg waits]
      rcases receiveData_cases s.ids type maxLength f with
        ⟨type', turn⟩ | ⟨type', turn, why⟩ | ⟨intact, awaited, header, data, whole, turn⟩
      · rw [turn, answer_resend]
        exact ⟨popped.asksResend, .inl rfl⟩
      · have other : f.packetId ≠ s.ids.packetIdExpected := by
          rcases why with h | ⟨whole, h1, h2⟩
          · exact h
          · exact calm f rfl (by simpa [mishandled, whole, h1] using Or.inr h2)
        rw [turn, answer_acknowledge]
        exact ⟨popped.acknowledges other (stale other), .inl rfl⟩
      · rw [turn]
        refine ⟨?_, .inr (.inr ⟨waits, _, rfl⟩)⟩
        rcases origin with ⟨_, broken⟩ | ⟨k, p, h, known, rfl⟩
        · exact absurd intact broken
        · simp only at h
          subst h
          rw [frame_body] at whole
          have delivered := ok.delivers (d := ⟨p.packetType, header, data⟩) line known awaited
            (by rw [Delivery.content, Packet.content, whole])
          simpa [Link.answer, isAcknowledge, Packet.frame] using delivered

theorem Coherent.setMode {s : Link} {c n : Nat} {mode : KdMode} (ok : Coherent s c n)
    (before : ∀ m r, s.mode ≠ .sending m r) (after : ∀ m r, mode ≠ .sending m r) :
    Coherent { s with mode := mode } c n :=
  { ok with
    sending := fun m r h => absurd h (after m r)
    waiting := fun _ => ok.waiting before }

/-- The line goes silent, or a break-in byte comes: nothing is lost, and KdSendPacket writes again. -/
theorem signal_turn {s u : Link} {c n : Nat} {a : Arrival} (ok : Coherent s c n) (signal : a = .noData ∨ a = .breakIn)
    (lasts : ∀ m r, s.mode = .sending m r → a = .noData → r = 1 → m.mayGiveUp = false)
    (step : s.kernelTurn a none = some u) : Coherent u c n := by
  unfold Link.kernelTurn at step
  cases mode : s.mode with
  | idle => simp [mode] at step
  | receiving type maxLength =>
    have away : ∀ m r, s.mode ≠ .sending m r := by simp [mode]
    rw [mode] at step
    rcases signal with rfl | rfl
    all_goals
      simp only [kdReceivePacketWithType, answer_signal, Option.isSome_some, if_true,
        Option.some.injEq] at step
      subst step
      exact ok.setMode away fun m r => by simp
  | sending m retries =>
    obtain ⟨count, zero⟩ := ok.sending m retries mode
    rw [mode] at step
    rcases signal with rfl | rfl
    · simp only [kdReceivePacketWithType, answer_signal, Link.afterWait, Option.some.injEq] at step
      subst step
      refine ok.writes count rfl fun none => lasts m retries mode rfl ?_
      bv_omega
    · have notPoll : PACKET_TYPE_KD_ACKNOWLEDGE ≠ PACKET_TYPE_KD_POLL_BREAKIN := by decide
      simp only [kdReceivePacketWithType, if_neg notPoll, answer_signal, Link.afterWait,
        Option.some.injEq] at step
      subst step
      exact ok.writes count rfl zero

theorem arrival_turn {s u : Link} {c n : Nat} {x : InFlight} {rest : List InFlight} (ok : Coherent s c n)
    (line : s.toKernel = x :: rest) (calm : undisturbed s .arrival = true)
    (step : { s with toKernel := rest }.kernelTurn (.frame x.frame) x.tag = some u) : Coherent u c n := by
  unfold Link.kernelTurn at step
  unfold undisturbed at calm
  cases mode : s.mode with
  | idle => simp [mode] at step
  | receiving type maxLength =>
    have away : ∀ m r, s.mode ≠ .sending m r := by simp [mode]
    have quiet : ∀ f, x.frame = .data f → mishandled type maxLength f = true →
        f.packetId ≠ s.ids.packetIdExpected := by
      intro f data bad same
      obtain ⟨frame, tag⟩ := x
      simp only at data
      simp [mode, line, data, bad, same] at calm
    simp only [mode] at step
    rcases frame_turn type maxLength ok line quiet with ⟨coherent, _⟩ | ⟨_, ⟨t, head⟩, _⟩
    · cases step
      exact coherent.setMode (by simpa [Link.answer] using away) (by intro m r; split <;> simp)
    · rw [head] at line
      have sent := (ok.confirms line).1
      have waits := ok.waiting away
      omega
  | sending m retries =>
    obtain ⟨count, zero⟩ := ok.sending m retries mode
    have quiet : ∀ f, x.frame = .data f → mishandled PACKET_TYPE_KD_ACKNOWLEDGE 0 f = true →
        f.packetId ≠ s.ids.packetIdExpected := by
      intro f data bad same
      obtain ⟨frame, tag⟩ := x
      simp only at data
      simp only [mode, line, data, bad, same] at calm
      simp at calm
    simp only [mode] at step
    rcases frame_turn PACKET_TYPE_KD_ACKNOWLEDGE 0 ok line quiet with
      ⟨coherent, result | result | ⟨waits, _⟩⟩ | ⟨_, ⟨t, head⟩, turn⟩
    · rw [result] at step
      rw [mode] at coherent
      cases step
      exact coherent
    · rw [result] at step
      rw [mode] at coherent
      cases step
      exact coherent.writes (by simpa [Link.answer] using count) rfl zero
    · exact absurd rfl waits
    · rw [turn] at step
      rw [head] at line
      cases step
      subst head
      simpa [Link.answer, Link.afterWait, isAcknowledge] using (ok.confirms line).2

theorem FromPeer.later {sent : List Packet} {x : InFlight} (h : FromPeer sent x) (p : Packet) :
    FromPeer (sent ++ [p]) x := by
  refine h.imp_right ?_
  obtain ⟨frame, tag⟩ := x
  cases frame with
  | control type id => exact fun h => h
  | data f =>
    rintro ⟨k, q, number, known, same⟩
    refine ⟨k, q, number, ?_, same⟩
    have bound := (List.getElem?_eq_some_iff.mp known).1
    rw [List.getElem?_append_left bound]
    exact known

theorem peerSend_coherent {s : Link} {c n : Nat} (p : Packet) (ok : Coherent s c n) (ready : s.outstanding = none) :
    Coherent ({ s with outstanding := some p, peerSent := s.peerSent ++ [p] }.peerWrites p s.peerSent.length) c n := by
  have count := ok.resting ready
  have last : (s.peerSent ++ [p])[c]? = some p := by simp [← count]
  have begun := ok.incoming.begin count
  refine { ok with
    outgoing := by simpa [Link.peerWrites, List.filterMap_append, List.filterMap_cons] using ok.outgoing
    incoming := by simpa [Link.peerWrites, List.filterMap_append, List.filterMap_cons] using begun
    outstanding := ?_
    resting := ?_
    fromPeer := ?_
    inOrder := ?_ }
  · intro q h
    cases h
    exact ⟨by simp [Link.peerWrites, count], last⟩
  · intro h
    cases h
  · refine fromPeer_append (fun x hx => (ok.fromPeer x hx).later p) (.inr ⟨c, p, by rw [count], last, ?_⟩)
    change p.frame s.peerNext = _
    rw [ok.peerNext]
  · change _ = ((s.peerSent ++ [p]).take s.delivered.length).map Packet.content
    rw [List.take_append_of_le_length ok.incoming.accepted_le]
    exact ok.inOrder

theorem peerAgain_coherent {s : Link} {c n : Nat} {p : Packet} (ok : Coherent s c n) (waits : s.outstanding = some p) :
    Coherent (s.peerWrites p (s.peerSent.length - 1)) c n := by
  obtain ⟨count, known⟩ := ok.outstanding p waits
  have again := ok.incoming.again count
  have number : s.peerSent.length - 1 = c := by omega
  rw [number]
  exact { ok with
    outgoing := by simpa [Link.peerWrites, List.filterMap_append, List.filterMap_cons] using ok.outgoing
    incoming := by simpa [Link.peerWrites, List.filterMap_append, List.filterMap_cons] using again
    fromPeer := fromPeer_append ok.fromPeer (.inr ⟨c, p, rfl, known, by rw [ok.peerNext]⟩) }

/-- The peer acknowledges an old packet of the kernel once more. -/
theorem Coherent.peerAcknowledges {s : Link} {c n k : Nat} (ok : Coherent s c n) (old : k + 1 = n) :
    Coherent { s with
      toKernel := s.toKernel ++ [⟨.control PACKET_TYPE_KD_ACKNOWLEDGE (packetId k), some (k + 1)⟩] } c n := by
  subst old
  have answered := ok.outgoing.answer (packetId_alternates k)
  exact { ok with
    outgoing := by simpa [List.filterMap_append, List.filterMap_cons] using answered
    incoming := by simpa [List.filterMap_append, List.filterMap_cons] using ok.incoming
    fromPeer := fromPeer_append ok.fromPeer (.inr ⟨rfl, _, rfl⟩) }

theorem peerTakes_next {s : Link} {c n k : Nat} {f : DataFrame} {rest : List InFlight} (ok : Coherent s c n)
    (line : s.toPeer = ⟨.data f, some k⟩ :: rest) (next : packetId k = packetId n) :
    Coherent { s with
      toPeer := rest
      toKernel := s.toKernel ++ [⟨.control PACKET_TYPE_KD_ACKNOWLEDGE (packetId k), some (k + 1)⟩]
      peerExpected := packetId k ^^^ 1
      accepted := s.accepted ++ [k] } c (n + 1) := by
  have popped := ok.popPeer line
  have outgoing := ok.outgoing
  rw [line, List.filterMap_cons, dataTag_data] at outgoing
  obtain ⟨here, taken⟩ := outgoing.accept packetId_alternates next
  subst here
  have answered := taken.answer (packetId_alternates k)
  refine { popped with
    peerExpected := rfl
    outgoing := by simpa [List.filterMap_append, List.filterMap_cons] using answered
    incoming := by simpa [List.filterMap_append, List.filterMap_cons] using popped.incoming
    fromPeer := fromPeer_append popped.fromPeer (.inr ⟨rfl, _, rfl⟩)
    returned := ?_
    accepted := ?_ }
  · intro m hm
    have := ok.returned m hm
    omega
  · intro m hm
    by_cases old : m < k
    · exact List.mem_append_left _ (ok.accepted m old)
    · have same : m = k := by omega
      simp [same]

theorem peerTakes_coherent {s : Link} {c n : Nat} {f : DataFrame} {tag : Option Nat} {rest : List InFlight}
    (ok : Coherent s c n) (line : s.toPeer = ⟨.data f, tag⟩ :: rest) :
    ∃ m, Coherent ({ s with toPeer := rest }.peerTakes f tag) c m := by
  have popped := ok.popPeer line
  unfold Link.peerTakes
  by_cases intact : f.Intact
  · rw [if_pos intact]
    have origin := ok.fromKernel ⟨.data f, tag⟩ (by rw [line]; exact List.mem_cons_self)
    rcases origin with ⟨_, broken⟩ | ⟨k, number, id⟩
    · exact absurd intact broken
    simp only at number
    subst number
    have outgoing := ok.outgoing
    rw [line, List.filterMap_cons, dataTag_data] at outgoing
    have position := outgoing.next_or_last List.mem_cons_self
    dsimp only
    rw [id.plain]
    by_cases sync : f.packetId &&& SYNC_PACKET_ID ≠ 0
    · -- The id is reset, so a repetition of packet 0 is taken once more.
      have zero := id.synced sync
      subst zero
      simp only [if_pos sync]
      rw [if_pos (show packetId 0 = INITIAL_PACKET_ID from rfl)]
      rcases position with here | old
      · exact ⟨n + 1, peerTakes_next ok line (here ▸ rfl)⟩
      · subst old
        have again := (popped.peerAcknowledges rfl)
        refine ⟨1, { again with
          peerExpected := rfl
          accepted := fun m hm => List.mem_append_left _ (ok.accepted m hm) }⟩
    · simp only [if_neg sync, ok.peerExpected]
      by_cases next : packetId k = packetId n
      · rw [if_pos next]
        have taken := peerTakes_next ok line next
        rw [next] at taken ⊢
        exact ⟨n + 1, taken⟩
      · rw [if_neg next]
        have old := outgoing.stale List.mem_cons_self next
        exact ⟨n, { popped.peerAcknowledges old with peerExpected := rfl }⟩
  · rw [if_neg intact]
    exact ⟨n, popped.peerAsksResend⟩

theorem peerTurn_coherent {s : Link} {c n : Nat} {x : InFlight} {rest : List InFlight} (ok : Coherent s c n)
    (line : s.toPeer = x :: rest) : ∃ d m, Coherent ({ s with toPeer := rest }.peerTurn x) d m := by
  obtain ⟨frame, tag⟩ := x
  have popped := ok.popPeer line
  cases frame with
  | data f =>
    obtain ⟨m, taken⟩ := peerTakes_coherent ok line
    exact ⟨c, m, taken⟩
  | control type id =>
    unfold Link.peerTurn
    dsimp only
    by_cases awaited : type = PACKET_TYPE_KD_ACKNOWLEDGE ∧ s.outstanding.isSome ∧ id = s.peerNext
    · rw [if_pos awaited]
      obtain ⟨isAck, waits, own⟩ := awaited
      obtain ⟨p, packet⟩ := Option.isSome_iff_exists.mp waits
      obtain ⟨count, _⟩ := ok.outstanding p packet
      have origin := ok.fromKernel ⟨.control type id, tag⟩ (by rw [line]; exact List.mem_cons_self)
      rcases origin with ⟨_, h, _⟩ | ⟨_, t, h⟩
      · exact absurd isAck h
      simp only at h
      subst h
      have incoming := ok.incoming
      rw [line, own, isAck, ok.peerNext, List.filterMap_cons, ackTag_ack] at incoming
      obtain ⟨_, confirmed⟩ := incoming.confirm
      refine ⟨c + 1, n, { popped with
        peerNext := ?_
        incoming := confirmed
        outstanding := ?_
        resting := fun _ => count }⟩
      · simp [ok.peerNext, packetId]
      · intro q h
        cases h
    · rw [if_neg awaited]
      exact ⟨c, n, popped⟩

theorem link_step {s u : Link} {c n : Nat} {op : LinkOp} (ok : Coherent s c n) (calm : undisturbed s op = true)
    (step : linkStep s op = some u) : ∃ d m, Coherent u d m := by
  cases op with
  | receive type maxLength =>
    simp only [linkStep] at step
    split at step
    · rename_i idle
      cases step
      exact ⟨c, n, ok.setMode (by simp [idle]) (by simp)⟩
    · cases step
  | send m =>
    simp only [linkStep] at step
    split at step
    · rename_i idle
      cases step
      have count := ok.waiting (by simp [idle])
      refine ⟨c, n, ok.writes ?_ rfl ?_⟩
      · simp [count]
      · intro h
        exact absurd h (by decide)
    · cases step
  | silence =>
    refine ⟨c, n, signal_turn ok (.inl rfl) ?_ step⟩
    intro m r mode _ one
    simpa [undisturbed, mode, one] using calm
  | breakIn => exact ⟨c, n, signal_turn ok (.inr rfl) (by simp) step⟩
  | arrival =>
    simp only [linkStep] at step
    split at step
    · cases step
    · rename_i x rest line
      exact ⟨c, n, arrival_turn ok line calm step⟩
  | peerSend p =>
    simp only [linkStep] at step
    split at step
    · rename_i ready
      cases step
      exact ⟨c, n, peerSend_coherent p ok ready⟩
    · cases step
  | peerAgain =>
    obtain ⟨p, waits, rfl⟩ := Option.map_eq_some_iff.mp step
    exact ⟨c, n, peerAgain_coherent ok waits⟩
  | peerAsksResend =>
    cases step
    exact ⟨c, n, ok.peerAsksResend⟩
  | peerArrival =>
    simp only [linkStep] at step
    split at step
    · cases step
    · rename_i x rest line
      cases step
      exact peerTurn_coherent ok line
  | faultToKernel e =>
    obtain ⟨line, applied, rfl⟩ := Option.map_eq_some_iff.mp step
    exact ⟨c, n, faultToKernel_coherent ok applied⟩
  | faultToPeer e =>
    obtain ⟨line, applied, rfl⟩ := Option.map_eq_some_iff.mp step
    exact ⟨c, n, faultToPeer_coherent ok applied⟩

def hello : Packet := ⟨2, [1, 2, 3], by decide⟩

/-- A packet each way; the first copy of the peer's is damaged, an acknowledgement is doubled. -/
def exchange : List LinkOp :=
  [.send ⟨2, [9], []⟩, .peerArrival, .faultToKernel (.double 0), .arrival,
    .peerSend hello, .receive 0 1,
    .faultToKernel (.damage 1 (.data { hello.frame INITIAL_PACKET_ID with checksum := 0 })),
    .arrival, .arrival, .peerAgain, .arrival]

/-- The peer speaks while the kernel waits for its acknowledgement. -/
def crossing : List LinkOp := [.send ⟨2, [9], []⟩, .peerSend hello, .arrival, .receive 0 1, .peerAgain, .arrival]

end Gr8os.Kd
