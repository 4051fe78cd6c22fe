import Gr8os.Kd.Packet
import Gr8os.Lib.Run
import Mathlib.Algebra.Group.Nat.Defs

/-! The kernel and its debugger over two lines. The peer follows the same alternating ids: it numbers
its packets from the initial id, repeats one until it is acknowledged, takes the packet it expects and
acknowledges every intact one. A packet with the sync bit resets the id it expects. -/
namespace Gr8os.Kd

open AlternatingId Runs

/-- A packet of the peer, within what ByteCount can count. -/
structure Packet where
  packetType : BitVec 16
  body : List (BitVec 8)
  fits : body.length < 2 ^ 16
deriving DecidableEq, Repr

def Packet.frame (p : Packet) (packetId : BitVec 32) : DataFrame where
  packetType := p.packetType
  byteCount := BitVec.ofNat 16 p.body.length
  packetId := packetId
  checksum := kdCheckSumPacket p.body
  body := p.body
  trailing := some PACKET_TRAILING_BYTE

def Packet.content (p : Packet) : BitVec 16 × List (BitVec 8) := (p.packetType, p.body)
def Delivery.content (d : Delivery) : BitVec 16 × List (BitVec 8) := (d.packetType, d.messageHeader ++ d.messageData)

/-- A frame on a line. Bookkeeping: data carry the number of their packet, an acknowledgement the
number of packets its writer had taken; a damaged frame carries nothing. -/
structure InFlight where
  frame : Frame
  tag : Option Nat
deriving DecidableEq, Repr

inductive KdMode
  | idle
  | receiving (packetType maxLength : BitVec 16)
  | sending (m : Message) (retriesLeft : BitVec 32)
deriving DecidableEq, Repr

structure Link where
  ids : Ids
  mode : KdMode
  toKernel : List InFlight
  toPeer : List InFlight
  delivered : List Delivery
  /-- The packets of the peer that the kernel has acknowledged. -/
  acknowledged : List Nat
  /-- Calls of KdSendPacket, and those that an acknowledgement has ended. -/
  kernelSent : Nat
  returned : List Nat
  peerNext : BitVec 32
  peerExpected : BitVec 32
  outstanding : Option Packet
  peerSent : List Packet
  /-- The packets of the kernel that the peer has taken. -/
  accepted : List Nat
deriving DecidableEq, Repr

/-- A damaged data frame is not intact, a damaged control frame is not recognised. -/
def damaged : Frame → Frame → Bool
  | .data _, .data g => !decide g.Intact
  | .control _ _, .control type _ =>
    type ≠ PACKET_TYPE_KD_ACKNOWLEDGE && type ≠ PACKET_TYPE_KD_RESEND && type ≠ PACKET_TYPE_KD_RESET
  | _, _ => false

inductive Fault
  | lose (i : Nat)
  | double (i : Nat)
  | damage (i : Nat) (f : Frame)
deriving DecidableEq, Repr

def Fault.apply (frames : List InFlight) : Fault → Option (List InFlight)
  | .lose i => some (frames.eraseIdx i)
  | .double i => some (AlternatingId.double i frames)
  | .damage i f => if (frames[i]?).any fun x => damaged x.frame f then some (frames.set i ⟨f, none⟩) else none

inductive LinkOp
  | receive (packetType maxLength : BitVec 16)
  | send (m : Message)
  | silence
  | breakIn
  | arrival
  | peerSend (p : Packet)
  | peerAgain
  | peerAsksResend
  | peerArrival
  | faultToKernel (e : Fault)
  | faultToPeer (e : Fault)
deriving DecidableEq, Repr

def isAcknowledge : Frame → Bool
  | .control type _ => type = PACKET_TYPE_KD_ACKNOWLEDGE
  | .data _ => false

/-- The kernel writes what a turn of the receive loop sends. -/
def Link.answer (s : Link) (turn : Turn) (tag : Option Nat) : Link :=
  let delivered := s.delivered ++ (turn.result.bind Prod.snd).toList
  { s with
    ids := turn.ids
    delivered := delivered
    toPeer := s.toPeer ++ turn.sent.map fun f => ⟨f, if isAcknowledge f then some delivered.length else none⟩
    acknowledged := if turn.sent.any isAcknowledge then s.acknowledged ++ tag.toList else s.acknowledged }

/-- The head of the loop of KdSendPacket. -/
def Link.sendLoop (s : Link) (m : Message) (retriesLeft : BitVec 32) : Link :=
  if retriesLeft = 0 && m.mayGiveUp then
    { s with ids := ⟨INITIAL_PACKET_ID ||| SYNC_PACKET_ID, INITIAL_PACKET_ID⟩, mode := .idle }
  else
    { s with
      toPeer := s.toPeer ++ [⟨.data (m.frame s.ids.nextPacketIdToSend), some (s.kernelSent - 1)⟩]
      mode := .sending m retriesLeft }

/-- KdSendPacket after its call of KdReceivePacket. -/
def Link.afterWait (s : Link) (m : Message) (retriesLeft : BitVec 32) (a : Arrival) : Code → Link
  | .received =>
    { s with
      ids := { s.ids with nextPacketIdToSend := s.ids.nextPacketIdToSend &&& ~~~SYNC_PACKET_ID }
      mode := .idle
      returned := match a with
        | .frame f => if isAcknowledge f then s.returned ++ [s.kernelSent - 1] else s.returned
        | _ => s.returned }
  | .timeout => s.sendLoop m (retriesLeft - 1)
  | .resend => s.sendLoop m retriesLeft

def Link.kernelTurn (s : Link) (a : Arrival) (tag : Option Nat) : Option Link :=
  match s.mode with
  | .idle => none
  | .receiving packetType maxLength =>
    let turn := kdReceivePacketWithType s.ids packetType maxLength a
    some { s.answer turn tag with
      mode := if turn.result.isSome then .idle else .receiving turn.packetType maxLength }
  | .sending m retriesLeft =>
    let turn := kdReceivePacketWithType s.ids PACKET_TYPE_KD_ACKNOWLEDGE 0 a
    let s := s.answer turn tag
    match turn.result with
    | none => some s
    | some (code, _) => some (s.afterWait m retriesLeft a code)

def Link.peerTakes (s : Link) (f : DataFrame) (tag : Option Nat) : Link :=
  if f.Intact then
    let expected := if f.packetId &&& SYNC_PACKET_ID ≠ 0 then INITIAL_PACKET_ID else s.peerExpected
    let id := f.packetId &&& ~~~SYNC_PACKET_ID
    let toKernel := s.toKernel ++ [⟨.control PACKET_TYPE_KD_ACKNOWLEDGE id, tag.map (· + 1)⟩]
    if id = expected then
      { s with toKernel := toKernel, peerExpected := expected ^^^ 1, accepted := s.accepted ++ tag.toList }
    else { s with toKernel := toKernel, peerExpected := expected }
  else { s with toKernel := s.toKernel ++ [⟨.control PACKET_TYPE_KD_RESEND 0, none⟩] }

def Link.peerTurn (s : Link) (x : InFlight) : Link :=
  match x.frame with
  | .data f => s.peerTakes f x.tag
  | .control type id =>
    if type = PACKET_TYPE_KD_ACKNOWLEDGE ∧ s.outstanding.isSome ∧ id = s.peerNext then
      { s with outstanding := none, peerNext := s.peerNext ^^^ 1 }
    else s

def Link.peerWrites (s : Link) (p : Packet) (number : Nat) : Link :=
  { s with toKernel := s.toKernel ++ [⟨.data (p.frame s.peerNext), some number⟩] }

def linkStep (s : Link) : LinkOp → Option Link
  | .receive packetType maxLength =>
    if s.mode = .idle then some { s with mode := .receiving packetType maxLength } else none
  | .send m => if s.mode = .idle then some ({ s with kernelSent := s.kernelSent + 1 }.sendLoop m 5) else none
  | .silence => s.kernelTurn .noData none
  | .breakIn => s.kernelTurn .breakIn none
  | .arrival =>
    match s.toKernel with
    | [] => none
    | x :: rest => { s with toKernel := rest }.kernelTurn (.frame x.frame) x.tag
  | .peerSend p =>
    if s.outstanding = none then
      some ({ s with outstanding := some p, peerSent := s.peerSent ++ [p] }.peerWrites p s.peerSent.length)
    else none
  | .peerAgain => s.outstanding.map fun p => s.peerWrites p (s.peerSent.length - 1)
  | .peerAsksResend => some { s with toKernel := s.toKernel ++ [⟨.control PACKET_TYPE_KD_RESEND 0, none⟩] }
  | .peerArrival =>
    match s.toPeer with
    | [] => none
    | x :: rest => some ({ s with toPeer := rest }.peerTurn x)
  | .faultToKernel e => (e.apply s.toKernel).map fun line => { s with toKernel := line }
  | .faultToPeer e => (e.apply s.toPeer).map fun line => { s with toPeer := line }

/-- A fresh session: after boot the first packet carries the sync bit, after an exchange of resets not. -/
def Link.start (sync : Bool) : Link where
  ids := ⟨if sync then INITIAL_PACKET_ID ||| SYNC_PACKET_ID else INITIAL_PACKET_ID, INITIAL_PACKET_ID⟩
  mode := .idle
  toKernel := []
  toPeer := []
  delivered := []
  acknowledged := []
  kernelSent := 0
  returned := []
  peerNext := INITIAL_PACKET_ID
  peerExpected := INITIAL_PACKET_ID
  outstanding := none
  peerSent := []
  accepted := []

/-- What is acknowledged is what is delivered, each packet once and in order, and KdSendPacket comes
back with an acknowledgement only after the peer has taken the packet. -/
structure ExactlyOnce (s : Link) : Prop where
  inOrder : s.delivered.map Delivery.content = (s.peerSent.take s.delivered.length).map Packet.content
  acknowledged : ∀ k, k ∈ s.acknowledged ↔ k < s.delivered.length
  returned : ∀ k ∈ s.returned, k ∈ s.accepted

/-- A data frame the receive loop cannot answer correctly if it carries the expected id: any, while an
acknowledgement is awaited, and one of another type, while data are awaited. -/
def mishandled (packetType maxLength : BitVec 16) (f : DataFrame) : Bool :=
  packetType = PACKET_TYPE_KD_ACKNOWLEDGE ||
  f.readWhole maxLength && packetType ≠ f.packetType && packetType ≠ 0

/-- No such frame carries the expected id, and no KdSendPacket uses up its retries and gives up. -/
def undisturbed (s : Link) : LinkOp → Bool
  | .arrival =>
    match s.mode, s.toKernel with
    | .sending _ _, ⟨.data f, _⟩ :: _ =>
      !(mishandled PACKET_TYPE_KD_ACKNOWLEDGE 0 f && f.packetId = s.ids.packetIdExpected)
    | .receiving packetType maxLength, ⟨.data f, _⟩ :: _ =>
      !(mishandled packetType maxLength f && f.packetId = s.ids.packetIdExpected)
    | _, _ => true
  | .silence =>
    match s.mode with
    | .sending m retriesLeft => !(retriesLeft = 1 && m.mayGiveUp)
    | _ => true
  | _ => true

end Gr8os.Kd
