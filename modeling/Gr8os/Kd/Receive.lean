import Gr8os.Kd.Packet

/-! KdReceivePacketWithType byte by byte: what it stores in the buffers of its caller. -/
namespace Gr8os.Kd

def PACKET_LEADER : BitVec 32 := 0x30303030
def CONTROL_PACKET_LEADER : BitVec 32 := 0x69696969
def PACKET_LEADER_BYTE : BitVec 8 := 0x30
def CONTROL_PACKET_LEADER_BYTE : BitVec 8 := 0x69
def BREAKIN_PACKET_BYTE : BitVec 8 := 0x62

/-- What KdPortGetByte returns. -/
inductive PortByte
  | success (byte : BitVec 8)
  | noData
  | error
deriving DecidableEq, Repr

inductive CpGet
  | success
  | noData
  | error
deriving DecidableEq, Repr

/-- The bytes of a string so far. There is no code while the line has nothing more to tell. -/
structure ReceivedString where
  bytes : List (BitVec 8)
  code : Option CpGet
  line : List PortByte
deriving DecidableEq, Repr

/-- A byte that comes with an error is waited for again. -/
def kdpReceiveString : Nat → List PortByte → ReceivedString
  | 0, line => ⟨[], some .success, line⟩
  | _ + 1, [] => ⟨[], none, []⟩
  | left + 1, .error :: line => kdpReceiveString (left + 1) line
  | _ + 1, .noData :: line => ⟨[], some .noData, line⟩
  | left + 1, .success byte :: line =>
    let rest := kdpReceiveString left line
    { rest with bytes := byte :: rest.bytes }

inductive LeaderCode
  | timeout
  | resend
  | received (packetLeader : BitVec 32)
deriving DecidableEq, Repr

/-- Four leader bytes of one kind in a row end the wait, and so does a break-in. -/
def kdpReceivePacketLeader (index : Nat) (prevByte : BitVec 8) (breakinDetected : Bool) :
    List PortByte → Option (LeaderCode × List PortByte)
  | [] => none
  | .noData :: line => some (if breakinDetected then .resend else .timeout, line)
  | .error :: line => kdpReceivePacketLeader 0 prevByte breakinDetected line
  | .success byte :: line =>
    let isLeader := byte = PACKET_LEADER_BYTE || byte = CONTROL_PACKET_LEADER_BYTE
    let index := if !isLeader then 0 else if index = 0 then 1 else if byte = prevByte then index + 1 else 1
    let prevByte := if isLeader then byte else prevByte
    let breakinDetected := if isLeader then breakinDetected else byte = BREAKIN_PACKET_BYTE
    if breakinDetected then some (.resend, line)
    else if index < 4 then kdpReceivePacketLeader index prevByte breakinDetected line
    else some (.received (if byte = PACKET_LEADER_BYTE then PACKET_LEADER else CONTROL_PACKET_LEADER), line)

/-- A CBUFFER. Its Buffer may be a null pointer. -/
structure CBuffer where
  hasBuffer : Bool
  maxLength : BitVec 16
deriving DecidableEq, Repr

/-- FictiveHeader, which stands for a buffer that the caller does not supply. -/
def fictiveHeader : CBuffer := { hasBuffer := false, maxLength := 0 }

/-- The buffers of the caller, and what is read from the null pointer. -/
structure Caller where
  messageHeader : Option CBuffer
  messageData : Option CBuffer
  nullMemory : Nat → BitVec 8

namespace Caller

variable (c : Caller)

def header : CBuffer := c.messageHeader.getD fictiveHeader

def data : CBuffer := c.messageData.getD fictiveHeader

/-- The bytes in a buffer after some were received for it. -/
def held (buffer : CBuffer) (bytes : List (BitVec 8)) : List (BitVec 8) :=
  if buffer.hasBuffer then bytes else (List.range bytes.length).map c.nullMemory

end Caller

/-- The variables of the loop. The leader of a packet before is kept if none is received. -/
structure Receiving where
  ids : Ids
  packetType : BitVec 16
  packetLeader : BitVec 32
deriving DecidableEq, Repr

/-- A turn is over before the buffers are reached, or a data packet is announced. -/
inductive Front
  | waits
  | turns (turn : Turn) (packetLeader : BitVec 32) (line : List PortByte)
  | announces (f : DataFrame) (packetLeader : BitVec 32) (line : List PortByte)
deriving DecidableEq, Repr

def ushortOf : List (BitVec 8) → BitVec 16
  | a :: b :: _ => b ++ a
  | _ => 0

def ulongOf : List (BitVec 8) → BitVec 32
  | a :: b :: c :: d :: _ => d ++ c ++ b ++ a
  | _ => 0

section turn

variable (c : Caller) (s : Receiving)

def turnOn (arrival : Arrival) : Turn := kdReceivePacketWithType s.ids s.packetType c.header.maxLength arrival

/-- A field of the packet is received, and the turn goes on. -/
def receiveField (packetLeader : BitVec 32) (size : Nat) (line : List PortByte)
    (next : List (BitVec 8) → List PortByte → Front) : Front :=
  let field := kdpReceiveString size line
  match field.code with
  | none => .waits
  | some .noData => .turns (turnOn c s .noData) packetLeader field.line
  | some .error =>
    let sent := if packetLeader ≠ CONTROL_PACKET_LEADER then [kdpSendControlPacket PACKET_TYPE_KD_RESEND 0] else []
    .turns { ids := s.ids, packetType := s.packetType, sent, result := none } packetLeader field.line
  | some .success => next field.bytes field.line

def receiveFields (packetLeader : BitVec 32) (line : List PortByte) : Front :=
  receiveField c s packetLeader 2 line fun packetType line =>
    if packetLeader = CONTROL_PACKET_LEADER ∧ ushortOf packetType = PACKET_TYPE_KD_RESEND then
      .turns (turnOn c s (.frame (.control PACKET_TYPE_KD_RESEND 0))) packetLeader line
    else
      receiveField c s packetLeader 2 line fun byteCount line =>
        receiveField c s packetLeader 4 line fun packetId line =>
          receiveField c s packetLeader 4 line fun checksum line =>
            let f : DataFrame := {
              packetType := ushortOf packetType
              byteCount := ushortOf byteCount
              packetId := ulongOf packetId
              checksum := ulongOf checksum
              body := []
              trailing := none }
            if packetLeader = CONTROL_PACKET_LEADER then
              .turns (turnOn c s (.frame (.control f.packetType f.packetId))) packetLeader line
            else if s.packetType = PACKET_TYPE_KD_ACKNOWLEDGE then
              .turns (turnOn c s (.frame (.data f))) packetLeader line
            else if f.byteCount.toNat > PACKET_MAX_SIZE ∨ f.byteCount < c.header.maxLength then
              .turns (turnOn c s (.frame (.data f))) packetLeader line
            else .announces f packetLeader line

def receiveFront (line : List PortByte) : Front :=
  match kdpReceivePacketLeader 0 0 false line with
  | none => .waits
  | some (.resend, line) => .turns (turnOn c s .breakIn) s.packetLeader line
  | some (.timeout, line) => receiveFields c s s.packetLeader line
  | some (.received packetLeader, line) => receiveFields c s packetLeader line

inductive Target
  | messageHeader
  | messageData
deriving DecidableEq, Repr

structure Store where
  target : Target
  index : Nat
  byte : BitVec 8
deriving DecidableEq, Repr

/-- The bytes go to the buffer from its beginning on, if there is one. -/
def storesOf (target : Target) (buffer : CBuffer) (bytes : List (BitVec 8)) : List Store :=
  if buffer.hasBuffer then bytes.mapIdx fun index byte => { target, index, byte } else []

/-- What one turn stores, and how it ends if the line has told enough. -/
structure ByteTurn where
  stores : List Store
  ends : Option (Turn × BitVec 32 × List PortByte)
deriving DecidableEq, Repr

def dataLength (f : DataFrame) : Nat := (f.byteCount - c.header.maxLength).toNat

def receiveBody (f : DataFrame) (packetLeader : BitVec 32) (line : List PortByte) : ByteTurn :=
  let header := kdpReceiveString c.header.maxLength.toNat line
  let headerStores := storesOf .messageHeader c.header header.bytes
  let failed := turnOn c s (.frame (.data f))
  match header.code with
  | none => { stores := headerStores, ends := none }
  | some .success =>
    let data := kdpReceiveString (dataLength c f) header.line
    let stores := headerStores ++ storesOf .messageData c.data data.bytes
    match data.code with
    | none => { stores, ends := none }
    | some .success =>
      match data.line with
      | [] => { stores, ends := none }
      | answer :: line =>
        let trailing := match answer with
          | .success byte => some byte
          | _ => none
        let body := c.held c.header header.bytes ++ c.held c.data data.bytes
        { stores, ends := some (turnOn c s (.frame (.data { f with body, trailing })), packetLeader, line) }
    | some _ => { stores, ends := some (failed, packetLeader, data.line) }
  | some _ => { stores := headerStores, ends := some (failed, packetLeader, header.line) }

def receiveTurn (line : List PortByte) : ByteTurn :=
  match receiveFront c s line with
  | .waits => { stores := [], ends := none }
  | .turns turn packetLeader line => { stores := [], ends := some (turn, packetLeader, line) }
  | .announces f packetLeader line => receiveBody c s f packetLeader line

end turn

def receiveTurns (c : Caller) : Nat → Receiving → List PortByte → List Store
  | 0, _, _ => []
  | turns + 1, s, line =>
    let turn := receiveTurn c s line
    turn.stores ++
      match turn.ends with
      | none => []
      | some (t, packetLeader, line) =>
        match t.result with
        | some _ => []
        | none => receiveTurns c turns { ids := t.ids, packetType := t.packetType, packetLeader } line

end Gr8os.Kd
