import Gr8os.Lib.AlternatingId

/-! The debugger transport: KdReceivePacketWithType and KdSendPacket, one frame at a time. -/
namespace Gr8os.Kd

def INITIAL_PACKET_ID : BitVec 32 := 0x80800000
def SYNC_PACKET_ID : BitVec 32 := 0x00000800
def PACKET_MAX_SIZE : Nat := 4000
def PACKET_TRAILING_BYTE : BitVec 8 := 0xAA

def PACKET_TYPE_KD_DEBUG_IO : BitVec 16 := 3
def PACKET_TYPE_KD_ACKNOWLEDGE : BitVec 16 := 4
def PACKET_TYPE_KD_RESEND : BitVec 16 := 5
def PACKET_TYPE_KD_RESET : BitVec 16 := 6
def PACKET_TYPE_KD_STATE_CHANGE64 : BitVec 16 := 7
def PACKET_TYPE_KD_POLL_BREAKIN : BitVec 16 := 8

def DbgKdLoadSymbolsStateChange : BitVec 32 := 0x3031
def DbgKdPrintStringApi : BitVec 32 := 0x3230

/-- A frame as the line delivers it: fewer bytes than announced if the line went silent. -/
structure DataFrame where
  packetType : BitVec 16
  byteCount : BitVec 16
  packetId : BitVec 32
  checksum : BitVec 32
  body : List (BitVec 8)
  trailing : Option (BitVec 8)
deriving DecidableEq, Repr

inductive Frame
  | control (packetType : BitVec 16) (packetId : BitVec 32)
  | data (f : DataFrame)
deriving DecidableEq, Repr

/-- What the receive loop finds on the line. -/
inductive Arrival
  | noData
  | breakIn
  | frame (f : Frame)
deriving DecidableEq, Repr

inductive Code
  | received
  | timeout
  | resend
deriving DecidableEq, Repr

/-- KdpNextPacketIdToSend and KdpPacketIdExpected. -/
structure Ids where
  nextPacketIdToSend : BitVec 32
  packetIdExpected : BitVec 32
deriving DecidableEq, Repr

/-- MessageHeader and MessageData as the caller finds them. -/
structure Delivery where
  packetType : BitVec 16
  messageHeader : List (BitVec 8)
  messageData : List (BitVec 8)
deriving DecidableEq, Repr

/-- One turn of the loop: no result means `continue`. -/
structure Turn where
  ids : Ids
  packetType : BitVec 16
  sent : List Frame
  result : Option (Code × Option Delivery)
deriving DecidableEq, Repr

def kdCheckSumPacket (buffer : List (BitVec 8)) : BitVec 32 :=
  buffer.foldl (fun checksum byte => checksum + byte.setWidth 32) 0

def kdpSendControlPacket (packetType : BitVec 16) (packetId : BitVec 32) : Frame := .control packetType packetId

/-- The lengths, the reads of header and data, and the trailing byte are in order. -/
def DataFrame.readWhole (f : DataFrame) (maxLength : BitVec 16) : Bool :=
  !(f.byteCount.toNat > PACKET_MAX_SIZE || f.byteCount < maxLength) &&
  f.body.length ≥ f.byteCount.toNat && f.trailing = some PACKET_TRAILING_BYTE

/-- A data packet, when the caller waits for data. -/
def receiveData (ids : Ids) (packetType maxLength : BitVec 16) (f : DataFrame) : Turn :=
  let resend := [kdpSendControlPacket PACKET_TYPE_KD_RESEND 0]
  let acknowledge := [kdpSendControlPacket PACKET_TYPE_KD_ACKNOWLEDGE f.packetId]
  if f.byteCount.toNat > PACKET_MAX_SIZE || f.byteCount < maxLength then
    { ids := ids, packetType := packetType, sent := resend, result := none }
  -- Header and data are read in this order; a read that runs dry is answered the same way.
  else if f.body.length < f.byteCount.toNat then
    { ids := ids, packetType := packetType, sent := resend, result := none }
  else if f.trailing ≠ some PACKET_TRAILING_BYTE then
    { ids := ids, packetType := packetType, sent := resend, result := none }
  else if packetType ≠ f.packetType ∧ packetType ≠ 0 then
    { ids := ids, packetType := packetType, sent := acknowledge, result := none }
  else
    let packetType := if packetType = 0 then f.packetType else packetType
    if f.packetId = INITIAL_PACKET_ID ∨ f.packetId = INITIAL_PACKET_ID ^^^ 1 then
      if f.packetId ≠ ids.packetIdExpected then
        { ids := ids, packetType := packetType, sent := acknowledge, result := none }
      else
        let messageHeader := f.body.take maxLength.toNat
        let messageData := (f.body.drop maxLength.toNat).take (f.byteCount.toNat - maxLength.toNat)
        if kdCheckSumPacket messageHeader + kdCheckSumPacket messageData ≠ f.checksum then
          { ids := ids, packetType := packetType, sent := resend, result := none }
        else
          { ids := { ids with packetIdExpected := ids.packetIdExpected ^^^ 1 }
            packetType := packetType
            sent := acknowledge
            result := some (.received, some ⟨packetType, messageHeader, messageData⟩) }
    else { ids := ids, packetType := packetType, sent := resend, result := none }

/-- One turn of the loop of KdReceivePacketWithType. -/
def kdReceivePacketWithType (ids : Ids) (packetType maxLength : BitVec 16) : Arrival → Turn
  | .noData => { ids := ids, packetType := packetType, sent := [], result := some (.timeout, none) }
  | .breakIn =>
    let code := if packetType = PACKET_TYPE_KD_POLL_BREAKIN then Code.received else .resend
    { ids := ids, packetType := packetType, sent := [], result := some (code, none) }
  | .frame (.control type id) =>
    if type = PACKET_TYPE_KD_RESEND then
      { ids := ids, packetType := packetType, sent := [], result := some (.resend, none) }
    else if type = PACKET_TYPE_KD_ACKNOWLEDGE then
      if id ≠ ids.nextPacketIdToSend &&& ~~~SYNC_PACKET_ID then
        { ids := ids, packetType := packetType, sent := [], result := none }
      else if packetType = PACKET_TYPE_KD_ACKNOWLEDGE then
        { ids := { ids with nextPacketIdToSend := ids.nextPacketIdToSend ^^^ 1 }
          packetType := packetType
          sent := []
          result := some (.received, none) }
      else { ids := ids, packetType := packetType, sent := [], result := none }
    else if type = PACKET_TYPE_KD_RESET then
      { ids := ⟨INITIAL_PACKET_ID, INITIAL_PACKET_ID⟩
        packetType := packetType
        sent := [kdpSendControlPacket PACKET_TYPE_KD_RESET 0]
        result := some (.received, none) }
    else { ids := ids, packetType := packetType, sent := [], result := none }
  | .frame (.data f) =>
    if packetType = PACKET_TYPE_KD_ACKNOWLEDGE then
      if f.packetId = ids.packetIdExpected then
        { ids := ⟨ids.nextPacketIdToSend ^^^ 1, ids.packetIdExpected ^^^ 1⟩
          packetType := packetType
          sent := [kdpSendControlPacket PACKET_TYPE_KD_RESEND 0]
          result := some (.received, none) }
      else
        { ids := ids
          packetType := packetType
          sent := [kdpSendControlPacket PACKET_TYPE_KD_ACKNOWLEDGE f.packetId]
          result := none }
    else receiveData ids packetType maxLength f

/-- The arguments of KdSendPacket. -/
structure Message where
  packetType : BitVec 8
  messageHeader : List (BitVec 8)
  messageData : List (BitVec 8)
deriving DecidableEq, Repr

/-- The frame that KdSendPacket writes. -/
def Message.frame (m : Message) (packetId : BitVec 32) : DataFrame where
  packetType := m.packetType.setWidth 16
  byteCount := BitVec.ofNat 16 (m.messageHeader.length + m.messageData.length)
  packetId := packetId
  checksum := kdCheckSumPacket m.messageData + kdCheckSumPacket m.messageHeader
  body := m.messageHeader ++ m.messageData
  trailing := some PACKET_TRAILING_BYTE

/-- The first field of the header: ApiNumber or NewState. -/
def firstUlong : List (BitVec 8) → BitVec 32
  | a :: b :: c :: d :: _ => d ++ c ++ b ++ a
  | _ => 0

/-- The packets that KdSendPacket drops when the retries are used up. -/
def Message.mayGiveUp (m : Message) : Bool :=
  let type := m.packetType.setWidth 16
  if type = PACKET_TYPE_KD_DEBUG_IO then firstUlong m.messageHeader = DbgKdPrintStringApi
  else type = PACKET_TYPE_KD_STATE_CHANGE64 && firstUlong m.messageHeader = DbgKdLoadSymbolsStateChange

theorem kdCheckSumPacket_append (xs ys : List (BitVec 8)) :
    kdCheckSumPacket (xs ++ ys) = kdCheckSumPacket xs + kdCheckSumPacket ys := by
  have from_ : ∀ (zs : List (BitVec 8)) (c : BitVec 32),
      zs.foldl (fun checksum byte => checksum + byte.setWidth 32) c = c + kdCheckSumPacket zs := by
    intro zs
    unfold kdCheckSumPacket
    induction zs with
    | nil => simp
    | cons z zs ih =>
      intro c
      have start : (0 : BitVec 32) + z.setWidth 32 = z.setWidth 32 := BitVec.zero_add _
      rw [List.foldl_cons, ih, List.foldl_cons, ih (0 + z.setWidth 32), start, BitVec.add_assoc]
  unfold kdCheckSumPacket
  rw [List.foldl_append, from_]
  rfl

/-- Every byte is there, the trailing byte too, and the sum is right. -/
def DataFrame.Intact (f : DataFrame) : Prop :=
  f.body.length ≥ f.byteCount.toNat ∧ f.trailing = some PACKET_TRAILING_BYTE ∧
  kdCheckSumPacket (f.body.take f.byteCount.toNat) = f.checksum

instance (f : DataFrame) : Decidable f.Intact := inferInstanceAs (Decidable (_ ∧ _ ∧ _))

/-- The three answers to a data packet: ask again, acknowledge a frame that is not taken, take it. -/
theorem receiveData_cases (ids : Ids) (packetType maxLength : BitVec 16) (f : DataFrame) :
    (∃ type, receiveData ids packetType maxLength f =
      { ids := ids, packetType := type, sent := [.control PACKET_TYPE_KD_RESEND 0], result := none }) ∨
    (∃ type, receiveData ids packetType maxLength f =
      { ids := ids, packetType := type, sent := [.control PACKET_TYPE_KD_ACKNOWLEDGE f.packetId], result := none } ∧
      (f.packetId ≠ ids.packetIdExpected ∨
        f.readWhole maxLength = true ∧ packetType ≠ f.packetType ∧ packetType ≠ 0)) ∨
    (f.Intact ∧ f.packetId = ids.packetIdExpected ∧ ∃ header data,
      header ++ data = f.body.take f.byteCount.toNat ∧
      receiveData ids packetType maxLength f =
        { ids := { ids with packetIdExpected := ids.packetIdExpected ^^^ 1 }
          packetType := f.packetType
          sent := [.control PACKET_TYPE_KD_ACKNOWLEDGE f.packetId]
          result := some (.received, some ⟨f.packetType, header, data⟩) }) := by
  generalize run : receiveData ids packetType maxLength f = turn
  unfold receiveData at run
  dsimp only at run
  split at run
  · exact .inl ⟨_, run.symm⟩
  rename_i lengths
  split at run
  · exact .inl ⟨_, run.symm⟩
  rename_i enough
  split at run
  · exact .inl ⟨_, run.symm⟩
  rename_i trailing
  split at run
  · rename_i other
    refine .inr (.inl ⟨_, run.symm, .inr ⟨?_, other⟩⟩)
    have enough := Nat.le_of_not_lt enough
    have trailing := Decidable.of_not_not trailing
    simp [DataFrame.readWhole, lengths, enough, trailing]
  rename_i same
  split at run
  · split at run
    · rename_i differs
      exact .inr (.inl ⟨_, run.symm, .inl differs⟩)
    rename_i awaited
    split at run
    · exact .inl ⟨_, run.symm⟩
    rename_i sum
    have type : (if packetType = 0 then f.packetType else packetType) = f.packetType := by
      by_cases any : packetType = 0
      · exact if_pos any
      · rw [if_neg any]
        exact Decidable.of_not_not fun other => same ⟨other, any⟩
    have room : maxLength.toNat ≤ f.byteCount.toNat := by
      simp only [Bool.or_eq_true, decide_eq_true_eq, not_or] at lengths
      have := lengths.2
      rw [BitVec.lt_def] at this
      omega
    have whole : f.body.take maxLength.toNat ++
        (f.body.drop maxLength.toNat).take (f.byteCount.toNat - maxLength.toNat) =
        f.body.take f.byteCount.toNat := by
      rw [← List.take_add, Nat.add_sub_cancel' room]
    have enough := Nat.le_of_not_lt enough
    have trailing := Decidable.of_not_not trailing
    have awaited := Decidable.of_not_not awaited
    have sum := Decidable.of_not_not sum
    refine .inr (.inr ⟨⟨enough, trailing, ?_⟩, awaited, _, _, whole, ?_⟩)
    · rw [← whole, kdCheckSumPacket_append]
      exact sum
    · rw [← run, type]
      rfl
  · exact .inl ⟨_, run.symm⟩

end Gr8os.Kd
