import Gr8os.Kd.Receive

/-! When the bytes of a data packet stay in the buffers of the caller. -/
namespace Gr8os.Kd

theorem kdpReceiveString_length (size : Nat) (line : List PortByte) :
    (kdpReceiveString size line).bytes.length ≤ size := by
  fun_induction kdpReceiveString size line with
  | case1 line => exact Nat.le_refl 0
  | case2 left => exact Nat.zero_le _
  | case3 left line ih => exact ih
  | case4 left line => exact Nat.zero_le _
  | case5 left byte line rest ih => exact Nat.succ_le_succ ih

theorem kdpReceiveString_bytes (bytes : List (BitVec 8)) (line : List PortByte) :
    kdpReceiveString bytes.length (bytes.map .success ++ line) = ⟨bytes, some .success, line⟩ := by
  induction bytes with
  | nil => cases line <;> rfl
  | cons byte bytes ih =>
    rw [List.length_cons, List.map_cons, List.cons_append, kdpReceiveString, ih]

/-- The byte goes to a place of the buffer that it is stored in. -/
def Within (c : Caller) (store : Store) : Prop :=
  match store.target with
  | .messageHeader => store.index < c.header.maxLength.toNat
  | .messageData => store.index < c.data.maxLength.toNat

instance (c : Caller) (store : Store) : Decidable (Within c store) := by
  cases store with
  | mk target index byte =>
    cases target
    · exact inferInstanceAs (Decidable (index < _))
    · exact inferInstanceAs (Decidable (index < _))

section stores

variable (c : Caller)

theorem headerStores_within (size : Nat) (line : List PortByte) (fits : size ≤ c.header.maxLength.toNat) :
    ∀ store ∈ storesOf .messageHeader c.header (kdpReceiveString size line).bytes, Within c store := by
  intro store stored
  unfold storesOf at stored
  split at stored
  · obtain ⟨index, inside, rfl⟩ := List.mem_mapIdx.mp stored
    have length := kdpReceiveString_length size line
    exact Nat.lt_of_lt_of_le inside (Nat.le_trans length fits)
  · cases stored

theorem dataStores_within (bytes : List (BitVec 8)) :
    (∀ store ∈ storesOf .messageData c.data bytes, Within c store) ↔
      c.data.hasBuffer = false ∨ bytes.length ≤ c.data.maxLength.toNat := by
  unfold storesOf
  split
  · rename_i present
    rw [present]
    constructor
    · intro within
      refine .inr (Nat.le_of_not_lt fun long => ?_)
      have last := within _ (List.mem_mapIdx.mpr ⟨c.data.maxLength.toNat, long, rfl⟩)
      exact Nat.lt_irrefl _ last
    · rintro (absent | short) store stored
      · cases absent
      · obtain ⟨index, inside, rfl⟩ := List.mem_mapIdx.mp stored
        exact Nat.lt_of_lt_of_le inside short
  · rename_i absent
    exact ⟨fun _ => .inl (Bool.eq_false_iff.mpr absent), fun _ _ stored => nomatch stored⟩

end stores

/-- No more data bytes of a packet arrive than the buffer of the caller takes. -/
def BodyFits (c : Caller) (f : DataFrame) (line : List PortByte) : Prop :=
  (kdpReceiveString c.header.maxLength.toNat line).code = some .success →
    (kdpReceiveString (dataLength c f) (kdpReceiveString c.header.maxLength.toNat line).line).bytes.length ≤
      c.data.maxLength.toNat

def TurnFits (c : Caller) (s : Receiving) (line : List PortByte) : Prop :=
  ∀ f packetLeader rest, receiveFront c s line = .announces f packetLeader rest → BodyFits c f rest

def TurnsFit (c : Caller) : Nat → Receiving → List PortByte → Prop
  | 0, _, _ => True
  | turns + 1, s, line =>
    TurnFits c s line ∧
      match (receiveTurn c s line).ends with
      | none => True
      | some (t, packetLeader, line) =>
        match t.result with
        | some _ => True
        | none => TurnsFit c turns { ids := t.ids, packetType := t.packetType, packetLeader } line

section turns

variable (c : Caller)

theorem receiveBody_stores (s : Receiving) (f : DataFrame) (packetLeader : BitVec 32) (line : List PortByte) :
    (receiveBody c s f packetLeader line).stores =
      storesOf .messageHeader c.header (kdpReceiveString c.header.maxLength.toNat line).bytes ++
        if (kdpReceiveString c.header.maxLength.toNat line).code = some .success then
          storesOf .messageData c.data
            (kdpReceiveString (dataLength c f) (kdpReceiveString c.header.maxLength.toNat line).line).bytes
        else [] := by
  unfold receiveBody
  generalize kdpReceiveString c.header.maxLength.toNat line = header
  dsimp only
  split
  · rename_i starved
    rw [starved, if_neg (by simp), List.append_nil]
  · rename_i whole
    rw [if_pos whole]
    split
    · rfl
    · split <;> rfl
    · rfl
  · rename_i code failed whole
    have differs : header.code ≠ some .success := by
      rw [whole]
      exact fun same => failed (Option.some.inj same)
    rw [if_neg differs, List.append_nil]

theorem body_within (s : Receiving) (f : DataFrame) (packetLeader : BitVec 32) (line : List PortByte) :
    (∀ store ∈ (receiveBody c s f packetLeader line).stores, Within c store) ↔
      c.data.hasBuffer = false ∨ BodyFits c f line := by
  have header := headerStores_within c _ line (Nat.le_refl _)
  rw [receiveBody_stores, List.forall_mem_append, and_iff_right header]
  unfold BodyFits
  split
  · rename_i whole
    rw [dataStores_within, imp_iff_right whole]
  · rename_i failed
    exact iff_of_true (List.forall_mem_nil _) (.inr fun whole => absurd whole failed)

theorem turn_within (s : Receiving) (line : List PortByte) :
    (∀ store ∈ (receiveTurn c s line).stores, Within c store) ↔
      c.data.hasBuffer = false ∨ TurnFits c s line := by
  unfold receiveTurn TurnFits
  cases receiveFront c s line with
  | waits => exact iff_of_true (List.forall_mem_nil _) (.inr fun _ _ _ other => nomatch other)
  | turns turn packetLeader rest =>
    exact iff_of_true (List.forall_mem_nil _) (.inr fun _ _ _ other => nomatch other)
  | announces f packetLeader rest =>
    rw [body_within]
    refine or_congr_right ⟨?_, fun fits => fits f packetLeader rest rfl⟩
    rintro fits _ _ _ ⟨⟩
    exact fits

theorem turns_within (turns : Nat) (s : Receiving) (line : List PortByte) :
    (∀ store ∈ receiveTurns c turns s line, Within c store) ↔
      c.data.hasBuffer = false ∨ TurnsFit c turns s line := by
  induction turns generalizing s line with
  | zero => exact iff_of_true (List.forall_mem_nil _) (.inr trivial)
  | succ turns ih =>
    rw [receiveTurns, List.forall_mem_append, turn_within, TurnsFit, or_and_left]
    refine and_congr_right fun _ => ?_
    cases (receiveTurn c s line).ends with
    | none => exact iff_of_true (List.forall_mem_nil _) (.inr trivial)
    | some ending =>
      obtain ⟨t, packetLeader, rest⟩ := ending
      cases result : t.result with
      | some _ =>
        simp only [result]
        exact iff_of_true (List.forall_mem_nil _) (.inr trivial)
      | none =>
        simp only [result]
        exact ih _ rest

end turns

section callers

variable (c : Caller) (s : Receiving)

theorem receiveField_announces {packetLeader : BitVec 32} {size : Nat} {line : List PortByte}
    {next : List (BitVec 8) → List PortByte → Front} {f : DataFrame} {leader : BitVec 32} {rest : List PortByte}
    (announced : receiveField c s packetLeader size line next = .announces f leader rest) :
    ∃ bytes line, next bytes line = .announces f leader rest := by
  unfold receiveField at announced
  dsimp only at announced
  split at announced
  · cases announced
  · cases announced
  · cases announced
  · exact ⟨_, _, announced⟩

/-- A data packet that is announced is awaited, and its length was checked. -/
def Checked (f : DataFrame) : Prop :=
  s.packetType ≠ PACKET_TYPE_KD_ACKNOWLEDGE ∧ f.byteCount.toNat ≤ PACKET_MAX_SIZE ∧ c.header.maxLength ≤ f.byteCount

theorem receiveFields_announces {packetLeader : BitVec 32} {line : List PortByte} {f : DataFrame}
    {leader : BitVec 32} {rest : List PortByte}
    (announced : receiveFields c s packetLeader line = .announces f leader rest) : Checked c s f := by
  obtain ⟨packetType, _, announced⟩ := receiveField_announces c s announced
  split at announced
  · cases announced
  obtain ⟨byteCount, _, announced⟩ := receiveField_announces c s announced
  obtain ⟨packetId, _, announced⟩ := receiveField_announces c s announced
  obtain ⟨checksum, _, announced⟩ := receiveField_announces c s announced
  dsimp only at announced
  split at announced
  · cases announced
  split at announced
  · cases announced
  rename_i awaited
  split at announced
  · cases announced
  rename_i lengths
  cases announced
  rw [not_or] at lengths
  exact ⟨awaited, Nat.le_of_not_lt lengths.1, BitVec.not_lt.mp lengths.2⟩

theorem receiveFront_announces {line : List PortByte} {f : DataFrame} {leader : BitVec 32} {rest : List PortByte}
    (announced : receiveFront c s line = .announces f leader rest) : Checked c s f := by
  unfold receiveFront at announced
  split at announced
  · cases announced
  · cases announced
  · exact receiveFields_announces c s announced
  · exact receiveFields_announces c s announced

theorem kdReceivePacketWithType_awaits (ids : Ids) (maxLength : BitVec 16) (arrival : Arrival) :
    (kdReceivePacketWithType ids PACKET_TYPE_KD_ACKNOWLEDGE maxLength arrival).packetType =
      PACKET_TYPE_KD_ACKNOWLEDGE := by
  unfold kdReceivePacketWithType
  split
  · rfl
  · rfl
  · split_ifs <;> rfl
  · rw [if_pos rfl]
    split <;> rfl

variable (awaits : s.packetType = PACKET_TYPE_KD_ACKNOWLEDGE)
include awaits

theorem turnOn_awaits (arrival : Arrival) : (turnOn c s arrival).packetType = PACKET_TYPE_KD_ACKNOWLEDGE := by
  unfold turnOn
  rw [awaits]
  exact kdReceivePacketWithType_awaits s.ids _ arrival

theorem receiveField_awaits {packetLeader : BitVec 32} {size : Nat} {line : List PortByte}
    {next : List (BitVec 8) → List PortByte → Front} {t : Turn} {leader : BitVec 32} {rest : List PortByte}
    (later : ∀ bytes line, next bytes line = .turns t leader rest → t.packetType = PACKET_TYPE_KD_ACKNOWLEDGE)
    (turns : receiveField c s packetLeader size line next = .turns t leader rest) :
    t.packetType = PACKET_TYPE_KD_ACKNOWLEDGE := by
  unfold receiveField at turns
  dsimp only at turns
  split at turns
  · cases turns
  · cases turns
    exact turnOn_awaits c s awaits _
  · cases turns
    exact awaits
  · exact later _ _ turns

theorem receiveFields_awaits {packetLeader : BitVec 32} {line : List PortByte} {t : Turn}
    {leader : BitVec 32} {rest : List PortByte}
    (turns : receiveFields c s packetLeader line = .turns t leader rest) :
    t.packetType = PACKET_TYPE_KD_ACKNOWLEDGE := by
  refine receiveField_awaits c s awaits (fun packetType _ turns => ?_) turns
  split at turns
  · cases turns
    exact turnOn_awaits c s awaits _
  refine receiveField_awaits c s awaits (fun byteCount _ turns => ?_) turns
  refine receiveField_awaits c s awaits (fun packetId _ turns => ?_) turns
  refine receiveField_awaits c s awaits (fun checksum _ turns => ?_) turns
  dsimp only at turns
  split at turns
  · cases turns
    exact turnOn_awaits c s awaits _
  cases turns
  exact turnOn_awaits c s awaits _

/-- Such a caller has no bytes stored for it, and the next turn finds it as it was. -/
theorem receiveTurn_awaits (line : List PortByte) :
    TurnFits c s line ∧ ∀ t leader rest, (receiveTurn c s line).ends = some (t, leader, rest) →
      t.packetType = PACKET_TYPE_KD_ACKNOWLEDGE := by
  have quiet : ∀ f leader rest, receiveFront c s line ≠ .announces f leader rest := by
    intro f leader rest announced
    exact (receiveFront_announces c s announced).1 awaits
  refine ⟨fun f leader rest announced => absurd announced (quiet f leader rest), ?_⟩
  intro t leader rest ends
  unfold receiveTurn at ends
  split at ends
  · cases ends
  · rename_i turns
    cases ends
    unfold receiveFront at turns
    split at turns
    · cases turns
    · cases turns
      exact turnOn_awaits c s awaits _
    · exact receiveFields_awaits c s awaits turns
    · exact receiveFields_awaits c s awaits turns
  · rename_i announced
    exact absurd announced (quiet _ _ _)

end callers

/-- The caller has no buffer for data, or waits for an acknowledgement, or takes the longest packet. -/
def Prepared (c : Caller) (packetType : BitVec 16) : Prop :=
  c.data.hasBuffer = false ∨ packetType = PACKET_TYPE_KD_ACKNOWLEDGE ∨
  PACKET_MAX_SIZE ≤ c.header.maxLength.toNat + c.data.maxLength.toNat

/-- What every turn keeps, and what makes a turn fit, makes all turns fit. -/
theorem turnsFit_of_kept (c : Caller) (Kept : Receiving → Prop)
    (step : ∀ s line, Kept s → TurnFits c s line ∧ ∀ t packetLeader rest,
      (receiveTurn c s line).ends = some (t, packetLeader, rest) →
        Kept { ids := t.ids, packetType := t.packetType, packetLeader })
    (turns : Nat) (s : Receiving) (line : List PortByte) (kept : Kept s) : TurnsFit c turns s line := by
  induction turns generalizing s line with
  | zero => trivial
  | succ turns ih =>
    obtain ⟨fits, next⟩ := step s line kept
    refine ⟨fits, ?_⟩
    cases ends : (receiveTurn c s line).ends with
    | none => trivial
    | some ending =>
      obtain ⟨t, packetLeader, rest⟩ := ending
      cases result : t.result with
      | some _ => simp only [result]
      | none =>
        simp only [result]
        exact ih _ rest (next t packetLeader rest ends)

theorem turnFits_of_room (c : Caller) (s : Receiving) (line : List PortByte)
    (room : PACKET_MAX_SIZE ≤ c.header.maxLength.toNat + c.data.maxLength.toNat) : TurnFits c s line := by
  intro f leader rest announced whole
  obtain ⟨-, short, holds⟩ := receiveFront_announces c s announced
  have length : dataLength c f = f.byteCount.toNat - c.header.maxLength.toNat := BitVec.toNat_sub_of_le holds
  have arrived := kdpReceiveString_length (dataLength c f)
    (kdpReceiveString c.header.maxLength.toNat rest).line
  omega

theorem receiveField_bytes (c : Caller) (s : Receiving) (size : Nat) (bytes : List (BitVec 8))
    (length : bytes.length = size) (packetLeader : BitVec 32) (line : List PortByte)
    (next : List (BitVec 8) → List PortByte → Front) :
    receiveField c s packetLeader size (bytes.map .success ++ line) next = next bytes line := by
  unfold receiveField
  rw [← length, kdpReceiveString_bytes]

/-- The longest data packet that passes the check: leader, type, length 4000, id, sum, and zeros. -/
def longPacket : List PortByte :=
  [0x30, 0x30, 0x30, 0x30].map .success ++ ([2, 0].map .success ++ ([0xA0, 0x0F].map .success ++
    ([0, 0, 0x80, 0x80].map .success ++ ([0, 0, 0, 0].map .success ++
      (List.replicate PACKET_MAX_SIZE 0).map .success))))

def longFrame : DataFrame where
  packetType := 2
  byteCount := 4000
  packetId := INITIAL_PACKET_ID
  checksum := 0
  body := []
  trailing := none

theorem receiveFront_longPacket (c : Caller) (s : Receiving)
    (waits : s.packetType ≠ PACKET_TYPE_KD_ACKNOWLEDGE) (short : c.header.maxLength.toNat ≤ PACKET_MAX_SIZE) :
    receiveFront c s longPacket =
      .announces longFrame PACKET_LEADER ((List.replicate PACKET_MAX_SIZE 0).map .success) := by
  have leader (line : List PortByte) :
      kdpReceivePacketLeader 0 0 false ([0x30, 0x30, 0x30, 0x30].map .success ++ line) =
        some (.received PACKET_LEADER, line) := rfl
  have lengths : ¬ (longFrame.byteCount.toNat > PACKET_MAX_SIZE ∨ longFrame.byteCount < c.header.maxLength) := by
    rintro (long | missing)
    · exact absurd long (by decide)
    · exact Nat.not_lt.mpr short (BitVec.lt_def.mp missing)
  unfold receiveFront longPacket
  rw [leader]
  unfold receiveFields
  dsimp only
  rw [receiveField_bytes c s 2 [2, 0] rfl, if_neg (by decide), receiveField_bytes c s 2 [0xA0, 0x0F] rfl,
    receiveField_bytes c s 4 [0, 0, 0x80, 0x80] rfl, receiveField_bytes c s 4 [0, 0, 0, 0] rfl,
    if_neg (by decide), if_neg waits]
  exact if_neg lengths

theorem longPacket_overruns (c : Caller) (s : Receiving) (unprepared : ¬ Prepared c s.packetType) :
    ¬ ∀ store ∈ receiveTurns c 1 s longPacket, Within c store := by
  unfold Prepared at unprepared
  rw [not_or, not_or, Bool.not_eq_false, Nat.not_le] at unprepared
  obtain ⟨present, waits, small⟩ := unprepared
  have front := receiveFront_longPacket c s waits (by omega)
  intro within
  have absent := (turns_within c 1 s longPacket).mp within
  rw [present] at absent
  have fits := (absent.resolve_left (by decide)).1 _ _ _ front
  have split : List.replicate PACKET_MAX_SIZE (0 : BitVec 8) =
      List.replicate c.header.maxLength.toNat 0 ++ List.replicate (PACKET_MAX_SIZE - c.header.maxLength.toNat) 0 := by
    rw [List.replicate_append_replicate]
    congr 1
    omega
  have header := kdpReceiveString_bytes (List.replicate c.header.maxLength.toNat 0)
    ((List.replicate (PACKET_MAX_SIZE - c.header.maxLength.toNat) 0).map .success)
  rw [← List.map_append, ← split, List.length_replicate] at header
  have length : dataLength c longFrame = PACKET_MAX_SIZE - c.header.maxLength.toNat :=
    BitVec.toNat_sub_of_le (BitVec.le_def.mpr (by change _ ≤ 4000; unfold PACKET_MAX_SIZE at small; omega))
  have data := kdpReceiveString_bytes (List.replicate (PACKET_MAX_SIZE - c.header.maxLength.toNat) 0) []
  rw [List.append_nil, List.length_replicate] at data
  unfold BodyFits at fits
  rw [header, length, data, List.length_replicate] at fits
  have arrived := fits rfl
  omega

/-- A caller is safe from every line exactly if it is prepared, and any caller from the lines whose packets fit. -/
theorem stores_within_iff (c : Caller) (s : Receiving) :
    ((∀ turns line, ∀ store ∈ receiveTurns c turns s line, Within c store) ↔ Prepared c s.packetType) ∧
    ∀ turns line, (∀ store ∈ receiveTurns c turns s line, Within c store) ↔
      c.data.hasBuffer = false ∨ TurnsFit c turns s line := by
  refine ⟨⟨fun within => ?_, fun prepared turns line => ?_⟩, fun turns line => turns_within c turns s line⟩
  · by_contra unprepared
    exact longPacket_overruns c s unprepared (within 1 longPacket)
  · rw [turns_within]
    obtain absent | awaits | room := prepared
    · exact .inl absent
    · refine .inr (turnsFit_of_kept c (·.packetType = PACKET_TYPE_KD_ACKNOWLEDGE) ?_ turns s line awaits)
      exact fun s line awaits => receiveTurn_awaits c s awaits line
    · refine .inr (turnsFit_of_kept c (fun _ => True) ?_ turns s line trivial)
      exact fun s line _ => ⟨turnFits_of_room c s line room, fun _ _ _ _ => trivial⟩

/-- The buffers of KdpReceiveAndReplyPackets: a DBGKD_MANIPULATE_STATE32 and KdpDataBuffer. -/
def replyBuffers : Caller where
  messageHeader := some { hasBuffer := true, maxLength := 56 }
  messageData := some { hasBuffer := true, maxLength := 256 }
  nullMemory := fun _ => 0

theorem replyBuffers_overrun : ¬ ∀ turns line, ∀ store ∈ receiveTurns replyBuffers turns
    { ids := ⟨INITIAL_PACKET_ID, INITIAL_PACKET_ID⟩, packetType := 0, packetLeader := 0 } line,
    Within replyBuffers store := by
  intro within
  refine longPacket_overruns replyBuffers _ ?_ (within 1 longPacket)
  rintro (absent | awaits | room)
  · exact absurd absent (by decide)
  · exact absurd awaits (by decide)
  · exact absurd room (by decide)

end Gr8os.Kd
