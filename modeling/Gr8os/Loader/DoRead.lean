import Mathlib.Data.BitVec

/-! The boot sector's read loop: a run of sectors, read by the BIOS track by track. -/
namespace Gr8os.Loader

def SectorSize : BitVec 16 := 512

structure Bpb where
  sectorsPerTrack : BitVec 16
  heads : BitVec 16
  hiddenSectors : BitVec 32
  driveNumber : BitVec 8
deriving DecidableEq, Repr

/-- INT 13h with AH = 2 -/
structure BiosRead where
  al : BitVec 8
  ch : BitVec 8
  cl : BitVec 8
  dh : BitVec 8
  dl : BitVec 8
  es : BitVec 16
  bx : BitVec 16
deriving DecidableEq, Repr

structure Reading where
  sectorCount : BitVec 8
  sectorBase : BitVec 32
  bx : BitVec 16
deriving DecidableEq, Repr

structure ReadResult where
  calls : List BiosRead
  carry : Bool
deriving DecidableEq, Repr

/-- DIV of DX:AX: the quotient for AX and the remainder for DX. A quotient that does not fit is an exception. -/
def div (dividend : BitVec 32) (divisor : BitVec 16) : Option (BitVec 16 × BitVec 16) :=
  if divisor = 0 ∨ dividend.toNat / divisor.toNat ≥ 2 ^ 16 then none
  else some (BitVec.ofNat 16 (dividend.toNat / divisor.toNat), BitVec.ofNat 16 (dividend.toNat % divisor.toNat))

/-- How many sectors one call reads, in AX: what is left of the track, or of the count. -/
def readLength (b : Bpb) (currentSector sectorCount : BitVec 8) : BitVec 16 :=
  let al : BitVec 8 := b.sectorsPerTrack.setWidth 8 - currentSector
  let ax : BitVec 16 := ((b.sectorsPerTrack >>> 8).setWidth 8 ++ al) + 1
  if ax.setWidth 8 ≤ sectorCount then ax else sectorCount.setWidth 16

/-- One turn of DRloop: the call, and what the variables are if there is a further turn. -/
def drLoop (b : Bpb) (es : BitVec 16) (s : Reading) : Option (BiosRead × Option Reading) := do
  let (ax, dx) ← div (s.sectorBase + b.hiddenSectors) b.sectorsPerTrack
  let currentSector : BitVec 8 := dx.setWidth 8 + 1
  let (currentTrack, dx) ← div (ax.setWidth 32) b.heads
  let currentHead : BitVec 8 := dx.setWidth 8
  let ax := readLength b currentSector s.sectorCount
  let al : BitVec 8 := ax.setWidth 8
  let call : BiosRead := {
    al
    -- shl ch, 6; or ch, [CurrentSector]; xchg ch, cl
    ch := currentTrack.setWidth 8
    cl := ((currentTrack >>> 8).setWidth 8 <<< 6) ||| currentSector
    dh := currentHead
    dl := b.driveNumber
    es
    bx := s.bx }
  if s.sectorCount ≤ al then return (call, none)
  else
    return (call, some {
      sectorCount := s.sectorCount - al
      sectorBase := s.sectorBase + ax.setWidth 32
      bx := s.bx + ax * SectorSize })

/-- The turns, as long as the BIOS makes no error and the fuel lasts. -/
def drLoops (b : Bpb) (es : BitVec 16) (int13 : BiosRead → Bool) : Nat → Reading → Option ReadResult
  | 0, _ => none
  | fuel + 1, s => do
    let (call, next) ← drLoop b es s
    if int13 call then return { calls := [call], carry := true }
    else
      match next with
      | none => return { calls := [call], carry := false }
      | some s =>
        let r ← drLoops b es int13 fuel s
        return { r with calls := call :: r.calls }

def doRead (b : Bpb) (es bx : BitVec 16) (int13 : BiosRead → Bool) (fuel : Nat) (sectorBase : BitVec 32)
    (al : BitVec 8) : Option ReadResult :=
  drLoops b es int13 fuel { sectorCount := al, sectorBase, bx }

namespace BiosRead

variable (b : Bpb) (c : BiosRead)

/-- What the BIOS takes the registers for: ten bits of a cylinder, six bits of a sector. -/
def cylinder : Nat := c.ch.toNat + 256 * (c.cl.toNat / 64)

def sector : Nat := c.cl.toNat % 64

def head : Nat := c.dh.toNat

/-- The number of the first sector on a drive of this geometry. -/
def lba : Nat := (c.cylinder * b.heads.toNat + c.head) * b.sectorsPerTrack.toNat + (c.sector - 1)

/-- Each sector that is read, with the offset in the segment that it is read to. -/
def transfers : List (Nat × Nat) :=
  (List.range c.al.toNat).map fun i => (c.lba b + i, (c.bx.toNat + 512 * i) % 2 ^ 16)

/-- The registers name a sector of a track, and the read does not go beyond the track. -/
def OnTrack : Prop :=
  1 ≤ c.sector ∧ c.head < b.heads.toNat ∧ 1 ≤ c.al.toNat ∧ c.sector - 1 + c.al.toNat ≤ b.sectorsPerTrack.toNat

end BiosRead

/-- The calls read `n` sectors in order and each of them once, to one place after another, and no call goes beyond a
track. -/
structure ReadResult.Covers (b : Bpb) (es : BitVec 16) (sector offset n : Nat) (r : ReadResult) : Prop where
  carry : r.carry = false
  transfers : r.calls.flatMap (BiosRead.transfers b) = (List.range n).map fun i => (sector + i, offset + 512 * i)
  onTrack : ∀ c ∈ r.calls, c.OnTrack b
  segment : ∀ c ∈ r.calls, c.es = es

/-- The loop ends, and what it reads are the sectors that it is asked for. -/
def ReadsAll (b : Bpb) (es bx : BitVec 16) (int13 : BiosRead → Bool) (sectorBase : BitVec 32) (al : BitVec 8) : Prop :=
  ∃ fuel r, doRead b es bx int13 fuel sectorBase al = some r ∧
    r.Covers b es (sectorBase.toNat + b.hiddenSectors.toNat) bx.toNat al.toNat

/-- A track has as many sectors as six bits can number from one, and there is a head. -/
structure Geometry (b : Bpb) : Prop where
  sectors : 1 ≤ b.sectorsPerTrack.toNat ∧ b.sectorsPerTrack.toNat ≤ 63
  heads : 1 ≤ b.heads.toNat

/-- The first division has no overflow, and the registers have room for the cylinder and the head. -/
structure Addressable (b : Bpb) (sector : Nat) : Prop where
  track : sector / b.sectorsPerTrack.toNat < 2 ^ 16
  cylinder : sector / b.sectorsPerTrack.toNat / b.heads.toNat < 1024
  head : sector / b.sectorsPerTrack.toNat % b.heads.toNat < 256

section turns

variable {b : Bpb} {es bx : BitVec 16} {s : Reading} {int13 : BiosRead → Bool} {n sector : Nat}

theorem Addressable.small (addressable : Addressable b sector) (geometry : Geometry b) : sector < 2 ^ 32 := by
  obtain ⟨least, most⟩ := geometry.sectors
  have product : sector < b.sectorsPerTrack.toNat * 2 ^ 16 := by
    rw [Nat.mul_comm]
    exact (Nat.div_lt_iff_lt_mul least).mp addressable.track
  have bound : b.sectorsPerTrack.toNat * 2 ^ 16 ≤ 63 * 2 ^ 16 := Nat.mul_le_mul_right _ most
  omega

theorem div_eq {dividend : BitVec 32} {divisor : BitVec 16} {m d : Nat} (number : dividend.toNat = m)
    (by_ : divisor.toNat = d) (positive : 0 < d) (fits : m / d < 2 ^ 16) :
    ∃ q r, div dividend divisor = some (q, r) ∧ q.toNat = m / d ∧ r.toNat = m % d := by
  have nonzero : divisor ≠ 0 := by
    rintro rfl
    exact absurd by_ (Nat.ne_of_lt positive)
  have less : m % d < 2 ^ 16 := by
    have below := Nat.mod_lt m positive
    have := divisor.isLt
    omega
  subst number by_
  refine ⟨_, _, if_neg (not_or.mpr ⟨nonzero, by omega⟩), ?_, ?_⟩
  · rw [BitVec.toNat_ofNat, Nat.mod_eq_of_lt fits]
  · rw [BitVec.toNat_ofNat, Nat.mod_eq_of_lt less]

/-- The two high bits of a cylinder are packed above the sector. -/
theorem pack_sector {high low : BitVec 8} (cylinder : high.toNat < 4) (sector : low.toNat < 64) :
    ((high <<< 6) ||| low).toNat = 64 * high.toNat + low.toNat := by
  have all : ∀ h < 4, ∀ l < 64, ((BitVec.ofNat 8 h <<< 6) ||| BitVec.ofNat 8 l).toNat = 64 * h + l := by decide
  have here := all high.toNat cylinder low.toNat sector
  rwa [BitVec.ofNat_toNat, BitVec.ofNat_toNat, BitVec.setWidth_eq, BitVec.setWidth_eq] at here

/-- What is left of the track from a sector on. -/
theorem track_rest {spt : BitVec 16} {current : BitVec 8} {r : Nat} (most : spt.toNat ≤ 63) (less : r < spt.toNat)
    (number : current.toNat = r + 1) :
    (((spt >>> 8).setWidth 8 ++ (spt.setWidth 8 - current) : BitVec 16) + 1).toNat = spt.toNat - r := by
  have high : (spt >>> 8).setWidth 8 = (0 : BitVec 8) := by
    apply BitVec.eq_of_toNat_eq
    rw [BitVec.toNat_setWidth, BitVec.toNat_ushiftRight, Nat.shiftRight_eq_div_pow]
    change _ = 0
    omega
  have low : (spt.setWidth 8 - current).toNat = spt.toNat - (r + 1) := by
    rw [BitVec.toNat_sub, BitVec.toNat_setWidth, number]
    omega
  have whole : ((0 : BitVec 8) ++ (spt.setWidth 8 - current) : BitVec 16).toNat = spt.toNat - (r + 1) := by
    rw [BitVec.toNat_append, low]
    simp
  rw [high, BitVec.toNat_add, whole, show (1 : BitVec 16).toNat = 1 from rfl]
  omega

/-- A call reads to the end of the track, or as far as the count goes. -/
theorem readLength_eq {current count : BitVec 8} {r : Nat} (geometry : Geometry b) (less : r < b.sectorsPerTrack.toNat)
    (number : current.toNat = r + 1) :
    (readLength b current count).toNat = min (b.sectorsPerTrack.toNat - r) count.toNat := by
  have most := geometry.sectors.2
  have rest := track_rest most less number
  unfold readLength
  dsimp only
  generalize ((b.sectorsPerTrack >>> 8).setWidth 8 ++ (b.sectorsPerTrack.setWidth 8 - current) : BitVec 16) + 1 = ax at rest
  have low : (ax.setWidth 8).toNat = ax.toNat := by
    rw [BitVec.toNat_setWidth]
    omega
  split
  next fits =>
    have : (ax.setWidth 8).toNat ≤ count.toNat := fits
    omega
  next beyond =>
    have : ¬(ax.setWidth 8).toNat ≤ count.toNat := beyond
    rw [BitVec.toNat_setWidth]
    omega

/-- The cylinder and the sector come out of the two registers that they are packed into. -/
theorem unpack_registers {c : BiosRead} {track : BitVec 16} {current : BitVec 8} {q r : Nat}
    (cylinder : track.toNat = q) (most : q < 1024) (number : current.toNat = r + 1) (few : r + 1 < 64)
    (ch : c.ch = track.setWidth 8) (cl : c.cl = ((track >>> 8).setWidth 8 <<< 6) ||| current) :
    c.cylinder = q ∧ c.sector = r + 1 := by
  have high : ((track >>> 8).setWidth 8 : BitVec 8).toNat = q / 256 := by
    rw [BitVec.toNat_setWidth, BitVec.toNat_ushiftRight, Nat.shiftRight_eq_div_pow, cylinder]
    omega
  have low : c.ch.toNat = q % 256 := by rw [ch, BitVec.toNat_setWidth, cylinder]
  have both : c.cl.toNat = 64 * (q / 256) + (r + 1) := by
    rw [cl, pack_sector (by omega) (by omega), high, number]
  unfold BiosRead.cylinder BiosRead.sector
  omega

/-- The length of a read fits in AL. -/
theorem low_byte {ax : BitVec 16} (few : ax.toNat < 256) :
    (ax.setWidth 8).toNat = ax.toNat ∧ (ax.setWidth 8).setWidth 16 = ax ∧
      ((ax.setWidth 8).setWidth 32 : BitVec 32) = ax.setWidth 32 := by
  have narrow : (ax.setWidth 8).toNat = ax.toNat := by
    rw [BitVec.toNat_setWidth]
    omega
  refine ⟨narrow, ?_, ?_⟩
  · apply BitVec.eq_of_toNat_eq
    rw [BitVec.toNat_setWidth, narrow]
    omega
  · apply BitVec.eq_of_toNat_eq
    rw [BitVec.toNat_setWidth, narrow, BitVec.toNat_setWidth]

/-- One turn: the call is for the sector that the variables name, and the rest follows where it ends. -/
theorem drLoop_eq (geometry : Geometry b) (place : (s.sectorBase + b.hiddenSectors).toNat = sector)
    (addressable : Addressable b sector) :
    ∃ c, drLoop b es s = some (c, if s.sectorCount ≤ c.al then none else some {
          sectorCount := s.sectorCount - c.al
          sectorBase := s.sectorBase + c.al.setWidth 32
          bx := s.bx + c.al.setWidth 16 * SectorSize }) ∧
      c.al.toNat = min (b.sectorsPerTrack.toNat - sector % b.sectorsPerTrack.toNat) s.sectorCount.toNat ∧
      c.lba b = sector ∧ c.sector = sector % b.sectorsPerTrack.toNat + 1 ∧ c.head < b.heads.toNat ∧
      c.es = es ∧ c.bx = s.bx := by
  obtain ⟨least, most⟩ := geometry.sectors
  have less : sector % b.sectorsPerTrack.toNat < b.sectorsPerTrack.toNat := Nat.mod_lt _ least
  obtain ⟨ax, dx, first, quotient, remainder⟩ := div_eq place rfl least addressable.track
  have wide : (ax.setWidth 32).toNat = sector / b.sectorsPerTrack.toNat := by
    rw [BitVec.toNat_setWidth, ← quotient]
    omega
  obtain ⟨track, head, second, cylinder, number⟩ := div_eq wide rfl geometry.heads
    (Nat.lt_of_le_of_lt (Nat.div_le_self _ _) addressable.track)
  obtain ⟨currentSector, named, current⟩ : ∃ x : BitVec 8, dx.setWidth 8 + 1 = x ∧
      x.toNat = sector % b.sectorsPerTrack.toNat + 1 := by
    refine ⟨_, rfl, ?_⟩
    rw [BitVec.toNat_add, BitVec.toNat_setWidth, remainder]
    change (_ % 256 + 1) % 256 = _
    omega
  obtain ⟨ax, length, known⟩ : ∃ ax, readLength b currentSector s.sectorCount = ax ∧
      ax.toNat = min (b.sectorsPerTrack.toNat - sector % b.sectorsPerTrack.toNat) s.sectorCount.toNat :=
    ⟨_, rfl, readLength_eq geometry less current⟩
  obtain ⟨narrow, word, double⟩ := @low_byte ax (by omega)
  obtain ⟨c, call⟩ : ∃ c, c = BiosRead.mk (ax.setWidth 8) (track.setWidth 8)
    (((track >>> 8).setWidth 8 <<< 6) ||| currentSector) (head.setWidth 8) b.driveNumber es s.bx := ⟨_, rfl⟩
  have turn : drLoop b es s = some (c, if s.sectorCount ≤ c.al then none else some {
      sectorCount := s.sectorCount - c.al
      sectorBase := s.sectorBase + c.al.setWidth 32
      bx := s.bx + c.al.setWidth 16 * SectorSize }) := by
    rw [drLoop, first]
    simp only [Option.bind_eq_bind, Option.bind_some, second, named, length]
    rw [call]
    dsimp only
    rw [word, double]
    split <;> rfl
  have low : c.ch = track.setWidth 8 := by rw [call]
  have high : c.cl = ((track >>> 8).setWidth 8 <<< 6) ||| currentSector := by rw [call]
  obtain ⟨cylinderNumber, sectorNumber⟩ :=
    unpack_registers cylinder addressable.cylinder current (by omega) low high
  have side : c.head = sector / b.sectorsPerTrack.toNat % b.heads.toNat := by
    rw [BiosRead.head, call, BitVec.toNat_setWidth, number]
    exact Nat.mod_eq_of_lt addressable.head
  refine ⟨c, turn, ?_, ?_, sectorNumber, ?_, by rw [call], by rw [call]⟩
  · rw [call, narrow, known]
  · have tracks := Nat.div_add_mod' (sector / b.sectorsPerTrack.toNat) b.heads.toNat
    have sectors := Nat.div_add_mod' sector b.sectorsPerTrack.toNat
    rw [BiosRead.lba, cylinderNumber, sectorNumber, side, tracks, Nat.add_sub_cancel, sectors]
  · exact side ▸ Nat.mod_lt _ geometry.heads

/-- What one call reads is the beginning of what is read altogether. -/
theorem transfers_of_call {c : BiosRead} {offset k : Nat} (start : c.lba b = sector) (place : c.bx.toNat = offset)
    (count : c.al.toNat = k) (room : offset + 512 * k ≤ 2 ^ 16) :
    c.transfers b = (List.range k).map fun i => (sector + i, offset + 512 * i) := by
  rw [BiosRead.transfers, start, place, count]
  apply List.map_congr_left
  intro i inside
  have := List.mem_range.mp inside
  rw [Nat.mod_eq_of_lt (by omega)]

/-- A call and the calls for the rest cover the whole. -/
theorem ReadResult.Covers.cons {c : BiosRead} {r : ReadResult} {offset k m : Nat} (start : c.lba b = sector)
    (place : c.bx.toNat = offset) (count : c.al.toNat = k) (room : offset + 512 * k ≤ 2 ^ 16) (onTrack : c.OnTrack b)
    (segment : c.es = es) (rest : r.Covers b es (sector + k) (offset + 512 * k) m) :
    ReadResult.Covers b es sector offset (k + m) { r with calls := c :: r.calls } where
  carry := rest.carry
  transfers := by
    rw [List.flatMap_cons, transfers_of_call start place count room, rest.transfers, List.range_add, List.map_append,
      List.map_map]
    congr 1
    apply List.map_congr_left
    intro i _
    rw [Function.comp_apply, ← Nat.add_assoc, Nat.mul_add, Nat.add_assoc offset]
  onTrack := by
    intro other listed
    rcases List.mem_cons.mp listed with rfl | later
    · exact onTrack
    · exact rest.onTrack other later
  segment := by
    intro other listed
    rcases List.mem_cons.mp listed with rfl | later
    · exact segment
    · exact rest.segment other later

theorem ReadResult.Covers.last {c : BiosRead} {offset : Nat} (start : c.lba b = sector)
    (place : c.bx.toNat = offset) (count : c.al.toNat = n) (room : offset + 512 * n ≤ 2 ^ 16) (onTrack : c.OnTrack b)
    (segment : c.es = es) : ReadResult.Covers b es sector offset n { calls := [c], carry := false } := by
  have nothing : ReadResult.Covers b es (sector + n) (offset + 512 * n) 0 { calls := [], carry := false } :=
    { carry := rfl
      transfers := rfl
      onTrack := fun _ listed => nomatch listed
      segment := fun _ listed => nomatch listed }
  exact .cons start place count room onTrack segment nothing

/-- After a call that is not the last one: fewer sectors, from where it ends. -/
theorem next_turn {al : BitVec 8} (more : al.toNat < n) (count : s.sectorCount.toNat = n)
    (place : s.sectorBase.toNat + b.hiddenSectors.toNat = sector) (small : sector + al.toNat < 2 ^ 32)
    (room : s.bx.toNat + 512 * n ≤ 2 ^ 16) :
    (s.sectorCount - al).toNat = n - al.toNat ∧
      (s.sectorBase + al.setWidth 32).toNat + b.hiddenSectors.toNat = sector + al.toNat ∧
      (s.bx + al.setWidth 16 * SectorSize).toNat = s.bx.toNat + 512 * al.toNat := by
  refine ⟨?_, ?_, ?_⟩
  · rw [BitVec.toNat_sub, count]
    omega
  · rw [BitVec.toNat_add, BitVec.toNat_setWidth]
    omega
  · rw [BitVec.toNat_add, BitVec.toNat_mul, BitVec.toNat_setWidth]
    change (_ + _ % 2 ^ 16 * 512 % 2 ^ 16) % 2 ^ 16 = _
    omega

/-- The loop, by induction on the fuel: each turn leaves fewer sectors to read, and they begin where its call ends. -/
theorem drLoops_cover (geometry : Geometry b) (quiet : ∀ c, int13 c = false) {fuel : Nat} (positive : 0 < n)
    (enough : n ≤ fuel) (count : s.sectorCount.toNat = n) (place : s.sectorBase.toNat + b.hiddenSectors.toNat = sector)
    (addressable : ∀ i < n, Addressable b (sector + i)) (room : s.bx.toNat + 512 * n ≤ 2 ^ 16) :
    ∃ r, drLoops b es int13 fuel s = some r ∧ r.Covers b es sector s.bx.toNat n := by
  induction fuel generalizing s n sector with
  | zero => omega
  | succ fuel ih =>
    have small := (addressable (n - 1) (by omega)).small geometry
    have number : (s.sectorBase + b.hiddenSectors).toNat = sector := by
      rw [BitVec.toNat_add, place]
      omega
    obtain ⟨least, most⟩ := geometry.sectors
    have less : sector % b.sectorsPerTrack.toNat < b.sectorsPerTrack.toNat := Nat.mod_lt _ least
    obtain ⟨c, turn, length, start, first, side, segment, offset⟩ :=
      @drLoop_eq b es s sector geometry number (addressable 0 positive)
    have onTrack : c.OnTrack b := by
      refine ⟨?_, side, ?_, ?_⟩ <;> omega
    have here : c.bx.toNat = s.bx.toNat := by rw [offset]
    rw [drLoops, turn]
    simp only [Option.bind_eq_bind, Option.bind_some, quiet, Bool.false_eq_true, if_false]
    by_cases whole : n ≤ c.al.toNat
    · have done : s.sectorCount ≤ c.al := by
        change s.sectorCount.toNat ≤ _
        omega
      rw [if_pos done]
      exact ⟨_, rfl, .last start here (by omega) room onTrack segment⟩
    · have further : ¬s.sectorCount ≤ c.al := by
        change ¬s.sectorCount.toNat ≤ _
        omega
      rw [if_neg further]
      obtain ⟨left, follows, beyond⟩ := @next_turn b s n sector c.al (by omega) count place (by omega) room
      have others : ∀ i < n - c.al.toNat, Addressable b (sector + c.al.toNat + i) := by
        intro i inside
        rw [Nat.add_assoc]
        exact addressable _ (by omega)
      let t := Reading.mk (s.sectorCount - c.al) (s.sectorBase + c.al.setWidth 32) (s.bx + c.al.setWidth 16 * SectorSize)
      have ahead : t.bx.toNat + 512 * (n - c.al.toNat) ≤ 2 ^ 16 := by
        rw [beyond]
        omega
      obtain ⟨r, reads, covers⟩ := @ih t (n - c.al.toNat) _ (by omega) (by omega) left follows others ahead
      rw [beyond] at covers
      refine ⟨{ r with calls := c :: r.calls }, ?_, ?_⟩
      · dsimp only
        rw [reads]
        rfl
      have whole := covers.cons start here rfl (by omega) onTrack segment
      rwa [Nat.add_sub_cancel' (by omega)] at whole

/-- Every run that ends ends alike. -/
theorem drLoops_unique {fuel other : Nat} {r r' : ReadResult} (one : drLoops b es int13 fuel s = some r)
    (two : drLoops b es int13 other s = some r') : r = r' := by
  induction fuel generalizing other s r r' with
  | zero => cases one
  | succ fuel ih =>
    cases other with
    | zero => cases two
    | succ other =>
      rw [drLoops] at one two
      obtain ⟨⟨c, next⟩, turn, one⟩ := Option.bind_eq_some_iff.mp one
      obtain ⟨⟨c', next'⟩, turn', two⟩ := Option.bind_eq_some_iff.mp two
      obtain ⟨rfl, rfl⟩ := Prod.mk.inj (Option.some.inj (turn.symm.trans turn'))
      dsimp only at one two
      split at one
      next failed =>
        rw [if_pos failed] at two
        exact Option.some.inj (one.symm.trans two)
      next fine =>
        rw [if_neg fine] at two
        cases next with
        | none => exact Option.some.inj (one.symm.trans two)
        | some t =>
          obtain ⟨q, later, one⟩ := Option.bind_eq_some_iff.mp one
          obtain ⟨q', later', two⟩ := Option.bind_eq_some_iff.mp two
          obtain rfl := ih later later'
          exact Option.some.inj (one.symm.trans two)

/-- What one run does wrong, the loop does wrong. -/
theorem not_readsAll {fuel : Nat} {sectorBase : BitVec 32} {al : BitVec 8} {r : ReadResult}
    (reads : doRead b es bx int13 fuel sectorBase al = some r)
    (wrong : r.calls.flatMap (BiosRead.transfers b) ≠
      (List.range al.toNat).map fun i => (sectorBase.toNat + b.hiddenSectors.toNat + i, bx.toNat + 512 * i)) :
    ¬ReadsAll b es bx int13 sectorBase al := by
  rintro ⟨other, r', reads', covers⟩
  rw [drLoops_unique reads' reads] at covers
  exact wrong covers.transfers

/-- On a drive that the BIOS can address as far as the last sector, and with room in the segment, the loop reads what it
is asked for. -/
theorem doRead_reads_sectors {sectorBase : BitVec 32} {al : BitVec 8} (geometry : Geometry b)
    (quiet : ∀ c, int13 c = false) (positive : 0 < al.toNat)
    (addressable : ∀ i < al.toNat, Addressable b (sectorBase.toNat + b.hiddenSectors.toNat + i))
    (room : bx.toNat + 512 * al.toNat ≤ 2 ^ 16) : ReadsAll b es bx int13 sectorBase al := by
  exact ⟨al.toNat,
    drLoops_cover (s := ⟨al, sectorBase, bx⟩) geometry quiet positive (Nat.le_refl _) rfl rfl addressable room⟩

end turns

section drives

instance (b : Bpb) : Decidable (Geometry b) :=
  decidable_of_iff ((1 ≤ b.sectorsPerTrack.toNat ∧ b.sectorsPerTrack.toNat ≤ 63) ∧ 1 ≤ b.heads.toNat)
    ⟨fun ⟨sectors, heads⟩ => ⟨sectors, heads⟩, fun ⟨sectors, heads⟩ => ⟨sectors, heads⟩⟩

instance (b : Bpb) (sector : Nat) : Decidable (Addressable b sector) :=
  decidable_of_iff (sector / b.sectorsPerTrack.toNat < 2 ^ 16 ∧
      sector / b.sectorsPerTrack.toNat / b.heads.toNat < 1024 ∧ sector / b.sectorsPerTrack.toNat % b.heads.toNat < 256)
    ⟨fun ⟨track, cylinder, head⟩ => ⟨track, cylinder, head⟩, fun ⟨track, cylinder, head⟩ => ⟨track, cylinder, head⟩⟩

/-- A diskette: eighteen sectors to a track and two heads. -/
def diskette : Bpb := { sectorsPerTrack := 18, heads := 2, hiddenSectors := 0, driveNumber := 0 }

/-- Twenty sectors, which begin in one track, fill a second and end in a third. -/
theorem doRead_three_tracks : ReadsAll diskette 0x1000 0 (fun _ => false) 17 20 :=
  doRead_reads_sectors (by decide) (fun _ => rfl) (by decide) (by decide) (by decide)

/-- Cylinder 2000 is told as cylinder 976, head 256 as head 0, and behind the end of the segment its beginning is written. -/
theorem doRead_misreads :
    (Geometry ⟨1, 1, 0, 0⟩ ∧ ¬ReadsAll ⟨1, 1, 0, 0⟩ 0 0 (fun _ => false) 2000 1) ∧
      (Geometry ⟨1, 300, 0, 0⟩ ∧ ¬ReadsAll ⟨1, 300, 0, 0⟩ 0 0 (fun _ => false) 256 1) ∧
      Geometry ⟨1, 1, 0, 0⟩ ∧ ¬ReadsAll ⟨1, 1, 0, 0⟩ 0 0xFE00 (fun _ => false) 0 2 := by
  have cylinder : doRead ⟨1, 1, 0, 0⟩ 0 0 (fun _ => false) 1 2000 1 =
      some { calls := [⟨1, 208, 193, 0, 0, 0, 0⟩], carry := false } := by decide
  have head : doRead ⟨1, 300, 0, 0⟩ 0 0 (fun _ => false) 1 256 1 =
      some { calls := [⟨1, 0, 1, 0, 0, 0, 0⟩], carry := false } := by decide
  have offset : doRead ⟨1, 1, 0, 0⟩ 0 0xFE00 (fun _ => false) 2 0 2 =
      some { calls := [⟨1, 0, 1, 0, 0, 0, 0xFE00⟩, ⟨1, 1, 1, 0, 0, 0, 0⟩], carry := false } := by decide
  exact ⟨⟨by decide, not_readsAll cylinder (by decide)⟩, ⟨by decide, not_readsAll head (by decide)⟩, by decide,
    not_readsAll offset (by decide)⟩

end drives

end Gr8os.Loader
