import Gr8os.Ke.BlockOperations

/-! What memmove does with arguments that it takes from one place further down the stack. -/
namespace Gr8os.Ke

open LittleEndian BlockMoves

section loops

variable {c : Cpu} {dest source : Address} {n : Nat}

theorem iterate_movsb_up (clear : c.directionFlag = false) :
    Cpu.movsb^[n] c = { c with memory := copyUp n c.memory c.edi c.esi, esi := c.esi + BitVec.ofNat 32 n,
                               edi := c.edi + BitVec.ofNat 32 n } := by
  induction n generalizing c with
  | zero => simp [copyUp]
  | succ n ih =>
    have first : c.movsb = { c with memory := setByte c.memory c.edi (c.memory c.esi), esi := c.esi + 1#32,
                                    edi := c.edi + 1#32 } := by
      simp only [Cpu.movsb, Cpu.advance, clear, Bool.false_eq_true, if_false]
    have rest := ih (c := c.movsb) (by rw [first]; exact clear)
    rw [Function.iterate_succ_apply, rest, first]
    simp only [copyUp, ofNat_add_one]

/-- With the direction flag the pointers start at the last byte. -/
theorem iterate_movsb_down (set : c.directionFlag = true) (first : c.esi = source + BitVec.ofNat 32 n - 1#32)
    (second : c.edi = dest + BitVec.ofNat 32 n - 1#32) :
    Cpu.movsb^[n] c = { c with memory := copyDown n c.memory dest source, esi := source - 1#32,
                               edi := dest - 1#32 } := by
  induction n generalizing c with
  | zero =>
    rw [BitVec.add_zero] at first second
    rw [← first, ← second]
    rfl
  | succ n ih =>
    have last (a : Address) : a + BitVec.ofNat 32 (n + 1) - 1#32 = a + BitVec.ofNat 32 n := by
      rw [← ofNat_add_one]
      ring
    rw [last] at first second
    have step : c.movsb = { c with memory := setByte c.memory c.edi (c.memory c.esi), esi := c.esi - 1#32,
                                   edi := c.edi - 1#32 } := by
      simp only [Cpu.movsb, Cpu.advance, set, if_true, BitVec.sub_eq_add_neg]
    have rest := ih (c := c.movsb) (by rw [step]; exact set) (by rw [step, ← first]) (by rw [step, ← second])
    rw [Function.iterate_succ_apply, rest, step]
    simp only [copyDown, first, second]

end loops

section calls

variable (c : Cpu) (ret dest source length : BitVec 32)

def moveBytes (n : Nat) (m : Memory) (dest source : Address) : Memory :=
  if source ≤ dest then copyDown n m dest source else copyUp n m dest source

/-- The return address is taken for the destination, the destination for the source, and the source for the length. -/
theorem memmove_eq :
    memmove (c.call ret [dest, source, length]) =
      { c with ecx := 0, eip := ret, stack := dest :: source :: length :: c.stack,
               memory := moveBytes source.toNat c.memory ret dest } := by
  let start : Cpu :=
    { c with edi := ret, esi := dest, ecx := source,
             stack := c.flags :: c.edi :: c.esi :: ret :: dest :: source :: length :: c.stack }
  by_cases below : dest ≤ ret
  · let last : Cpu := { start.std with esi := dest + source - 1#32, edi := ret + source - 1#32 }
    have loop := @iterate_movsb_down last ret dest source.toNat
      (directionFlag_std start) (by rw [BitVec.ofNat_toNat, BitVec.setWidth_eq])
      (by rw [BitVec.ofNat_toNat, BitVec.setWidth_eq])
    have run : memmove (c.call ret [dest, source, length]) =
        (Cpu.rep last Cpu.movsb).popfd.popEdi.popEsi.retn := by
      unfold memmove
      exact congrArg (fun d : Cpu => d.popfd.popEdi.popEsi.retn) (if_pos below)
    rw [run, Cpu.rep]
    change ({ Cpu.movsb^[source.toNat] last with ecx := 0 } : Cpu).popfd.popEdi.popEsi.retn = _
    rw [loop, moveBytes, if_pos below]
    rfl
  · have loop := iterate_movsb_up (c := start.cld) (n := source.toNat) (directionFlag_cld start)
    have run : memmove (c.call ret [dest, source, length]) =
        (Cpu.rep start.cld Cpu.movsb).popfd.popEdi.popEsi.retn := by
      unfold memmove
      exact congrArg (fun d : Cpu => d.popfd.popEdi.popEsi.retn) (if_neg below)
    rw [run, Cpu.rep]
    change ({ Cpu.movsb^[source.toNat] start.cld with ecx := 0 } : Cpu).popfd.popEdi.popEsi.retn = _
    rw [loop, moveBytes, if_neg below]
    rfl

theorem moveBytes_carries {n : Nat} (small : n ≤ 2 ^ 32) :
    ∃ ρ, Carries (fun m => moveBytes n m dest source) dest source n ρ := by
  unfold moveBytes
  split
  · exact copyDown_carries dest source small
  · exact copyUp_carries dest source small

theorem moveBytes_self {n : Nat} {m : Memory} : moveBytes n m dest dest = m := by
  unfold moveBytes
  rw [if_pos (BitVec.le_refl dest), copyDown_self]

theorem isCopy_iff {m m' : Memory} {n : Nat} (small : n ≤ 2 ^ 32) :
    IsCopy m m' dest source n ↔ m' = moved m dest source n := by
  constructor
  · rintro ⟨inside, outside⟩
    funext x
    by_cases covered : Covers dest n x
    · obtain ⟨i, less, rfl⟩ := covered.offset
      rw [inside i less, moved_byte less small]
    · rw [outside x covered, moved_outside covered]
  · rintro rfl
    exact isCopy_moved small

/-- What is asked of memmove: the bytes moved as they were before, and the registers, the stack pointer and the direction
flag as they have been. -/
structure Moves (c d : Cpu) (dest source length : BitVec 32) : Prop where
  bytes : IsCopy c.memory d.memory dest source length.toNat
  esi : d.esi = c.esi
  edi : d.edi = c.edi
  stack : d.stack = [dest, source, length] ++ c.stack
  direction : d.directionFlag = c.directionFlag

theorem memmove_moves_iff :
    Moves c (memmove (c.call ret [dest, source, length])) dest source length ↔
      moveBytes source.toNat c.memory ret dest = moved c.memory dest source length.toNat := by
  rw [memmove_eq, ← isCopy_iff dest source (Nat.le_of_lt length.isLt)]
  exact ⟨fun moves => moves.bytes, fun bytes => ⟨bytes, rfl, rfl, rfl, rfl⟩⟩

/-- Whatever the memory holds, memmove does what is asked of it just where neither the move asked for nor the one made
changes anything. -/
theorem memmove_right_iff :
    (∀ c : Cpu, Moves c (memmove (c.call ret [dest, source, length])) dest source length) ↔
      (source = 0 ∨ dest = ret) ∧ (length = 0 ∨ source = dest) := by
  obtain ⟨ρ, carries⟩ := moveBytes_carries ret dest (Nat.le_of_lt source.isLt)
  have shifted := carries.shifted_iff (t := source) (fun same m => by subst same; exact moveBytes_self _)
    source.isLt length.isLt
  have zero (w : BitVec 32) : w.toNat = 0 ↔ w = 0 := by bv_omega
  rw [zero, zero] at shifted
  rw [← shifted]
  constructor
  · intro moves m
    exact (memmove_moves_iff { numbered with memory := m } ret dest source length).mp (moves _)
  · intro same c
    exact (memmove_moves_iff c ret dest source length).mpr (same c.memory)

end calls

def oneByte : Cpu := { numbered with memory := fun x => if x = 0x80100010 then 1 else 0 }

theorem memmove_four_bytes_lost :
    ¬Moves oneByte (memmove (oneByte.call 0x80101234 [0x80100000, 0x80100010, 4])) 0x80100000 0x80100010 4 := by
  intro moves
  obtain ⟨ρ, carries⟩ := moveBytes_carries 0x80101234 0x80100000 (n := 0x80100010) (by decide)
  have bytes := (memmove_moves_iff _ _ _ _ _).mp moves
  have kept := congrFun (carries.bytes oneByte.memory) 0x80100000
  have here := congrFun bytes 0x80100000
  rw [carries.outside _ (by decide)] at kept
  have asked : moved oneByte.memory 0x80100000 0x80100010 4 0x80100000 = 1 := by decide
  have left : oneByte.memory 0x80100000 = 0 := by decide
  have both : (0 : BitVec 8) = 1 := left.symm.trans (kept.symm.trans (here.trans asked))
  exact absurd both (by decide)

end Gr8os.Ke
