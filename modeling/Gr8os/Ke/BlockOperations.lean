import Gr8os.Lib.BlockMoves
import Mathlib.Logic.Function.Iterate

/-! The block operations of ke386.asm, one instruction after another: memcpy, KeZeroMemory, memset and memmove. -/
namespace Gr8os.Ke

open LittleEndian BlockMoves

/-- What the routines use of the processor. The stack is kept apart from the memory that the string instructions work on,
its top comes first, and of the flags only the direction flag is followed. -/
structure Cpu where
  eax : BitVec 32
  ecx : BitVec 32
  edx : BitVec 32
  esi : BitVec 32
  edi : BitVec 32
  eip : BitVec 32
  flags : BitVec 32
  stack : List (BitVec 32)
  memory : Memory

namespace Cpu

variable (c : Cpu)

def push (w : BitVec 32) : Cpu := { c with stack := w :: c.stack }

def pop : BitVec 32 × Cpu := (c.stack.headD 0, { c with stack := c.stack.tail })

/-- [esp + 4 * i] -/
def esp (i : Nat) : BitVec 32 := c.stack.getD i 0

def cld : Cpu := { c with flags := c.flags &&& ~~~0x400#32 }
def std : Cpu := { c with flags := c.flags ||| 0x400#32 }

def directionFlag : Bool := c.flags.getLsbD 10

def advance (width : BitVec 32) : BitVec 32 := if c.directionFlag then -width else width

def movsb : Cpu :=
  { c with memory := setByte c.memory c.edi (c.memory c.esi), esi := c.esi + c.advance 1#32, edi := c.edi + c.advance 1#32 }

def movsd : Cpu :=
  { c with memory := setUlong c.memory c.edi (ulong c.memory c.esi), esi := c.esi + c.advance 4#32,
           edi := c.edi + c.advance 4#32 }

def stosb : Cpu := { c with memory := setByte c.memory c.edi (c.eax.setWidth 8), edi := c.edi + c.advance 1#32 }

def stosd : Cpu := { c with memory := setUlong c.memory c.edi c.eax, edi := c.edi + c.advance 4#32 }

def rep (op : Cpu → Cpu) : Cpu := { op^[c.ecx.toNat] c with ecx := 0 }

def popEdi : Cpu := { c.pop.2 with edi := c.pop.1 }
def popEsi : Cpu := { c.pop.2 with esi := c.pop.1 }
def popfd : Cpu := { c.pop.2 with flags := c.pop.1 }
def retn : Cpu := { c.pop.2 with eip := c.pop.1 }

/-- The arguments and the return address are pushed, and the caller takes the arguments off again. -/
def call (ret : BitVec 32) (args : List (BitVec 32)) : Cpu := { c with stack := ret :: args ++ c.stack }

/-- The _fastcall convention has the first two arguments in registers. -/
def fastcall (ret first second : BitVec 32) : Cpu := { c with ecx := first, edx := second, stack := ret :: c.stack }

end Cpu

def memcpy (c : Cpu) : Cpu :=
  let c := c.push c.esi
  let c := c.push c.edi
  let c := c.cld
  let c := { c with edi := c.esp 3 }
  let c := { c with esi := c.esp 4 }
  let c := { c with ecx := c.esp 5 }
  let c := { c with ecx := c.ecx >>> 2 }
  let c := c.rep Cpu.movsd
  let c := { c with ecx := c.esp 5 }
  let c := { c with ecx := c.ecx &&& 3 }
  let c := c.rep Cpu.movsb
  let c := c.popEdi
  let c := c.popEsi
  c.retn

def keZeroMemory (c : Cpu) : Cpu :=
  let c := c.push c.esi
  let c := c.push c.edi
  let c := c.cld
  let c := { c with eax := 0 }
  let c := { c with edi := c.ecx }
  let c := { c with ecx := c.edx }
  let c := { c with ecx := c.ecx >>> 2 }
  let c := c.rep Cpu.stosd
  let c := { c with ecx := c.edx }
  let c := { c with ecx := c.ecx &&& 3 }
  let c := c.rep Cpu.stosb
  let c := c.popEdi
  let c := c.popEsi
  c.retn

/-- mov ah, al; movzx ecx, ax; shl eax, 16; or eax, ecx, where EAX holds a byte. -/
def fillWord (eax : BitVec 32) : BitVec 32 :=
  let eax := (eax &&& 0xFFFF00FF#32) ||| ((eax.setWidth 8).setWidth 32 <<< 8)
  let ecx := (eax.setWidth 16).setWidth 32
  (eax <<< 16) ||| ecx

def memset (c : Cpu) : Cpu :=
  let c := c.push c.edi
  let c := c.cld
  let c := { c with edi := c.esp 2 }
  -- movzx eax, byte [esp+12]
  let c := { c with eax := ((c.esp 3).setWidth 8).setWidth 32 }
  let c := { c with eax := fillWord c.eax }
  let c := { c with ecx := c.esp 4 }
  let c := { c with ecx := c.ecx >>> 2 }
  let c := c.rep Cpu.stosd
  let c := { c with ecx := c.esp 4 }
  let c := { c with ecx := c.ecx &&& 3 }
  let c := c.rep Cpu.stosb
  let c := c.popEdi
  c.retn

/-- The flags are pushed as well, but the arguments are looked for where they were without them. -/
def memmove (c : Cpu) : Cpu :=
  let c := c.push c.esi
  let c := c.push c.edi
  let c := c.push c.flags
  let c := { c with edi := c.esp 3 }
  let c := { c with esi := c.esp 4 }
  let c := { c with ecx := c.esp 5 }
  let c :=
    -- cmp esi, edi; jbe _1
    if c.esi ≤ c.edi then
      let c := c.std
      let c := { c with esi := c.esi + c.ecx }
      let c := { c with edi := c.edi + c.ecx }
      let c := { c with esi := c.esi - 1 }
      let c := { c with edi := c.edi - 1 }
      c.rep Cpu.movsb
    else
      let c := c.cld
      c.rep Cpu.movsb
  let c := c.popfd
  let c := c.popEdi
  let c := c.popEsi
  c.retn

section instructions

variable {c : Cpu} {op : Cpu → Cpu} {width n : Nat} {b : BitVec 8}

theorem directionFlag_cld (c : Cpu) : c.cld.directionFlag = false := by
  change (c.flags &&& ~~~0x400#32).getLsbD 10 = false
  rw [BitVec.getLsbD_and]
  exact Bool.and_false _

theorem directionFlag_std (c : Cpu) : c.std.directionFlag = true := by
  change (c.flags ||| 0x400#32).getLsbD 10 = true
  rw [BitVec.getLsbD_or]
  exact Bool.or_true _

/-- The processor after so many bytes have been moved upwards. -/
def Cpu.copied (c : Cpu) (n : Nat) : Cpu :=
  { c with memory := moved c.memory c.edi c.esi n, esi := c.esi + BitVec.ofNat 32 n, edi := c.edi + BitVec.ofNat 32 n }

def Cpu.stored (c : Cpu) (b : BitVec 8) (n : Nat) : Cpu :=
  { c with memory := filled c.memory c.edi b n, edi := c.edi + BitVec.ofNat 32 n }

theorem movsb_eq (clear : c.directionFlag = false) : c.movsb = c.copied 1 := by
  simp only [Cpu.movsb, Cpu.copied, Cpu.advance, clear, Bool.false_eq_true, if_false, moved_one]

theorem movsd_eq (clear : c.directionFlag = false) : c.movsd = c.copied 4 := by
  simp only [Cpu.movsd, Cpu.copied, Cpu.advance, clear, Bool.false_eq_true, if_false, moved_four]

theorem stosb_eq (clear : c.directionFlag = false) (low : c.eax.setWidth 8 = b) : c.stosb = c.stored b 1 := by
  simp only [Cpu.stosb, Cpu.stored, Cpu.advance, clear, Bool.false_eq_true, if_false, low, filled_one]

theorem stosd_eq (clear : c.directionFlag = false) (alike : ∀ i < 4, c.eax.extractLsb' (8 * i) 8 = b) :
    c.stosd = c.stored b 4 := by
  simp only [Cpu.stosd, Cpu.stored, Cpu.advance, clear, Bool.false_eq_true, if_false, filled_four alike]

/-- No byte that is read is one of those that are written. -/
def Separate (dest source : Address) (n : Nat) : Prop :=
  ∀ i < n, ∀ j < n, source + BitVec.ofNat 32 i ≠ dest + BitVec.ofNat 32 j

theorem copied_copied {k : Nat} (unread : Unread c.memory c.edi c.esi (n + k)) (small : n + k ≤ 2 ^ 32) :
    (c.copied n).copied k = c.copied (n + k) := by
  unfold Cpu.copied
  simp only [moved_moved unread.split small, BitVec.add_assoc, ← BitVec.ofNat_add]

theorem stored_stored {k : Nat} (small : n + k ≤ 2 ^ 32) : (c.stored b n).stored b k = c.stored b (n + k) := by
  unfold Cpu.stored
  simp only [filled_filled small, BitVec.add_assoc, ← BitVec.ofNat_add]

theorem copied_zero : c.copied 0 = c := by
  simp only [Cpu.copied, moved_zero, BitVec.add_zero]

theorem stored_zero : c.stored b 0 = c := by
  simp only [Cpu.stored, filled_zero, BitVec.add_zero]

/-- An instruction that moves a block upwards, repeated. -/
theorem iterate_copied (step : ∀ c : Cpu, c.directionFlag = false → op c = c.copied width)
    (clear : c.directionFlag = false) (unread : Unread c.memory c.edi c.esi (width * n)) (small : width * n ≤ 2 ^ 32) :
    op^[n] c = c.copied (width * n) := by
  induction n with
  | zero => exact copied_zero.symm
  | succ n ih =>
    rw [Nat.mul_succ] at unread small ⊢
    have before := ih unread.first (by omega)
    rw [Function.iterate_succ_apply', before, step (c.copied _) clear, copied_copied unread small]

theorem iterate_stored {eax : BitVec 32}
    (step : ∀ c : Cpu, c.directionFlag = false → c.eax = eax → op c = c.stored b width)
    (clear : c.directionFlag = false) (same : c.eax = eax) (small : width * n ≤ 2 ^ 32) :
    op^[n] c = c.stored b (width * n) := by
  induction n with
  | zero => exact stored_zero.symm
  | succ n ih =>
    rw [Nat.mul_succ] at small ⊢
    have before := ih (by omega)
    rw [Function.iterate_succ_apply', before, step (c.stored b _) clear same, stored_stored small]

theorem words_and_rest (length : BitVec 32) : 4 * (length >>> 2).toNat + 1 * (length &&& 3#32).toNat = length.toNat := by
  have rest : (length &&& 3#32).toNat = length.toNat % 4 := by
    rw [BitVec.toNat_and]
    exact Nat.and_two_pow_sub_one_eq_mod length.toNat 2
  have words : (length >>> 2).toNat = length.toNat / 4 := by
    rw [BitVec.toNat_ushiftRight, Nat.shiftRight_eq_div_pow]
  omega

theorem rep_copied (step : ∀ c : Cpu, c.directionFlag = false → op c = c.copied width)
    (clear : c.directionFlag = false) (unread : Unread c.memory c.edi c.esi (width * c.ecx.toNat))
    (small : width * c.ecx.toNat ≤ 2 ^ 32) : c.rep op = { c.copied (width * c.ecx.toNat) with ecx := 0 } := by
  rw [Cpu.rep, iterate_copied step clear unread small]

theorem rep_stored {eax : BitVec 32}
    (step : ∀ c : Cpu, c.directionFlag = false → c.eax = eax → op c = c.stored b width)
    (clear : c.directionFlag = false) (same : c.eax = eax) (small : width * c.ecx.toNat ≤ 2 ^ 32) :
    c.rep op = { c.stored b (width * c.ecx.toNat) with ecx := 0 } := by
  rw [Cpu.rep, iterate_stored step clear same small]

section lengths

variable {length : BitVec 32} {load : Cpu → BitVec 32}

/-- The words of a length are copied and then its last bytes. The length is read again for these. -/
theorem rep_movsd_movsb (clear : c.directionFlag = false) (unread : Unread c.memory c.edi c.esi length.toNat)
    (again : ∀ n, load { c.copied n with ecx := 0 } = length) :
    let d := Cpu.rep { c with ecx := length >>> 2 } Cpu.movsd
    Cpu.rep { d with ecx := load d &&& 3#32 } Cpu.movsb = { c.copied length.toNat with ecx := 0 } := by
  intro d
  have parts := words_and_rest length
  have bound := length.isLt
  rw [← parts] at unread
  have words : d = { c.copied (4 * (length >>> 2).toNat) with ecx := 0 } :=
    rep_copied (c := { c with ecx := length >>> 2 }) (fun _ => movsd_eq) clear
      unread.first (by change 4 * (length >>> 2).toNat ≤ _; omega)
  have rest := rep_copied (c := { c.copied (4 * (length >>> 2).toNat) with ecx := length &&& 3#32 }) (fun _ => movsb_eq)
    clear (unread.rest (by omega)) (by change 1 * (length &&& 3#32).toNat ≤ _; omega)
  have together := congrArg (fun d => { d with ecx := 0#32 }) (copied_copied unread (by omega))
  rw [parts] at together
  rw [words, again]
  exact rest.trans together

/-- The words of a length are filled and then its last bytes. -/
theorem rep_stosd_stosb (clear : c.directionFlag = false) (alike : ∀ i < 4, c.eax.extractLsb' (8 * i) 8 = b)
    (again : ∀ n, load { c.stored b n with ecx := 0 } = length) :
    let d := Cpu.rep { c with ecx := length >>> 2 } Cpu.stosd
    Cpu.rep { d with ecx := load d &&& 3#32 } Cpu.stosb = { c.stored b length.toNat with ecx := 0 } := by
  intro d
  have parts := words_and_rest length
  have bound := length.isLt
  have low : c.eax.setWidth 8 = b := by
    rw [← alike 0 (by decide), BitVec.setWidth_eq_extractLsb' (by decide)]
  have words : d = { c.stored b (4 * (length >>> 2).toNat) with ecx := 0 } :=
    @rep_stored { c with ecx := length >>> 2 } Cpu.stosd 4 b c.eax
      (fun d clear same => stosd_eq clear (by rwa [same])) clear rfl (by change 4 * (length >>> 2).toNat ≤ _; omega)
  have rest := @rep_stored { c.stored b (4 * (length >>> 2).toNat) with ecx := length &&& 3#32 } Cpu.stosb 1 b
    c.eax (fun d clear same => stosb_eq clear (by rwa [same])) clear rfl
    (by change 1 * (length &&& 3#32).toNat ≤ _; omega)
  have together := congrArg (fun d => { d with ecx := 0#32 })
    (stored_stored (c := c) (b := b) (n := 4 * (length >>> 2).toNat) (k := 1 * (length &&& 3#32).toNat) (by omega))
  rw [parts] at together
  rw [words, again]
  exact rest.trans together

end lengths

end instructions

section routines

variable (c : Cpu) (ret dest source length : BitVec 32)

theorem memcpy_eq (unread : Unread c.memory dest source length.toNat) :
    memcpy (c.call ret [dest, source, length]) =
      { c with ecx := 0, eip := ret, flags := c.cld.flags, stack := dest :: source :: length :: c.stack,
               memory := moved c.memory dest source length.toNat } := by
  have blocks := @rep_movsd_movsb
    { c.cld with edi := dest, esi := source, ecx := length,
                 stack := c.edi :: c.esi :: ret :: dest :: source :: length :: c.stack }
    length (fun d => d.esp 5) (directionFlag_cld c) unread (fun _ => rfl)
  exact congrArg (fun d => d.popEdi.popEsi.retn) blocks

theorem keZeroMemory_eq :
    keZeroMemory (c.fastcall ret dest length) =
      { c with eax := 0, ecx := 0, edx := length, eip := ret, flags := c.cld.flags,
               memory := filled c.memory dest 0 length.toNat } := by
  have alike : ∀ i < 4, (0#32).extractLsb' (8 * i) 8 = 0#8 := by decide
  have blocks := @rep_stosd_stosb
    { c.cld with eax := 0, edi := dest, ecx := length, edx := length, stack := c.edi :: c.esi :: ret :: c.stack }
    0 length Cpu.edx (directionFlag_cld c) alike (fun _ => rfl)
  exact congrArg (fun d => d.popEdi.popEsi.retn) blocks

theorem fillWord_alike : ∀ b : BitVec 8, ∀ i < 4, (fillWord (b.setWidth 32)).extractLsb' (8 * i) 8 = b := by
  decide

theorem memset_eq (byte : BitVec 32) :
    memset (c.call ret [dest, byte, length]) =
      { c with eax := fillWord ((byte.setWidth 8).setWidth 32), ecx := 0, eip := ret, flags := c.cld.flags,
               stack := dest :: byte :: length :: c.stack,
               memory := filled c.memory dest (byte.setWidth 8) length.toNat } := by
  have blocks := @rep_stosd_stosb
    { c.cld with eax := fillWord ((byte.setWidth 8).setWidth 32), edi := dest, ecx := length,
                 stack := c.edi :: ret :: dest :: byte :: length :: c.stack }
    (byte.setWidth 8) length (fun d => d.esp 4) (directionFlag_cld c) (fillWord_alike _) (fun _ => rfl)
  exact congrArg (fun d => d.popEdi.retn) blocks

theorem copyUp_of_separate {m : Memory} {n : Nat} (separate : Separate dest source n) (small : n ≤ 2 ^ 32) :
    copyUp n m dest source = moved m dest source n :=
  copyUp_eq small fun i j before less => separate i less j (by omega)

end routines

/-- The bytes from dest on are what has been at the source, and no other byte has changed. -/
def IsCopy (m m' : Memory) (dest source : Address) (n : Nat) : Prop :=
  (∀ i < n, m' (dest + BitVec.ofNat 32 i) = m (source + BitVec.ofNat 32 i)) ∧ ∀ x, ¬Covers dest n x → m' x = m x

def IsFilled (m m' : Memory) (dest : Address) (b : BitVec 8) (n : Nat) : Prop :=
  (∀ i < n, m' (dest + BitVec.ofNat 32 i) = b) ∧ ∀ x, ¬Covers dest n x → m' x = m x

theorem isCopy_moved {m : Memory} {dest source : Address} {n : Nat} (small : n ≤ 2 ^ 32) :
    IsCopy m (moved m dest source n) dest source n :=
  ⟨fun _ less => moved_byte less small, fun _ => moved_outside⟩

theorem isFilled_filled {m : Memory} {dest : Address} {b : BitVec 8} {n : Nat} (small : n ≤ 2 ^ 32) :
    IsFilled m (filled m dest b n) dest b n :=
  ⟨fun _ less => filled_inside (covers_add less small), fun _ => filled_outside⟩

/-- Word by word and then byte by byte, the routines do what copying or filling byte by byte does. -/
theorem block_operations_byte_by_byte (c : Cpu) (ret dest length : BitVec 32) :
    (∀ source, Separate dest source length.toNat →
      let d := memcpy (c.call ret [dest, source, length])
      d.memory = copyUp length.toNat c.memory dest source ∧ IsCopy c.memory d.memory dest source length.toNat) ∧
    (∀ byte : BitVec 32,
      let d := memset (c.call ret [dest, byte, length])
      d.memory = fillUp length.toNat c.memory dest (byte.setWidth 8) ∧
        IsFilled c.memory d.memory dest (byte.setWidth 8) length.toNat) ∧
    (let d := keZeroMemory (c.fastcall ret dest length)
     d.memory = fillUp length.toNat c.memory dest 0 ∧ IsFilled c.memory d.memory dest 0 length.toNat) := by
  have small : length.toNat ≤ 2 ^ 32 := Nat.le_of_lt length.isLt
  refine ⟨fun source separate => ?_, fun byte => ?_, ?_⟩
  · rw [memcpy_eq c ret dest source length (unread_of_apart separate), copyUp_of_separate dest source separate small]
    exact ⟨rfl, isCopy_moved small⟩
  · rw [memset_eq, fillUp_eq small]
    exact ⟨rfl, isFilled_filled small⟩
  · rw [keZeroMemory_eq, fillUp_eq small]
    exact ⟨rfl, isFilled_filled small⟩

/-- A processor whose memory holds the low byte of each address. -/
def numbered : Cpu where
  eax := 0
  ecx := 0
  edx := 0
  esi := 0
  edi := 0
  eip := 0
  flags := 2
  stack := []
  memory x := x.setWidth 8

theorem block_operations_seven_bytes :
    IsCopy numbered.memory (memcpy (numbered.call 0x1000 [0x2000, 0x3011, 7])).memory 0x2000 0x3011 7 :=
  ((block_operations_byte_by_byte numbered 0x1000 0x2000 7).1 0x3011 (by unfold Separate; decide)).2

end Gr8os.Ke
