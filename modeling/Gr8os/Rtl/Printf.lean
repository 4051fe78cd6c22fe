import Gr8os.Lib.Sink
import Gr8os.Rtl.StringCopies
import Mathlib.Data.Nat.Digits.Defs

/-! Formatted output. The format, the arguments and the strings are read as they stand when the call is made: the buffer does
not overlap them. Ints are 32 bits and wrap around. Every format is read to its end. -/
namespace Gr8os.Rtl

open LittleEndian BlockMoves Sinks
open Ldr (Char8)

def ch (c : Char) : Char8 := BitVec.ofNat 8 c.toNat

def zeropad : BitVec 32 := 1
def sign : BitVec 32 := 2
def plus : BitVec 32 := 4
def space : BitVec 32 := 8
def left : BitVec 32 := 16
def special : BitVec 32 := 32
def large : BitVec 32 := 64
def removehex : BitVec 32 := 256

def has (flags flag : BitVec 32) : Bool := flags &&& flag ≠ 0

def isdigit (c : Char8) : Bool := ch '0' ≤ c ∧ c ≤ ch '9'

def skipAtoi (i : BitVec 32) : List Char8 → BitVec 32 × List Char8
  | [] => (i, [])
  | c :: s => if isdigit c then skipAtoi (i * 10 + c.setWidth 32 - 48) s else (i, c :: s)

/-- while (low < n--) puts c; gives the characters and what is left of n. -/
def fill (c : Char8) (low n : BitVec 32) : List Char8 × BitVec 32 :=
  if low.slt n then (List.replicate (n - low).toNat c, low - 1) else ([], n - 1)

/-- The small and the large digits. -/
def digits (type : BitVec 32) (i : Nat) : Char8 :=
  if i < 10 then BitVec.ofNat 8 (48 + i) else BitVec.ofNat 8 ((if has type large then 55 else 87) + i)

/-- The digits of a number, the last one first; do_div divides without a sign. -/
def doDivs (type base : BitVec 32) : Nat → BitVec 32 → List Char8
  | 0, _ => []
  | fuel + 1, num =>
    if num = 0 then [] else digits type (num % base).toNat :: doDivs type base fuel (num / base)

/-- The size of tmp. -/
def tmpSize : Nat := 66

/-- The sign, the number without it and what it leaves of the size. -/
def numberSign (num size type : BitVec 32) : List Char8 × BitVec 32 × BitVec 32 :=
  if has type sign then
    if num.slt 0 then ([ch '-'], -num, size - 1)
    else if has type plus then ([ch '+'], num, size - 1)
    else if has type space then ([ch ' '], num, size - 1)
    else ([], num, size)
  else ([], num, size)

/-- The loops that put the digits and what stands around them. -/
def numberFields (signs mark tmp : List Char8) (size precision type : BitVec 32) : List Char8 :=
  let c := if has type zeropad then ch '0' else ch ' '
  let i := BitVec.ofNat 32 tmp.length
  let precision := if precision.slt i then i else precision
  let size := size - precision
  let (blanks, size) := if !has type (zeropad + left) then fill (ch ' ') 0 size else ([], size)
  let (pads, size) := if !has type left then fill c 0 size else ([], size)
  let (zeros, _) := fill (ch '0') i precision
  let (rest, _) := fill (ch ' ') 0 size
  blanks ++ signs ++ mark ++ pads ++ zeros ++ tmp.reverse ++ rest

def number (num base size precision type : BitVec 32) : Option (List Char8) :=
  let type := if has type left then type &&& ~~~zeropad else type
  if base.slt 2 ∨ (36#32).slt base then none
  else
    let (signs, num, size) := numberSign num size type
    let marked := has type special && !has type removehex && base = 16
    let size := if marked then size - 2 else size
    let tmp := if num = 0 ∧ precision ≠ 0 then [ch '0'] else doDivs type base tmpSize num
    let mark := if marked then [ch '0', digits type 33] else []
    some (numberFields signs mark tmp size precision type)

def nullText : List Char8 := [ch '<', ch 'N', ch 'U', ch 'L', ch 'L', ch '>']

/-- string and stringw; no string is NULL, and a wide character loses its high byte. -/
def stringOf {w : Nat} (s : Option (Nat → BitVec w)) (len fieldWidth precision flags : BitVec 32) : List Char8 :=
  let c := if has flags zeropad then ch '0' else ch ' '
  let (s, len) := match s with
    | none => (fun i => (nullText.getD i 0).setWidth w, 6#32)
    | some s =>
      if len = -1 then (s, BitVec.ofNat 32 ((ZeroTerminated.length precision.toNat s).getD precision.toNat))
      else if precision < len then (s, precision) else (s, len)
  let (front, fieldWidth) := if !has flags left then fill c len fieldWidth else ([], fieldWidth)
  let text := (List.range (if (0#32).slt len then len.toNat else 0)).map fun i => (s i).setWidth 8
  let (back, _) := fill (ch ' ') len fieldWidth
  front ++ text ++ back

/-- while (--n > 0) puts c. -/
def fillPre (c : Char8) (n : BitVec 32) : List Char8 × BitVec 32 :=
  if (0#32).slt (n - 1) then (List.replicate (n - 1).toNat c, 0) else ([], n - 1)

/-- What stands between the percent sign and the conversion. -/
structure Spec where
  flags : BitVec 32
  fieldWidth : BitVec 32
  precision : BitVec 32
  qualifier : Option Char8
deriving DecidableEq, Repr

def formatFlags (flags : BitVec 32) : List Char8 → BitVec 32 × List Char8
  | [] => (flags, [])
  | c :: fmt =>
    if c = ch '-' then formatFlags (flags ||| left) fmt
    else if c = ch '+' then formatFlags (flags ||| plus) fmt
    else if c = ch ' ' then formatFlags (flags ||| space) fmt
    else if c = ch '#' then formatFlags (flags ||| special) fmt
    else if c = ch '0' then formatFlags (flags ||| zeropad) fmt
    else (flags, c :: fmt)

section formats

variable (args : Nat → BitVec 32)

/-- The field width, the flags, the next argument and the rest of the format. -/
def formatWidth (flags : BitVec 32) (n : Nat) : List Char8 → BitVec 32 × BitVec 32 × Nat × List Char8
  | [] => (-1, flags, n, [])
  | c :: fmt =>
    if isdigit c then
      let (fieldWidth, fmt) := skipAtoi 0 (c :: fmt)
      (fieldWidth, flags, n, fmt)
    else if c = ch '*' then
      if (args n).slt 0 then (-args n, flags ||| left, n + 1, fmt) else (args n, flags, n + 1, fmt)
    else (-1, flags, n, c :: fmt)

/-- The precision behind the dot. -/
def precisionValue (n : Nat) : List Char8 → BitVec 32 × Nat × List Char8
  | [] => (-1, n, [])
  | c :: fmt =>
    if isdigit c then
      let (precision, fmt) := skipAtoi 0 (c :: fmt)
      (precision, n, fmt)
    else if c = ch '*' then (args n, n + 1, fmt)
    else (-1, n, c :: fmt)

def formatPrecision (n : Nat) : List Char8 → BitVec 32 × Nat × List Char8
  | [] => (-1, n, [])
  | c :: fmt =>
    if c = ch '.' then
      let (precision, n, fmt) := precisionValue args n fmt
      (if precision.slt 0 then 0 else precision, n, fmt)
    else (-1, n, c :: fmt)

def formatQualifier (flags : BitVec 32) : List Char8 → Option Char8 × BitVec 32 × List Char8
  | [] => (none, flags, [])
  | c :: fmt =>
    if c = ch 'h' ∨ c = ch 'l' ∨ c = ch 'L' ∨ c = ch 'w' then (some c, flags, fmt)
    else if c = ch 'I' ∧ fmt.take 2 = [ch '6', ch '4'] then (some c, flags, fmt.drop 2)
    else if c = ch 'I' ∧ fmt.take 2 = [ch '3', ch '2'] then (some (ch 'l'), flags, fmt.drop 2)
    else if c = ch 'F' ∧ fmt.head? = some (ch 'p') then (none, flags ||| removehex, fmt)
    else (none, flags, c :: fmt)

def formatSpec (n : Nat) (fmt : List Char8) : Spec × Nat × List Char8 :=
  let (flags, fmt) := formatFlags 0 fmt
  let (fieldWidth, flags, n, fmt) := formatWidth args flags n fmt
  let (precision, n, fmt) := formatPrecision args n fmt
  let (qualifier, flags, fmt) := formatQualifier flags fmt
  ({ flags, fieldWidth, precision, qualifier }, n, fmt)

/-- What a conversion puts into the buffer, or the place where it stores how much has been put. -/
inductive Piece
  | text (t : List Char8)
  | store (target : Address)
deriving DecidableEq, Repr

variable (m : Memory)

/-- A string argument; NULL is none. -/
def stringArg (p : Address) : Option (Nat → Char8) :=
  if p = 0 then none else some fun i => m (p + BitVec.ofNat 32 i)

def wideArg (p : Address) : Option (Nat → BitVec 16) :=
  if p = 0 then none else some fun i => ushort m (p + BitVec.ofNat 32 (2 * i))

/-- The two-character arrays of a character argument. -/
def oneChar {w : Nat} (c : BitVec w) : Option (Nat → BitVec w) := some fun i => if i = 0 then c else 0

def wideQualifier (q : Option Char8) : Bool := q = some (ch 'l') ∨ q = some (ch 'w')

def convertNumber (s : Spec) (n : Nat) (base flags : BitVec 32) : Option (Piece × Nat) := do
  let t ← number (args n) base s.fieldWidth s.precision flags
  return (.text t, n + 1)

/-- One conversion: its piece, and the next argument. -/
def convert (s : Spec) (n : Nat) (c : Char8) : Option (Piece × Nat) :=
  let arg := args n
  if c = ch 'c' then
    if wideQualifier s.qualifier then
      some (.text (stringOf (oneChar (arg.setWidth 16)) (-1) s.fieldWidth s.precision s.flags), n + 1)
    else some (.text (stringOf (oneChar (arg.setWidth 8)) (-1) s.fieldWidth s.precision s.flags), n + 1)
  else if c = ch 'C' then
    let (front, fieldWidth) := if !has s.flags left then fillPre (ch ' ') s.fieldWidth else ([], s.fieldWidth)
    let (back, _) := fillPre (ch ' ') fieldWidth
    some (.text (front ++ [arg.setWidth 8] ++ back), n + 1)
  else if c = ch 's' then
    if wideQualifier s.qualifier then
      some (.text (stringOf (wideArg m arg) (-1) s.fieldWidth s.precision s.flags), n + 1)
    else some (.text (stringOf (stringArg m arg) (-1) s.fieldWidth s.precision s.flags), n + 1)
  else if c = ch 'S' then
    if s.qualifier = some (ch 'h') then
      some (.text (stringOf (stringArg m arg) (-1) s.fieldWidth s.precision s.flags), n + 1)
    else some (.text (stringOf (wideArg m arg) (-1) s.fieldWidth s.precision s.flags), n + 1)
  else if c = ch 'Z' then
    -- the Length and the Buffer of the UNICODE_STRING
    some (.text (stringOf (wideArg m (ulong m (arg + 4))) ((ushort m arg).setWidth 32) s.fieldWidth s.precision s.flags),
      n + 1)
  else if c = ch 'p' then
    if s.fieldWidth = -1 then convertNumber args { s with fieldWidth := 8 } n 16 (s.flags ||| large ||| zeropad)
    else convertNumber args s n 16 (s.flags ||| large)
  else if c = ch 'n' then some (.store arg, n + 1)
  else if c = ch 'o' then convertNumber args s n 8 s.flags
  else if c = ch 'b' then convertNumber args s n 2 s.flags
  else if c = ch 'X' then convertNumber args s n 16 (s.flags ||| large)
  else if c = ch 'x' then convertNumber args s n 16 s.flags
  else if c = ch 'd' ∨ c = ch 'i' then convertNumber args s n 10 (s.flags ||| sign)
  else if c = ch 'u' then convertNumber args s n 10 s.flags
  else some (.text [c], n)

/-- The pieces of a format. A directive without a conversion ends it. -/
def formatPieces : Nat → Nat → List Char8 → Option (List Piece)
  | _, _, [] => some []
  | 0, _, _ :: _ => none
  | fuel + 1, n, c :: fmt =>
    if c ≠ ch '%' then do
      let pieces ← formatPieces fuel n fmt
      return .text [c] :: pieces
    else
      let (s, n, fmt) := formatSpec args n fmt
      match fmt with
      | [] => some []
      | c :: fmt => do
        let (piece, n) ← convert args m s n c
        let pieces ← formatPieces fuel n fmt
        return piece :: pieces

end formats

def putPiece (buf : Address) (s : Sink) : Piece → Sink
  | .text t => s.puts t
  | .store target => { s with memory := setUlong s.memory target (s.str - buf) }

/-- The end of the output: where its terminator goes when not all of it has found room. -/
def terminate (buf : Address) (cnt : BitVec 32) (s : Sink) : Memory :=
  if s.str ≤ s.last then setByte s.memory s.str 0
  else if 0 < cnt then
    if cnt < s.str - buf then setByte s.memory s.last 0 else setByte s.memory (s.last + 1) 0
  else s.memory

def vsnprintf (m : Memory) (buf : Address) (cnt : BitVec 32) (fmt : List Char8) (args : Nat → BitVec 32) :
    Option (Memory × BitVec 32) := do
  let (last, cnt) := if buf + cnt - 1 < buf - 1 then (-1, -1 - buf + 1) else (buf + cnt - 1, cnt)
  let pieces ← formatPieces args m fmt.length 0 fmt
  let s := pieces.foldl (putPiece buf) { memory := m, str := buf, last }
  return (terminate buf cnt s, s.str - buf)

def maxlong : BitVec 32 := 0xFFFFFFFF

def vsprintf (m : Memory) (buf : Address) (fmt : List Char8) (args : Nat → BitVec 32) : Option (Memory × BitVec 32) :=
  vsnprintf m buf maxlong fmt args

open LittleEndian
open Ldr (Char8)

section lengths

variable {args : Nat → BitVec 32} {m : Memory} {i flags : BitVec 32} {n fuel : Nat} {fmt : List Char8} {s : Spec} {c : Char8}

theorem skipAtoi_length : (skipAtoi i fmt).2.length ≤ fmt.length := by
  induction fmt generalizing i with
  | nil => exact Nat.le_refl _
  | cons c fmt ih =>
    unfold skipAtoi
    split
    · exact Nat.le_succ_of_le ih
    · exact Nat.le_refl _

theorem formatFlags_length : (formatFlags flags fmt).2.length ≤ fmt.length := by
  induction fmt generalizing flags with
  | nil => exact Nat.le_refl _
  | cons c fmt ih =>
    unfold formatFlags
    split_ifs
    · exact Nat.le_succ_of_le ih
    · exact Nat.le_succ_of_le ih
    · exact Nat.le_succ_of_le ih
    · exact Nat.le_succ_of_le ih
    · exact Nat.le_succ_of_le ih
    · exact Nat.le_refl _

theorem formatWidth_length : (formatWidth args flags n fmt).2.2.2.length ≤ fmt.length := by
  cases fmt with
  | nil => exact Nat.le_refl _
  | cons c fmt =>
    unfold formatWidth
    dsimp only
    split_ifs
    · exact skipAtoi_length
    · exact Nat.le_succ _
    · exact Nat.le_succ _
    · exact Nat.le_refl _

theorem precisionValue_length : (precisionValue args n fmt).2.2.length ≤ fmt.length := by
  cases fmt with
  | nil => exact Nat.le_refl _
  | cons c fmt =>
    unfold precisionValue
    dsimp only
    split_ifs
    · exact skipAtoi_length
    · exact Nat.le_succ _
    · exact Nat.le_refl _

theorem formatPrecision_length : (formatPrecision args n fmt).2.2.length ≤ fmt.length := by
  cases fmt with
  | nil => exact Nat.le_refl _
  | cons c fmt =>
    unfold formatPrecision
    dsimp only
    split
    · exact Nat.le_succ_of_le precisionValue_length
    · exact Nat.le_refl _

theorem formatQualifier_length : (formatQualifier flags fmt).2.2.length ≤ fmt.length := by
  cases fmt with
  | nil => exact Nat.le_refl _
  | cons c fmt =>
    have dropped : (fmt.drop 2).length ≤ fmt.length + 1 := by
      rw [List.length_drop]
      omega
    unfold formatQualifier
    dsimp only
    split_ifs
    · exact Nat.le_succ _
    · exact dropped
    · exact dropped
    · exact Nat.le_succ _
    · exact Nat.le_refl _

theorem formatSpec_length : (formatSpec args n fmt).2.2.length ≤ fmt.length := by
  unfold formatSpec
  exact formatQualifier_length.trans (formatPrecision_length.trans (formatWidth_length.trans formatFlags_length))

theorem number_some {num base size precision type : BitVec 32} (low : base.slt 2 = false) (high : (36#32).slt base = false) :
    ∃ t, number num base size precision type = some t := by
  unfold number
  rw [low, high]
  exact ⟨_, rfl⟩

theorem convertNumber_some {base : BitVec 32} (low : base.slt 2 = false) (high : (36#32).slt base = false) :
    ∃ r, convertNumber args s n base flags = some r := by
  obtain ⟨t, here⟩ := @number_some (args n) base s.fieldWidth s.precision flags low high
  unfold convertNumber
  rw [here]
  exact ⟨_, rfl⟩

theorem ite_some {α : Type} {p : Prop} [Decidable p] {a b : Option α} (here : ∃ r, a = some r) (there : ∃ r, b = some r) :
    ∃ r, (if p then a else b) = some r := by
  split
  · exact here
  · exact there

/-- Every conversion has a piece. -/
theorem convert_some : ∃ r, convert args m s n c = some r := by
  have octal (flags : BitVec 32) : ∃ r, convertNumber args s n 8 flags = some r := convertNumber_some rfl rfl
  have binary (flags : BitVec 32) : ∃ r, convertNumber args s n 2 flags = some r := convertNumber_some rfl rfl
  have decimal (flags : BitVec 32) : ∃ r, convertNumber args s n 10 flags = some r := convertNumber_some rfl rfl
  have hex (spec : Spec) (flags : BitVec 32) : ∃ r, convertNumber args spec n 16 flags = some r :=
    convertNumber_some rfl rfl
  unfold convert
  refine ite_some (ite_some ⟨_, rfl⟩ ⟨_, rfl⟩) (ite_some ⟨_, rfl⟩ ?_)
  refine ite_some (ite_some ⟨_, rfl⟩ ⟨_, rfl⟩) (ite_some (ite_some ⟨_, rfl⟩ ⟨_, rfl⟩) (ite_some ⟨_, rfl⟩ ?_))
  refine ite_some (ite_some (hex _ _) (hex _ _)) (ite_some ⟨_, rfl⟩ (ite_some (octal _) (ite_some (binary _) ?_)))
  exact ite_some (hex _ _) (ite_some (hex _ _) (ite_some (decimal _) (ite_some (decimal _) ⟨_, rfl⟩)))

theorem formatPieces_some (enough : fmt.length ≤ fuel) : ∃ pieces, formatPieces args m fuel n fmt = some pieces := by
  induction fuel generalizing n fmt with
  | zero =>
    cases fmt with
    | nil => exact ⟨[], rfl⟩
    | cons c fmt => exact absurd enough (Nat.not_succ_le_zero _)
  | succ fuel ih =>
    cases fmt with
    | nil => exact ⟨[], rfl⟩
    | cons c fmt =>
      have shorter : fmt.length ≤ fuel := Nat.le_of_succ_le_succ enough
      unfold formatPieces
      split
      · obtain ⟨pieces, rest⟩ := @ih n fmt shorter
        rw [rest]
        exact ⟨_, rfl⟩
      · have spec := @formatSpec_length args n fmt
        cases here : formatSpec args n fmt with
        | mk s next =>
          obtain ⟨n', fmt'⟩ := next
          rw [here] at spec
          dsimp only at spec ⊢
          cases fmt' with
          | nil => exact ⟨[], rfl⟩
          | cons c' fmt' =>
            obtain ⟨⟨piece, n''⟩, converted⟩ := @convert_some args m n' s c'
            obtain ⟨pieces, rest⟩ := @ih n'' fmt' (by rw [List.length_cons] at spec; omega)
            dsimp only
            rw [converted]
            dsimp only [Option.bind_eq_bind, Option.bind_some]
            rw [rest]
            exact ⟨_, rfl⟩

/-- More fuel than the format has characters makes no difference. -/
theorem formatPieces_fuel {more : Nat} {pieces : List Piece} (less : fuel ≤ more)
    (here : formatPieces args m fuel n fmt = some pieces) : formatPieces args m more n fmt = some pieces := by
  induction fuel generalizing n fmt more pieces with
  | zero =>
    cases fmt with
    | nil =>
      cases here
      cases more <;> rfl
    | cons c fmt => cases here
  | succ fuel ih =>
    obtain ⟨more, rfl⟩ : ∃ k, more = k + 1 := ⟨more - 1, by omega⟩
    cases fmt with
    | nil =>
      cases here
      rfl
    | cons c fmt =>
      unfold formatPieces at here ⊢
      split at here
      · next literal =>
        rw [if_pos literal]
        simp only [Option.bind_eq_bind, Option.bind_eq_some_iff] at here ⊢
        obtain ⟨rest, later, all⟩ := here
        exact ⟨rest, ih (Nat.le_of_succ_le_succ less) later, all⟩
      · next percent =>
        rw [if_neg percent]
        cases spec : formatSpec args n fmt with
        | mk s next =>
          obtain ⟨n', fmt'⟩ := next
          rw [spec] at here
          cases fmt' with
          | nil => exact here
          | cons c' fmt' =>
            simp only [Option.bind_eq_bind, Option.bind_eq_some_iff] at here ⊢
            obtain ⟨piece, converted, rest, later, all⟩ := here
            exact ⟨piece, converted, rest, ih (Nat.le_of_succ_le_succ less) later, all⟩

end lengths

end Gr8os.Rtl
