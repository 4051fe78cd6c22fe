import Gr8os.Rtl.Printf
import Gr8os.Rtl.PrintfNumber

/-! Formats that are put together from literals and directives, and how they are read back. -/
namespace Gr8os.Rtl

open LittleEndian
open Ldr (Char8)

inductive Flag
  | minus | plus | space | hash | zero
deriving DecidableEq, Repr

def Flag.char : Flag → Char8
  | minus => ch '-'
  | plus => ch '+'
  | space => ch ' '
  | hash => ch '#'
  | zero => ch '0'

def Flag.bit : Flag → BitVec 32
  | minus => Rtl.left
  | plus => Rtl.plus
  | space => Rtl.space
  | hash => special
  | zero => zeropad

structure Digits where
  text : List Char8
  some : text ≠ []
  all : ∀ c ∈ text, isdigit c = true

def Digits.value (d : Digits) : BitVec 32 := BitVec.ofNat 32 (readNumeral 10 d.text)

/-- A field width does not begin with a zero: that is a flag. -/
inductive Width
  | none
  | given (d : Digits) (first : d.text.head d.some ≠ ch '0')
  | argument

def Width.text : Width → List Char8
  | none => []
  | given d _ => d.text
  | argument => [ch '*']

inductive Precision
  | none
  | point
  | given (d : Digits)
  | argument

def Precision.text : Precision → List Char8
  | none => []
  | point => [ch '.']
  | given d => ch '.' :: d.text
  | argument => [ch '.', ch '*']

inductive Qualifier
  | none | h | l | L | w | I64 | I32 | F
deriving DecidableEq, Repr

def Qualifier.text : Qualifier → List Char8
  | none => []
  | h => [ch 'h']
  | l => [ch 'l']
  | L => [ch 'L']
  | w => [ch 'w']
  | I64 => [ch 'I', ch '6', ch '4']
  | I32 => [ch 'I', ch '3', ch '2']
  | F => [ch 'F']

def Qualifier.kind : Qualifier → Option Char8
  | none => .none
  | h => some (ch 'h')
  | l => some (ch 'l')
  | L => some (ch 'L')
  | w => some (ch 'w')
  | I64 => some (ch 'I')
  | I32 => some (ch 'l')
  | F => .none

def Qualifier.flags (flags : BitVec 32) : Qualifier → BitVec 32
  | F => flags ||| removehex
  | _ => flags

def isflag (c : Char8) : Bool := c = ch '-' ∨ c = ch '+' ∨ c = ch ' ' ∨ c = ch '#' ∨ c = ch '0'
def isnumber (c : Char8) : Bool := isdigit c ∨ c = ch '*'
def isqualifier (c : Char8) : Bool := c = ch 'h' ∨ c = ch 'l' ∨ c = ch 'L' ∨ c = ch 'w' ∨ c = ch 'I' ∨ c = ch 'F'
/-- The characters that stand before a conversion. -/
def reserved (c : Char8) : Bool := isflag c ∨ isnumber c ∨ c = ch '.' ∨ isqualifier c

structure Directive where
  flags : List Flag
  width : Width
  precision : Precision
  qualifier : Qualifier
  conversion : Char8
  plain : reserved conversion = false
  pointer : qualifier = .F → conversion = ch 'p'

def Directive.text (d : Directive) : List Char8 :=
  d.flags.map Flag.char ++ (d.width.text ++ (d.precision.text ++ (d.qualifier.text ++ [d.conversion])))

def flagBits (flags : BitVec 32) (l : List Flag) : BitVec 32 := l.foldl (fun flags f => flags ||| f.bit) flags

section meaning

variable (args : Nat → BitVec 32)

/-- The field width, the flags and the next argument; a negative argument stands for LEFT. -/
def Width.value (flags : BitVec 32) (n : Nat) : Width → BitVec 32 × BitVec 32 × Nat
  | none => (-1, flags, n)
  | given d _ => (d.value, flags, n)
  | argument => if (args n).slt 0 then (-args n, flags ||| left, n + 1) else (args n, flags, n + 1)

def notNegative (x : BitVec 32) : BitVec 32 := if x.slt 0 then 0 else x

def Precision.value (n : Nat) : Precision → BitVec 32 × Nat
  | none => (-1, n)
  | point => (0, n)
  | given d => (notNegative d.value, n)
  | argument => (notNegative (args n), n + 1)

def Directive.spec (d : Directive) (n : Nat) : Spec × Nat :=
  let (fieldWidth, flags, n) := d.width.value args (flagBits 0 d.flags) n
  let (precision, n) := d.precision.value args n
  ({ flags := d.qualifier.flags flags, fieldWidth, precision, qualifier := d.qualifier.kind }, n)

inductive Item
  | literal (c : Char8) (plain : c ≠ ch '%')
  | directive (d : Directive)

def Item.text : Item → List Char8
  | literal c _ => [c]
  | directive d => ch '%' :: d.text

def formatText (items : List Item) : List Char8 := items.flatMap Item.text

/-- What the items put out: a directive converts the arguments from the n-th on. -/
def itemPieces (m : Memory) : Nat → List Item → Option (List Piece)
  | _, [] => some []
  | n, .literal c _ :: items => do
    let pieces ← itemPieces m n items
    return .text [c] :: pieces
  | n, .directive d :: items => do
    let (s, n) := d.spec args n
    let (piece, n) ← convert args m s n d.conversion
    let pieces ← itemPieces m n items
    return piece :: pieces

end meaning

/-- The text does not begin with such a character. -/
def Avoids (p : Char8 → Bool) (t : List Char8) : Prop := ∀ c, t.head? = some c → p c = false

section reading

variable {args : Nat → BitVec 32} {m : Memory} {p q : Char8 → Bool} {t u fmt : List Char8} {c : Char8} {flags i : BitVec 32}
  {n fuel : Nat}

theorem avoids_nil : Avoids p [] := by
  intro c head
  cases head

theorem avoids_cons (not : p c = false) : Avoids p (c :: t) := by
  intro d head
  cases head
  exact not

theorem avoids_append (first : Avoids p t) (second : Avoids p u) : Avoids p (t ++ u) := by
  cases t with
  | nil => exact second
  | cons c t => exact avoids_cons (first c rfl)

theorem avoids_all (all : ∀ c ∈ t, q c = true) (apart : ∀ c, q c = true → p c = false) : Avoids p t :=
  fun c head => apart c (all c (List.mem_of_mem_head? head))

theorem skipAtoi_digits (all : ∀ c ∈ t, isdigit c = true) (stops : Avoids isdigit fmt) {k : Nat} :
    skipAtoi (BitVec.ofNat 32 k) (t ++ fmt) =
      (BitVec.ofNat 32 (t.foldl (fun value c => value * 10 + digitValue c) k), fmt) := by
  induction t generalizing k with
  | nil =>
    cases fmt with
    | nil => rfl
    | cons c fmt => exact if_neg (Bool.eq_false_iff.mp (stops c rfl))
  | cons c t ih =>
    have digit := all c List.mem_cons_self
    have least : 48 ≤ c.toNat := by
      have bounds : ch '0' ≤ c ∧ c ≤ ch '9' := of_decide_eq_true digit
      exact bounds.1
    have next : BitVec.ofNat 32 k * 10 + c.setWidth 32 - 48 = BitVec.ofNat 32 (k * 10 + digitValue c) := by
      have value : digitValue c = c.toNat - 48 := if_pos digit
      have high := c.isLt
      rw [value]
      apply BitVec.eq_of_toNat_eq
      have width : (c.setWidth 32).toNat = c.toNat := by
        rw [BitVec.toNat_setWidth, Nat.mod_eq_of_lt (by omega)]
      have ten : (10 : BitVec 32).toNat = 10 := rfl
      have base : (48 : BitVec 32).toNat = 48 := rfl
      rw [BitVec.toNat_sub, BitVec.toNat_add, BitVec.toNat_mul, width, ten, base, BitVec.toNat_ofNat, BitVec.toNat_ofNat]
      omega
    rw [List.cons_append, skipAtoi, if_pos digit, next]
    exact ih fun d member => all d (List.mem_cons_of_mem c member)

theorem skipAtoi_read (d : Digits) (stops : Avoids isdigit fmt) : skipAtoi 0 (d.text ++ fmt) = (d.value, fmt) :=
  @skipAtoi_digits d.text fmt d.all stops 0

theorem formatFlags_read {l : List Flag} (stops : Avoids isflag fmt) :
    formatFlags flags (l.map Flag.char ++ fmt) = (flagBits flags l, fmt) := by
  induction l generalizing flags with
  | nil =>
    cases fmt with
    | nil => rfl
    | cons c fmt =>
      have none := stops c rfl
      simp only [isflag, decide_eq_false_iff_not, not_or] at none
      obtain ⟨minus, plus, space, hash, zero⟩ := none
      exact (if_neg minus).trans ((if_neg plus).trans ((if_neg space).trans ((if_neg hash).trans (if_neg zero))))
  | cons f l ih => cases f <;> exact ih

/-- Digits that are followed by something else, as a width and as a precision. -/
theorem Digits.cases (d : Digits) : ∃ c t, d.text = c :: t ∧ isdigit c = true := by
  cases here : d.text with
  | nil => exact absurd here d.some
  | cons c t => exact ⟨c, t, rfl, d.all c (here ▸ List.mem_cons_self)⟩

theorem isnumber_false (not : isnumber c = false) : isdigit c = false ∧ c ≠ ch '*' := by
  simp only [isnumber, decide_eq_false_iff_not, not_or] at not
  exact ⟨Bool.eq_false_iff.mpr not.1, not.2⟩

theorem avoids_digit (stops : Avoids isnumber fmt) : Avoids isdigit fmt := fun c head => (isnumber_false (stops c head)).1

theorem formatWidth_read (w : Width) (stops : Avoids isnumber fmt) :
    formatWidth args flags n (w.text ++ fmt) =
      ((w.value args flags n).1, (w.value args flags n).2.1, (w.value args flags n).2.2, fmt) := by
  cases w with
  | none =>
    cases fmt with
    | nil => rfl
    | cons c fmt =>
      obtain ⟨digit, star⟩ := isnumber_false (stops c rfl)
      exact (if_neg (Bool.eq_false_iff.mp digit)).trans (if_neg star)
  | given d first =>
    obtain ⟨c, t, here, digit⟩ := d.cases
    have value := skipAtoi_read d (avoids_digit stops)
    rw [Width.text]
    rw [here, List.cons_append] at value ⊢
    unfold formatWidth
    dsimp only
    rw [if_pos digit, value]
    rfl
  | argument =>
    change (if (args n).slt 0 then _ else _) = _
    unfold Width.value
    cases (args n).slt 0 with
    | true => rfl
    | false => rfl

theorem formatPrecision_dot {k : Nat} (value : precisionValue args n t = (i, k, fmt)) :
    formatPrecision args n (ch '.' :: t) = (notNegative i, k, fmt) := by
  unfold formatPrecision
  refine (if_pos rfl).trans ?_
  rw [value]
  rfl

theorem formatPrecision_read (w : Precision) (stops : Avoids isnumber fmt) (dot : fmt.head? ≠ some (ch '.')) :
    formatPrecision args n (w.text ++ fmt) = ((w.value args n).1, (w.value args n).2, fmt) := by
  cases w with
  | none =>
    cases fmt with
    | nil => rfl
    | cons c fmt => exact if_neg fun here => dot (congrArg some here)
  | point =>
    cases fmt with
    | nil => rfl
    | cons c fmt =>
      obtain ⟨digit, star⟩ := isnumber_false (stops c rfl)
      have value : precisionValue args n (c :: fmt) = (-1, n, c :: fmt) :=
        (if_neg (Bool.eq_false_iff.mp digit)).trans (if_neg star)
      exact formatPrecision_dot value
  | given d =>
    obtain ⟨c, t, here, digit⟩ := d.cases
    have value : precisionValue args n (d.text ++ fmt) = (d.value, n, fmt) := by
      have read := skipAtoi_read d (avoids_digit stops)
      rw [here, List.cons_append] at read ⊢
      unfold precisionValue
      dsimp only
      rw [if_pos digit, read]
    exact formatPrecision_dot value
  | argument => rfl

theorem formatQualifier_read (d : Directive) :
    formatQualifier flags (d.qualifier.text ++ d.conversion :: fmt) =
      (d.qualifier.kind, d.qualifier.flags flags, d.conversion :: fmt) := by
  cases here : d.qualifier with
  | none =>
    have plain := d.plain
    simp only [reserved, isqualifier, decide_eq_false_iff_not, decide_eq_true_eq, not_or] at plain
    obtain ⟨-, -, -, h, l, L, w, I, F⟩ := plain
    rw [Qualifier.text, List.nil_append]
    unfold formatQualifier
    dsimp only
    rw [if_neg (by simp only [h, l, L, w, or_self, not_false_eq_true]), if_neg fun here => I here.1,
      if_neg fun here => I here.1, if_neg fun here => F here.1]
    rfl
  | h => rfl
  | l => rfl
  | L => rfl
  | w => rfl
  | I64 => rfl
  | I32 => rfl
  | F =>
    rw [d.pointer here]
    rfl

/-- What stands before a conversion is neither a flag, nor a number, nor a dot, as far as it does not belong there. -/
theorem qualifier_avoids (d : Directive) :
    Avoids isflag (d.qualifier.text ++ d.conversion :: fmt) ∧ Avoids isnumber (d.qualifier.text ++ d.conversion :: fmt) ∧
      (d.qualifier.text ++ d.conversion :: fmt).head? ≠ some (ch '.') := by
  have plain := d.plain
  simp only [reserved, decide_eq_false_iff_not, not_or, Bool.not_eq_true] at plain
  obtain ⟨flag, number, dot, -⟩ := plain
  have whole (c : Char8) (t : List Char8) (here : isflag c = false ∧ isnumber c = false ∧ c ≠ ch '.') :
      Avoids isflag (c :: t) ∧ Avoids isnumber (c :: t) ∧ (c :: t).head? ≠ some (ch '.') :=
    ⟨avoids_cons here.1, avoids_cons here.2.1, fun dot => here.2.2 (Option.some.inj dot)⟩
  cases d.qualifier with
  | none => exact whole _ _ ⟨flag, number, dot⟩
  | h | l | L | w | I64 | I32 | F => exact whole _ _ (by decide)

theorem precision_avoids (w : Precision) (flag : Avoids isflag fmt) (number : Avoids isnumber fmt) :
    Avoids isflag (w.text ++ fmt) ∧ Avoids isnumber (w.text ++ fmt) := by
  cases w with
  | none => exact ⟨flag, number⟩
  | point | given | argument => exact ⟨avoids_cons (by decide), avoids_cons (by decide)⟩

theorem width_avoids (w : Width) (flag : Avoids isflag fmt) : Avoids isflag (w.text ++ fmt) := by
  cases w with
  | none => exact flag
  | given d first =>
    obtain ⟨c, t, here, digit⟩ := d.cases
    have zero : c ≠ ch '0' := by
      intro equal
      refine first ?_
      simp only [here, List.head_cons, equal]
    have apart : ∀ c : Char8, isdigit c = true → c ≠ ch '0' → isflag c = false := by decide
    rw [Width.text, here]
    exact avoids_cons (apart c digit zero)
  | argument => exact avoids_cons (by decide)

/-- A directive is read back, up to its conversion. -/
theorem formatSpec_read (d : Directive) :
    formatSpec args n (d.text ++ fmt) = ((d.spec args n).1, (d.spec args n).2, d.conversion :: fmt) := by
  have whole : d.text ++ fmt = d.flags.map Flag.char ++
      (d.width.text ++ (d.precision.text ++ (d.qualifier.text ++ d.conversion :: fmt))) := by
    simp only [Directive.text, List.append_assoc, List.singleton_append]
  obtain ⟨flag, number, dot⟩ := @qualifier_avoids fmt d
  obtain ⟨flag', number'⟩ := precision_avoids d.precision flag number
  rw [whole]
  unfold formatSpec
  rw [formatFlags_read (width_avoids d.width flag')]
  dsimp only
  rw [formatWidth_read d.width number']
  dsimp only
  rw [formatPrecision_read d.precision number dot]
  dsimp only
  rw [formatQualifier_read d]
  rfl

theorem formatPieces_read {items : List Item} (enough : (formatText items).length ≤ fuel) :
    formatPieces args m fuel n (formatText items) = itemPieces args m n items := by
  induction items generalizing fuel n with
  | nil => cases fuel <;> rfl
  | cons item items ih =>
    have whole : formatText (item :: items) = item.text ++ formatText items := List.flatMap_cons
    rw [whole, List.length_append] at enough
    rw [whole]
    cases item with
    | literal c plain =>
      change 1 + _ ≤ fuel at enough
      obtain ⟨fuel, rfl⟩ : ∃ k, fuel = k + 1 := ⟨fuel - 1, by omega⟩
      rw [Item.text, List.singleton_append]
      unfold formatPieces itemPieces
      rw [if_pos plain, ih (by omega)]
    | directive d =>
      change d.text.length + 1 + _ ≤ fuel at enough
      obtain ⟨fuel, rfl⟩ : ∃ k, fuel = k + 1 := ⟨fuel - 1, by omega⟩
      rw [Item.text, List.cons_append]
      unfold formatPieces
      rw [if_neg (not_not_intro rfl), formatSpec_read]
      dsimp only
      unfold itemPieces
      simp only [ih (show (formatText items).length ≤ fuel by omega)]

/-- A format that is put together from literals and directives is read back as them, whatever its arguments are. -/
theorem format_read_back (items : List Item) :
    formatPieces args m (formatText items).length 0 (formatText items) = itemPieces args m 0 items :=
  formatPieces_read (Nat.le_refl _)

end reading

end Gr8os.Rtl
