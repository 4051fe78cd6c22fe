import Gr8os.Rtl.Printf
import Mathlib.Data.Nat.Digits.Lemmas

/-! The text of a number: its digits, and what stands around them. -/
namespace Gr8os.Rtl

open Ldr (Char8)

/-- The number whose digits are printed. -/
def magnitude (num type : BitVec 32) : Nat := if has type sign ∧ num.slt 0 then (-num).toNat else num.toNat

def signText (num type : BitVec 32) : List Char8 :=
  if has type sign then
    if num.slt 0 then [ch '-'] else if has type plus then [ch '+'] else if has type space then [ch ' '] else []
  else []

def markText (base type : BitVec 32) : List Char8 :=
  if has type special && !has type removehex && base = 16 then [ch '0', digits type 33] else []

/-- The digits of a number, the first one first. -/
def numeral (type : BitVec 32) (base k : Nat) : List Char8 := (Nat.digits base k).reverse.map (digits type)

def digitText (num base precision type : BitVec 32) : List Char8 :=
  if magnitude num type = 0 ∧ precision ≠ 0 then [ch '0'] else numeral type base.toNat (magnitude num type)

/-- The digits, with zeros in front of them up to the precision. -/
def precise (num base precision type : BitVec 32) : List Char8 :=
  let text := digitText num base precision type
  List.replicate (precision.toInt - text.length).toNat (ch '0') ++ text

/-- The text of a number in a field: blanks behind it or in front of it, or zeros between the sign and the digits. -/
def numberText (num base size precision type : BitVec 32) : List Char8 :=
  let front := signText num type ++ markText base type
  let body := precise num base precision type
  let pad := (size.toInt - (front ++ body).length).toNat
  if has type left then front ++ body ++ List.replicate pad (ch ' ')
  else if has type zeropad then front ++ List.replicate pad (ch '0') ++ body
  else List.replicate pad (ch ' ') ++ front ++ body

section numbers

variable {c : Char8} {low n num base size precision type : BitVec 32} {fuel k : Nat}

theorem doDivs_eq (least : 2 ≤ base.toNat) (enough : num.toNat < base.toNat ^ fuel) :
    doDivs type base fuel num = (Nat.digits base.toNat num.toNat).map (digits type) := by
  induction fuel generalizing num with
  | zero =>
    have zero : num.toNat = 0 := by
      rw [Nat.pow_zero] at enough
      omega
    rw [zero, Nat.digits_zero]
    rfl
  | succ fuel ih =>
    unfold doDivs
    split
    · next zero =>
      rw [zero]
      exact (congrArg (List.map (digits type)) (Nat.digits_zero _)).symm
    · next some =>
      have pos : 0 < num.toNat := Nat.pos_of_ne_zero fun zero => some (BitVec.toNat_inj.mp zero)
      have less : (num / base).toNat < base.toNat ^ fuel := by
        rw [BitVec.toNat_udiv]
        exact Nat.div_lt_of_lt_mul (by rwa [Nat.pow_succ'] at enough)
      rw [ih less, BitVec.toNat_udiv, BitVec.toNat_umod, Nat.digits_def' least pos, List.map_cons]

theorem toInt_cases (x : BitVec 32) : x.toInt = x.toNat ∨ x.toInt = (x.toNat : Int) - 2 ^ 32 := by
  rw [BitVec.toInt_eq_toNat_cond]
  split
  · exact .inl rfl
  · exact .inr rfl

theorem toInt_difference {x y : BitVec 32} (least : -2 ^ 31 ≤ x.toInt - y.toInt) (less : x.toInt - y.toInt < 2 ^ 31) :
    (x - y).toInt = x.toInt - y.toInt := by
  rw [BitVec.toInt_sub]
  exact Int.bmod_eq_of_le least less

/-- The loop puts out what lies between the two ints. -/
theorem fill_text (c : Char8) (low n : BitVec 32) :
    (fill c low n).1 = List.replicate (n.toInt - low.toInt).toNat c := by
  have less : low.slt n ↔ low.toInt < n.toInt := by rw [BitVec.slt_iff_toInt_lt]
  have high := n.toInt_lt
  have below := low.le_toInt
  unfold fill
  split
  · next here =>
    have pos := less.mp here
    have size : (n - low).toNat = (n.toInt - low.toInt).toNat := by
      rcases toInt_cases n with first | first <;> rcases toInt_cases low with second | second <;>
        rw [first, second] at pos ⊢ <;> bv_omega
    rw [← size]
  · next there =>
    have none : ¬low.toInt < n.toInt := fun here => there (less.mpr here)
    rw [show (n.toInt - low.toInt).toNat = 0 by omega]
    rfl

/-- Behind the loop the int is below the bound. -/
theorem fill_left (c : Char8) {low n : BitVec 32} (inside : -2 ^ 31 < n.toInt) (above : -2 ^ 31 < low.toInt) :
    (fill c low n).2.toInt = min low.toInt n.toInt - 1 := by
  have one (x : BitVec 32) (least : -2 ^ 31 < x.toInt) : (x - 1).toInt = x.toInt - 1 := by
    have unit : (1 : BitVec 32).toInt = 1 := rfl
    have high := x.toInt_lt
    rw [toInt_difference] <;> omega
  have less : low.slt n ↔ low.toInt < n.toInt := by rw [BitVec.slt_iff_toInt_lt]
  unfold fill
  split
  · next here =>
    have pos := less.mp here
    rw [show min low.toInt n.toInt = low.toInt by omega]
    exact one low above
  · next there =>
    have none : ¬low.toInt < n.toInt := fun here => there (less.mpr here)
    rw [show min low.toInt n.toInt = n.toInt by omega]
    exact one n inside

theorem fill_none (c : Char8) (negative : n.toInt ≤ 0) : (fill c 0 n).1 = [] := by
  have zero : (0 : BitVec 32).toInt = 0 := rfl
  rw [fill_text, zero, show (n.toInt - 0).toNat = 0 by omega]
  rfl

theorem has_or (flags f g : BitVec 32) : has flags (f ||| g) = (has flags f || has flags g) := by
  unfold has
  rw [BitVec.and_or_distrib_left, ← Bool.decide_or]
  refine decide_eq_decide.mpr ?_
  rw [← not_and_or]
  exact not_congr BitVec.or_eq_zero_iff

/-- The loops put the pad where the flags say, and the zeros before the digits. -/
theorem numberFields_text {signs mark tmp : List Char8} (short : tmp.length < 2 ^ 31)
    (least : -2 ^ 31 + 2 < size.toInt - max precision.toInt tmp.length)
    (less : size.toInt - max precision.toInt tmp.length < 2 ^ 31) :
    numberFields signs mark tmp size precision type =
      let pad := (size.toInt - max precision.toInt tmp.length).toNat
      let body := List.replicate (precision.toInt - tmp.length).toNat (ch '0') ++ tmp.reverse
      if has type left then signs ++ mark ++ body ++ List.replicate pad (ch ' ')
      else if has type zeropad then signs ++ mark ++ List.replicate pad (ch '0') ++ body
      else List.replicate pad (ch ' ') ++ (signs ++ mark) ++ body := by
  have count : (BitVec.ofNat 32 tmp.length).toInt = tmp.length := by
    rw [BitVec.toInt_eq_toNat_cond, BitVec.toNat_ofNat, Nat.mod_eq_of_lt (by omega), if_pos (by omega)]
  have most : (if precision.slt (BitVec.ofNat 32 tmp.length) then BitVec.ofNat 32 tmp.length else precision).toInt =
      max precision.toInt tmp.length := by
    have order : precision.slt (BitVec.ofNat 32 tmp.length) ↔ precision.toInt < tmp.length := by
      rw [BitVec.slt_iff_toInt_lt, count]
    split
    · next more =>
      have longer := order.mp more
      rw [count]
      omega
    · next fewer =>
      have shorter : ¬precision.toInt < tmp.length := fun here => fewer (order.mpr here)
      omega
  unfold numberFields
  dsimp only
  generalize (if precision.slt (BitVec.ofNat 32 tmp.length) then BitVec.ofNat 32 tmp.length else precision) = p at most ⊢
  have rest : (size - p).toInt = size.toInt - max precision.toInt tmp.length := by
    rw [← most] at least less ⊢
    exact toInt_difference (by omega) less
  rw [fill_text (ch '0') (BitVec.ofNat 32 tmp.length) p, count, most,
    show max precision.toInt (tmp.length : Int) - tmp.length = max (precision.toInt - tmp.length) 0 by omega,
    show (max (precision.toInt - tmp.length) 0).toNat = (precision.toInt - tmp.length).toNat by omega]
  rw [← rest] at least ⊢
  generalize size - p = q at least ⊢
  have zero : (0 : BitVec 32).toInt = 0 := rfl
  have text (c : Char8) : (fill c 0 q).1 = List.replicate q.toInt.toNat c := by
    rw [fill_text, zero, Int.sub_zero]
  have after (c : Char8) : (fill c 0 q).2.toInt = min 0 q.toInt - 1 := fill_left c (by omega) (by decide)
  have both : has type (zeropad + left) = (has type zeropad || has type left) := has_or type zeropad left
  rw [both]
  cases has type left with
  | true =>
    simp only [Bool.or_true, Bool.not_true, Bool.false_eq_true, if_false, if_true, List.nil_append, List.append_nil]
    rw [text, List.append_assoc (signs ++ mark)]
  | false =>
    cases has type zeropad with
    | true =>
      simp only [Bool.or_false, Bool.not_true, Bool.not_false, Bool.false_eq_true, if_false, if_true, List.nil_append]
      rw [text, fill_none _ (by rw [after]; omega), List.append_nil, List.append_assoc (signs ++ mark ++ _)]
    | false =>
      simp only [Bool.or_false, Bool.not_false, Bool.false_eq_true, if_false, if_true]
      have again : (fill (ch ' ') 0 (fill (ch ' ') 0 q).2).2.toInt ≤ 0 := by
        rw [fill_left _ (by rw [after]; omega) (by decide), after]
        omega
      rw [text, fill_none (ch ' ') (by rw [after]; omega), fill_none _ again, List.append_nil, List.append_nil]
      simp only [List.append_assoc]

/-- LEFT takes ZEROPAD away, and no other flag. -/
theorem has_stripped {f : BitVec 32} (kept : ~~~zeropad &&& f = f) :
    has (if has type left then type &&& ~~~zeropad else type) f = has type f := by
  split
  · unfold has
    rw [BitVec.and_assoc, kept]
  · rfl

theorem digits_congr {other : BitVec 32} (same : has other large = has type large) : digits other = digits type := by
  funext i
  unfold digits
  rw [same]

theorem doDivs_congr {other : BitVec 32} (same : digits other = digits type) :
    doDivs other base fuel num = doDivs type base fuel num := by
  induction fuel generalizing num with
  | zero => rfl
  | succ fuel ih =>
    unfold doDivs
    rw [same, ih]

theorem doDivs_length : (doDivs type base fuel num).length ≤ fuel := by
  induction fuel generalizing num with
  | zero => exact Nat.le_refl _
  | succ fuel ih =>
    unfold doDivs
    split
    · exact Nat.zero_le _
    · exact Nat.succ_le_succ ih

/-- The sign takes one place of the size; what is left is the magnitude. -/
theorem numberSign_eq {other : BitVec 32} (signs : has other sign = has type sign) (pluses : has other plus = has type plus)
    (spaces : has other space = has type space) (least : -1 ≤ size.toInt) :
    ∃ k rest, numberSign num size other = (signText num type, k, rest) ∧ k.toNat = magnitude num type ∧
      rest.toInt = size.toInt - (signText num type).length := by
  have high := size.toInt_lt
  have unit : (1 : BitVec 32).toInt = 1 := rfl
  have one : (size - 1).toInt = size.toInt - 1 := by
    rw [toInt_difference] <;> omega
  unfold numberSign signText magnitude
  rw [signs, pluses, spaces]
  cases has type sign with
  | false => exact ⟨num, size, rfl, rfl, (Int.sub_zero _).symm⟩
  | true =>
    cases num.slt 0 with
    | true => exact ⟨-num, size - 1, rfl, rfl, one⟩
    | false =>
      cases has type plus with
      | true => exact ⟨num, size - 1, rfl, rfl, one⟩
      | false =>
        cases has type space with
        | true => exact ⟨num, size - 1, rfl, rfl, one⟩
        | false => exact ⟨num, size, rfl, rfl, (Int.sub_zero _).symm⟩

theorem base_inRange (least : 2 ≤ base.toNat) (most : base.toNat ≤ 36) : ¬(base.slt 2 ∨ (36#32).slt base) := by
  have small : base.toInt = base.toNat := by rw [BitVec.toInt_eq_toNat_cond, if_pos (by omega)]
  have two : (2 : BitVec 32).toInt = 2 := rfl
  have top : (36#32).toInt = 36 := rfl
  rw [BitVec.slt_iff_toInt_lt, BitVec.slt_iff_toInt_lt, small, two, top]
  omega

/-- Every number in every base is printed as its digits, with the sign, the mark, the zeros and the pad that are asked for. -/
theorem number_text (least : 2 ≤ base.toNat) (most : base.toNat ≤ 36) (field : -1 ≤ size.toInt)
    (short : precision.toInt < 2 ^ 31 - 8) :
    number num base size precision type = some (numberText num base size precision type) := by
  have same := @digits_congr type (if has type left then type &&& ~~~zeropad else type) (has_stripped rfl)
  obtain ⟨k, rest, code, value, leaves⟩ := @numberSign_eq num size type
    (if has type left then type &&& ~~~zeropad else type) (has_stripped rfl) (has_stripped rfl) (has_stripped rfl) field
  unfold number
  dsimp only
  rw [if_neg (base_inRange least most), code]
  dsimp only
  rw [has_stripped (f := special) rfl, has_stripped (f := removehex) rfl, same, doDivs_congr same]
  have text : (if k = 0 ∧ precision ≠ 0 then [ch '0'] else doDivs type base tmpSize k).reverse =
      digitText num base precision type := by
    have zero : k = 0 ↔ magnitude num type = 0 := by
      rw [← value]
      exact BitVec.toNat_inj.symm
    have enough : k.toNat < base.toNat ^ tmpSize :=
      k.isLt.trans_le ((Nat.pow_le_pow_right (by decide) (by decide)).trans (Nat.pow_le_pow_left least tmpSize))
    unfold digitText numeral
    simp only [zero]
    split
    · rfl
    · rw [doDivs_eq least enough, value, List.map_reverse]
  have few : (if k = 0 ∧ precision ≠ 0 then [ch '0'] else doDivs type base tmpSize k).length ≤ 66 := by
    split
    · decide
    · exact doDivs_length
  generalize (if k = 0 ∧ precision ≠ 0 then [ch '0'] else doDivs type base tmpSize k) = tmp at text few ⊢
  have signs : (signText num type).length ≤ 1 := by
    unfold signText
    split_ifs <;> simp
  have top := size.toInt_lt
  have marks : (if has type special && !has type removehex && base = 16 then rest - 2 else rest).toInt =
      rest.toInt - (markText base type).length := by
    have two : (2 : BitVec 32).toInt = 2 := rfl
    unfold markText
    split
    · rw [toInt_difference (by omega) (by omega)]
      rfl
    · exact (Int.sub_zero _).symm
  have mark : (markText base type).length ≤ 2 := by
    unfold markText
    split <;> simp
  have tall : tmp.length = (digitText num base precision type).length := by rw [← text, List.length_reverse]
  refine congrArg some ((numberFields_text (by omega) (by rw [marks, leaves]; omega) (by rw [marks, leaves]; omega)).trans ?_)
  have pad : (size.toInt - ((signText num type ++ markText base type) ++ precise num base precision type).length).toNat =
      ((if has type special && !has type removehex && base = 16 then rest - 2 else rest).toInt -
        max precision.toInt tmp.length).toNat := by
    unfold precise
    dsimp only
    rw [marks, leaves, ← tall, List.length_append, List.length_append, List.length_append, List.length_replicate]
    omega
  unfold numberText
  dsimp only
  rw [pad, text, tall]
  rw [has_stripped (f := Gr8os.Rtl.left) rfl]
  cases here : has type Gr8os.Rtl.left with
  | true => rfl
  | false => rfl

theorem numberText_length : ((numberText num base size precision type).length : Int) =
    max size.toInt ((signText num type ++ markText base type) ++ precise num base precision type).length := by
  unfold numberText
  split_ifs <;> simp only [List.length_append, List.length_replicate] <;> omega

/-- The value of a digit, small or large. -/
def digitValue (c : Char8) : Nat :=
  if isdigit c then c.toNat - 48 else if ch 'a' ≤ c then c.toNat - 87 else c.toNat - 55

def readNumeral (base : Nat) (t : List Char8) : Nat := t.foldl (fun value c => value * base + digitValue c) 0

theorem digitValue_digits {i : Nat} (less : i < 36) : digitValue (digits type i) = i := by
  have small : ∀ i < 36, digitValue (if i < 10 then BitVec.ofNat 8 (48 + i) else BitVec.ofNat 8 (87 + i)) = i := by decide
  have tall : ∀ i < 36, digitValue (if i < 10 then BitVec.ofNat 8 (48 + i) else BitVec.ofNat 8 (55 + i)) = i := by decide
  unfold digits
  cases has type large with
  | true => exact tall i less
  | false => exact small i less

theorem readNumeral_digits {b : Nat} {l : List Nat} (less : ∀ i ∈ l, i < 36) :
    readNumeral b (l.reverse.map (digits type)) = Nat.ofDigits b l := by
  induction l with
  | nil => rfl
  | cons i l ih =>
    have rest := ih fun j member => less j (List.mem_cons_of_mem i member)
    unfold readNumeral at rest ⊢
    rw [List.reverse_cons, List.map_append, List.foldl_append, rest, Nat.ofDigits_cons, Nat.add_comm, Nat.mul_comm]
    exact congrArg (_ + ·) (digitValue_digits (less i List.mem_cons_self))

theorem readNumeral_numeral {b : Nat} (least : 2 ≤ b) (most : b ≤ 36) : readNumeral b (numeral type b k) = k := by
  have less : ∀ i ∈ Nat.digits b k, i < 36 := fun i member => (Nat.digits_lt_base least member).trans_le most
  exact (readNumeral_digits less).trans (Nat.ofDigits_digits b k)

theorem readNumeral_zeros {b zeros : Nat} {t : List Char8} :
    readNumeral b (List.replicate zeros (ch '0') ++ t) = readNumeral b t := by
  induction zeros with
  | zero => rfl
  | succ zeros ih =>
    refine Eq.trans ?_ ih
    change List.foldl _ (0 * b + digitValue (ch '0')) _ = readNumeral b _
    rw [Nat.zero_mul]
    rfl

theorem readNumeral_precise (least : 2 ≤ base.toNat) (most : base.toNat ≤ 36) :
    readNumeral base.toNat (precise num base precision type) = magnitude num type := by
  unfold precise
  rw [readNumeral_zeros]
  unfold digitText
  split
  · next zero =>
    rw [zero.1]
    exact @readNumeral_zeros base.toNat 1 []
  · exact readNumeral_numeral least most

/-- A printed number fills its field, and its digits are read back as the number without its sign. -/
theorem number_read_back (least : 2 ≤ base.toNat) (most : base.toNat ≤ 36) (field : -1 ≤ size.toInt)
    (short : precision.toInt < 2 ^ 31 - 8) :
    number num base size precision type = some (numberText num base size precision type) ∧
      readNumeral base.toNat (precise num base precision type) = magnitude num type ∧
      ((numberText num base size precision type).length : Int) =
        max size.toInt ((signText num type ++ markText base type) ++ precise num base precision type).length :=
  ⟨number_text least most field short, readNumeral_precise least most, numberText_length⟩

end numbers

/-- A negative number in ten places: the zeros stand between the sign and the digits. -/
theorem minus255_read_back :
    number (-255) 16 10 (-1) (sign ||| zeropad ||| special) =
        some [ch '-', ch '0', ch 'x', ch '0', ch '0', ch '0', ch '0', ch '0', ch 'f', ch 'f'] ∧
      readNumeral 16 (precise (-255) 16 (-1) (sign ||| zeropad ||| special)) = 255 := by
  obtain ⟨printed, back, -⟩ := @number_read_back (-255) 16 10 (-1) (sign ||| zeropad ||| special)
    (by decide) (by decide) (by decide) (by decide)
  refine ⟨?_, back⟩
  rw [printed]
  decide

end Gr8os.Rtl
