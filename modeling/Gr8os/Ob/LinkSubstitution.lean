import Mathlib.Data.BitVec
import Mathlib.Logic.Function.Basic
import Gr8os.Lib.ZeroTerminated
import Gr8os.Ob.Name

/-! The buffer in which ObpParseSymbolicLink puts a link's target and the rest of the path together. -/
namespace Gr8os.Ob

open ZeroTerminated

/-- The characters from an address on. -/
abbrev Text := Nat → WChar

def addressableChars : Nat := 2 ^ 31

def wcslen (wstr : Text) : Option Nat := length addressableChars wstr

/-- The loop of wcsncpy from its index i on, for so many characters; with it, where what it wrote ends. -/
def wcsncpyFrom (dst : Text) (d : Nat) (src : Text) : Nat → Nat → Text × Nat
  | i, 0 => (dst, d + i)
  | i, count + 1 =>
    let dst := Function.update dst (d + i) (src i)
    if src i ≠ 0 then wcsncpyFrom dst d src (i + 1) count else (dst, d + i + 1)

def wcsncpy (dst : Text) (d : Nat) (src : Text) (count : Nat) : Text × Nat := wcsncpyFrom dst d src 0 count

def wcscpy (dst : Text) (d : Nat) (src : Text) : Option (Text × Nat) :=
  (wcslen src).map fun n => wcsncpy dst d src (n + 1)

def wcscat (dst src : Text) : Option (Text × Nat) := (wcslen dst).bind fun n => wcscpy dst n src

/-- A counted string in a buffer of the heap: MaximumLength bytes were asked for, and characters up to `written` were
written. -/
structure LinkPath where
  length : BitVec 16
  maximumLength : BitVec 16
  buffer : Text
  written : Nat

/-- ObpParseSymbolicLink on the characters that it copies; the heap gives memory with any contents. Nothing comes out
where a search for a terminator does not end. -/
def obpParseSymbolicLinkBuffer (heap target remainingPath : Text) (parseContext : BitVec 32) (allocated : Bool) :
    Option (Status × Option LinkPath) :=
  if parseContext ≠ 1 then do
    let targetLength ← wcslen target
    let remainingLength ← wcslen remainingPath
    let length := BitVec.ofNat 16 (targetLength * 2) + BitVec.ofNat 16 (remainingLength * 2)
    if !allocated then some (.insufficientResources, none)
    else do
      let (buffer, _) ← wcscpy heap 0 target
      let (buffer, written) ← wcscat buffer remainingPath
      some (.reparse, some ⟨length, length + 2, buffer, written⟩)
  else some (.success, none)

/-- The bytes that were asked for hold the string and its terminator. -/
def LinkPath.Holds (path : LinkPath) (string : List WChar) : Prop :=
  2 * path.written ≤ path.maximumLength.toNat ∧ path.written = string.length + 1 ∧
    text addressableChars path.buffer = some string

section copy

variable {dst src : Text} {d n : Nat} {t : List WChar}

/-- The copy ends with the terminator, also where more characters are asked for. -/
theorem wcsncpyFrom_text (zero : src n = 0) (before : ∀ j < n, src j ≠ 0) {i count : Nat} (low : i ≤ n)
    (enough : n < i + count) :
    wcsncpyFrom dst d src i count =
      (fun k => if d + i ≤ k ∧ k ≤ d + n then src (k - d) else dst k, d + n + 1) := by
  induction count generalizing dst i with
  | zero => omega
  | succ count ih =>
    unfold wcsncpyFrom
    rcases Nat.eq_or_lt_of_le low with rfl | more
    · rw [if_neg (not_not_intro zero)]
      refine Prod.ext (funext fun k => ?_) rfl
      by_cases here : k = d + i
      · subst here
        simp
      · have outside : ¬(d + i ≤ k ∧ k ≤ d + i) := fun inside => here (Nat.le_antisymm inside.2 inside.1)
        exact (Function.update_of_ne here _ _).trans (if_neg outside).symm
    · rw [if_pos (before i more), ih more (by omega)]
      refine Prod.ext (funext fun k => ?_) rfl
      by_cases here : k = d + i
      · subst here
        have first : ¬d + (i + 1) ≤ d + i := by omega
        have inside : d + i ≤ d + n := by omega
        simp [first, inside]
      · have same : (d + (i + 1) ≤ k ∧ k ≤ d + n) ↔ (d + i ≤ k ∧ k ≤ d + n) := by omega
        simp only [same, Function.update_of_ne here]

theorem wcscpy_text (source : text addressableChars src = some t) :
    wcscpy dst d src =
      some (fun k => if d ≤ k ∧ k ≤ d + t.length then src (k - d) else dst k, d + t.length + 1) := by
  obtain ⟨n, here, rfl⟩ := Option.map_eq_some_iff.mp source
  obtain ⟨_, zero, before⟩ := length_some here
  rw [wcscpy, wcslen, here, Option.map_some, wcsncpy, wcsncpyFrom_text zero before (Nat.zero_le n) (by omega)]
  simp

end copy

section substitution

variable {heap target remainingPath : Text} {t r : List WChar} {parseContext : BitVec 32}

/-- What the two copies leave in the buffer, whatever was in it. -/
theorem obpParseSymbolicLinkBuffer_written (resolved : parseContext ≠ 1)
    (stored : text addressableChars target = some t) (remains : text addressableChars remainingPath = some r) :
    ∃ path, obpParseSymbolicLinkBuffer heap target remainingPath parseContext true = some (.reparse, some path) ∧
      path.length = (rtlInitUnicodeString t).length + (rtlInitUnicodeString r).length ∧
      path.maximumLength = path.length + 2 ∧ path.written = (t ++ r).length + 1 ∧ path.buffer (t ++ r).length = 0 ∧
      ∀ k (inside : k < (t ++ r).length), path.buffer k = (t ++ r)[k] := by
  obtain ⟨room, nonzero, zero, values⟩ := text_eq_some_iff.mp stored
  obtain ⟨_, _, zero', values'⟩ := text_eq_some_iff.mp remains
  have targetLength : wcslen target = some t.length := length_of_text stored
  have remainingLength : wcslen remainingPath = some r.length := length_of_text remains
  -- wcscat finds the terminator that wcscpy wrote, not one of the heap's
  have middle : wcslen (fun k => if 0 ≤ k ∧ k ≤ 0 + t.length then target (k - 0) else heap k) = some t.length := by
    refine length_of_text (text_eq_some_iff.mpr ⟨room, nonzero, ?_, fun k inside => ?_⟩)
    · simpa using zero
    · rw [if_pos ⟨Nat.zero_le k, by omega⟩]
      exact values k inside
  let length := (rtlInitUnicodeString t).length + (rtlInitUnicodeString r).length
  refine ⟨⟨length, length + 2, fun k => if t.length ≤ k ∧ k ≤ t.length + r.length then remainingPath (k - t.length)
      else if 0 ≤ k ∧ k ≤ 0 + t.length then target (k - 0) else heap k, t.length + r.length + 1⟩,
    ?_, rfl, rfl, by rw [List.length_append], ?_, fun k inside => ?_⟩
  · rw [obpParseSymbolicLinkBuffer, if_pos resolved, targetLength, remainingLength, wcscpy_text stored]
    simp only [Option.bind_eq_bind, Option.bind_some, wcscat, middle, wcscpy_text remains]
    rfl
  · rw [List.length_append]
    exact (if_pos ⟨by omega, Nat.le_refl _⟩).trans ((congrArg remainingPath (by omega)).trans zero')
  · rw [List.length_append] at inside
    by_cases first : k < t.length
    · rw [List.getElem_append_left first, ← values k first]
      exact (if_neg (by omega)).trans (if_pos ⟨Nat.zero_le k, by omega⟩)
    · rw [List.getElem_append_right (by omega), ← values' (k - t.length) (by omega)]
      exact if_pos ⟨by omega, by omega⟩

/-- The characters are those of the lookup's model: what ReparsePath holds is the text of the buffer. -/
theorem obpParseSymbolicLinkBuffer_reparsePath (resolved : parseContext ≠ 1)
    (stored : text addressableChars target = some t) (remains : text addressableChars remainingPath = some r)
    (short : (t ++ r).length < addressableChars) :
    ∃ path, obpParseSymbolicLinkBuffer heap target remainingPath parseContext true = some (.reparse, some path) ∧
      (text addressableChars path.buffer).map (fun buffer => UnicodeString.mk buffer path.length) =
        (obpParseSymbolicLink t r parseContext true).reparsePath := by
  obtain ⟨path, run, length, _, _, zero, values⟩ :=
    @obpParseSymbolicLinkBuffer_written heap target remainingPath t r parseContext resolved stored remains
  have nonzero : ∀ c ∈ t ++ r, c ≠ 0 :=
    List.forall_mem_append.mpr ⟨(text_some stored).2, (text_some remains).2⟩
  have holds : text addressableChars path.buffer = some (t ++ r) := text_eq_some_iff.mpr ⟨short, nonzero, zero, values⟩
  refine ⟨path, run, ?_⟩
  rw [holds, obpParseSymbolicLink, if_pos resolved, length]
  rfl

/-- The path fits: the bytes that were asked for hold it, and its length is the sum of the two lengths. -/
def LinkPath.Fits (path : LinkPath) (t r : List WChar) : Prop :=
  path.Holds (t ++ r) ∧
    path.length.toNat = (rtlInitUnicodeString t).length.toNat + (rtlInitUnicodeString r).length.toNat

/-- MaximumLength counts 16 bits, so what fits is shorter. -/
theorem fits_short {path : LinkPath} (fits : path.Fits t r) : 2 * (t.length + r.length + 1) < 2 ^ 16 := by
  obtain ⟨⟨room, size, _⟩, _⟩ := fits
  rw [size, List.length_append] at room
  have less := path.maximumLength.isLt
  omega

theorem obpParseSymbolicLink_fits_iff (resolved : parseContext ≠ 1) (stored : text addressableChars target = some t)
    (remains : text addressableChars remainingPath = some r) :
    (∃ path, obpParseSymbolicLinkBuffer heap target remainingPath parseContext true = some (.reparse, some path) ∧
      path.Fits t r) ↔ 2 * (t.length + r.length + 1) < 2 ^ 16 := by
  constructor
  · rintro ⟨path, _, fits⟩
    exact fits_short fits
  · intro short
    obtain ⟨path, run, length, maximum, written, zero, values⟩ :=
      @obpParseSymbolicLinkBuffer_written heap target remainingPath t r parseContext resolved stored remains
    have counted : ∀ s : List WChar, s.length ≤ t.length + r.length →
        (rtlInitUnicodeString s).length.toNat = 2 * s.length := by
      intro s less
      rw [rtlInitUnicodeString, BitVec.toNat_ofNat, Nat.mod_eq_of_lt (by omega), Nat.mul_comm]
    have sum : path.length.toNat = 2 * t.length + 2 * r.length := by
      rw [length, BitVec.toNat_add, counted t (by omega), counted r (by omega), Nat.mod_eq_of_lt (by omega)]
    have asked : path.maximumLength.toNat = 2 * (t.length + r.length + 1) := by
      rw [maximum, BitVec.toNat_add, sum, Nat.mod_eq_of_lt (by simp; omega)]
      simp
      omega
    have nonzero : ∀ c ∈ t ++ r, c ≠ 0 :=
      List.forall_mem_append.mpr ⟨(text_some stored).2, (text_some remains).2⟩
    have room : (t ++ r).length < addressableChars := by
      rw [List.length_append, addressableChars]
      omega
    refine ⟨path, run, ⟨?_, written, text_eq_some_iff.mpr ⟨room, nonzero, zero, values⟩⟩, ?_⟩
    · have same : 2 * path.written = path.maximumLength.toNat := by rw [written, asked, List.length_append]
      exact Nat.le_of_eq same
    · rw [sum, counted t (by omega), counted r (by omega)]

end substitution

/-- A string with zeros after it. -/
def storedString (string : List WChar) : Text := fun k => string.getD k 0

theorem storedString_text {string : List WChar} (nonzero : ∀ c ∈ string, c ≠ 0)
    (room : string.length < addressableChars) : text addressableChars (storedString string) = some string :=
  text_getD nonzero room

theorem device_target_fits : ∃ path,
    obpParseSymbolicLinkBuffer (fun _ => 7) (storedString [backslash, 0x44]) (storedString [backslash, 0x66]) 0 true =
      some (.reparse, some path) ∧ path.Fits [backslash, 0x44] [backslash, 0x66] := by
  have stored : text addressableChars (storedString [backslash, 0x44]) = some [backslash, 0x44] :=
    storedString_text (by simp [backslash]) (by simp [addressableChars])
  have remains : text addressableChars (storedString [backslash, 0x66]) = some [backslash, 0x66] :=
    storedString_text (by simp [backslash]) (by simp [addressableChars])
  exact (obpParseSymbolicLink_fits_iff (by decide) stored remains).mpr (by decide)

/-- A target of 32767 characters: the length is still right, and a buffer of no bytes is asked for. -/
theorem long_target_overflows : ∃ target remainingPath : List WChar,
    text addressableChars (storedString target) = some target ∧
    text addressableChars (storedString remainingPath) = some remainingPath ∧
    ¬∃ path, obpParseSymbolicLinkBuffer (fun _ => 0) (storedString target) (storedString remainingPath) 0 true =
      some (.reparse, some path) ∧ path.Fits target remainingPath := by
  refine ⟨List.replicate 32767 backslash, [], storedString_text ?_ ?_, storedString_text ?_ ?_, ?_⟩
  · intro c member
    rw [List.eq_of_mem_replicate member]
    decide
  · rw [List.length_replicate, addressableChars]
    decide
  · exact fun c member => absurd member List.not_mem_nil
  · simp [addressableChars]
  · rintro ⟨path, _, fits⟩
    have short := fits_short fits
    rw [List.length_replicate] at short
    exact absurd short (by decide)

end Gr8os.Ob
