import Gr8os.Ldr.Strings

/-! The copies of strings in the runtime. A string and a copy of it that both fit into the address space are shorter than
an int can count. -/
namespace Gr8os.Rtl

open ZeroTerminated
open Ldr (Char8 WChar strlen)

def wcslen (wstr : Nat → WChar) : Option Nat := length Ldr.addressSpace wstr

/-- A pointer is a buffer and the place in it. -/
def strncpy (dst : Nat → Char8) (d : Nat) (src : Nat → Char8) (s count : Nat) : Nat → Char8 :=
  copyUntil dst d src s count

def strcpy (s1 : Nat → Char8) (d : Nat) (s2 : Nat → Char8) : Option (Nat → Char8) := do
  let count ← strlen s2
  return strncpy s1 d s2 0 count

def strcat (s1 s2 : Nat → Char8) : Option (Nat → Char8) := do
  let n ← strlen s1
  strcpy s1 n s2

def wcsncpy (dst : Nat → WChar) (d : Nat) (src : Nat → WChar) (s count : Nat) : Nat → WChar :=
  copyUntil dst d src s count

def wcscpy (dst : Nat → WChar) (d : Nat) (src : Nat → WChar) : Option (Nat → WChar) := do
  let n ← wcslen src
  return wcsncpy dst d src 0 (n + 1)

def wcscat (dst src : Nat → WChar) : Option (Nat → WChar) := do
  let n ← wcslen dst
  wcscpy dst n src

def wcssubstr (sourceString : Nat → WChar) (startPosition length : Nat) (destinationBuffer : Nat → WChar) :
    Nat → WChar :=
  let copied := wcsncpy destinationBuffer 0 sourceString startPosition length
  fun i => if i = length then 0 else copied i

section strings

variable {w : Nat}

/-- The buffer has a string in it, ended by its terminator. -/
def IsString (s : Nat → BitVec w) (t : List (BitVec w)) : Prop := text Ldr.addressSpace s = some t

/-- The buffer holds the string and is unchanged behind the terminator. -/
def Leaves (dst result : Nat → BitVec w) (t : List (BitVec w)) : Prop :=
  IsString result t ∧ ∀ i, t.length < i → result i = dst i

def Begins (s : Nat → BitVec w) (t : List (BitVec w)) : Prop :=
  (∀ c ∈ t, c ≠ 0) ∧ ∀ k (inside : k < t.length), s k = t[k]

variable {dst src : Nat → BitVec w} {t u : List (BitVec w)} {d count : Nat}

theorem isString_iff : IsString src t ↔ t.length < Ldr.addressSpace ∧ (∀ c ∈ t, c ≠ 0) ∧ src t.length = 0 ∧
    ∀ k (inside : k < t.length), src k = t[k] := text_eq_some_iff

theorem IsString.begins (string : IsString src t) : Begins src t :=
  ⟨(isString_iff.mp string).2.1, (isString_iff.mp string).2.2.2⟩

theorem begins_nil : Begins src [] :=
  ⟨fun _ member => absurd member List.not_mem_nil, fun _ less => absurd less (Nat.not_lt_zero _)⟩

theorem copy_eq (string : IsString src u) (most : count ≤ u.length + 1) :
    copyUntil dst d src 0 count = fun i => if d ≤ i ∧ i < d + count then src (i - d) else dst i := by
  obtain ⟨_, nonzero, _, values⟩ := isString_iff.mp string
  have copied := @copyUntil_eq _ _ _ 0 dst src d count fun j less => by
    have inside : j < u.length := by omega
    rw [Nat.zero_add, values j inside]
    exact nonzero _ (List.getElem_mem inside)
  simpa only [Nat.zero_add] using copied

/-- A string with another one copied behind it is their concatenation where the copy's terminator is. -/
theorem appended_iff {result : Nat → BitVec w} (begins : Begins dst t) (other : IsString src u)
    (room : t.length + u.length < Ldr.addressSpace) (before : ∀ i < t.length, result i = dst i)
    (copied : ∀ i < u.length, result (t.length + i) = src i) :
    IsString result (t ++ u) ↔ result (t.length + u.length) = 0 := by
  obtain ⟨nonzero, values⟩ := begins
  obtain ⟨_, nonzero', _, values'⟩ := isString_iff.mp other
  have total : (t ++ u).length = t.length + u.length := List.length_append
  rw [isString_iff]
  constructor
  · intro here
    rw [← total]
    exact here.2.2.1
  · intro zero
    refine ⟨by omega, ?_, by rw [total]; exact zero, ?_⟩
    · intro c member
      rcases List.mem_append.mp member with first | second
      · exact nonzero c first
      · exact nonzero' c second
    · intro k inside
      rcases Nat.lt_or_ge k t.length with first | second
      · rw [before k first, values k first, List.getElem_append_left first]
      · have place : t.length + (k - t.length) = k := by omega
        have less : k - t.length < u.length := by omega
        have here := copied (k - t.length) less
        rw [place] at here
        rw [here, values' _ less, List.getElem_append_right second]

/-- A copy behind a string, of all characters or of the terminator as well. -/
theorem appended_copy_iff (begins : Begins dst t) (other : IsString src u)
    (room : t.length + u.length < Ldr.addressSpace) (least : u.length ≤ count) (most : count ≤ u.length + 1) :
    Leaves dst (copyUntil dst t.length src 0 count) (t ++ u) ↔
      u.length < count ∨ dst (t.length + u.length) = 0 := by
  rw [copy_eq other most]
  have after : ∀ i, (t ++ u).length < i → ¬(t.length ≤ i ∧ i < t.length + count) := by
    intro i past
    rw [List.length_append] at past
    omega
  have joined := @appended_iff _ _ _ _ _ (fun i => if t.length ≤ i ∧ i < t.length + count then src (i - t.length) else dst i)
    begins other room (fun i less => if_neg (by omega)) (fun i less => by
      rw [if_pos (by omega), Nat.add_sub_cancel_left])
  have ended := (isString_iff.mp other).2.2.1
  unfold Leaves
  rw [joined]
  by_cases whole : u.length < count
  · rw [if_pos (by omega), Nat.add_sub_cancel_left]
    exact ⟨fun _ => Or.inl whole, fun _ => ⟨ended, fun i past => if_neg (after i past)⟩⟩
  · rw [if_neg (by omega)]
    exact ⟨fun leaves => Or.inr leaves.1,
      fun zero => ⟨zero.resolve_left whole, fun i past => if_neg (after i past)⟩⟩

theorem copy_from_eq (string : IsString src u) {s : Nat} (inside : s + count ≤ u.length) :
    copyUntil dst d src s count = fun i => if d ≤ i ∧ i < d + count then src (s + (i - d)) else dst i := by
  obtain ⟨_, nonzero, _, values⟩ := isString_iff.mp string
  apply copyUntil_eq
  intro j less
  have within : s + j < u.length := by omega
  rw [values _ within]
  exact nonzero _ (List.getElem_mem within)

end strings

section results

/-- The list that stands for a string in the loader's strcpy is copied as the loop copies it. -/
theorem strcpy_eq_list {s1 s2 : Nat → Char8} {t : List Char8} {d : Nat} (string : IsString s2 t) :
    strcpy s1 d s2 = some (Ldr.strcpy s1 d t) := by
  have count : strlen s2 = some t.length := length_of_text string
  obtain ⟨_, _, _, values⟩ := isString_iff.mp string
  rw [strcpy, count]
  refine congrArg some (funext fun i => ?_)
  rw [strncpy, congrFun (copy_eq string (Nat.le_succ _)) i, Ldr.strcpy, Bytes.fill]
  by_cases inside : d ≤ i ∧ i < d + t.length
  · have less : i - d < t.length := by omega
    rw [if_pos inside, if_pos inside, values _ less, List.getD_eq_getElem?_getD, List.getElem?_eq_getElem less,
      Option.getD_some]
  · rw [if_neg inside, if_neg inside]

/-- strcpy copies no terminator. -/
theorem strcpy_leaves_iff {s1 s2 : Nat → Char8} {t : List Char8} (string : IsString s2 t) :
    ∃ r, strcpy s1 0 s2 = some r ∧ (Leaves s1 r t ↔ s1 t.length = 0) := by
  have count : strlen s2 = some t.length := length_of_text string
  have copied := @appended_copy_iff _ s1 _ _ _ _ begins_nil string (by simpa using (isString_iff.mp string).1)
    (Nat.le_refl _) (Nat.le_succ _)
  simp only [List.nil_append, List.length_nil, Nat.zero_add, Nat.lt_irrefl, false_or] at copied
  exact ⟨strncpy s1 0 s2 0 t.length, by rw [strcpy, count]; rfl, copied⟩

theorem strcat_leaves_iff {s1 s2 : Nat → Char8} {t u : List Char8} (string : IsString s1 t) (other : IsString s2 u)
    (room : t.length + u.length < Ldr.addressSpace) :
    ∃ r, strcat s1 s2 = some r ∧ (Leaves s1 r (t ++ u) ↔ s1 (t.length + u.length) = 0) := by
  have first : strlen s1 = some t.length := length_of_text string
  have count : strlen s2 = some u.length := length_of_text other
  have copied := appended_copy_iff string.begins other room (Nat.le_refl _) (Nat.le_succ _)
  simp only [Nat.lt_irrefl, false_or] at copied
  exact ⟨strncpy s1 t.length s2 0 u.length, by rw [strcat, first]; simp [strcpy, count], copied⟩

theorem wcscat_leaves {dst src : Nat → WChar} {t u : List WChar} (string : IsString dst t) (other : IsString src u)
    (room : t.length + u.length < Ldr.addressSpace) : ∃ r, wcscat dst src = some r ∧ Leaves dst r (t ++ u) := by
  have first : wcslen dst = some t.length := length_of_text string
  have count : wcslen src = some u.length := length_of_text other
  have copied := appended_copy_iff string.begins other room (Nat.le_succ _) (Nat.le_refl _)
  exact ⟨wcsncpy dst t.length src 0 (u.length + 1), by rw [wcscat, first]; simp [wcscpy, count],
    copied.mpr (Or.inl (Nat.lt_succ_self _))⟩

theorem wcssubstr_leaves {s buffer : Nat → WChar} {t : List WChar} {p n : Nat} (string : IsString s t)
    (inside : p + n ≤ t.length) : Leaves buffer (wcssubstr s p n buffer) ((t.drop p).take n) := by
  obtain ⟨short, nonzero, _, values⟩ := isString_iff.mp string
  have size : ((t.drop p).take n).length = n := by
    rw [List.length_take, List.length_drop]
    omega
  have copied := @copy_from_eq _ buffer _ _ 0 _ string _ inside
  refine ⟨isString_iff.mpr ⟨by omega, ?_, ?_, ?_⟩, ?_⟩
  · intro c member
    exact nonzero c (List.mem_of_mem_drop (List.mem_of_mem_take member))
  · rw [size, wcssubstr]
    exact if_pos rfl
  · intro k less
    rw [size] at less
    have here : s (p + k) = t[p + k] := values _ (by omega)
    rw [wcssubstr, wcsncpy, copied]
    simp only [Nat.zero_le, Nat.zero_add, true_and, Nat.sub_zero, if_pos less, if_neg (Nat.ne_of_lt less), here,
      List.getElem_take, List.getElem_drop]
  · intro i past
    rw [size] at past
    rw [wcssubstr, wcsncpy, copied]
    simp only [if_neg (Nat.ne_of_gt past), Nat.zero_le, Nat.zero_add, true_and, if_neg (Nat.not_lt_of_gt past)]

/-- The copies of wide strings always leave what they should. Those of byte strings do where a zero has been in the
place of the terminator before. -/
theorem string_copies_terminated_iff (s1 s2 : Nat → Char8) (dst src : Nat → WChar) :
    (∀ t : List Char8, IsString s2 t → ∃ r, strcpy s1 0 s2 = some r ∧ (Leaves s1 r t ↔ s1 t.length = 0)) ∧
    (∀ t u : List Char8, IsString s1 t → IsString s2 u → t.length + u.length < Ldr.addressSpace →
      ∃ r, strcat s1 s2 = some r ∧ (Leaves s1 r (t ++ u) ↔ s1 (t.length + u.length) = 0)) ∧
    (∀ t u : List WChar, IsString dst t → IsString src u → t.length + u.length < Ldr.addressSpace →
      ∃ r, wcscat dst src = some r ∧ Leaves dst r (t ++ u)) ∧
    (∀ (t : List WChar) (p n : Nat), IsString src t → p + n ≤ t.length →
      Leaves dst (wcssubstr src p n dst) ((t.drop p).take n)) :=
  ⟨fun _ => strcpy_leaves_iff, fun _ _ => strcat_leaves_iff, fun _ _ => wcscat_leaves, fun _ _ _ => wcssubstr_leaves⟩

def filledBuffer : Nat → Char8 := fun _ => 0x78

def ab : Nat → Char8 := fun k => ([0x61, 0x62] : List Char8).getD k 0

theorem isString_ab : IsString ab [0x61, 0x62] := text_getD (by decide) (by decide)

theorem strcpy_unterminated : ¬∃ r, strcpy filledBuffer 0 ab = some r ∧ Leaves filledBuffer r [0x61, 0x62] := by
  rintro ⟨r, runs, leaves⟩
  obtain ⟨r', runs', iff⟩ := @strcpy_leaves_iff filledBuffer _ _ isString_ab
  obtain rfl : r = r' := Option.some.inj (runs.symm.trans runs')
  exact absurd (iff.mp leaves) (by decide)

theorem string_copies_of_ab : ∃ r, strcat ab ab = some r ∧ Leaves ab r [0x61, 0x62, 0x61, 0x62] := by
  obtain ⟨r, runs, iff⟩ :=
    (string_copies_terminated_iff ab ab (fun _ => 0) fun _ => 0).2.1 _ _ isString_ab isString_ab (by decide)
  exact ⟨r, runs, iff.mpr (by decide)⟩

end results

end Gr8os.Rtl
