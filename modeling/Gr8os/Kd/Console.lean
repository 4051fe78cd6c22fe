import Mathlib.Data.BitVec

/-! The text that the kernel writes to the screen, character by character. -/
namespace Gr8os.Kd.Console

abbrev Char8 := BitVec 8

def KiXResolution : BitVec 32 := 80
def KiYResolution : BitVec 32 := 24

def BOCHS_LOGGER_PORT : BitVec 8 := 0xE9

/-- The cursor, the bytes of the segment gs, and the offsets of those that have been read or written. -/
structure Screen where
  kiScreenX : BitVec 32
  kiScreenY : BitVec 32
  video : BitVec 32 → BitVec 8
  touched : List (BitVec 32)
  kiFirstPrint : Bool
  kiUseBochsLogging : Bool
  logged : List Char8

def initial (video : BitVec 32 → BitVec 8) : Screen where
  kiScreenX := 0
  kiScreenY := 0
  video := video
  touched := []
  kiFirstPrint := true
  kiUseBochsLogging := false
  logged := []

variable (s : Screen)

def Screen.store (offset : BitVec 32) (byte : BitVec 8) : Screen :=
  { s with video := fun a => if a = offset then byte else s.video a, touched := offset :: s.touched }

def kiReadChar (pos : BitVec 32) : Char8 × Screen :=
  (s.video (pos <<< 1), { s with touched := pos <<< 1 :: s.touched })

def kiWriteChar (pos : BitVec 32) (chr : Char8) : Screen := s.store (pos <<< 1) chr

def kiWriteCharAttribute (pos : BitVec 32) (attr : BitVec 8) : Screen := s.store (pos <<< 1 + 1) attr

/-- for (i = 0; i < n; i++) -/
def forLoop (body : Screen → BitVec 32 → Screen) : Nat → Screen → Screen
  | 0, s => s
  | n + 1, s => body (forLoop body n s) (BitVec.ofNat 32 n)

/-- The cell under the cursor is written, or the cursor moves. -/
def place (ch : Char8) : Screen :=
  if ch = 10 then { s with kiScreenY := s.kiScreenY + 1 }
  else if ch = 13 then { s with kiScreenX := 0 }
  else
    let s := kiWriteChar s (s.kiScreenY * KiXResolution + s.kiScreenX) ch
    { s with kiScreenX := s.kiScreenX + 1 }

def wrap : Screen :=
  if s.kiScreenX = KiXResolution then { s with kiScreenY := s.kiScreenY + 1, kiScreenX := 0 } else s

def clearAttributes : Screen := forLoop (fun s i => kiWriteCharAttribute s i 7) 80 s

def moveRows : Screen :=
  forLoop
    (fun s i =>
      let r := kiReadChar s (i + KiXResolution * 2)
      kiWriteChar r.2 i r.1)
    (KiXResolution * (KiYResolution - 2)).toNat s

def blankRows : Screen :=
  forLoop (fun s i => kiWriteChar s (KiXResolution * (KiYResolution - 2) + i) 32) (KiXResolution * 2).toNat s

def scroll : Screen :=
  let s := blankRows (moveRows (clearAttributes s))
  { s with kiScreenY := s.kiScreenY - 2 }

def log (ch : Char8) : Screen := if s.kiUseBochsLogging then { s with logged := s.logged ++ [ch] } else s

def kiPutChar (ch : Char8) : Screen :=
  let s := wrap (place (log s ch) ch)
  if s.kiScreenY = KiYResolution then scroll s else s

/-- The first string asks the port of the logger what it holds. -/
def kiDebugPrintRaw (port : BitVec 8) (string : List Char8) : Screen :=
  let s :=
    if s.kiFirstPrint then
      let s := if port = BOCHS_LOGGER_PORT then { s with kiUseBochsLogging := true } else s
      { s with kiFirstPrint := false }
    else s
  string.foldl (fun s ch => kiPutChar (if ch = 10 then kiPutChar s 13 else s) ch) s

/-- The screens that calls lead to. -/
inductive Reached (video : BitVec 32 → BitVec 8) : Screen → Prop
  | start : Reached video (initial video)
  | putChar {s : Screen} (ch : Char8) : Reached video s → Reached video (kiPutChar s ch)
  | debugPrintRaw {s : Screen} (port : BitVec 8) (string : List Char8) :
      Reached video s → Reached video (kiDebugPrintRaw s port string)

def Screen.cell (i : Nat) : Char8 := s.video (BitVec.ofNat 32 i <<< 1)

def rowsEnd : Nat := 24 * 80

/-- Every offset that has been used lies in the rows of the console. -/
def Bounded : Prop := ∀ a ∈ s.touched, a.toNat < 2 * rowsEnd

section cells

variable {s} {pos : BitVec 32} {ch attr : BitVec 8} {i n : Nat}

theorem offset_inj {j : Nat} (first : i < 2 ^ 31) (second : j < 2 ^ 31) :
    BitVec.ofNat 32 i <<< 1 = BitVec.ofNat 32 j <<< 1 ↔ i = j := by
  constructor
  · intro same
    have numbers := congrArg BitVec.toNat same
    simp only [BitVec.toNat_shiftLeft, BitVec.toNat_ofNat, Nat.shiftLeft_eq] at numbers
    omega
  · rintro rfl
    rfl

theorem offset_toNat (inside : pos.toNat < rowsEnd) : (pos <<< 1).toNat = 2 * pos.toNat := by
  unfold rowsEnd at inside
  rw [BitVec.toNat_shiftLeft, Nat.shiftLeft_eq]
  omega

theorem Bounded.cons {offset : BitVec 32} {touched : List (BitVec 32)} (bounded : Bounded s)
    (same : touched = offset :: s.touched) (inside : offset.toNat < 2 * rowsEnd) :
    ∀ a ∈ touched, a.toNat < 2 * rowsEnd := by
  subst same
  exact List.forall_mem_cons.mpr ⟨inside, bounded⟩

theorem bounded_write (bounded : Bounded s) (inside : pos.toNat < rowsEnd) : Bounded (kiWriteChar s pos ch) := by
  apply bounded.cons rfl
  rw [offset_toNat inside]
  omega

theorem bounded_attribute (bounded : Bounded s) (inside : pos.toNat < rowsEnd) :
    Bounded (kiWriteCharAttribute s pos attr) := by
  apply bounded.cons rfl
  have offset := offset_toNat inside
  unfold rowsEnd at *
  rw [BitVec.toNat_add, offset]
  exact Nat.lt_of_le_of_lt (Nat.mod_le _ _) (show 2 * pos.toNat + 1 < _ by omega)

theorem bounded_read (bounded : Bounded s) (inside : pos.toNat < rowsEnd) : Bounded (kiReadChar s pos).2 := by
  apply bounded.cons rfl
  rw [offset_toNat inside]
  omega

theorem cell_write (inside : pos.toNat < rowsEnd) (small : i < 2 ^ 31) :
    (kiWriteChar s pos ch).cell i = if i = pos.toNat then ch else s.cell i := by
  have number : pos = BitVec.ofNat 32 pos.toNat := by
    rw [BitVec.ofNat_toNat, BitVec.setWidth_eq]
  unfold rowsEnd at inside
  have places := offset_inj (j := pos.toNat) small (by omega)
  rw [← number] at places
  change (if BitVec.ofNat 32 i <<< 1 = pos <<< 1 then ch else _) = _
  simp only [places]
  rfl

theorem cell_attribute : (kiWriteCharAttribute s pos attr).cell i = s.cell i := by
  apply if_neg
  intro same
  have numbers := congrArg BitVec.toNat same
  rw [BitVec.toNat_add, BitVec.toNat_shiftLeft, BitVec.toNat_shiftLeft, Nat.shiftLeft_eq, Nat.shiftLeft_eq] at numbers
  change _ = (_ + 1) % _ at numbers
  omega

/-- A screen that a loop has drawn: the cursor where it has been, and these characters in the cells. -/
structure Drawn (s : Screen) (cells : Nat → Char8) (t : Screen) : Prop where
  column : t.kiScreenX = s.kiScreenX
  row : t.kiScreenY = s.kiScreenY
  bounded : Bounded t
  cell : ∀ i < 2 ^ 31, t.cell i = cells i

theorem forLoop_invariant {body : Screen → BitVec 32 → Screen} {P : Nat → Screen → Prop}
    (step : ∀ i < n, ∀ t, P i t → P (i + 1) (body t (BitVec.ofNat 32 i))) (start : P 0 s) : P n (forLoop body n s) := by
  induction n with
  | zero => exact start
  | succ n ih =>
    exact step n (Nat.lt_succ_self n) _ (ih fun i less => step i (Nat.lt_succ_of_lt less))

theorem ofNat_toNat (less : i < rowsEnd) : (BitVec.ofNat 32 i).toNat = i := by
  unfold rowsEnd at less
  rw [BitVec.toNat_ofNat, Nat.mod_eq_of_lt (by omega)]

theorem clearAttributes_drawn (bounded : Bounded s) : Drawn s s.cell (clearAttributes s) := by
  refine forLoop_invariant (P := fun _ => Drawn s s.cell) (fun i less t drawn => ?_) ⟨rfl, rfl, bounded, fun _ _ => rfl⟩
  have inside : (BitVec.ofNat 32 i).toNat < rowsEnd := by
    rw [ofNat_toNat] <;> unfold rowsEnd <;> omega
  exact ⟨drawn.column, drawn.row, bounded_attribute drawn.bounded inside,
    fun j small => cell_attribute.trans (drawn.cell j small)⟩

/-- Each row is written from the one two rows below, which has not been overwritten yet. -/
theorem moveRows_drawn (bounded : Bounded s) :
    Drawn s (fun j => if j < 22 * 80 then s.cell (j + 160) else s.cell j) (moveRows s) := by
  refine forLoop_invariant (P := fun i => Drawn s fun j => if j < i then s.cell (j + 160) else s.cell j)
    (fun i less t drawn => ?_) ⟨rfl, rfl, bounded, fun j _ => (if_neg (Nat.not_lt_zero j)).symm⟩
  change i < 22 * 80 at less
  have here : (BitVec.ofNat 32 i).toNat = i := ofNat_toNat (by unfold rowsEnd; omega)
  have below : BitVec.ofNat 32 i + KiXResolution * 2 = BitVec.ofNat 32 (i + 160) := by
    rw [BitVec.ofNat_add]
    rfl
  have source : (BitVec.ofNat 32 (i + 160)).toNat = i + 160 := ofNat_toNat (by unfold rowsEnd; omega)
  have read : (kiReadChar t (BitVec.ofNat 32 i + KiXResolution * 2)).1 = s.cell (i + 160) := by
    rw [below]
    refine (drawn.cell (i + 160) (by omega)).trans (if_neg (by omega))
  refine ⟨drawn.column, drawn.row, ?_, fun j small => ?_⟩
  · apply bounded_write
    · apply bounded_read drawn.bounded
      rw [below, source]
      unfold rowsEnd
      omega
    · rw [here]
      unfold rowsEnd
      omega
  · rw [cell_write (by rw [here]; unfold rowsEnd; omega) small, here, read]
    have before : (kiReadChar t (BitVec.ofNat 32 i + KiXResolution * 2)).2.cell j = t.cell j := rfl
    rw [before, drawn.cell j small]
    rcases Nat.lt_trichotomy j i with earlier | rfl | later
    · rw [if_neg (by omega), if_pos earlier, if_pos (by omega)]
    · rw [if_pos rfl, if_pos (by omega)]
    · rw [if_neg (by omega), if_neg (by omega), if_neg (by omega)]

theorem blankRows_drawn (bounded : Bounded s) :
    Drawn s (fun j => if 22 * 80 ≤ j ∧ j < rowsEnd then 32 else s.cell j) (blankRows s) := by
  have all : rowsEnd = 22 * 80 + 160 := rfl
  rw [all]
  refine forLoop_invariant (P := fun i => Drawn s fun j => if 22 * 80 ≤ j ∧ j < 22 * 80 + i then 32 else s.cell j)
    (fun i less t drawn => ?_) ⟨rfl, rfl, bounded, fun j _ => (if_neg (by omega)).symm⟩
  change i < 160 at less
  have place : KiXResolution * (KiYResolution - 2) + BitVec.ofNat 32 i = BitVec.ofNat 32 (22 * 80 + i) := by
    rw [BitVec.ofNat_add]
    rfl
  have here : (KiXResolution * (KiYResolution - 2) + BitVec.ofNat 32 i).toNat = 22 * 80 + i := by
    rw [place]
    exact ofNat_toNat (by omega)
  refine ⟨drawn.column, drawn.row, bounded_write drawn.bounded (by omega), fun j small => ?_⟩
  rw [cell_write (by omega) small, here, drawn.cell j small]
  by_cases new : j = 22 * 80 + i
  · rw [if_pos new, if_pos (by omega)]
  · rw [if_neg new]
    by_cases old : 22 * 80 ≤ j ∧ j < 22 * 80 + i
    · rw [if_pos old, if_pos (by omega)]
    · rw [if_neg old, if_neg (by omega)]

def Screen.scrolledCell (s : Screen) (j : Nat) : Char8 :=
  if j < 22 * 80 then s.cell (j + 160) else if j < rowsEnd then 32 else s.cell j

/-- Every row from the third on moves up by two, and the last two rows are blank. -/
theorem scroll_drawn (bounded : Bounded s) : Drawn s s.scrolledCell (blankRows (moveRows (clearAttributes s))) := by
  have first := clearAttributes_drawn bounded
  have second := moveRows_drawn first.bounded
  have third := blankRows_drawn second.bounded
  refine ⟨third.column.trans (second.column.trans first.column), third.row.trans (second.row.trans first.row),
    third.bounded, fun j small => (third.cell j small).trans ?_⟩
  unfold Screen.scrolledCell
  by_cases upper : j < 22 * 80
  · have below : rowsEnd = 24 * 80 := rfl
    rw [if_neg (by omega), if_pos upper, second.cell j small, if_pos upper, first.cell _ (by omega)]
  · rw [second.cell j small, if_neg upper, if_neg upper, first.cell j small]
    have least : 22 * 80 ≤ j := Nat.le_of_not_lt upper
    simp only [least, true_and]

end cells

section cursor

variable {s} {ch : Char8}

/-- Between two calls the cursor is in the rows of the console, and so is all that has been used of the screen. -/
structure OnRows (s : Screen) : Prop where
  column : s.kiScreenX.toNat < 80
  row : s.kiScreenY.toNat < 24
  bounded : Bounded s

def Screen.cursor (s : Screen) : Nat := 80 * s.kiScreenY.toNat + s.kiScreenX.toNat

/-- What a character does before the screen scrolls, if it does. -/
def advanced (s : Screen) (ch : Char8) : Screen := wrap (place (log s ch) ch)

theorem log_screen : (log s ch).kiScreenX = s.kiScreenX ∧ (log s ch).kiScreenY = s.kiScreenY ∧
    (log s ch).video = s.video ∧ (log s ch).touched = s.touched := by
  unfold log
  split <;> exact ⟨rfl, rfl, rfl, rfl⟩

theorem OnRows.log (inside : OnRows s) (ch : Char8) : OnRows (log s ch) := by
  obtain ⟨column, row, _, touched⟩ := @log_screen s ch
  refine ⟨column ▸ inside.column, row ▸ inside.row, ?_⟩
  unfold Bounded
  rw [touched]
  exact inside.bounded

theorem OnRows.position (inside : OnRows s) :
    (s.kiScreenY * KiXResolution + s.kiScreenX).toNat = s.cursor ∧ s.cursor < rowsEnd := by
  have column := inside.column
  have row := inside.row
  have width : KiXResolution.toNat = 80 := rfl
  unfold Screen.cursor rowsEnd
  rw [BitVec.toNat_add, BitVec.toNat_mul, width]
  omega

/-- Only the cell under the cursor changes, and only where the character is not a line feed or a carriage return. -/
theorem advanced_cell (inside : OnRows s) {i : Nat} (small : i < 2 ^ 31) :
    (advanced s ch).cell i = if ch ≠ 10 ∧ ch ≠ 13 ∧ i = s.cursor then ch else s.cell i := by
  have kept (t : Screen) : (wrap t).cell i = t.cell i := by
    unfold wrap
    split <;> rfl
  obtain ⟨column, row, video, _⟩ := @log_screen s ch
  have cursor : (log s ch).cursor = s.cursor := by rw [Screen.cursor, column, row, Screen.cursor]
  have cell : (log s ch).cell i = s.cell i := by rw [Screen.cell, video, Screen.cell]
  obtain ⟨here, less⟩ := (inside.log ch).position
  rw [advanced, kept, place, ← cursor, ← cell]
  split
  · rw [if_neg (fun other => other.1 ‹_›)]
    rfl
  · split
    · rw [if_neg (fun other => other.2.1 ‹_›)]
      rfl
    · refine (cell_write (by omega) small).trans ?_
      rw [here]
      simp only [*, ne_eq, not_false_eq_true, true_and]

theorem advanced_bounded (inside : OnRows s) : Bounded (advanced s ch) := by
  have kept (t : Screen) (bounded : Bounded t) : Bounded (wrap t) := by
    unfold wrap
    split <;> exact bounded
  have logged := inside.log ch
  apply kept
  unfold place
  obtain ⟨here, less⟩ := logged.position
  split
  · exact logged.bounded
  · split
    · exact logged.bounded
    · exact @bounded_write _ _ ch logged.bounded (by omega)

theorem wrap_cursor {t : Screen} (inside : t.kiScreenX.toNat < 80 ∧ t.kiScreenY.toNat ≤ 24 ∨
    t.kiScreenX.toNat ≤ 80 ∧ t.kiScreenY.toNat < 24) :
    (wrap t).kiScreenX.toNat < 80 ∧ (wrap t).kiScreenY.toNat ≤ 24 := by
  have width : KiXResolution = 80#32 := rfl
  unfold wrap
  split
  · exact ⟨show (0#32).toNat < 80 by decide, show (t.kiScreenY + 1).toNat ≤ 24 by bv_omega⟩
  · exact ⟨by bv_omega, by bv_omega⟩

/-- The column is back in the row, and at most one row more is used. -/
theorem advanced_cursor (inside : OnRows s) :
    (advanced s ch).kiScreenX.toNat < 80 ∧ (advanced s ch).kiScreenY.toNat ≤ 24 := by
  have column := (inside.log ch).column
  have row := (inside.log ch).row
  apply wrap_cursor
  unfold place
  split
  · exact Or.inl ⟨column, show ((log s ch).kiScreenY + 1).toNat ≤ 24 by bv_omega⟩
  · split
    · exact Or.inl ⟨show (0#32).toNat < 80 by decide, Nat.le_of_lt row⟩
    · exact Or.inr ⟨show ((log s ch).kiScreenX + 1).toNat ≤ 80 by bv_omega, row⟩

theorem kiPutChar_eq : kiPutChar s ch =
    if (advanced s ch).kiScreenY = KiYResolution then scroll (advanced s ch) else advanced s ch := rfl

/-- Where a row is left the screen stays as the character has left it. -/
theorem kiPutChar_still (inside : OnRows s) (row : (advanced s ch).kiScreenY.toNat < 24) :
    kiPutChar s ch = advanced s ch ∧ OnRows (kiPutChar s ch) := by
  have height : KiYResolution = 24#32 := rfl
  have other : (advanced s ch).kiScreenY ≠ KiYResolution := by
    rw [height]
    bv_omega
  rw [kiPutChar_eq, if_neg other]
  exact ⟨rfl, (advanced_cursor inside).1, row, advanced_bounded inside⟩

theorem drawn_onRows {t : Screen} (drawn : Drawn s s.scrolledCell t) (column : s.kiScreenX.toNat < 80)
    (row : s.kiScreenY.toNat = 24) :
    let u := { t with kiScreenY := t.kiScreenY - 2 }
    (∀ i < 2 ^ 31, u.cell i = s.scrolledCell i) ∧ u.kiScreenY.toNat = 22 ∧ OnRows u := by
  have last : (t.kiScreenY - 2).toNat = 22 := by
    rw [drawn.row]
    bv_omega
  have place : t.kiScreenX.toNat < 80 := by
    rw [drawn.column]
    exact column
  exact ⟨drawn.cell, last, place, by rw [last]; decide, drawn.bounded⟩

theorem kiPutChar_scrolled (inside : OnRows s) (row : (advanced s ch).kiScreenY.toNat = 24) :
    (∀ i < 2 ^ 31, (kiPutChar s ch).cell i = (advanced s ch).scrolledCell i) ∧
      (kiPutChar s ch).kiScreenY.toNat = 22 ∧ OnRows (kiPutChar s ch) := by
  have height : KiYResolution = 24#32 := rfl
  have last : (advanced s ch).kiScreenY = KiYResolution := by
    rw [height]
    bv_omega
  have drawn := scroll_drawn (@advanced_bounded s ch inside)
  rw [kiPutChar_eq, if_pos last, scroll]
  exact drawn_onRows drawn (advanced_cursor inside).1 row

theorem OnRows.kiPutChar (inside : OnRows s) (ch : Char8) : OnRows (kiPutChar s ch) := by
  rcases Nat.lt_or_eq_of_le (@advanced_cursor s ch inside).2 with row | last
  · exact (kiPutChar_still inside row).2
  · exact (kiPutChar_scrolled inside last).2.2

theorem OnRows.kiDebugPrintRaw (inside : OnRows s) (port : BitVec 8) (string : List Char8) :
    OnRows (kiDebugPrintRaw s port string) := by
  have first : OnRows (if s.kiFirstPrint then
      { (if port = BOCHS_LOGGER_PORT then { s with kiUseBochsLogging := true } else s) with kiFirstPrint := false }
      else s) := by
    split
    · split <;> exact ⟨inside.column, inside.row, inside.bounded⟩
    · exact inside
  refine List.foldlRecOn string _ first fun t kept ch _ => ?_
  split
  · exact (kept.kiPutChar 13).kiPutChar ch
  · exact kept.kiPutChar ch

/-- Whatever has been printed, the cursor and all uses of the screen are in the first 24 rows. A further character is
written under the cursor, and a screen that scrolls is moved up by two rows. -/
theorem console_on_rows {video : BitVec 32 → BitVec 8} (s : Screen) (reached : Reached video s) :
    s.kiScreenX.toNat < 80 ∧ s.kiScreenY.toNat < 24 ∧ (∀ a ∈ s.touched, a.toNat < 2 * (24 * 80)) ∧
      ∀ ch, ∃ t,
        (∀ i < 2 ^ 31, Screen.cell t i = if ch ≠ 10 ∧ ch ≠ 13 ∧ i = s.cursor then ch else s.cell i) ∧
        (t.kiScreenY.toNat < 24 ∧ kiPutChar s ch = t ∨
          t.kiScreenY.toNat = 24 ∧ (kiPutChar s ch).kiScreenY.toNat = 22 ∧
            ∀ i < 2 ^ 31, (kiPutChar s ch).cell i =
              if i < 22 * 80 then t.cell (i + 2 * 80) else if i < 24 * 80 then 32 else t.cell i) := by
  have inside : OnRows s := by
    induction reached with
    | start => exact ⟨show (0#32).toNat < 80 by decide, show (0#32).toNat < 24 by decide, List.forall_mem_nil _⟩
    | putChar ch _ ih => exact ih.kiPutChar ch
    | debugPrintRaw port string _ ih => exact ih.kiDebugPrintRaw port string
  refine ⟨inside.column, inside.row, inside.bounded, fun ch => ⟨advanced s ch, fun i small => advanced_cell inside small, ?_⟩⟩
  rcases Nat.lt_or_eq_of_le (@advanced_cursor s ch inside).2 with row | last
  · exact Or.inl ⟨row, (kiPutChar_still inside row).1⟩
  · obtain ⟨cells, row, _⟩ := kiPutChar_scrolled inside last
    exact Or.inr ⟨last, row, cells⟩

theorem console_on_rows_newline : (kiPutChar (initial fun _ => 0x41) 10).kiScreenY.toNat < 24 :=
  (console_on_rows _ (.putChar 10 (@Reached.start fun _ => 0x41))).2.1

end cursor

end Gr8os.Kd.Console
