import Gr8os.Rtl.Printf

/-! What the formatted output functions do to the buffer. -/
namespace Gr8os.Rtl

open LittleEndian BlockMoves Sinks
open Ldr (Char8)

/-- All that is put out. -/
def output : List Piece → List Char8
  | [] => []
  | .text t :: pieces => t ++ output pieces
  | .store _ :: pieces => output pieces

/-- A byte that no conversion stores a count in. -/
def Untouched (pieces : List Piece) (x : Address) : Prop := ∀ target, .store target ∈ pieces → ¬Covers target 4 x

/-- The bytes that a buffer of so many gets of an output: one more than it has where the output just fills it. -/
def delivered (n : Nat) (t : List Char8) : List Char8 :=
  if n = 0 then [] else if t.length ≤ n then t ++ [0] else t.take (n - 1) ++ [0]

section pieces

variable {m m' : Memory} {buf a x : Address} {s : Sink} {pieces : List Piece} {t u : List Char8} {n : Nat}
  {fmt : List Char8} {cnt : BitVec 32} {args : Nat → BitVec 32}

theorem written_congr (same : m x = m' x) : written m a t x = written m' a t x := by
  unfold written
  rw [same]

theorem putPieces_last : (pieces.foldl (putPiece buf) s).last = s.last := by
  induction pieces generalizing s with
  | nil => rfl
  | cons p pieces ih =>
    rw [List.foldl_cons, ih]
    cases p with
    | text t => exact puts_last
    | store target => rfl

theorem putPieces_str : (pieces.foldl (putPiece buf) s).str = s.str + BitVec.ofNat 32 (output pieces).length := by
  induction pieces generalizing s with
  | nil => exact (BitVec.add_zero _).symm
  | cons p pieces ih =>
    rw [List.foldl_cons, ih]
    cases p with
    | text t =>
      change (s.puts t).str + _ = _ + BitVec.ofNat 32 (t ++ output pieces).length
      rw [puts_str, List.length_append, BitVec.ofNat_add, BitVec.add_assoc]
    | store target => rfl

/-- Text put after text, as far as it may be written. -/
theorem written_take_append (room : a.toNat + (t.length + u.length) < 2 ^ 32) (last : Address) :
    written (written m a (t.take (last.toNat + 1 - a.toNat))) (a + BitVec.ofNat 32 t.length)
        (u.take (last.toNat + 1 - (a + BitVec.ofNat 32 t.length).toNat)) =
      written m a ((t ++ u).take (last.toNat + 1 - a.toNat)) := by
  have place : (a + BitVec.ofNat 32 t.length).toNat = a.toNat + t.length := by
    rw [BitVec.toNat_add, BitVec.toNat_ofNat, Nat.mod_eq_of_lt (by omega), Nat.mod_eq_of_lt (by omega)]
  rw [place, List.take_append]
  rcases Nat.lt_or_ge (last.toNat + 1 - a.toNat) t.length with stops | goes
  · rw [show last.toNat + 1 - (a.toNat + t.length) = 0 by omega,
      show last.toNat + 1 - a.toNat - t.length = 0 by omega, List.take_zero, List.append_nil, written_nil]
  · rw [List.take_of_length_le goes, show last.toNat + 1 - (a.toNat + t.length) = last.toNat + 1 - a.toNat - t.length by omega,
      written_append]
    have shorter := List.length_take_le (last.toNat + 1 - a.toNat - t.length) u
    omega

theorem putPieces_memory (room : s.str.toNat + (output pieces).length < 2 ^ 32) (untouched : Untouched pieces x) :
    (pieces.foldl (putPiece buf) s).memory x =
      written s.memory s.str ((output pieces).take (s.last.toNat + 1 - s.str.toNat)) x := by
  induction pieces generalizing s with
  | nil =>
    rw [output, List.take_nil, written_nil]
    rfl
  | cons p pieces ih =>
    have later : Untouched pieces x := fun target member => untouched target (List.mem_cons_of_mem p member)
    rw [List.foldl_cons]
    cases p with
    | text t =>
      have whole : (output (.text t :: pieces)).length = t.length + (output pieces).length := List.length_append
      rw [whole] at room
      have place : (s.puts t).str.toNat = s.str.toNat + t.length := by
        rw [puts_str, BitVec.toNat_add, BitVec.toNat_ofNat, Nat.mod_eq_of_lt (by omega), Nat.mod_eq_of_lt (by omega)]
      refine (ih (s := s.puts t) (by rw [place]; omega) later).trans ?_
      rw [puts_last, puts_str]
      refine (written_congr (congrFun (puts_memory (by omega)) x)).trans ?_
      exact congrFun (written_take_append room s.last) x
    | store target =>
      refine (ih (s := putPiece buf s (.store target)) room later).trans (written_congr ?_)
      exact setUlong_outside (untouched target List.mem_cons_self)

theorem setByte_written {d : Char8} (small : t.length < 2 ^ 32) :
    setByte (written m a t) (a + BitVec.ofNat 32 t.length) d = written m a (t ++ [d]) := by
  rw [written_append (by rw [List.length_singleton]; omega), written_one]

theorem setByte_last {c d : Char8} (small : t.length < 2 ^ 32) :
    setByte (written m a (t ++ [c])) (a + BitVec.ofNat 32 t.length) d = written m a (t ++ [d]) := by
  rw [← setByte_written small, ← setByte_written small]
  funext y
  unfold setByte
  split
  · rfl
  · rfl

theorem terminate_congr {s' : Sink} (same : s.memory x = s'.memory x) (str : s.str = s'.str) (last : s.last = s'.last) :
    terminate buf cnt s x = terminate buf cnt s' x := by
  have set (d : Address) : setByte s.memory d 0 x = setByte s'.memory d 0 x := by
    unfold setByte
    rw [same]
  unfold terminate
  rw [str, last]
  split
  · exact set _
  · split
    · split
      · exact set _
      · exact set _
    · exact same

/-- The terminator goes behind the output, or over the last character that has found room. -/
theorem terminate_written (somewhere : 0 < buf) (room : buf.toNat + t.length < 2 ^ 32) {last : Address} {n : BitVec 32}
    (limit : last.toNat + 1 = buf.toNat + n.toNat) :
    terminate buf n { memory := written m buf (t.take n.toNat), str := buf + BitVec.ofNat 32 t.length, last } =
      written m buf (delivered n.toNat t) := by
  have place : (buf + BitVec.ofNat 32 t.length).toNat = buf.toNat + t.length := by
    rw [BitVec.toNat_add, BitVec.toNat_ofNat, Nat.mod_eq_of_lt (by omega), Nat.mod_eq_of_lt (by omega)]
  have count : buf + BitVec.ofNat 32 t.length - buf = BitVec.ofNat 32 t.length := by
    rw [BitVec.add_comm, BitVec.add_sub_cancel]
  have start : 0 < buf.toNat := somewhere
  unfold terminate delivered
  dsimp only
  rw [count]
  by_cases fits : t.length < n.toNat
  · have under : buf + BitVec.ofNat 32 t.length ≤ last := by
      change _ ≤ last.toNat
      rw [place]
      omega
    rw [if_pos under, if_neg (by omega), if_pos (by omega), List.take_of_length_le (by omega), setByte_written (by omega)]
  · have beyond : ¬buf + BitVec.ofNat 32 t.length ≤ last := by
      change ¬_ ≤ last.toNat
      rw [place]
      omega
    rw [if_neg beyond]
    by_cases none : n.toNat = 0
    · have zero : ¬0 < n := by
        change ¬0 < n.toNat
        omega
      rw [if_neg zero, if_pos none, none, List.take_zero]
    · have some : 0 < n := by
        change 0 < n.toNat
        omega
      have size : (BitVec.ofNat 32 t.length).toNat = t.length := by
        rw [BitVec.toNat_ofNat, Nat.mod_eq_of_lt (by omega)]
      rw [if_pos some, if_neg none]
      by_cases longer : n.toNat < t.length
      · have cut : n < BitVec.ofNat 32 t.length := by
          change n.toNat < _
          rwa [size]
        obtain ⟨k, pred⟩ : ∃ k, n.toNat = k + 1 := ⟨n.toNat - 1, by omega⟩
        have shorter : (t.take k).length = k := List.length_take_of_le (by omega)
        have end_ : last = buf + BitVec.ofNat 32 (t.take k).length := by
          rw [shorter]
          apply BitVec.eq_of_toNat_eq
          rw [BitVec.toNat_add, BitVec.toNat_ofNat, Nat.mod_eq_of_lt (by omega), Nat.mod_eq_of_lt (by omega)]
          omega
        rw [if_pos cut, if_neg (by omega), pred, Nat.add_sub_cancel, List.take_succ_eq_append_getElem (by omega)]
        exact (congrArg (fun d => setByte (written m buf (t.take k ++ [t[k]])) d 0) end_).trans (setByte_last (by omega))
      · have equal : t.length = n.toNat := by omega
        have whole : ¬n < BitVec.ofNat 32 t.length := by
          change ¬n.toNat < _
          rwa [size]
        have next : last + 1 = buf + BitVec.ofNat 32 t.length := by
          apply BitVec.eq_of_toNat_eq
          rw [place]
          bv_omega
        rw [if_neg whole, if_pos (by omega), next, List.take_of_length_le (by omega), setByte_written (by omega)]

end pieces

/-- The number of bytes from the buffer on that the functions take for it: no more than there are. -/
def bufferSize (buf : Address) (cnt : BitVec 32) : Nat := min cnt.toNat (2 ^ 32 - buf.toNat)

/-- The pieces of a whole format. -/
def piecesOf (args : Nat → BitVec 32) (m : Memory) (fmt : List Char8) : List Piece :=
  (formatPieces args m fmt.length 0 fmt).getD []

theorem formatPieces_piecesOf (args : Nat → BitVec 32) (m : Memory) (fmt : List Char8) :
    formatPieces args m fmt.length 0 fmt = some (piecesOf args m fmt) := by
  obtain ⟨pieces, here⟩ := @formatPieces_some args m 0 fmt.length fmt (Nat.le_refl _)
  rw [piecesOf, here, Option.getD_some]

/-- The last place and the count that the function works with. -/
theorem bufferSize_limit {buf : Address} {cnt : BitVec 32} (somewhere : 0 < buf) :
    ∃ (last : Address) (n : BitVec 32),
      (if buf + cnt - 1 < buf - 1 then (-1, -1 - buf + 1) else (buf + cnt - 1, cnt)) = (last, n) ∧
      n.toNat = bufferSize buf cnt ∧ last.toNat + 1 = buf.toNat + n.toNat := by
  have start : 0 < buf.toNat := somewhere
  unfold bufferSize
  split
  · next wraps =>
    have less : (buf + cnt - 1).toNat < (buf - 1).toNat := wraps
    have size : (-1 - buf + 1 : BitVec 32).toNat = 2 ^ 32 - buf.toNat := by bv_omega
    refine ⟨-1, -1 - buf + 1, rfl, ?_, ?_⟩
    · rw [size]
      bv_omega
    · rw [size]
      have whole : (-1 : BitVec 32).toNat = 2 ^ 32 - 1 := rfl
      omega
  · next fits =>
    have least : ¬(buf + cnt - 1).toNat < (buf - 1).toNat := fits
    refine ⟨buf + cnt - 1, cnt, rfl, ?_, ?_⟩
    · bv_omega
    · bv_omega

/-- What is delivered fits into a buffer, but for the terminator of an output that just fills it. -/
theorem delivered_fits_iff {buf : Address} {cnt : BitVec 32} {t : List Char8} (room : buf.toNat + t.length < 2 ^ 32) :
    (delivered (bufferSize buf cnt) t).length ≤ cnt.toNat ↔ cnt = 0 ∨ t.length ≠ cnt.toNat := by
  have zero : cnt = 0 ↔ cnt.toNat = 0 := BitVec.toNat_inj.symm
  have some : 0 < 2 ^ 32 - buf.toNat := by omega
  rw [zero]
  unfold delivered bufferSize
  split
  · next none =>
    rw [List.length_nil]
    omega
  · next any =>
    split
    · rw [List.length_append, List.length_singleton]
      omega
    · rw [List.length_append, List.length_singleton, List.length_take]
      omega

/-- The functions return the length of the whole output. The buffer gets as much of it as it has room for and a terminator,
and only an output that just fills it makes them write behind it. -/
theorem vsnprintf_writes {m : Memory} {buf : Address} {cnt : BitVec 32} {fmt : List Char8} {args : Nat → BitVec 32}
    (somewhere : 0 < buf) (room : buf.toNat + (output (piecesOf args m fmt)).length < 2 ^ 32) :
    ∃ m', vsnprintf m buf cnt fmt args = some (m', BitVec.ofNat 32 (output (piecesOf args m fmt)).length) ∧
      (∀ x, Untouched (piecesOf args m fmt) x →
        m' x = written m buf (delivered (bufferSize buf cnt) (output (piecesOf args m fmt))) x) ∧
      ((delivered (bufferSize buf cnt) (output (piecesOf args m fmt))).length ≤ cnt.toNat ↔
        cnt = 0 ∨ (output (piecesOf args m fmt)).length ≠ cnt.toNat) := by
  obtain ⟨last, n, code, size, limit⟩ := @bufferSize_limit buf cnt somewhere
  refine ⟨terminate buf n ((piecesOf args m fmt).foldl (putPiece buf) { memory := m, str := buf, last }), ?_, ?_, ?_⟩
  · unfold vsnprintf
    rw [code, formatPieces_piecesOf]
    dsimp only [Option.bind_eq_bind, Option.bind_some, Option.pure_def]
    rw [putPieces_str, BitVec.add_comm buf, BitVec.add_sub_cancel]
  · intro x untouched
    rw [← size, ← congrFun (terminate_written somewhere room limit) x]
    refine terminate_congr ?_ putPieces_str putPieces_last
    rw [putPieces_memory room untouched, limit, Nat.add_sub_cancel_left]
  · exact delivered_fits_iff room

/-- Five digits in a buffer of five bytes: the terminator is the sixth. -/
theorem fiveDigits_written : ∃ m', vsnprintf (fun _ => 7) 0x1000 5 [ch '%', ch 'u'] (fun _ => 12345) = some (m', 5) ∧
    m' 0x1004 = ch '5' ∧ m' 0x1005 = 0 ∧ m' 0x1006 = 7 := by
  have pieces : piecesOf (fun _ => 12345) (fun _ => 7) [ch '%', ch 'u'] =
      [.text [ch '1', ch '2', ch '3', ch '4', ch '5']] := by decide
  have untouched (x : Address) : Untouched (piecesOf (fun _ => 12345) (fun _ => 7) [ch '%', ch 'u']) x := by
    rw [pieces]
    intro target member
    simp at member
  obtain ⟨m', printed, bytes, -⟩ := @vsnprintf_writes (fun _ => 7) 0x1000 5 [ch '%', ch 'u'] (fun _ => 12345)
    (by decide) (by rw [pieces]; decide)
  refine ⟨m', ?_, ?_, ?_, ?_⟩
  · rw [printed, pieces]
    rfl
  · rw [bytes _ (untouched _), pieces]
    decide
  · rw [bytes _ (untouched _), pieces]
    decide
  · rw [bytes _ (untouched _), pieces]
    decide

end Gr8os.Rtl
