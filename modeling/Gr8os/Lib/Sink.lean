import Gr8os.Lib.BlockMoves

/-! A sink of characters. It goes on counting where it may not store any more. -/
namespace Sinks

open LittleEndian BlockMoves

/-- The text stands in memory from the address on. -/
def written (m : Memory) (a : Address) (t : List (BitVec 8)) : Memory :=
  fun x => if Covers a t.length x then t.getD (x - a).toNat 0 else m x

/-- The place of the next character, and the last place that may be written. -/
structure Sink where
  memory : Memory
  str : Address
  last : Address

def Sink.put (s : Sink) (c : BitVec 8) : Sink :=
  { s with memory := if s.str ≤ s.last then setByte s.memory s.str c else s.memory, str := s.str + 1 }

def Sink.puts (s : Sink) (t : List (BitVec 8)) : Sink := t.foldl Sink.put s

section sinks

variable {s : Sink} {m : Memory} {a x : Address} {c : BitVec 8} {t u : List (BitVec 8)} {n : Nat}

theorem written_nil : written m a [] = m := by
  funext x
  exact if_neg (Nat.not_lt_zero _)

theorem written_outside (outside : ¬Covers a t.length x) : written m a t x = m x := if_neg outside

theorem written_inside (less : n < t.length) (small : t.length ≤ 2 ^ 32) :
    written m a t (a + BitVec.ofNat 32 n) = t[n] := by
  have place : (a + BitVec.ofNat 32 n - a).toNat = n := by
    rw [BitVec.add_comm, BitVec.add_sub_cancel, BitVec.toNat_ofNat, Nat.mod_eq_of_lt (by omega)]
  refine (if_pos (covers_add less small)).trans ?_
  rw [place, List.getD_eq_getElem?_getD, List.getElem?_eq_getElem less, Option.getD_some]

theorem written_cons (small : t.length < 2 ^ 32) : written m a (c :: t) = written (setByte m a c) (a + 1) t := by
  funext x
  unfold written setByte
  by_cases first : x = a
  · subst x
    have outside : ¬Covers (a + 1) t.length a := by
      unfold Covers
      bv_omega
    rw [if_neg outside, if_pos rfl, if_pos (by unfold Covers; simp), BitVec.sub_self]
    rfl
  · have next : (x - a).toNat = (x - (a + 1)).toNat + 1 := by bv_omega
    have same : Covers a (t.length + 1) x ↔ Covers (a + 1) t.length x := by
      unfold Covers
      rw [next]
      exact Nat.add_lt_add_iff_right
    rw [if_neg first, List.length_cons]
    by_cases inside : Covers (a + 1) t.length x
    · rw [if_pos (same.mpr inside), if_pos inside, next, List.getD_cons_succ]
    · rw [if_neg fun here => inside (same.mp here), if_neg inside]

theorem written_append (small : t.length + u.length ≤ 2 ^ 32) :
    written m a (t ++ u) = written (written m a t) (a + BitVec.ofNat 32 t.length) u := by
  induction t generalizing m a with
  | nil => rw [List.nil_append, written_nil, List.length_nil, BitVec.add_zero]
  | cons c t ih =>
    rw [List.length_cons] at small ⊢
    rw [List.cons_append, written_cons (by rw [List.length_append]; omega), ih (by omega),
      written_cons (t := t) (by omega)]
    have place : a + 1 + BitVec.ofNat 32 t.length = a + BitVec.ofNat 32 (t.length + 1) := by
      rw [BitVec.add_assoc, Nat.add_comm, BitVec.ofNat_add]
      rfl
    rw [place]

theorem written_one : written m a [c] = setByte m a c := by rw [written_cons (by decide), written_nil]

@[simp] theorem puts_nil : s.puts [] = s := rfl

theorem puts_cons : s.puts (c :: t) = (s.put c).puts t := rfl

theorem puts_append : s.puts (t ++ u) = (s.puts t).puts u := List.foldl_append

@[simp] theorem puts_last : (s.puts t).last = s.last := by
  induction t generalizing s with
  | nil => rfl
  | cons c t ih => rw [puts_cons, ih, Sink.put]

theorem puts_str : (s.puts t).str = s.str + BitVec.ofNat 32 t.length := by
  induction t generalizing s with
  | nil => exact (BitVec.add_zero _).symm
  | cons c t ih =>
    rw [puts_cons, ih, List.length_cons, Nat.add_comm, BitVec.ofNat_add, ← BitVec.add_assoc]
    rfl

/-- As long as the addresses do not wrap around, the text is in memory as far as it may be. -/
theorem puts_memory (room : s.str.toNat + t.length ≤ 2 ^ 32) :
    (s.puts t).memory = written s.memory s.str (t.take (s.last.toNat + 1 - s.str.toNat)) := by
  induction t generalizing s with
  | nil => rw [puts_nil, List.take_nil, written_nil]
  | cons c t ih =>
    rw [List.length_cons] at room
    rw [puts_cons]
    cases t with
    | nil =>
      change (if s.str ≤ s.last then setByte s.memory s.str c else s.memory) = _
      split
      · next may =>
        have least : s.str.toNat ≤ s.last.toNat := may
        rw [List.take_of_length_le (by rw [List.length_singleton]; omega), written_one]
      · next may =>
        have less : s.last.toNat < s.str.toNat := Nat.lt_of_not_le may
        rw [show s.last.toNat + 1 - s.str.toNat = 0 by omega, List.take_zero, written_nil]
    | cons d t =>
      have next : (s.put c).str.toNat = s.str.toNat + 1 := by
        rw [List.length_cons] at room
        change (s.str + 1#32).toNat = _
        bv_omega
      rw [ih (by rw [next]; omega), next]
      change written (if s.str ≤ s.last then setByte s.memory s.str c else s.memory) (s.str + 1)
        ((d :: t).take (s.last.toNat + 1 - (s.str.toNat + 1))) = _
      split
      · next may =>
        have least : s.str.toNat ≤ s.last.toNat := may
        rw [show s.last.toNat + 1 - s.str.toNat = s.last.toNat + 1 - (s.str.toNat + 1) + 1 by omega,
          List.take_succ_cons, written_cons]
        have shorter := List.length_take_le (s.last.toNat + 1 - (s.str.toNat + 1)) (d :: t)
        omega
      · next may =>
        have less : s.last.toNat < s.str.toNat := Nat.lt_of_not_le may
        rw [show s.last.toNat + 1 - s.str.toNat = 0 by omega, show s.last.toNat + 1 - (s.str.toNat + 1) = 0 by omega,
          List.take_zero, List.take_zero, written_nil, written_nil]

end sinks

end Sinks
