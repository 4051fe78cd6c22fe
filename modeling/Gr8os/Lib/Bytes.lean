/-! Bytes as functions of an address: stretches that are overwritten and copied. -/
namespace Bytes

/-- The memory that begins at some address. -/
abbrev Buffer := Nat → BitVec 8

/-- A buffer with the bytes from one address up to another replaced. -/
def fill (b : Buffer) (start stop : Nat) (f : Nat → BitVec 8) : Buffer :=
  fun k => if start ≤ k ∧ k < stop then f k else b k

theorem fill_inside {b : Buffer} {start stop k : Nat} {f : Nat → BitVec 8} (above : start ≤ k) (below : k < stop) :
    fill b start stop f k = f k := if_pos ⟨above, below⟩

theorem fill_outside {b : Buffer} {start stop k : Nat} {f : Nat → BitVec 8} (outside : k < start ∨ stop ≤ k) :
    fill b start stop f k = b k := by
  apply if_neg
  intro inside
  omega

theorem fill_empty (b : Buffer) (start : Nat) (f : Nat → BitVec 8) : fill b start start f = b := by
  funext k
  apply fill_outside
  omega

theorem fill_congr {b : Buffer} {start stop : Nat} {f g : Nat → BitVec 8}
    (same : ∀ k, start ≤ k → k < stop → f k = g k) : fill b start stop f = fill b start stop g := by
  funext k
  unfold fill
  split
  · exact same k ‹_ ∧ _›.1 ‹_ ∧ _›.2
  · rfl

theorem fill_fill {b : Buffer} {start middle stop : Nat} {f : Nat → BitVec 8} (below : start ≤ middle)
    (above : middle ≤ stop) : fill (fill b start middle f) middle stop f = fill b start stop f := by
  funext k
  by_cases first : k < middle
  · rw [fill_outside (Or.inl first)]
    unfold fill
    congr 1
    simp only [first, Nat.lt_of_lt_of_le first above]
  · unfold fill
    have : middle ≤ k := Nat.le_of_not_gt first
    simp [first, this, Nat.le_trans below this]

/-- The C library's copy of n bytes between two buffers, each with an offset. -/
def memcpy (dst : Buffer) (d : Nat) (src : Buffer) (s n : Nat) : Buffer :=
  fill dst d (d + n) fun k => src (s + (k - d))

theorem memcpy_inside {dst src : Buffer} {d s n k : Nat} (above : d ≤ k) (below : k < d + n) :
    memcpy dst d src s n k = src (s + (k - d)) := fill_inside above below

theorem memcpy_outside {dst src : Buffer} {d s n k : Nat} (outside : k < d ∨ d + n ≤ k) :
    memcpy dst d src s n k = dst k := fill_outside outside

theorem memcpy_zero (dst : Buffer) (d : Nat) (src : Buffer) (s : Nat) : memcpy dst d src s 0 = dst :=
  fill_empty dst d _

theorem memcpy_congr {dst src other : Buffer} {d s s' n : Nat}
    (same : ∀ j, j < n → src (s + j) = other (s' + j)) : memcpy dst d src s n = memcpy dst d other s' n := by
  apply fill_congr
  intro k above below
  exact same (k - d) (by omega)

/-- A copy changes nothing if the bytes are there already, and only then. -/
theorem memcpy_eq_self_iff {dst src : Buffer} {d s n : Nat} :
    memcpy dst d src s n = dst ↔ ∀ j < n, dst (d + j) = src (s + j) := by
  constructor
  · intro same j below
    have index : s + (d + j - d) = s + j := by omega
    rw [← congrFun same (d + j), memcpy_inside (Nat.le_add_right d j) (Nat.add_lt_add_left below d), index]
  · intro there
    funext k
    by_cases inside : d ≤ k ∧ k < d + n
    · have index : d + (k - d) = k := by omega
      have here := there (k - d) (by omega)
      rw [memcpy_inside inside.1 inside.2, ← here, index]
    · exact memcpy_outside (by omega)

theorem memcpy_memcpy {dst src : Buffer} {d s n m : Nat} :
    memcpy (memcpy dst d src s n) (d + n) src (s + n) m = memcpy dst d src s (n + m) := by
  unfold memcpy
  rw [← Nat.add_assoc, ← fill_fill (Nat.le_add_right d n) (Nat.le_add_right (d + n) m)]
  apply fill_congr
  intro k above _
  have index : s + n + (k - (d + n)) = s + (k - d) := by omega
  rw [index]

end Bytes
