/-! Pieces that follow each other without a gap from one end of an interval to the other. -/
namespace Tiling

variable {α : Type u} {start stop : α → Nat}

def Tiles (start stop : α → Nat) : Nat → List α → Nat → Prop
  | lo, [], hi => lo = hi
  | lo, a :: as, hi => start a = lo ∧ Tiles start stop (stop a) as hi

theorem tiles_append {as bs : List α} {lo hi : Nat} :
    Tiles start stop lo (as ++ bs) hi ↔ ∃ mid, Tiles start stop lo as mid ∧ Tiles start stop mid bs hi := by
  induction as generalizing lo with
  | nil =>
    constructor
    · exact fun tiles => ⟨lo, rfl, tiles⟩
    · rintro ⟨mid, rfl, tiles⟩
      exact tiles
  | cons a as ih =>
    constructor
    · rintro ⟨begins, rest⟩
      obtain ⟨mid, front, back⟩ := ih.mp rest
      exact ⟨mid, ⟨begins, front⟩, back⟩
    · rintro ⟨mid, ⟨begins, front⟩, back⟩
      exact ⟨begins, ih.mpr ⟨mid, front, back⟩⟩

/-- No piece reaches back before its start. -/
def Forward (start stop : α → Nat) : Prop := ∀ a, start a < stop a

section forward

variable (forward : Forward start stop)

include forward

theorem tiles_le {as : List α} {lo hi : Nat} (tiles : Tiles start stop lo as hi) : lo + as.length ≤ hi := by
  induction as generalizing lo with
  | nil => exact Nat.le_of_eq tiles
  | cons a as ih =>
    obtain ⟨begins, rest⟩ := tiles
    have here := forward a
    have there := ih rest
    rw [List.length_cons]
    omega

theorem tiles_mem {as : List α} {lo hi : Nat} (tiles : Tiles start stop lo as hi) {a : α} (member : a ∈ as) :
    lo ≤ start a ∧ stop a ≤ hi := by
  obtain ⟨front, back, rfl⟩ := List.append_of_mem member
  obtain ⟨mid, before, begins, after⟩ := tiles_append.mp tiles
  have low := tiles_le forward before
  have high := tiles_le forward after
  omega

/-- The pieces in front of an interval end before it, and those behind it start after it. -/
theorem tiles_outside {as cs : List α} {lo hi leave enter : Nat} (front : Tiles start stop lo as leave)
    (back : Tiles start stop enter cs hi) {a : α} (member : a ∈ as ++ cs) : stop a ≤ leave ∨ enter ≤ start a := by
  rcases List.mem_append.mp member with before | after
  · exact .inl (tiles_mem forward front before).2
  · exact .inr (tiles_mem forward back after).1

theorem tiles_inj {as : List α} {lo hi : Nat} (tiles : Tiles start stop lo as hi) {a b : α} (one : a ∈ as)
    (other : b ∈ as) (together : start a = start b) : a = b := by
  induction as generalizing lo with
  | nil => contradiction
  | cons c as ih =>
    obtain ⟨begins, rest⟩ := tiles
    have here := forward c
    have beyond : ∀ d ∈ as, stop c ≤ start d := fun d inside => (tiles_mem forward rest inside).1
    rcases List.mem_cons.mp one with same | inside
    · rcases List.mem_cons.mp other with same' | inside'
      · rw [same, same']
      · have apart := beyond b inside'
        rw [same] at together
        omega
    · rcases List.mem_cons.mp other with same' | inside'
      · have apart := beyond a inside
        rw [same'] at together
        omega
      · exact ih rest inside inside'

end forward

end Tiling
