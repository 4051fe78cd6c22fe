import Mathlib.Data.Set.Insert

/-! A heap seen by its clients: which blocks are in use, and how the calls change that. -/
namespace Gr8os.Ex

/-- ExAllocateHeap answers with a block that was not in use, or with none. -/
structure KernelHeap (H : Type) where
  live : H → Set Nat
  exAllocateHeap : H → BitVec 32 → Option (Nat × H)
  exFreeHeap : H → Nat → H
  fresh : ∀ {h h' size a}, exAllocateHeap h size = some (a, h') → a ∉ live h
  allocated : ∀ {h h' size a}, exAllocateHeap h size = some (a, h') → live h' = insert a (live h)
  freed : ∀ {h a}, a ∈ live h → live (exFreeHeap h a) = live h \ {a}

/-- A heap that hands out one address after the other. -/
structure Bump where
  next : Nat
  blocks : List Nat
  below : ∀ a ∈ blocks, a < next

/-- Blocks up to some size fit. -/
def bumpHeap (largest : BitVec 32) : KernelHeap Bump where
  live h := {a | a ∈ h.blocks}
  exAllocateHeap h size :=
    if size ≤ largest then
      some (h.next, {
        next := h.next + 1
        blocks := h.next :: h.blocks
        below := by
          intro a member
          rcases List.mem_cons.mp member with rfl | older
          · exact Nat.lt_succ_self _
          · exact Nat.lt_succ_of_lt (h.below a older) })
    else none
  exFreeHeap h a :=
    { h with blocks := h.blocks.filter (· ≠ a), below := fun b member => h.below b (List.mem_filter.mp member |>.1) }
  fresh := by
    intro h h' size a answer inUse
    split at answer
    · cases Option.some.inj answer
      exact absurd (h.below _ inUse) (Nat.lt_irrefl _)
    · exact absurd answer (by simp)
  allocated := by
    intro h h' size a answer
    split at answer
    · cases Option.some.inj answer
      ext b
      simp
    · exact absurd answer (by simp)
  freed := by
    intro h a _
    ext b
    simp

end Gr8os.Ex
