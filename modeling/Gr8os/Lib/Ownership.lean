/-! Traces of the buffers that a program takes over, reads and frees. -/
namespace Ownership

inductive Event (β : Type u)
  | acquired (buffer : β)
  | read (buffer : β)
  | freed (buffer : β)
deriving DecidableEq, Repr

def Event.buffer : Event β → β
  | acquired b => b
  | read b => b
  | freed b => b

/-- Every buffer that is taken over is freed once. -/
def FreedOnce [DecidableEq β] (trace : List (Event β)) : Prop :=
  ∀ b, .acquired b ∈ trace → trace.count (.freed b) = 1

def NoReadAfterFree (trace : List (Event β)) : Prop :=
  trace.Pairwise fun earlier later => ∀ b, earlier = .freed b → later ≠ .read b

/-- One buffer at most is held. All others that were taken over were freed once, and none was read after that. -/
structure Owns [DecidableEq β] (trace : List (Event β)) (held : Option β) : Prop where
  released : ∀ b, .acquired b ∈ trace → held ≠ some b → trace.count (.freed b) = 1
  taken : ∀ b, held = some b → .acquired b ∈ trace
  unfreed : ∀ b, held = some b → .freed b ∉ trace
  noRead : NoReadAfterFree trace

/-- A trace may go on with whatever does not read what was freed. -/
theorem NoReadAfterFree.concat {trace : List (Event β)} {e : Event β} (before : NoReadAfterFree trace)
    (last : ∀ b, e = .read b → .freed b ∉ trace) : NoReadAfterFree (trace ++ [e]) := by
  refine List.pairwise_append.mpr ⟨before, List.pairwise_singleton _ _, ?_⟩
  rintro earlier member later final b rfl
  rw [List.mem_singleton.mp final]
  exact fun reads => last b reads member

namespace Owns

variable [DecidableEq β] {trace : List (Event β)} {held : Option β} {b : β}

theorem nil : Owns ([] : List (Event β)) none where
  released _ member := absurd member List.not_mem_nil
  taken _ nothing := by cases nothing
  unfreed _ nothing := by cases nothing
  noRead := List.Pairwise.nil

theorem acquire (owns : Owns trace none) (fresh : ∀ e ∈ trace, e.buffer ≠ b) :
    Owns (trace ++ [.acquired b]) (some b) where
  released c member other := by
    rcases List.mem_append.mp member with before | last
    · simpa using owns.released c before (by simp)
    · cases List.mem_singleton.mp last
      exact absurd rfl other
  taken c same := by
    cases same
    simp
  unfreed c same := by
    cases same
    simpa using fun member => fresh _ member rfl
  noRead := owns.noRead.concat fun _ reads => by cases reads

theorem read (owns : Owns trace (some b)) : Owns (trace ++ [.read b]) (some b) where
  released c member other := by
    have before : .acquired c ∈ trace := by simpa using member
    simpa using owns.released c before other
  taken c same := List.mem_append_left _ (owns.taken c same)
  unfreed c same := by simpa using owns.unfreed c same
  noRead := by
    refine owns.noRead.concat fun c reads => ?_
    cases reads
    exact owns.unfreed b rfl

theorem free (owns : Owns trace (some b)) : Owns (trace ++ [.freed b]) none where
  released c member _ := by
    have before : .acquired c ∈ trace := by simpa using member
    rw [List.count_append]
    by_cases same : c = b
    · subst same
      rw [List.count_eq_zero.mpr (owns.unfreed c rfl)]
      simp
    · rw [owns.released c before (by simpa using Ne.symm same)]
      simp [Ne.symm same]
  taken c nothing := by cases nothing
  unfreed c nothing := by cases nothing
  noRead := owns.noRead.concat fun _ reads => by cases reads

/-- Where nothing is held any more, every buffer was freed once. -/
theorem freedOnce (owns : Owns trace none) : FreedOnce trace := fun b member => owns.released b member (by simp)

theorem freed_again (owns : Owns trace none) (member : .acquired b ∈ trace) :
    ¬FreedOnce (trace ++ [.freed b]) := by
  intro once
  have count := once b (List.mem_append_left _ member)
  rw [List.count_append, owns.released b member (by simp)] at count
  simp at count

end Owns

end Ownership
