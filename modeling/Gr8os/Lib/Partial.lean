/-! What a partial computation ends in, when it ends. -/
namespace Partial

variable {α : Type u} {β : Type v} {P Q : α → Prop}

structure Ends (r : Option α) (P : α → Prop) : Prop where
  of_eq : ∀ {a}, r = some a → P a

theorem Ends.none : Ends none P where
  of_eq h := absurd h (by simp)

theorem Ends.some {a : α} (holds : P a) : Ends (some a) P where
  of_eq h := Option.some.inj h ▸ holds

theorem Ends.bind {R : β → Prop} {r : Option α} {f : α → Option β} (first : Ends r P)
    (rest : ∀ a, P a → Ends (f a) R) : Ends (r.bind f) R where
  of_eq h := by
    obtain ⟨a, here, there⟩ := Option.bind_eq_some_iff.mp h
    exact (rest a (first.of_eq here)).of_eq there

theorem Ends.ite {c : Prop} [Decidable c] {r r' : Option α} (yes : c → Ends r P) (no : ¬ c → Ends r' P) :
    Ends (if c then r else r') P := by
  split
  · exact yes ‹_›
  · exact no ‹_›

theorem Ends.mono {r : Option α} (h : Ends r P) (weaker : ∀ a, P a → Q a) : Ends r Q where
  of_eq ends := weaker _ (h.of_eq ends)

end Partial
