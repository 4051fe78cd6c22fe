import Mathlib.Data.List.Range

/-! Loops over a range of indices in which each pass edits the row of its own index. -/
namespace Sweep

variable {σ : Type u} {β : Type v} {body : σ → Nat → Option σ} {row : σ → Nat → β} {edit : Nat → β → β}
  {Keeps : σ → Prop} {first count : Nat}

/-- A pass at `i` ends, keeps what the loop relies on and edits row `i` alone. -/
def Edits (body : σ → Nat → Option σ) (row : σ → Nat → β) (edit : Nat → β → β) (Keeps : σ → Prop) (i : Nat) : Prop :=
  ∀ s, Keeps s → ∃ t, body s i = some t ∧ Keeps t ∧ ∀ j, row t j = if j = i then edit i (row s i) else row s j

theorem sweep (each : ∀ i, first ≤ i → i < first + count → Edits body row edit Keeps i) {s : σ} (keeps : Keeps s) :
    ∃ t, (List.range' first count).foldlM body s = some t ∧ Keeps t ∧
      ∀ j, row t j = if first ≤ j ∧ j < first + count then edit j (row s j) else row s j := by
  induction count generalizing first s with
  | zero =>
    refine ⟨s, rfl, keeps, fun j => ?_⟩
    rw [if_neg (by omega)]
  | succ count ih =>
    obtain ⟨u, run, keeps, edited⟩ := each first (Nat.le_refl _) (by omega) s keeps
    have later : ∀ i, first + 1 ≤ i → i < first + 1 + count → Edits body row edit Keeps i :=
      fun i low high => each i (by omega) (by omega)
    obtain ⟨t, rest, keeps, rows⟩ := ih later keeps
    refine ⟨t, ?_, keeps, fun j => ?_⟩
    · rw [List.range'_succ, List.foldlM_cons, run]
      exact rest
    · rw [rows, edited]
      rcases Nat.lt_trichotomy j first with before | rfl | after
      · rw [if_neg (by omega), if_neg (by omega), if_neg (by omega)]
      · rw [if_neg (by omega), if_pos rfl, if_pos (by omega)]
      · rw [if_neg (show j ≠ first by omega)]
        by_cases inside : j < first + (count + 1)
        · rw [if_pos (by omega), if_pos (by omega)]
        · rw [if_neg (by omega), if_neg (by omega)]

theorem foldlM_keeps {α : Type w} {field : σ → α} (each : ∀ {s t i}, body s i = some t → field t = field s)
    {indices : List Nat} {s t : σ} (run : indices.foldlM body s = some t) : field t = field s := by
  induction indices generalizing s with
  | nil => exact congrArg field (Option.some.inj run).symm
  | cons i indices ih =>
    rw [List.foldlM_cons] at run
    obtain ⟨u, here, rest⟩ := Option.bind_eq_some_iff.mp run
    exact (ih rest).trans (each here)

end Sweep
