import Mathlib.Logic.Function.Iterate

/-! Runs of a transition system and the induction rules for them: a step relates a state, a label and the state after it.
Behind them machines that take one step after another, and stay where a step changes nothing. -/
namespace Runs

variable {σ : Type u} {ι : Type v} {step : σ → ι → σ → Prop}

/-- The states joined by a sequence of labelled steps. -/
inductive Run (step : σ → ι → σ → Prop) : σ → List ι → σ → Prop
  | done (s : σ) : Run step s [] s
  | next {s t u : σ} {i : ι} {is : List ι} : step s i t → Run step t is u → Run step s (i :: is) u

theorem Run.invariant {I : σ → Prop} (kept : ∀ {s i t}, I s → step s i t → I t)
    {s t : σ} {is : List ι} (run : Run step s is t) (initial : I s) : I t := by
  induction run with
  | done => exact initial
  | next first _ ih => exact ih (kept initial first)

/-- An invariant that the steps with labels of one kind keep. -/
theorem Run.invariant_on {I : σ → Prop} {P : ι → Prop} (kept : ∀ {s i t}, P i → I s → step s i t → I t)
    {s t : σ} {is : List ι} (run : Run step s is t) (labels : ∀ i ∈ is, P i) (initial : I s) : I t := by
  induction run with
  | done => exact initial
  | next first _ ih =>
    exact ih (fun i member => labels i (List.mem_cons_of_mem _ member))
      (kept (labels _ List.mem_cons_self) initial first)

theorem Run.append {s t u : σ} {is js : List ι} (front : Run step s is t) (back : Run step t js u) :
    Run step s (is ++ js) u := by
  induction front with
  | done => exact back
  | next first _ ih => exact .next first (ih back)

theorem Run.split {s u : σ} (is : List ι) {js : List ι} (run : Run step s (is ++ js) u) :
    ∃ t, Run step s is t ∧ Run step t js u := by
  induction is generalizing s with
  | nil => exact ⟨s, .done s, run⟩
  | cons i is ih =>
    cases run with
    | next first rest =>
      obtain ⟨t, front, back⟩ := ih rest
      exact ⟨t, .next first front, back⟩

/-- Steps of a weaker relation carry the same labels between the same states. -/
theorem Run.mono {other : σ → ι → σ → Prop} (weaker : ∀ {s i t}, step s i t → other s i t)
    {s t : σ} {is : List ι} (run : Run step s is t) : Run other s is t := by
  induction run with
  | done => exact .done _
  | next first _ ih => exact .next (weaker first) ih

/-- A relation that every step carries over to another system relates whole runs of the two. -/
theorem Run.simulation {τ : Type w} {other : τ → ι → τ → Prop} {R : σ → τ → Prop}
    (simulates : ∀ {s i t v}, R s v → step s i t → ∃ w, other v i w ∧ R t w)
    {s t : σ} {is : List ι} (run : Run step s is t) {v : τ} (related : R s v) : ∃ w, Run other v is w ∧ R t w := by
  induction run generalizing v with
  | done => exact ⟨v, .done v, related⟩
  | next first _ ih =>
    obtain ⟨u, step, here⟩ := simulates related first
    obtain ⟨w, rest, there⟩ := ih here
    exact ⟨w, .next step rest, there⟩

/-- A run of steps that a partial function computes. -/
def exec (f : σ → ι → Option σ) : σ → List ι → Option σ
  | s, [] => some s
  | s, i :: is => (f s i).bind fun t => exec f t is

theorem exec_run {f : σ → ι → Option σ} {s t : σ} {is : List ι} :
    exec f s is = some t ↔ Run (fun s i t => f s i = some t) s is t := by
  induction is generalizing s with
  | nil =>
    constructor
    · intro h
      cases Option.some.inj h
      exact .done _
    · intro run
      cases run
      rfl
  | cons i is ih =>
    simp only [exec, Option.bind_eq_some_iff]
    constructor
    · rintro ⟨u, first, rest⟩
      exact .next first (ih.mp rest)
    · intro run
      cases run with
      | next first rest => exact ⟨_, first, ih.mpr rest⟩

/-- The steps whose starting state and label meet a condition. -/
def Guarded (guard : σ → ι → Prop) (step : σ → ι → σ → Prop) : σ → ι → σ → Prop :=
  fun s i t => guard s i ∧ step s i t

/-- The steps of a partial function that meet a condition, as a partial function. -/
def guarded (guard : σ → ι → Prop) [∀ s i, Decidable (guard s i)] (f : σ → ι → Option σ) : σ → ι → Option σ :=
  fun s i => if guard s i then f s i else none

theorem guarded_run {guard : σ → ι → Prop} [∀ s i, Decidable (guard s i)] {f : σ → ι → Option σ}
    {s t : σ} {is : List ι} (run : exec (guarded guard f) s is = some t) :
    Run (Guarded guard fun s i t => f s i = some t) s is t := by
  refine (exec_run.mp run).mono ?_
  intro s i t step
  by_cases holds : guard s i
  · exact ⟨holds, by simpa [guarded, holds] using step⟩
  · simp [guarded, holds] at step

theorem exec_append {f : σ → ι → Option σ} {s : σ} {is js : List ι} :
    exec f s (is ++ js) = (exec f s is).bind fun t => exec f t js := by
  induction is generalizing s with
  | nil => rfl
  | cons i is ih => simp only [List.cons_append, exec, ih, Option.bind_assoc]

/-- The steps of another system that the steps of a run stand for, one after another. -/
def trace {κ : Type w} (f : σ → ι → Option σ) (labels : σ → ι → List κ) : σ → List ι → List κ
  | _, [] => []
  | s, i :: is =>
    match f s i with
    | some t => labels s i ++ trace f labels t is
    | none => labels s i

/-- Where every step is matched by the steps that it stands for, so is every run. -/
theorem exec_simulation {τ : Type w} {κ : Type x} {f : σ → ι → Option σ} {g : τ → κ → Option τ} {R : σ → τ → Prop}
    {guard : σ → ι → Prop} {labels : σ → ι → List κ}
    (simulates : ∀ {s i t v}, R s v → guard s i → f s i = some t → ∃ w, exec g v (labels s i) = some w ∧ R t w)
    {s t : σ} {is : List ι} (run : Run (Guarded guard fun s i t => f s i = some t) s is t) {v : τ} (related : R s v) :
    ∃ w, exec g v (trace f labels s is) = some w ∧ R t w := by
  induction run generalizing v with
  | done => exact ⟨v, rfl, related⟩
  | next first _ ih =>
    obtain ⟨u, steps, here⟩ := simulates related first.1 first.2
    obtain ⟨w, rest, there⟩ := ih here
    refine ⟨w, ?_, there⟩
    rw [trace, first.2]
    exact exec_append.trans (by rw [steps]; exact rest)

end Runs

namespace Machine

variable {σ : Type u} {step : σ → σ} {s t u : σ}

/-- So many steps lead from one state to the other. -/
def Reaches (step : σ → σ) (s t : σ) : Prop := ∃ n, step^[n] s = t

theorem Reaches.refl (s : σ) : Reaches step s s := ⟨0, rfl⟩

/-- The states after the first step are reached from the start. -/
theorem Reaches.head (rest : Reaches step (step s) t) : Reaches step s t := by
  obtain ⟨n, here⟩ := rest
  exact ⟨n + 1, here⟩

theorem Reaches.trans (front : Reaches step s t) (back : Reaches step t u) : Reaches step s u := by
  obtain ⟨n, rfl⟩ := front
  obtain ⟨k, rfl⟩ := back
  exact ⟨k + n, Function.iterate_add_apply step k n s⟩

/-- A state that a step does not change is the last one. -/
theorem iterate_final (final : step t = t) (n : Nat) : step^[n] t = t := Function.iterate_fixed final n

theorem Reaches.unique (first : Reaches step s t) (other : Reaches step s u) (final : step t = t)
    (final' : step u = u) : t = u := by
  obtain ⟨n, here⟩ := first
  obtain ⟨k, there⟩ := other
  have left : step^[k + n] s = t := by
    rw [Function.iterate_add_apply, here, iterate_final final]
  have right : step^[n + k] s = u := by
    rw [Function.iterate_add_apply, there, iterate_final final']
  rw [← left, ← right, Nat.add_comm]

/-- A measure that every step lowers before the end makes the run end. -/
theorem ends {I final : σ → Prop} (μ : σ → Nat) (kept : ∀ s, I s → I (step s))
    (lower : ∀ s, I s → ¬final s → μ (step s) < μ s) (initial : I s) : ∃ n, final (step^[n] s) := by
  generalize bound : μ s = b
  induction b using Nat.strongRecOn generalizing s with
  | ind b ih =>
    by_cases done : final s
    · exact ⟨0, done⟩
    · have less := lower s initial done
      rw [bound] at less
      obtain ⟨n, here⟩ := ih _ less (kept s initial) rfl
      exact ⟨n + 1, here⟩

end Machine
