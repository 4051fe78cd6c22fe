import Mathlib.Logic.Function.Basic

/-! Following links upward until a node that has none. -/
namespace Climb

variable {α : Type u} {up : α → Option α} {a b t u : α}

/-- The way up from a node ends at a node without a link. -/
inductive Climbs (up : α → Option α) : α → α → Prop
  | top {a : α} (none : up a = none) : Climbs up a a
  | step {a b t : α} (link : up a = some b) (rest : Climbs up b t) : Climbs up a t

theorem Climbs.ends (climbs : Climbs up a t) : up t = none := by
  induction climbs with
  | top none => exact none
  | step _ _ ih => exact ih

theorem Climbs.unique (climbs : Climbs up a t) (other : Climbs up a u) : t = u := by
  induction climbs with
  | top none =>
    cases other with
    | top => rfl
    | step link => exact absurd (none.symm.trans link) (by simp)
  | step link _ ih =>
    cases other with
    | top none => exact absurd (none.symm.trans link) (by simp)
    | step link' rest' =>
      cases Option.some.inj (link.symm.trans link')
      exact ih rest'

theorem Climbs.kept {P : α → Prop} (climbs : Climbs up a t) (closed : ∀ a b, P a → up a = some b → P b) (start : P a) :
    P t := by
  induction climbs with
  | top => exact start
  | step link _ ih => exact ih (closed _ _ start link)

theorem Climbs.congr {up' : α → Option α} (climbs : Climbs up a t) (same : ∀ x, up' x = up x) : Climbs up' a t :=
  (funext same : up' = up) ▸ climbs

section Update

variable [DecidableEq α]

/-- Ways that do not end at a node are not changed by a link put there. -/
theorem Climbs.apart (climbs : Climbs up a t) (free : up b = none) (other : t ≠ b) (v : Option α) :
    Climbs (Function.update up b v) a t := by
  induction climbs with
  | top none => exact .top ((Function.update_of_ne other _ _).trans none)
  | @step a c t link _ ih =>
    have different : a ≠ b := by
      rintro rfl
      exact absurd (free.symm.trans link) (by simp)
    exact .step ((Function.update_of_ne different _ _).trans link) (ih other)

/-- A link from the end of one way to the start of another joins the two. -/
theorem Climbs.join (climbs : Climbs up a b) (next : Climbs (Function.update up b (some u)) u t) :
    Climbs (Function.update up b (some u)) a t := by
  induction climbs with
  | top => exact .step (Function.update_self _ _ _) next
  | @step a c b link rest ih =>
    have different : a ≠ b := by
      rintro rfl
      exact absurd (rest.ends.symm.trans link) (by simp)
    exact .step ((Function.update_of_ne different _ _).trans link) (ih next)

/-- A way through a node whose link is taken off ends at that node or where it did before. -/
theorem Climbs.cut (climbs : Climbs up a t) (b : α) : ∃ u, Climbs (Function.update up b none) a u := by
  induction climbs with
  | @top a none =>
    refine ⟨a, .top ?_⟩
    rcases Decidable.em (a = b) with rfl | different
    · exact Function.update_self _ _ _
    · exact (Function.update_of_ne different _ _).trans none
  | @step a c t link _ ih =>
    rcases Decidable.em (a = b) with rfl | different
    · exact ⟨a, .top (Function.update_self _ _ _)⟩
    · obtain ⟨u, climbs⟩ := ih
      exact ⟨u, .step ((Function.update_of_ne different _ _).trans link) climbs⟩

/-- A link from the end of a way back to its start leaves no way up from there. -/
theorem Climbs.loop (climbs : Climbs up a b) (t : α) : ¬ Climbs (Function.update up b (some a)) a t := by
  have round : ∀ c, Climbs (Function.update up b (some a)) c t → ¬ Climbs up c b := by
    intro c way
    induction way with
    | @top c none =>
      intro below
      cases below with
      | top => exact absurd ((Function.update_self _ _ _).symm.trans none) (by simp)
      | step link rest =>
        have different : c ≠ b := by
          rintro rfl
          exact absurd (rest.ends.symm.trans link) (by simp)
        rw [Function.update_of_ne different, link] at none
        cases none
    | @step c d t link _ ih =>
      intro below
      cases below with
      | top =>
        rw [Function.update_self] at link
        cases Option.some.inj link
        exact ih climbs
      | step link' rest =>
        have different : c ≠ b := by
          rintro rfl
          exact absurd (rest.ends.symm.trans link') (by simp)
        rw [Function.update_of_ne different, link'] at link
        cases Option.some.inj link
        exact ih rest
  intro way
  exact round a way climbs

end Update

end Climb
