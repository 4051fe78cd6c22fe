/-! The first run of equal leaders in a line, unless something that stops the search comes before it. -/
namespace FirstRun

variable {α : Type u}

/-- No run of k equal leaders begins here. -/
def NoRun (leader : α → Prop) (k : Nat) (line : List α) : Prop :=
  ∀ a rest, leader a → line ≠ List.replicate k a ++ rest

/-- The first run of k equal leaders, what it consists of and what follows it. -/
inductive Found (leader stop : α → Prop) (k : Nat) : List α → α → List α → Prop
  | here {a : α} {rest : List α} (leads : leader a) : Found leader stop k (List.replicate k a ++ rest) a rest
  | later {e a : α} {line rest : List α} (quiet : ¬stop e) (none : NoRun leader k (e :: line)) :
      Found leader stop k line a rest → Found leader stop k (e :: line) a rest

/-- Something stops the search before there has been a run. -/
inductive Stopped (leader stop : α → Prop) (k : Nat) : List α → α → List α → Prop
  | here {e : α} {rest : List α} (stops : stop e) : Stopped leader stop k (e :: rest) e rest
  | later {e a : α} {line rest : List α} (quiet : ¬stop e) (none : NoRun leader k (e :: line)) :
      Stopped leader stop k line a rest → Stopped leader stop k (e :: line) a rest

variable {leader stop : α → Prop} {k i : Nat} {e p a b : α} {line rest rest' : List α}

theorem found_cons_iff (quiet : ¬stop e) (none : NoRun leader k (e :: line)) :
    Found leader stop k (e :: line) a rest ↔ Found leader stop k line a rest := by
  constructor
  · intro found
    generalize whole : e :: line = l at found
    cases found with
    | here leads => exact absurd whole (none a rest leads)
    | later _ _ tail =>
      obtain ⟨rfl, rfl⟩ := List.cons.inj whole
      exact tail
  · exact Found.later quiet none

theorem stopped_cons_iff (quiet : ¬stop e) (none : NoRun leader k (e :: line)) :
    Stopped leader stop k (e :: line) a rest ↔ Stopped leader stop k line a rest := by
  constructor
  · intro stopped
    cases stopped with
    | here stops => exact absurd stops quiet
    | later _ _ tail => exact tail
  · exact Stopped.later quiet none

theorem noRun_nonleader (positive : 0 < k) (other : ¬leader e) : NoRun leader k (e :: line) := by
  intro a rest leads same
  obtain ⟨n, rfl⟩ := Nat.exists_eq_add_of_lt positive
  rw [Nat.zero_add, List.replicate_succ, List.cons_append] at same
  exact other ((List.cons.inj same).1 ▸ leads)

/-- A shorter run that something else ends is no run. -/
theorem noRun_short (few : i + 1 < k) (other : e ≠ p) :
    NoRun leader k (p :: (List.replicate i p ++ e :: line)) := by
  intro a rest _ same
  have first := congrArg (fun l => l[0]?) same
  have next := congrArg (fun l => l[i + 1]?) same
  have copies : (List.replicate k a ++ rest)[i + 1]? = some a := by
    rw [List.getElem?_append_left (by simpa using few), List.getElem?_replicate, if_pos few]
  have start : (List.replicate k a ++ rest)[0]? = some a := by
    rw [List.getElem?_append_left (by simp; omega), List.getElem?_replicate, if_pos (by omega)]
  have ended : (p :: (List.replicate i p ++ e :: line))[i + 1]? = some e := by
    rw [List.getElem?_cons_succ, List.getElem?_append_right (by simp)]
    simp
  simp only [copies, start, ended, List.getElem?_cons_zero, Option.some.injEq] at first next
  exact other (next.trans first.symm)

/-- What follows a run that is too short is searched as if the run were not there. -/
theorem found_skip (quiet : i ≠ 0 → ¬stop p) (few : i < k) (other : e ≠ p) :
    Found leader stop k (List.replicate i p ++ e :: line) a rest ↔ Found leader stop k (e :: line) a rest := by
  induction i with
  | zero => rfl
  | succ i ih =>
    rw [List.replicate_succ, List.cons_append, found_cons_iff (quiet (Nat.succ_ne_zero i)) (noRun_short few other)]
    exact ih (fun _ => quiet (Nat.succ_ne_zero i)) (by omega)

theorem stopped_skip (quiet : i ≠ 0 → ¬stop p) (few : i < k) (other : e ≠ p) :
    Stopped leader stop k (List.replicate i p ++ e :: line) a rest ↔ Stopped leader stop k (e :: line) a rest := by
  induction i with
  | zero => rfl
  | succ i ih =>
    rw [List.replicate_succ, List.cons_append, stopped_cons_iff (quiet (Nat.succ_ne_zero i)) (noRun_short few other)]
    exact ih (fun _ => quiet (Nat.succ_ne_zero i)) (by omega)

theorem not_found_of_stop (positive : 0 < k) (stops : stop e) (other : ¬leader e) :
    ¬Found leader stop k (e :: line) a rest := by
  intro found
  generalize whole : e :: line = l at found
  cases found with
  | here leads => exact noRun_nonleader positive other _ _ leads whole
  | later quiet _ _ =>
    obtain ⟨rfl, _⟩ := List.cons.inj whole
    exact quiet stops

theorem stopped_of_stop (stops : stop e) :
    Stopped leader stop k (e :: line) a rest ↔ a = e ∧ rest = line := by
  constructor
  · intro stopped
    cases stopped with
    | here => exact ⟨rfl, rfl⟩
    | later quiet _ _ => exact absurd stops quiet
  · rintro ⟨rfl, rfl⟩
    exact .here stops

theorem replicate_append_inj (positive : 0 < k) (same : List.replicate k a ++ rest = List.replicate k b ++ rest') :
    a = b ∧ rest = rest' := by
  obtain ⟨runs, rests⟩ := List.append_inj same (by simp)
  exact ⟨(List.replicate_inj.mp runs).2.resolve_left (by omega), rests⟩

theorem found_run (positive : 0 < k) (leads : leader p) :
    Found leader stop k (List.replicate k p ++ line) a rest ↔ a = p ∧ rest = line := by
  constructor
  · intro found
    generalize whole : List.replicate k p ++ line = l at found
    cases found with
    | here _ =>
      obtain ⟨rfl, rfl⟩ := replicate_append_inj positive whole
      exact ⟨rfl, rfl⟩
    | later _ none _ => exact absurd whole.symm (none p line leads)
  · rintro ⟨rfl, rfl⟩
    exact .here leads

theorem not_stopped_run (leads : leader p) (positive : 0 < k) (quiet : ¬stop p) :
    ¬Stopped leader stop k (List.replicate k p ++ line) a rest := by
  intro stopped
  generalize whole : List.replicate k p ++ line = l at stopped
  cases stopped with
  | here stops =>
    obtain ⟨n, rfl⟩ := Nat.exists_eq_add_of_lt positive
    rw [Nat.zero_add, List.replicate_succ, List.cons_append] at whole
    exact quiet ((List.cons.inj whole).1 ▸ stops)
  | later _ none _ => exact none p line leads whole.symm

theorem not_found_short (few : line.length < k) : ¬Found leader stop k line a rest := by
  intro found
  induction found with
  | here =>
    rw [List.length_append, List.length_replicate] at few
    omega
  | later _ _ _ ih => exact ih (Nat.lt_of_succ_lt few)

theorem not_stopped_quiet (quiet : ∀ e ∈ line, ¬stop e) : ¬Stopped leader stop k line a rest := by
  intro stopped
  induction stopped with
  | here stops => exact quiet _ List.mem_cons_self stops
  | later _ _ _ ih => exact ih fun e member => quiet e (List.mem_cons_of_mem _ member)

/-- The first run, by where it stands: nothing before it stops the search, and no other run begins before it. -/
theorem found_iff : Found leader stop k line a rest ↔
    ∃ before, line = before ++ List.replicate k a ++ rest ∧ leader a ∧ (∀ e ∈ before, ¬stop e) ∧
      ∀ before' a' rest', line = before' ++ List.replicate k a' ++ rest' → leader a' → before.length ≤ before'.length := by
  constructor
  · intro found
    induction found with
    | here leads => exact ⟨[], rfl, leads, List.forall_mem_nil _, fun _ _ _ _ _ => Nat.zero_le _⟩
    | @later e a line rest quiet none _ ih =>
      obtain ⟨before, rfl, leads, calm, least⟩ := ih
      refine ⟨e :: before, rfl, leads, List.forall_mem_cons.mpr ⟨quiet, calm⟩, ?_⟩
      intro before' a' rest' same leads'
      cases before' with
      | nil => exact absurd same (none a' rest' leads')
      | cons e' before' => exact Nat.succ_le_succ (least before' a' rest' (List.cons.inj same).2 leads')
  · rintro ⟨before, rfl, leads, calm, least⟩
    induction before with
    | nil => exact .here leads
    | cons e before ih =>
      obtain ⟨quiet, calm⟩ := List.forall_mem_cons.mp calm
      refine .later quiet ?_ (ih calm ?_)
      · intro a' rest' leads' same
        exact absurd (least [] a' rest' same leads') (Nat.not_succ_le_zero _)
      · intro before' a' rest' same leads'
        have whole : e :: before ++ List.replicate k a ++ rest = e :: before' ++ List.replicate k a' ++ rest' :=
          congrArg (List.cons e) same
        exact Nat.le_of_succ_le_succ (least (e :: before') a' rest' whole leads')

end FirstRun
