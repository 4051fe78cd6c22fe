/-! Sequences that end at their first zero. -/
namespace ZeroTerminated

variable {β : Type u} [Zero β] [DecidableEq β]

/-- The index of the first zero from k on, among so many. -/
def lengthFrom (s : Nat → β) : Nat → Nat → Option Nat
  | 0, _ => none
  | bound + 1, k => if s k = 0 then some k else lengthFrom s bound (k + 1)

def length (bound : Nat) (s : Nat → β) : Option Nat := lengthFrom s bound 0

/-- The values before the first zero. -/
def text (bound : Nat) (s : Nat → β) : Option (List β) :=
  (length bound s).map fun n => (List.range n).map s

variable {s : Nat → β} {bound k n : Nat} {t : List β}

theorem lengthFrom_some (h : lengthFrom s bound k = some n) :
    k ≤ n ∧ n < k + bound ∧ s n = 0 ∧ ∀ j, k ≤ j → j < n → s j ≠ 0 := by
  induction bound generalizing k with
  | zero => cases h
  | succ bound ih =>
    unfold lengthFrom at h
    split at h
    · cases h
      exact ⟨Nat.le_refl _, by omega, ‹_›, fun j low high => absurd high (by omega)⟩
    · obtain ⟨low, high, zero, before⟩ := ih h
      refine ⟨by omega, by omega, zero, fun j least less => ?_⟩
      rcases Nat.eq_or_lt_of_le least with rfl | later
      · assumption
      · exact before j later less

theorem lengthFrom_of_zero (low : k ≤ n) (high : n < k + bound) (zero : s n = 0)
    (before : ∀ j, k ≤ j → j < n → s j ≠ 0) : lengthFrom s bound k = some n := by
  induction bound generalizing k with
  | zero => omega
  | succ bound ih =>
    unfold lengthFrom
    rcases Nat.eq_or_lt_of_le low with rfl | later
    · rw [if_pos zero]
    · rw [if_neg (before k (Nat.le_refl _) later)]
      exact ih later (by omega) fun j least less => before j (by omega) less

theorem lengthFrom_none (never : ∀ j, s j ≠ 0) : lengthFrom s bound k = none := by
  induction bound generalizing k with
  | zero => rfl
  | succ bound ih =>
    unfold lengthFrom
    rw [if_neg (never k)]
    exact ih

theorem length_some (h : length bound s = some n) : n < bound ∧ s n = 0 ∧ ∀ j < n, s j ≠ 0 := by
  obtain ⟨_, less, zero, before⟩ := lengthFrom_some h
  exact ⟨by omega, zero, fun j less => before j (Nat.zero_le _) less⟩

/-- A list without zeros ends where the zeros after it begin. -/
theorem length_getD (nonzero : ∀ c ∈ t, c ≠ 0) (room : t.length < bound) (same : ∀ j, s j = t.getD j 0) :
    length bound s = some t.length := by
  apply lengthFrom_of_zero (Nat.zero_le _) (by omega)
  · rw [same, List.getD_eq_getElem?_getD, List.getElem?_eq_none (Nat.le_refl _), Option.getD_none]
  · intro j _ less
    rw [same, List.getD_eq_getElem?_getD, List.getElem?_eq_getElem less, Option.getD_some]
    exact nonzero _ (List.getElem_mem less)

theorem text_some (h : text bound s = some t) : t.length < bound ∧ ∀ c ∈ t, c ≠ 0 := by
  obtain ⟨n, here, rfl⟩ := Option.map_eq_some_iff.mp h
  obtain ⟨less, _, before⟩ := length_some here
  refine ⟨by simpa using less, fun c member => ?_⟩
  obtain ⟨j, inside, rfl⟩ := List.mem_map.mp member
  exact before j (List.mem_range.mp inside)

/-- The text of a sequence is what it begins with, up to the first zero. -/
theorem text_eq_some_iff : text bound s = some t ↔
    t.length < bound ∧ (∀ c ∈ t, c ≠ 0) ∧ s t.length = 0 ∧ ∀ k (inside : k < t.length), s k = t[k] := by
  constructor
  · intro here
    obtain ⟨less, nonzero⟩ := text_some here
    obtain ⟨n, first, rfl⟩ := Option.map_eq_some_iff.mp here
    refine ⟨less, nonzero, ?_, fun k inside => by simp⟩
    simpa using (length_some first).2.1
  · rintro ⟨less, nonzero, zero, values⟩
    have first : length bound s = some t.length := by
      apply lengthFrom_of_zero (Nat.zero_le _) (by omega) zero
      intro j _ inside
      rw [values j inside]
      exact nonzero _ (List.getElem_mem inside)
    rw [text, first, Option.map_some]
    refine congrArg some (List.ext_getElem (by simp) fun k _ inside => ?_)
    rw [List.getElem_map, List.getElem_range, values k inside]

theorem length_of_text (here : text bound s = some t) : length bound s = some t.length := by
  obtain ⟨n, first, rfl⟩ := Option.map_eq_some_iff.mp here
  rw [first, List.length_map, List.length_range]

theorem text_getD (nonzero : ∀ c ∈ t, c ≠ 0) (room : t.length < bound) : text bound (fun k => t.getD k 0) = some t := by
  have values : (List.range t.length).map (fun k => t.getD k 0) = t := by
    apply List.ext_getElem
    · simp
    · intro i _ inside
      rw [List.getElem_map, List.getElem_range, List.getD_eq_getElem?_getD, List.getElem?_eq_getElem inside, Option.getD_some]
  rw [text, length_getD nonzero room fun _ => rfl, Option.map_some, values]

theorem text_of_zero (less : n < bound) (zero : s n = 0) : ∃ t, text bound s = some t := by
  cases here : length bound s with
  | some k => exact ⟨_, congrArg (Option.map _) here⟩
  | none =>
    exfalso
    have found : ∀ fuel k, k ≤ n → n < k + fuel → lengthFrom s fuel k ≠ none := by
      intro fuel
      induction fuel with
      | zero => exact fun k low high => absurd high (by omega)
      | succ fuel ih =>
        intro k low high
        unfold lengthFrom
        split
        · exact Option.some_ne_none _
        · have differs : k ≠ n := fun same => absurd (same ▸ zero) ‹_›
          exact ih (k + 1) (by omega) (by omega)
    exact found bound 0 (Nat.zero_le _) (by omega) here

/-- Sequences that agree where the search for the zero comes have the same text. -/
theorem lengthFrom_congr {s' : Nat → β}
    (same : ∀ j, k ≤ j → j < k + bound → (∀ i, k ≤ i → i < j → s i ≠ 0) → s' j = s j) :
    lengthFrom s' bound k = lengthFrom s bound k := by
  induction bound generalizing k with
  | zero => rfl
  | succ bound ih =>
    have here : s' k = s k := same k (Nat.le_refl k) (by omega) fun i low high => absurd high (by omega)
    unfold lengthFrom
    rw [here]
    split
    · rfl
    · next more =>
      refine ih fun j low high before => same j (by omega) (by omega) fun i least less => ?_
      rcases Nat.eq_or_lt_of_le least with rfl | later
      · exact more
      · exact before i later less

theorem text_congr {s' : Nat → β} (same : ∀ j < bound, (∀ i < j, s i ≠ 0) → s' j = s j) :
    text bound s' = text bound s := by
  have lengths : length bound s' = length bound s :=
    lengthFrom_congr fun j _ less before => same j (by omega) fun i small => before i (Nat.zero_le i) small
  unfold text
  rw [lengths]
  cases here : length bound s with
  | none => rfl
  | some n =>
    obtain ⟨less, -, before⟩ := length_some here
    refine congrArg some (List.map_congr_left fun j member => ?_)
    have inside := List.mem_range.mp member
    exact same j (by omega) fun i small => before i (by omega)

/-- At most count values copied from s on to d on. The loop stops behind a zero that it has copied. -/
def copyUntil (dst : Nat → β) (d : Nat) (src : Nat → β) (s : Nat) : Nat → Nat → β
  | 0 => dst
  | count + 1 =>
    let dst := fun k => if k = d then src s else dst k
    if src s = 0 then dst else copyUntil dst (d + 1) src (s + 1) count

section copies

variable {dst src : Nat → β} {d count : Nat}

/-- All the values are copied where no zero comes before the last one. -/
theorem copyUntil_eq (before : ∀ j, j + 1 < count → src (k + j) ≠ 0) :
    copyUntil dst d src k count = fun i => if d ≤ i ∧ i < d + count then src (k + (i - d)) else dst i := by
  induction count generalizing dst d k with
  | zero =>
    funext i
    rw [if_neg (by omega)]
    rfl
  | succ count ih =>
    funext i
    unfold copyUntil
    by_cases stops : src k = 0
    · have last : count = 0 := by
        refine Decidable.byContradiction fun more => ?_
        exact before 0 (by omega) stops
      rw [if_pos stops]
      by_cases here : i = d
      · subst i
        simp
      · rw [if_neg here, if_neg (by omega)]
    · have later (j : Nat) (less : j + 1 < count) : src (k + 1 + j) ≠ 0 := by
        have behind := before (j + 1) (by omega)
        rwa [show k + (j + 1) = k + 1 + j by omega] at behind
      have rest := congrFun (@ih _ (fun j => if j = d then src k else dst j) (d + 1) later) i
      refine (congrFun (if_neg stops) i).trans (rest.trans ?_)
      by_cases here : i = d
      · subst i
        rw [if_neg (by omega), if_pos rfl, if_pos (by omega), Nat.sub_self, Nat.add_zero]
      · rw [if_neg here]
        by_cases inside : d + 1 ≤ i ∧ i < d + 1 + count
        · rw [if_pos inside, if_pos (by omega), show k + 1 + (i - (d + 1)) = k + (i - d) by omega]
        · rw [if_neg inside, if_neg (by omega)]

end copies

end ZeroTerminated
