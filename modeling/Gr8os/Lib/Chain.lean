import Gr8os.Lib.Ring

/-! Doubly-linked lists that end in a null link on both sides.
The first entry is held outside of the list, in a list head. -/
namespace Intrusive

variable {α : Type u}

/-- The entries met from a first one up to null, given the entry in front of them. -/
def ChainFrom (null : α) (l : Links α) : α → α → List α → Prop
  | _, first, [] => first = null
  | before, first, a :: rest =>
    first = a ∧ a ≠ null ∧ l.blink a = before ∧ ChainFrom null l a (l.flink a) rest

/-- A whole chain: nothing stands in front of its first entry and no entry repeats. -/
def Chain (null : α) (l : Links α) (first : α) (xs : List α) : Prop :=
  xs.Nodup ∧ ChainFrom null l null first xs

variable {null : α} {l m : Links α}

theorem chainFrom_congr {before first : α} {xs : List α}
    (forward : ∀ x ∈ xs, m.flink x = l.flink x) (backward : ∀ x ∈ xs, m.blink x = l.blink x)
    (h : ChainFrom null l before first xs) : ChainFrom null m before first xs := by
  induction xs generalizing before first with
  | nil => exact h
  | cons x xs ih =>
    obtain ⟨hf, hn, hb, rest⟩ := h
    refine ⟨hf, hn, (backward x (by simp)).trans hb, ?_⟩
    rw [forward x (by simp)]
    exact ih (fun y hy => forward y (by simp [hy])) (fun y hy => backward y (by simp [hy])) rest

theorem chain_congr {first : α} {xs : List α} (forward : ∀ x ∈ xs, m.flink x = l.flink x)
    (backward : ∀ x ∈ xs, m.blink x = l.blink x) (h : Chain null l first xs) : Chain null m first xs :=
  ⟨h.1, chainFrom_congr forward backward h.2⟩

theorem chainFrom_null {before first : α} {xs : List α} (h : ChainFrom null l before first xs) :
    null ∉ xs := by
  induction xs generalizing before first with
  | nil => simp
  | cons x xs ih =>
    have hx : null ≠ x := Ne.symm h.2.1
    simp [hx, ih h.2.2.2]

theorem chainFrom_first {before first : α} {xs : List α} (h : ChainFrom null l before first xs) :
    first = xs.headD null := by
  cases xs with
  | nil => exact h
  | cons x xs => exact h.1

theorem chainFrom_append {before first e : α} {ys : List α} (xs : List α)
    (h : ChainFrom null l before first (xs ++ e :: ys)) :
    l.blink e = xs.getLastD before ∧ l.flink e = ys.headD null := by
  induction xs generalizing before first with
  | nil => exact ⟨h.2.2.1, chainFrom_first h.2.2.2⟩
  | cons x xs ih =>
    rw [List.getLastD_cons]
    exact ih h.2.2.2

theorem chain_empty_iff {first : α} {xs : List α} (h : Chain null l first xs) : first = null ↔ xs = [] := by
  cases xs with
  | nil => simpa using (show first = null from h.2)
  | cons x xs =>
    have hn : first ≠ null := h.2.1 ▸ h.2.2.1
    simp [hn]

/-- The neighbours of an entry belong to the chain or are null. -/
theorem chain_neighbours {first e : α} {xs : List α} (h : Chain null l first xs) (he : e ∈ xs) :
    (l.flink e = null ∨ l.flink e ∈ xs) ∧ (l.blink e = null ∨ l.blink e ∈ xs) := by
  obtain ⟨us, vs, rfl⟩ := List.append_of_mem he
  obtain ⟨hb, hf⟩ := chainFrom_append us h.2
  constructor
  · cases vs with
    | nil => exact .inl hf
    | cons v vs => exact .inr (by simp [hf])
  · rcases List.eq_nil_or_concat us with rfl | ⟨us, u, rfl⟩
    · exact .inl hb
    · exact .inr (by simp [hb])

/-- Entries that are numbered in a row, each of which points to the ones with the numbers next to its own. -/
theorem chainFrom_numbered {entry : Nat → α} {before : α} {first last : Nat} {xs : List α}
    (numbered : xs = (List.range' first (last - first)).map entry)
    (present : ∀ i, first ≤ i → i < last → entry i ≠ null)
    (backward : ∀ i, first ≤ i → i < last → l.blink (entry i) = if i = first then before else entry (i - 1))
    (forward : ∀ i, first ≤ i → i < last → l.flink (entry i) = if i + 1 = last then null else entry (i + 1)) :
    ChainFrom null l before (xs.headD null) xs := by
  subst numbered
  generalize left : last - first = count
  induction count generalizing first before with
  | zero => rfl
  | succ count ih =>
    rw [List.range'_succ, List.map_cons]
    refine ⟨rfl, present first (Nat.le_refl _) (by omega), ?_, ?_⟩
    · rw [backward first (Nat.le_refl _) (by omega), if_pos rfl]
    · have next : l.flink (entry first) = ((List.range' (first + 1) count).map entry).headD null := by
        rw [forward first (Nat.le_refl _) (by omega)]
        cases count with
        | zero => exact if_pos (by omega)
        | succ count =>
          rw [if_neg (by omega), List.range'_succ, List.map_cons, List.headD_cons]
      rw [next]
      apply ih
      · exact fun i low high => present i (by omega) high
      · intro i low high
        rw [backward i (by omega) high, if_neg (by omega)]
        by_cases head : i = first + 1
        · rw [if_pos head, head, Nat.add_sub_cancel]
        · rw [if_neg head]
      · exact fun i low high => forward i (by omega) high
      · omega

variable [DecidableEq α]

/-- Put an entry in front of the first one. -/
def Links.push (null : α) (l : Links α) (first e : α) : Links α :=
  let l := (l.setFlink e first).setBlink e null
  if first = null then l else l.setBlink first e

/-- Bridge over an entry, leaving null alone. The entry keeps its own two links. -/
def Links.detach (null : α) (l : Links α) (e : α) : Links α :=
  let m := if l.blink e = null then l else l.setFlink (l.blink e) (l.flink e)
  if l.flink e = null then m else m.setBlink (l.flink e) (l.blink e)

theorem push_flink (first e x : α) :
    (l.push null first e).flink x = if x = e then first else l.flink x := by
  unfold Links.push
  by_cases h : first = null <;> simp [h]

theorem push_blink (first e x : α) :
    (l.push null first e).blink x =
      if x = first ∧ first ≠ null then e else if x = e then null else l.blink x := by
  unfold Links.push
  by_cases h : first = null <;> simp [h]

theorem detach_flink (e x : α) :
    (l.detach null e).flink x = if x = l.blink e ∧ x ≠ null then l.flink e else l.flink x := by
  unfold Links.detach
  by_cases hb : l.blink e = null <;> by_cases hf : l.flink e = null <;> simp [hb, hf] <;> grind

theorem detach_blink (e x : α) :
    (l.detach null e).blink x = if x = l.flink e ∧ x ≠ null then l.blink e else l.blink x := by
  unfold Links.detach
  by_cases hb : l.blink e = null <;> by_cases hf : l.flink e = null <;> simp [hb, hf] <;> grind

theorem chain_push {first e : α} {xs : List α} (h : Chain null l first xs) (he : e ≠ null)
    (fresh : e ∉ xs) : Chain null (l.push null first e) e (e :: xs) := by
  refine ⟨List.nodup_cons.mpr ⟨fresh, h.1⟩, rfl, he, ?_, ?_⟩
  · have hf : e = first → first = null := by
      intro heq
      have := chainFrom_first h.2
      cases xs with
      | nil => exact this
      | cons x xs => simp_all
    rw [push_blink, if_neg (fun hc => hc.2 (hf hc.1)), if_pos rfl]
  · rw [push_flink, if_pos rfl]
    cases xs with
    | nil => exact h.2
    | cons x xs =>
      obtain ⟨hf, hn, _, rest⟩ := h.2
      have hxe : x ≠ e := by rintro rfl; simp at fresh
      refine ⟨hf, hn, by simp [push_blink, hf, hn], ?_⟩
      rw [push_flink, if_neg hxe]
      apply chainFrom_congr _ _ rest
      · intro y hy
        have hye : y ≠ e := by rintro rfl; simp [hy] at fresh
        rw [push_flink, if_neg hye]
      · intro y hy
        have hye : y ≠ e := by rintro rfl; simp [hy] at fresh
        have hyf : y ≠ first := by rintro rfl; rw [hf] at hy; exact (List.nodup_cons.mp h.1).1 hy
        rw [push_blink, if_neg (fun hc => hyf hc.1), if_neg hye]

theorem chainFrom_detach {e : α} {ys : List α} (xs : List α) {before first : α}
    (h : ChainFrom null l before first (xs ++ e :: ys)) (distinct : (xs ++ e :: ys).Nodup)
    (outside : before ∉ xs ++ e :: ys) :
    ChainFrom null (l.detach null e) before (if xs = [] then l.flink e else first) (xs ++ ys) := by
  induction xs generalizing before first with
  | nil =>
    obtain ⟨_, _, hb, rest⟩ := h
    cases ys with
    | nil => exact rest
    | cons y ys =>
      obtain ⟨hf, hn, _, tail⟩ := rest
      have hy : y ≠ before := by rintro rfl; simp at outside
      refine ⟨hf, hn, by simp [detach_blink, hf, hn, hb], ?_⟩
      rw [detach_flink, hb, if_neg (fun hc => hy hc.1)]
      apply chainFrom_congr _ _ tail
      · intro z hz
        have hzb : z ≠ before := by rintro rfl; simp [hz] at outside
        rw [detach_flink, hb, if_neg (fun hc => hzb hc.1)]
      · intro z hz
        have hzy : z ≠ y := by rintro rfl; simp_all
        rw [detach_blink, hf, if_neg (fun hc => hzy hc.1)]
  | cons x xs ih =>
    obtain ⟨hf, hn, hb, rest⟩ := h
    have near := chainFrom_append xs rest
    have hnext : x ≠ l.flink e := by
      rw [near.2]
      cases ys with
      | nil => exact hn
      | cons y ys => rintro rfl; simp at distinct
    have tail := ih rest (List.nodup_cons.mp distinct).2 (List.nodup_cons.mp distinct).1
    have hlink : (l.detach null e).flink x = if xs = [] then l.flink e else l.flink x := by
      rw [detach_flink, near.1]
      rcases List.eq_nil_or_concat xs with rfl | ⟨us, z, rfl⟩
      · simp [hn]
      · have hz : x ≠ z := by rintro rfl; simp at distinct
        simp [hz]
    refine ⟨hf, hn, ?_, ?_⟩
    · rw [detach_blink, if_neg (fun hc => hnext hc.1), hb]
    · rw [hlink]
      exact tail

/-- Taking an entry out of a chain; the list head moves only with the first entry. -/
theorem chain_detach {first e : α} {xs ys : List α} (h : Chain null l first (xs ++ e :: ys)) :
    Chain null (l.detach null e) (if l.blink e = null then l.flink e else first) (xs ++ ys) := by
  have near := chainFrom_append xs h.2
  have missing := chainFrom_null h.2
  have moved := chainFrom_detach xs h.2 h.1 missing
  refine ⟨h.1.sublist (by simp), ?_⟩
  have front : l.blink e = null ↔ xs = [] := by
    rw [near.1]
    rcases List.eq_nil_or_concat xs with rfl | ⟨us, z, rfl⟩
    · simp
    · have hz : z ≠ null := by rintro rfl; simp at missing
      simp [hz]
  simpa [front] using moved

theorem chain_detach_frame {first other e : α} {xs ys : List α} (h : Chain null l first xs) (he : e ∈ xs)
    (apart : Chain null l other ys) (disjoint : ∀ y ∈ ys, y ∉ xs) : Chain null (l.detach null e) other ys := by
  obtain ⟨hf, hb⟩ := chain_neighbours h he
  apply chain_congr _ _ apart
  · intro y hy
    rw [detach_flink, if_neg]
    rintro ⟨rfl, hn⟩
    exact disjoint _ hy (hb.resolve_left hn)
  · intro y hy
    rw [detach_blink, if_neg]
    rintro ⟨rfl, hn⟩
    exact disjoint _ hy (hf.resolve_left hn)

theorem chain_push_frame {first other e : α} {xs ys : List α} (h : Chain null l first xs)
    (apart : Chain null l other ys) (disjoint : ∀ y ∈ ys, y ∉ xs) (fresh : e ∉ ys) :
    Chain null (l.push null first e) other ys := by
  have head := chainFrom_first h.2
  apply chain_congr _ _ apart
  · intro y hy
    have hye : y ≠ e := by rintro rfl; exact fresh hy
    rw [push_flink, if_neg hye]
  · intro y hy
    have hye : y ≠ e := by rintro rfl; exact fresh hy
    have hyf : ¬ (y = first ∧ first ≠ null) := by
      rintro ⟨rfl, hn⟩
      cases xs with
      | nil => exact hn head
      | cons x xs => exact disjoint _ hy (by simp [head])
    rw [push_blink, if_neg hyf, if_neg hye]

end Intrusive
