/-! Circular doubly-linked lists threaded through their own entries.
A ring is a head together with the entries met from it by the forward links.
Nothing here depends on what an entry is or on where its two links are stored. -/
namespace Intrusive

/-- One forward and one backward link for every possible entry. -/
structure Links (α : Type u) where
  flink : α → α
  blink : α → α

variable {α : Type u} [DecidableEq α]

def Links.setFlink (l : Links α) (a b : α) : Links α :=
  { l with flink := fun x => if x = a then b else l.flink x }

def Links.setBlink (l : Links α) (a b : α) : Links α :=
  { l with blink := fun x => if x = a then b else l.blink x }

/-- Bridge over an entry. The entry keeps its own two links. -/
def Links.unlink (l : Links α) (a : α) : Links α :=
  (l.setFlink (l.blink a) (l.flink a)).setBlink (l.flink a) (l.blink a)

/-- Put a new entry between an entry and its successor. -/
def Links.insertAfter (l : Links α) (q e : α) : Links α :=
  (((l.setFlink e (l.flink q)).setBlink e q).setBlink (l.flink q) e).setFlink q e

/-- Put a new entry between an entry and its predecessor. -/
def Links.insertBefore (l : Links α) (q e : α) : Links α :=
  (((l.setFlink e q).setBlink e (l.blink q)).setFlink (l.blink q) e).setBlink q e

@[simp] theorem setFlink_flink (l : Links α) (a b x : α) :
    (l.setFlink a b).flink x = if x = a then b else l.flink x := rfl
@[simp] theorem setFlink_blink (l : Links α) (a b x : α) :
    (l.setFlink a b).blink x = l.blink x := rfl
@[simp] theorem setBlink_flink (l : Links α) (a b x : α) :
    (l.setBlink a b).flink x = l.flink x := rfl
@[simp] theorem setBlink_blink (l : Links α) (a b x : α) :
    (l.setBlink a b).blink x = if x = a then b else l.blink x := rfl

/-- The entries strictly between two ends, matched in both directions. -/
def Segment (l : Links α) : α → List α → α → Prop
  | p, [], n => l.flink p = n ∧ l.blink n = p
  | p, a :: rest, n => l.flink p = a ∧ l.blink a = p ∧ Segment l a rest n

/-- A closed segment without repeated entries. -/
def Ring (l : Links α) (h : α) (xs : List α) : Prop :=
  (h :: xs).Nodup ∧ Segment l h xs h

omit [DecidableEq α] in
theorem segment_append {l : Links α} {a n : α} {ys : List α} (xs : List α) (p : α) :
    Segment l p (xs ++ a :: ys) n ↔ Segment l p xs a ∧ Segment l a ys n := by
  induction xs generalizing p with
  | nil => simp [Segment, and_assoc]
  | cons x xs ih => simp [Segment, ih, and_assoc]

omit [DecidableEq α] in
/-- A segment reads forward links before its end and backward links after its start. -/
theorem segment_congr {l m : Links α} {n : α} {xs : List α} {p : α}
    (forward : ∀ x ∈ p :: xs, m.flink x = l.flink x)
    (backward : ∀ x ∈ xs ++ [n], m.blink x = l.blink x)
    (h : Segment l p xs n) : Segment m p xs n := by
  induction xs generalizing p with
  | nil =>
    exact ⟨(forward p (by simp)).trans h.1, (backward n (by simp)).trans h.2⟩
  | cons x xs ih =>
    refine ⟨(forward p (by simp)).trans h.1, (backward x (by simp)).trans h.2.1, ?_⟩
    exact ih (fun y hy => forward y (by simp_all)) (fun y hy => backward y (by simp_all)) h.2.2

omit [DecidableEq α] in
theorem ring_congr {l m : Links α} {h : α} {xs : List α}
    (forward : ∀ x ∈ h :: xs, m.flink x = l.flink x)
    (backward : ∀ x ∈ h :: xs, m.blink x = l.blink x)
    (ring : Ring l h xs) : Ring m h xs := by
  refine ⟨ring.1, segment_congr forward ?_ ring.2⟩
  intro x hx
  apply backward
  rcases List.mem_append.mp hx with hx | hx
  · exact List.mem_cons_of_mem _ hx
  · simp_all

omit [DecidableEq α] in
theorem segment_first {l : Links α} {p n : α} {xs : List α} (h : Segment l p xs n) :
    l.flink p = (xs ++ [n]).headD n := by
  cases xs with
  | nil => exact h.1
  | cons x xs => exact h.1

omit [DecidableEq α] in
theorem segment_first_mem {l : Links α} {p n : α} {xs : List α} (h : Segment l p xs n) :
    l.flink p ∈ xs ++ [n] := by
  rw [segment_first h]
  cases xs <;> simp

omit [DecidableEq α] in
theorem segment_last_mem {l : Links α} {n : α} {xs : List α} {p : α} (h : Segment l p xs n) :
    l.blink n ∈ p :: xs := by
  induction xs generalizing p with
  | nil => simp [h.2]
  | cons x xs ih => exact List.mem_cons_of_mem _ (ih h.2.2)

omit [DecidableEq α] in
/-- From the last of the first entries, or from the head, the link leads to the first of the others, or to the head. -/
theorem ring_next {l : Links α} {h : α} (xs : List α) {ys : List α} (ring : Ring l h (xs ++ ys)) :
    l.flink (xs.getLast?.getD h) = ys.head?.getD h := by
  have first : ∀ p, Segment l p ys h → l.flink p = ys.head?.getD h := by
    intro p segment
    rw [segment_first segment]
    cases ys <;> rfl
  rcases List.eq_nil_or_concat xs with rfl | ⟨us, a, rfl⟩
  · exact first h ring.2
  · rw [List.concat_append] at ring
    rw [List.concat_eq_append, List.getLast?_concat]
    exact first a ((segment_append us h).mp ring.2).2

omit [DecidableEq α] in
theorem ring_empty_iff {l : Links α} {h : α} {xs : List α} (ring : Ring l h xs) :
    l.flink h = h ↔ xs = [] := by
  cases xs with
  | nil => simp [ring.2.1]
  | cons x xs =>
    have hx : h ≠ x := by
      have := ring.1
      simp_all
    simp [ring.2.1, hx.symm]

omit [DecidableEq α] in
theorem ring_nil {l : Links α} {h : α} (forward : l.flink h = h) (backward : l.blink h = h) :
    Ring l h [] := ⟨by simp, forward, backward⟩

omit [DecidableEq α] in
theorem segment_unique {l : Links α} {n : α} {xs ys : List α} {p : α} (one : Segment l p xs n)
    (two : Segment l p ys n) (outsideOne : n ∉ xs) (outsideTwo : n ∉ ys) : xs = ys := by
  induction xs generalizing p ys with
  | nil =>
    cases ys with
    | nil => rfl
    | cons y ys =>
      have same : n = y := one.1.symm.trans two.1
      simp [same] at outsideTwo
  | cons x xs ih =>
    cases ys with
    | nil =>
      have same : n = x := two.1.symm.trans one.1
      simp [same] at outsideOne
    | cons y ys =>
      have same : x = y := one.1.symm.trans two.1
      subst same
      rw [ih one.2.2 two.2.2 (fun member => outsideOne (List.mem_cons_of_mem _ member))
        (fun member => outsideTwo (List.mem_cons_of_mem _ member))]

omit [DecidableEq α] in
theorem ring_unique {l : Links α} {h : α} {xs ys : List α} (one : Ring l h xs) (two : Ring l h ys) : xs = ys :=
  segment_unique one.2 two.2 (List.nodup_cons.mp one.1).1 (List.nodup_cons.mp two.1).1

omit [DecidableEq α] in
/-- The entries of a list of named ones, with its head. -/
theorem mem_entries {β : Type} {x h : α} {f : β → α} {bs : List β} :
    x ∈ h :: bs.map f ↔ x = h ∨ ∃ b ∈ bs, x = f b := by
  rw [List.mem_cons, List.mem_map]
  apply or_congr_right
  constructor
  · rintro ⟨b, member, rfl⟩
    exact ⟨b, member, rfl⟩
  · rintro ⟨b, member, rfl⟩
    exact ⟨b, member, rfl⟩

theorem unlink_flink (l : Links α) (a x : α) :
    (l.unlink a).flink x = if x = l.blink a then l.flink a else l.flink x := rfl

theorem unlink_blink (l : Links α) (a x : α) :
    (l.unlink a).blink x = if x = l.flink a then l.blink a else l.blink x := rfl

/-- Bridging over an entry of a segment leaves the other entries in order. -/
theorem segment_unlink {l : Links α} {a n : α} {ys : List α} (xs : List α) {p : α}
    (front : Segment l p xs a) (back : Segment l a ys n)
    (distinct : (p :: (xs ++ a :: ys)).Nodup) (outside : n ∉ xs ++ a :: ys) :
    Segment (l.unlink a) p (xs ++ ys) n := by
  induction xs generalizing p with
  | nil =>
    obtain ⟨_, before⟩ := front
    cases ys with
    | nil => simp [Segment, unlink_flink, unlink_blink, before, back.1]
    | cons y ys =>
      have next : l.flink a = y := back.1
      refine ⟨by simp [unlink_flink, before, next], by simp [unlink_blink, before, next], ?_⟩
      apply segment_congr _ _ back.2.2
      · intro x hx
        have hne : x ≠ p := by rintro rfl; simp_all
        simp [unlink_flink, before, hne]
      · intro x hx
        have hne : x ≠ y := by rintro rfl; simp_all
        simp [unlink_blink, next, hne]
  | cons x xs ih =>
    obtain ⟨first, before, rest⟩ := front
    have lastMem := segment_last_mem rest
    have nextMem := segment_first_mem back
    have hp : p ≠ l.blink a := by intro he; rw [← he] at lastMem; simp_all
    have hx : x ≠ l.flink a := by intro he; rw [← he] at nextMem; simp_all
    refine ⟨by simp [unlink_flink, hp, first], by simp [unlink_blink, hx, before], ?_⟩
    exact ih rest (by simp_all) (by simp_all)

theorem ring_unlink {l : Links α} {h a : α} {xs ys : List α} (ring : Ring l h (xs ++ a :: ys)) :
    Ring (l.unlink a) h (xs ++ ys) := by
  obtain ⟨distinct, segment⟩ := ring
  have parts := (segment_append xs h).mp segment
  refine ⟨?_, segment_unlink xs parts.1 parts.2 distinct (List.nodup_cons.mp distinct).1⟩
  exact distinct.sublist (by simp)

omit [DecidableEq α] in
/-- Both neighbours of a ring entry belong to the ring. -/
theorem ring_neighbours {l : Links α} {h a : α} {xs : List α} (ring : Ring l h xs) (ha : a ∈ xs) :
    l.flink a ∈ h :: xs ∧ l.blink a ∈ h :: xs := by
  obtain ⟨us, vs, rfl⟩ := List.append_of_mem ha
  have parts := (segment_append us h).mp ring.2
  have next := segment_first_mem parts.2
  have last := segment_last_mem parts.1
  constructor
  · rcases List.mem_append.mp next with hn | hn <;> simp_all
  · rcases List.mem_cons.mp last with hl | hl <;> simp_all

omit [DecidableEq α] in
theorem ring_ends {l : Links α} {h : α} {xs : List α} (ring : Ring l h xs) :
    l.flink h ∈ h :: xs ∧ l.blink h ∈ h :: xs := by
  have next := segment_first_mem ring.2
  exact ⟨by rcases List.mem_append.mp next with hn | hn <;> simp_all, segment_last_mem ring.2⟩

/-- Unlinking an entry of one ring leaves every disjoint ring alone. -/
theorem ring_unlink_frame {l : Links α} {h g a : α} {xs ys : List α} (ring : Ring l h xs)
    (ha : a ∈ xs) (other : Ring l g ys) (disjoint : ∀ x ∈ g :: ys, x ∉ h :: xs) :
    Ring (l.unlink a) g ys := by
  have near := ring_neighbours ring ha
  apply ring_congr _ _ other
  · intro x hx
    have hne : x ≠ l.blink a := by intro he; exact disjoint x hx (he ▸ near.2)
    simp [unlink_flink, hne]
  · intro x hx
    have hne : x ≠ l.flink a := by intro he; exact disjoint x hx (he ▸ near.1)
    simp [unlink_blink, hne]

theorem insertAfter_flink (l : Links α) (q e x : α) :
    (l.insertAfter q e).flink x = if x = q then e else if x = e then l.flink q else l.flink x := rfl

theorem insertAfter_blink (l : Links α) (q e x : α) :
    (l.insertAfter q e).blink x = if x = l.flink q then e else if x = e then q else l.blink x := rfl

theorem insertBefore_flink (l : Links α) (q e x : α) :
    (l.insertBefore q e).flink x = if x = l.blink q then e else if x = e then q else l.flink x := rfl

theorem insertBefore_blink (l : Links α) (q e x : α) :
    (l.insertBefore q e).blink x = if x = q then e else if x = e then l.blink q else l.blink x := rfl

/-- A new entry directly behind the start of a segment. -/
theorem segment_insertAfter {l : Links α} {p n e : α} {xs : List α} (h : Segment l p xs n)
    (distinct : (p :: xs).Nodup) (outside : n ∉ xs) (fresh : e ∉ p :: xs) (he : e ≠ n) :
    Segment (l.insertAfter p e) p (e :: xs) n := by
  have hep : e ≠ p := by rintro rfl; simp at fresh
  have hef : e ≠ l.flink p := by
    intro hc
    have := segment_first_mem h
    rw [← hc] at this
    simp_all
  refine ⟨by simp [insertAfter_flink], by simp [insertAfter_blink, hef], ?_⟩
  cases xs with
  | nil =>
    have next : l.flink p = n := h.1
    exact ⟨by simp [insertAfter_flink, hep, next], by simp [insertAfter_blink, next]⟩
  | cons x xs =>
    have next : l.flink p = x := h.1
    refine ⟨by simp [insertAfter_flink, hep, next], by simp [insertAfter_blink, next], ?_⟩
    apply segment_congr _ _ h.2.2
    · intro y hy
      have h1 : y ≠ p := by rintro rfl; simp_all
      have h2 : y ≠ e := by rintro rfl; simp_all
      simp [insertAfter_flink, h1, h2]
    · intro y hy
      have h1 : y ≠ x := by rintro rfl; simp_all
      have h2 : y ≠ e := by rintro rfl; simp_all
      simp [insertAfter_blink, next, h1, h2]

/-- A new entry directly in front of the end of a segment. -/
theorem segment_insertBefore {l : Links α} {n e : α} (xs : List α) {p : α} (h : Segment l p xs n)
    (distinct : (p :: xs).Nodup) (outside : n ∉ xs) (fresh : e ∉ p :: xs) (he : e ≠ n) :
    Segment (l.insertBefore n e) p (xs ++ [e]) n := by
  induction xs generalizing p with
  | nil =>
    have last : l.blink n = p := h.2
    have hep : e ≠ p := by rintro rfl; simp at fresh
    exact ⟨by simp [insertBefore_flink, last], by simp [insertBefore_blink, last, he],
      by simp [insertBefore_flink, last, hep], by simp [insertBefore_blink]⟩
  | cons x xs ih =>
    obtain ⟨first, before, rest⟩ := h
    have lastMem := segment_last_mem rest
    have h1 : p ≠ l.blink n := by intro hc; rw [← hc] at lastMem; simp_all
    have h2 : p ≠ e := by rintro rfl; simp at fresh
    have h3 : x ≠ n := by rintro rfl; simp at outside
    have h4 : x ≠ e := by rintro rfl; simp at fresh
    refine ⟨by simp [insertBefore_flink, h1, h2, first],
      by simp [insertBefore_blink, h3, h4, before], ?_⟩
    exact ih rest (by simp_all) (by simp_all) (by simp_all)

theorem ring_insertHead {l : Links α} {h e : α} {xs : List α} (ring : Ring l h xs)
    (fresh : e ∉ h :: xs) : Ring (l.insertAfter h e) h (e :: xs) := by
  have hd := List.nodup_cons.mp ring.1
  refine ⟨?_, segment_insertAfter ring.2 ring.1 hd.1 fresh (by rintro rfl; simp at fresh)⟩
  simp only [List.mem_cons, not_or] at fresh
  simp [List.nodup_cons, hd.1, hd.2, fresh.2, Ne.symm fresh.1]

theorem ring_insertTail {l : Links α} {h e : α} {xs : List α} (ring : Ring l h xs)
    (fresh : e ∉ h :: xs) : Ring (l.insertBefore h e) h (xs ++ [e]) := by
  have hd := List.nodup_cons.mp ring.1
  refine ⟨?_, segment_insertBefore xs ring.2 ring.1 hd.1 fresh (by rintro rfl; simp at fresh)⟩
  rw [← List.cons_append]
  refine List.nodup_append.mpr ⟨ring.1, by simp, ?_⟩
  intro a ha b hb
  have hbe : b = e := by simpa using hb
  rintro rfl
  exact fresh (hbe ▸ ha)

/-- A new entry behind an entry in the middle of a ring. -/
theorem ring_insertAfter {l : Links α} {h b e : α} {xs ys : List α} (ring : Ring l h (xs ++ b :: ys))
    (fresh : e ∉ h :: (xs ++ b :: ys)) : Ring (l.insertAfter b e) h (xs ++ b :: e :: ys) := by
  obtain ⟨distinct, segment⟩ := ring
  obtain ⟨front, back⟩ := (segment_append xs h).mp segment
  have nextMem := segment_first_mem back
  have whole : ((h :: xs) ++ (b :: ys)).Nodup := by simpa using distinct
  obtain ⟨hfront, hback, apart⟩ := List.nodup_append.mp whole
  have freshFront : e ∉ h :: xs := fun he => fresh (List.mem_append_left (b :: ys) he)
  have freshBack : e ∉ b :: ys := fun he => fresh (List.mem_append_right (h :: xs) he)
  refine ⟨?_, (segment_append xs h).mpr ⟨segment_congr ?_ ?_ front, ?_⟩⟩
  · have moved : (h :: (xs ++ b :: e :: ys)).Perm (e :: h :: (xs ++ b :: ys)) := by
      have inner : (xs ++ b :: e :: ys).Perm (e :: (xs ++ b :: ys)) := by
        have middle : (xs ++ [b] ++ e :: ys).Perm (e :: (xs ++ [b] ++ ys)) := List.perm_middle
        simpa using middle
      exact (inner.cons h).trans (List.Perm.swap _ _ _)
    exact moved.nodup_iff.mpr (List.nodup_cons.mpr ⟨fresh, distinct⟩)
  · intro x hx
    have h1 : x ≠ b := apart x hx b (by simp)
    have h2 : x ≠ e := by rintro rfl; exact freshFront hx
    simp [insertAfter_flink, h1, h2]
  · intro x hx
    have h2 : x ≠ e := by rintro rfl; simp_all
    have h1 : x ≠ l.flink b := by
      rintro rfl
      rcases List.mem_append.mp hx with hx | hx <;> rcases List.mem_append.mp nextMem with hn | hn
      · exact apart _ (List.mem_cons_of_mem _ hx) _ (List.mem_cons_of_mem _ hn) rfl
      · have hh : l.flink b = h := by simpa using hn
        exact (List.nodup_cons.mp hfront).1 (hh ▸ hx)
      · have hb : l.flink b = b := by simpa using hx
        exact (List.nodup_cons.mp hback).1 (hb ▸ hn)
      · have hb : l.flink b = b := by simpa using hx
        have hh : l.flink b = h := by simpa using hn
        exact apart h (by simp) b (by simp) (hh.symm.trans hb)
    simp [insertAfter_blink, h1, h2]
  · have outside : h ∉ ys := fun hy => apart h (by simp) h (List.mem_cons_of_mem _ hy) rfl
    exact segment_insertAfter back hback outside freshBack (by rintro rfl; simp at fresh)

/-- Inserting next to an entry of one ring leaves every disjoint ring alone. -/
theorem ring_insertBefore_frame {l : Links α} {h g e : α} {xs ys : List α} (ring : Ring l h xs)
    (other : Ring l g ys) (disjoint : ∀ x ∈ g :: ys, x ∉ h :: xs) (fresh : e ∉ g :: ys) :
    Ring (l.insertBefore h e) g ys := by
  have near := ring_ends ring
  apply ring_congr _ _ other
  · intro x hx
    have h1 : x ≠ l.blink h := by intro he; exact disjoint x hx (he ▸ near.2)
    have h2 : x ≠ e := by rintro rfl; exact fresh hx
    simp [insertBefore_flink, h1, h2]
  · intro x hx
    have h1 : x ≠ h := by intro he; exact disjoint x hx (by simp [he])
    have h2 : x ≠ e := by rintro rfl; exact fresh hx
    simp [insertBefore_blink, h1, h2]

theorem ring_insertAfter_frame {l : Links α} {h g q e : α} {xs ys : List α} (ring : Ring l h xs)
    (hq : q ∈ h :: xs) (other : Ring l g ys) (disjoint : ∀ x ∈ g :: ys, x ∉ h :: xs)
    (fresh : e ∉ g :: ys) : Ring (l.insertAfter q e) g ys := by
  have near : l.flink q ∈ h :: xs := by
    rcases List.mem_cons.mp hq with rfl | hq
    · exact (ring_ends ring).1
    · exact (ring_neighbours ring hq).1
  apply ring_congr _ _ other
  · intro x hx
    have h1 : x ≠ q := by intro he; exact disjoint x hx (he ▸ hq)
    have h2 : x ≠ e := by rintro rfl; exact fresh hx
    simp [insertAfter_flink, h1, h2]
  · intro x hx
    have h1 : x ≠ l.flink q := by intro he; exact disjoint x hx (he ▸ near)
    have h2 : x ≠ e := by rintro rfl; exact fresh hx
    simp [insertAfter_blink, h1, h2]

theorem ring_rotate {l : Links α} {h a : α} {xs ys : List α} (ring : Ring l h (xs ++ a :: ys)) :
    Ring ((l.unlink a).insertBefore h a) h (xs ++ ys ++ [a]) := by
  have shorter := ring_unlink ring
  apply ring_insertTail shorter
  have moved : (h :: (xs ++ a :: ys)).Perm (a :: h :: (xs ++ ys)) :=
    (List.perm_middle.cons h).trans (List.Perm.swap _ _ _)
  exact (List.nodup_cons.mp (moved.nodup_iff.mp ring.1)).1

section Move

variable {l : Links α} {h g a : α} {xs ys zs : List α}

/-- After an entry has left its ring, that ring and a disjoint one stand, and the entry is in neither. -/
theorem rings_leave (source : Ring l h (xs ++ a :: ys)) (target : Ring l g zs)
    (disjoint : ∀ x ∈ g :: zs, x ∉ h :: (xs ++ a :: ys)) :
    Ring (l.unlink a) h (xs ++ ys) ∧ Ring (l.unlink a) g zs ∧ a ∉ h :: (xs ++ ys) ∧ a ∉ g :: zs ∧
      ∀ x ∈ g :: zs, x ∉ h :: (xs ++ ys) := by
  have moved : (h :: (xs ++ a :: ys)).Perm (a :: h :: (xs ++ ys)) :=
    (List.perm_middle.cons h).trans (List.Perm.swap _ _ _)
  have inner := List.nodup_cons.mp (moved.nodup_iff.mp source.1)
  refine ⟨ring_unlink source, ring_unlink_frame source (by simp) target disjoint, inner.1, ?_, ?_⟩
  · intro ha
    exact disjoint a ha (by simp)
  · intro x hx hc
    exact disjoint x hx (moved.mem_iff.mpr (List.mem_cons_of_mem a hc))

theorem rings_move_head (source : Ring l h (xs ++ a :: ys)) (target : Ring l g zs)
    (disjoint : ∀ x ∈ g :: zs, x ∉ h :: (xs ++ a :: ys)) :
    Ring ((l.unlink a).insertAfter g a) h (xs ++ ys) ∧ Ring ((l.unlink a).insertAfter g a) g (a :: zs) := by
  obtain ⟨left, kept, outSource, outTarget, apart⟩ := rings_leave source target disjoint
  refine ⟨ring_insertAfter_frame kept (by simp) left ?_ outSource, ring_insertHead kept outTarget⟩
  intro x hx hc
  exact apart x hc hx

theorem rings_move_tail (source : Ring l h (xs ++ a :: ys)) (target : Ring l g zs)
    (disjoint : ∀ x ∈ g :: zs, x ∉ h :: (xs ++ a :: ys)) :
    Ring ((l.unlink a).insertBefore g a) h (xs ++ ys) ∧
      Ring ((l.unlink a).insertBefore g a) g (zs ++ [a]) := by
  obtain ⟨left, kept, outSource, outTarget, apart⟩ := rings_leave source target disjoint
  refine ⟨ring_insertBefore_frame kept left ?_ outSource, ring_insertTail kept outTarget⟩
  intro x hx hc
  exact apart x hc hx

end Move

section Replace

variable {l : Links α} {h g a e : α} {xs ys zs : List α}

omit [DecidableEq α] in
theorem segment_back {p n : α} (segment : Segment l p xs n) : l.blink (l.flink p) = p := by
  cases xs with
  | nil => rw [segment.1, segment.2]
  | cons x xs => rw [segment.1, segment.2.1]

omit [DecidableEq α] in
theorem segment_forth {p n : α} (segment : Segment l p xs n) : l.flink (l.blink n) = n := by
  induction xs generalizing p with
  | nil => rw [segment.2, segment.1]
  | cons x xs ih => exact ih segment.2.2

omit [DecidableEq α] in
/-- The entry in front of the end of a segment is its start or its last one. -/
theorem segment_end {p n : α} (segment : Segment l p xs n) :
    xs = [] ∧ l.blink n = p ∨ ∃ us, xs = us ++ [l.blink n] := by
  induction xs generalizing p with
  | nil => exact .inl ⟨rfl, segment.2⟩
  | cons x xs ih =>
    right
    rcases ih segment.2.2 with ⟨rfl, last⟩ | ⟨us, shape⟩
    · exact ⟨[], by rw [last]; rfl⟩
    · exact ⟨x :: us, by rw [List.cons_append, ← shape]⟩

omit [DecidableEq α] in
/-- The links of an entry and its neighbours point at each other. -/
theorem ring_links (ring : Ring l h (xs ++ a :: ys)) :
    l.flink (l.blink a) = a ∧ l.blink (l.flink a) = a ∧ l.blink a ∈ h :: xs ∧ l.flink a ∈ ys ++ [h] := by
  obtain ⟨front, back⟩ := (segment_append xs h).mp ring.2
  exact ⟨segment_forth front, segment_back back, segment_last_mem front, segment_first_mem back⟩

/-- An entry that is not in the ring takes the place of one that is. -/
theorem ring_replace (ring : Ring l h (xs ++ a :: ys)) (fresh : e ∉ h :: (xs ++ a :: ys)) :
    Ring ((l.unlink a).insertAfter (l.blink a) e) h (xs ++ e :: ys) := by
  have shorter := ring_unlink ring
  have outside : e ∉ h :: (xs ++ ys) := by
    intro member
    apply fresh
    rcases List.mem_cons.mp member with same | member
    · exact List.mem_cons.mpr (.inl same)
    · rcases List.mem_append.mp member with front | back
      · exact List.mem_cons_of_mem _ (List.mem_append_left _ front)
      · exact List.mem_cons_of_mem _ (List.mem_append_right _ (List.mem_cons_of_mem _ back))
  have previous := segment_end ((segment_append xs h).mp ring.2).1
  rcases previous with ⟨rfl, atHead⟩ | ⟨us, rfl⟩
  · rw [atHead]
    exact ring_insertHead shorter outside
  · rw [List.append_assoc] at shorter outside
    have after := ring_insertAfter shorter outside
    rw [List.append_assoc]
    exact after

theorem ring_replace_frame (ring : Ring l h (xs ++ a :: ys)) (other : Ring l g zs)
    (disjoint : ∀ x ∈ g :: zs, x ∉ h :: (xs ++ a :: ys)) (fresh : e ∉ g :: zs) :
    Ring ((l.unlink a).insertAfter (l.blink a) e) g zs := by
  obtain ⟨left, kept, _, _, apart⟩ := rings_leave ring other disjoint
  have near : l.blink a ∈ h :: (xs ++ ys) := by
    rcases List.mem_cons.mp (ring_links ring).2.2.1 with same | member
    · exact List.mem_cons.mpr (.inl same)
    · exact List.mem_cons_of_mem _ (List.mem_append_left _ member)
  exact ring_insertAfter_frame left near kept apart fresh

end Replace

end Intrusive
