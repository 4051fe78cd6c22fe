import Mathlib.Data.List.Basic

/-! One direction of a stop-and-wait protocol over first-in first-out lines that lose, double
and damage frames. Packets are numbered; what the receiver sees is the id of a number. -/
namespace AlternatingId

variable {α : Type u} {ι : Type v}

/-- Element `i` of a line arrives twice. -/
def double : Nat → List α → List α
  | _, [] => []
  | 0, x :: xs => x :: x :: xs
  | i + 1, x :: xs => x :: double i xs

theorem mem_double {i : Nat} {xs : List α} {x : α} : x ∈ double i xs ↔ x ∈ xs := by
  induction xs generalizing i with
  | nil => cases i <;> simp [double]
  | cons y ys ih =>
    cases i with
    | zero => simp [double]
    | succ i => simp [double, ih]

theorem filterMap_double_mem {p : α → Option β} {i : Nat} {xs : List α} {b : β} :
    b ∈ (double i xs).filterMap p ↔ b ∈ xs.filterMap p := by
  simp only [List.mem_filterMap, mem_double]

theorem filterMap_double_pairwise {p : α → Option β} {R : β → β → Prop} (refl : ∀ b, R b b) {i : Nat}
    {xs : List α} (h : (xs.filterMap p).Pairwise R) : ((double i xs).filterMap p).Pairwise R := by
  induction xs generalizing i with
  | nil => cases i <;> simp [double]
  | cons y ys ih =>
    have tail : (ys.filterMap p).Pairwise R := h.sublist ((List.sublist_cons_self y ys).filterMap p)
    cases i with
    | zero =>
      cases hy : p y with
      | none => simpa [double, hy] using tail
      | some b =>
        simp only [List.filterMap_cons, hy, List.pairwise_cons] at h
        simp only [double, List.filterMap_cons, hy, List.pairwise_cons, List.mem_cons]
        refine ⟨?_, h⟩
        intro c hc
        rcases hc with rfl | hc
        · exact refl c
        · exact h.1 c hc
    | succ i =>
      cases hy : p y with
      | none => simpa [double, hy] using ih tail
      | some b =>
        simp only [List.filterMap_cons, hy, List.pairwise_cons] at h
        simp only [double, List.filterMap_cons, hy, List.pairwise_cons]
        exact ⟨fun c hc => h.1 c (filterMap_double_mem.mp hc), ih tail⟩

/-- A damaged frame that nobody reads as data takes nothing but its original off the line. -/
theorem filterMap_set_none {p : α → Option β} {i : Nat} {xs : List α} {y : α} (gone : p y = none) :
    ((xs.set i y).filterMap p).Sublist (xs.filterMap p) := by
  induction xs generalizing i with
  | nil => simp
  | cons x xs ih =>
    cases i with
    | zero =>
      simp only [List.set_cons_zero, List.filterMap_cons, gone]
      cases p x with
      | none => exact .refl _
      | some b => exact List.sublist_cons_self b _
    | succ i =>
      simp only [List.set_cons_succ, List.filterMap_cons]
      cases p x with
      | none => exact ih
      | some b => exact ih.cons_cons b

/-- The sender knows that `confirmed` packets have arrived and has begun `sent`; the receiver has
taken `accepted`. Data carry their number, an acknowledgement the receiver's count when it was written. -/
structure Direction (id : Nat → ι) (confirmed sent accepted : Nat) (data : List Nat) (acks : List (ι × Nat)) :
    Prop where
  confirmed_le : confirmed ≤ accepted
  accepted_le : accepted ≤ sent
  sent_le : sent ≤ confirmed + 1
  dataOrder : data.Pairwise (· ≤ ·)
  dataBound : ∀ k ∈ data, k < sent ∧ accepted ≤ k + 1
  ackOrder : acks.Pairwise fun x y => x.2 ≤ y.2
  ackBound : ∀ x ∈ acks, x.1 ≠ id x.2 ∧ confirmed ≤ x.2 ∧ x.2 ≤ accepted

variable {id : Nat → ι} {c s n : Nat} {data : List Nat} {acks : List (ι × Nat)}

theorem Direction.start : Direction id 0 0 0 [] [] := by
  refine ⟨Nat.le_refl 0, Nat.le_refl 0, Nat.zero_le 1, .nil, ?_, .nil, ?_⟩
  · intro k hk
    contradiction
  · intro x hx
    contradiction

theorem Direction.begin (ok : Direction id c s n data acks) (ready : s = c) :
    Direction id c (s + 1) n (data ++ [s]) acks := by
  have h1 := ok.confirmed_le
  have h2 := ok.accepted_le
  refine ⟨h1, by omega, by omega, ?_, ?_, ok.ackOrder, ok.ackBound⟩
  · rw [List.pairwise_append]
    refine ⟨ok.dataOrder, by simp, ?_⟩
    intro k hk m hm
    have hk := (ok.dataBound k hk).1
    have hm : m = s := by simpa using hm
    omega
  · intro k hk
    rcases List.mem_append.mp hk with hk | hk
    · have h3 := ok.dataBound k hk
      omega
    · have h3 : k = s := by simpa using hk
      omega

theorem Direction.again (ok : Direction id c s n data acks) (waiting : s = c + 1) :
    Direction id c s n (data ++ [c]) acks := by
  have h1 := ok.accepted_le
  refine ⟨ok.confirmed_le, h1, ok.sent_le, ?_, ?_, ok.ackOrder, ok.ackBound⟩
  · rw [List.pairwise_append]
    refine ⟨ok.dataOrder, by simp, ?_⟩
    intro k hk m hm
    have hk := (ok.dataBound k hk).1
    have hm : m = c := by simpa using hm
    omega
  · intro k hk
    rcases List.mem_append.mp hk with hk | hk
    · exact ok.dataBound k hk
    · have h3 : k = c := by simpa using hk
      omega

theorem Direction.weaken {data' : List Nat} {acks' : List (ι × Nat)} (ok : Direction id c s n data acks)
    (dataOrder : data'.Pairwise (· ≤ ·)) (dataMem : ∀ k ∈ data', k ∈ data)
    (ackOrder : acks'.Pairwise fun x y => x.2 ≤ y.2) (ackMem : ∀ x ∈ acks', x ∈ acks) :
    Direction id c s n data' acks' :=
  ⟨ok.confirmed_le, ok.accepted_le, ok.sent_le, dataOrder, fun k hk => ok.dataBound k (dataMem k hk),
    ackOrder, fun x hx => ok.ackBound x (ackMem x hx)⟩

theorem Direction.dropData {k : Nat} (ok : Direction id c s n (k :: data) acks) : Direction id c s n data acks :=
  ok.weaken (List.pairwise_cons.mp ok.dataOrder).2 (fun _ h => List.mem_cons_of_mem k h) ok.ackOrder fun _ h => h

theorem Direction.dropAck {x : ι × Nat} (ok : Direction id c s n data (x :: acks)) :
    Direction id c s n data acks :=
  ok.weaken ok.dataOrder (fun _ h => h) (List.pairwise_cons.mp ok.ackOrder).2 fun _ h => List.mem_cons_of_mem x h

/-- Any acknowledgement but the one of the packet the receiver still waits for is harmless. -/
theorem Direction.answer {x : ι} (ok : Direction id c s n data acks) (other : x ≠ id n) :
    Direction id c s n data (acks ++ [(x, n)]) := by
  have h1 := ok.confirmed_le
  refine ⟨h1, ok.accepted_le, ok.sent_le, ok.dataOrder, ok.dataBound, ?_, ?_⟩
  · rw [List.pairwise_append]
    refine ⟨ok.ackOrder, by simp, ?_⟩
    intro y hy z hz
    have hy := (ok.ackBound y hy).2.2
    have hz : z = (x, n) := by simpa using hz
    subst z
    exact hy
  · intro y hy
    rcases List.mem_append.mp hy with hy | hy
    · exact ok.ackBound y hy
    · have hy : y = (x, n) := by simpa using hy
      subst y
      exact ⟨other, h1, Nat.le_refl n⟩

/-- A packet in flight is the next one or the last one taken. -/
theorem Direction.next_or_last {k : Nat} (ok : Direction id c s n data acks) (member : k ∈ data) :
    k = n ∨ k + 1 = n := by
  have h1 := ok.dataBound k member
  have h2 := ok.sent_le
  have h3 := ok.confirmed_le
  omega

theorem Direction.stale {k : Nat} (ok : Direction id c s n data acks) (member : k ∈ data)
    (other : id k ≠ id n) : k + 1 = n := by
  rcases ok.next_or_last member with h | h
  · exact absurd (h ▸ rfl) other
  · exact h

/-- The frame at the head of the line with the awaited id is the next packet. -/
theorem Direction.accept {k : Nat} (alternates : ∀ m, id m ≠ id (m + 1))
    (ok : Direction id c s n (k :: data) acks) (awaited : id k = id n) :
    k = n ∧ Direction id c s (n + 1) data acks := by
  have here : k = n := by
    rcases ok.next_or_last (List.mem_cons_self) with h | h
    · exact h
    · exact absurd (h ▸ awaited) (alternates k)
  subst here
  have bound := ok.dataBound k List.mem_cons_self
  have h1 := ok.confirmed_le
  refine ⟨rfl, by omega, by omega, ok.sent_le, (List.pairwise_cons.mp ok.dataOrder).2, ?_, ok.ackOrder, ?_⟩
  · intro m hm
    have h2 := (List.pairwise_cons.mp ok.dataOrder).1 m hm
    have h3 := ok.dataBound m (List.mem_cons_of_mem k hm)
    omega
  · intro x hx
    obtain ⟨h2, h3, h4⟩ := ok.ackBound x hx
    exact ⟨h2, h3, by omega⟩

/-- An acknowledgement of the packet the sender waits for is written after it was taken. -/
theorem Direction.confirm {t : Nat} (ok : Direction id c s n data ((id c, t) :: acks)) :
    n = c + 1 ∧ Direction id (c + 1) s n data acks := by
  obtain ⟨differs, h1, h2⟩ := ok.ackBound (id c, t) List.mem_cons_self
  have h3 := ok.accepted_le
  have h4 := ok.sent_le
  have later : t ≠ c := by
    rintro rfl
    exact differs rfl
  have taken : n = c + 1 := by
    simp only at h1 h2
    omega
  refine ⟨taken, by omega, h3, by omega, ok.dataOrder, ok.dataBound, (List.pairwise_cons.mp ok.ackOrder).2, ?_⟩
  intro x hx
  have h5 := (List.pairwise_cons.mp ok.ackOrder).1 x hx
  obtain ⟨h6, h7, h8⟩ := ok.ackBound x (List.mem_cons_of_mem _ hx)
  simp only at h1 h5
  exact ⟨h6, by omega, h8⟩

end AlternatingId
