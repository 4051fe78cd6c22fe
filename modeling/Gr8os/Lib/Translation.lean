import Gr8os.Lib.Run
import Mathlib.Data.List.Nodup

/-! Memory behind one virtual page whose translation may be stale. The table maps the page to a frame; an access
may use the translation that the processor holds instead, until it is invalidated. -/
namespace Translation

open Runs

variable {F : Type u} {O : Type v} {V : Type w}

/-- `held` is the translation in the processor, `written` the frames written to so far. -/
structure Memory (F : Type u) (O : Type v) (V : Type w) where
  contents : F → O → V
  held : Option F
  written : List F

namespace Memory

/-- Before the first access. -/
def start (m : Memory F O V) : Memory F O V := { m with written := [] }

def hold (m : Memory F O V) (f : F) : Memory F O V := { m with held := some f }

/-- The frame that one access goes to. -/
inductive Translates (mapped : F) (m : Memory F O V) : F → Memory F O V → Prop
  | kept {f : F} : m.held = some f → Translates mapped m f m
  | walked : Translates mapped m mapped (m.hold mapped)

variable [DecidableEq F] [DecidableEq O]

def store (m : Memory F O V) (f : F) (o : O) (v : V) : Memory F O V :=
  { m with
    contents := fun g p => if g = f ∧ p = o then v else m.contents g p
    written := m.written ++ [f] }

/-- One write through the page. -/
def Stores (mapped : F) (v : V) (m : Memory F O V) (o : O) (t : Memory F O V) : Prop :=
  ∃ f u, Translates mapped m f u ∧ t = u.store f o v

/-- The page is mapped to a frame and filled with one value. -/
def Fills (offsets : List O) (v : V) (m : Memory F O V) (f : F) (t : Memory F O V) : Prop :=
  Run (Stores f v) m offsets t

def Filled (offsets : List O) (v : V) (m : Memory F O V) (f : F) : Prop := ∀ o ∈ offsets, m.contents f o = v

/-- Every one of the frames is filled and no other frame is written to. -/
structure FilledExactly (offsets : List O) (v : V) (frames : List F) (t : Memory F O V) : Prop where
  filled : ∀ f ∈ frames, t.Filled offsets v f
  confined : ∀ f ∈ t.written, f ∈ frames

/-- The frames but the first hold the value already, and so does the first one if the translation that is
held is that of another frame of the list. -/
def Settled (offsets : List O) (v : V) (m : Memory F O V) : List F → Prop
  | [] => True
  | first :: rest => (∀ f ∈ rest, m.Filled offsets v f) ∧
      (m.held = none ∨ m.held = some first ∨ (m.Filled offsets v first ∧ ∃ f ∈ rest, m.held = some f))

variable {m t : Memory F O V} {mapped c f : F} {v : V} {o : O} {offsets : List O} {frames : List F}

/-- A write of the value anywhere leaves what holds it. -/
theorem Stores.keeps (step : Stores mapped v m o t) {p : O} (here : m.contents f p = v) : t.contents f p = v := by
  obtain ⟨g, u, translates, rfl⟩ := step
  have same : u.contents = m.contents := by cases translates <;> rfl
  simp only [store, same, here, ite_self]

theorem Fills.keeps (fills : Fills offsets v m mapped t) {p : O} (here : m.contents f p = v) : t.contents f p = v :=
  Run.invariant (I := fun u => u.contents f p = v) (fun here step => step.keeps here) fills here

theorem Filled.run {others : List O} (run : Run (Fills others v) m frames t) (filled : m.Filled offsets v f) :
    t.Filled offsets v f :=
  Run.invariant (I := fun u => u.Filled offsets v f) (fun filled fills o member => fills.keeps (filled o member)) run
    filled

/-- An access goes to the held frame or to the mapped one, and holds it from then on. -/
theorem Stores.reached {allowed : F → Prop} (step : Stores mapped v m o t) (current : allowed mapped)
    (held : ∀ f, m.held = some f → allowed f) (before : ∀ f ∈ m.written, allowed f) :
    (∀ f, t.held = some f → allowed f) ∧ ∀ f ∈ t.written, allowed f := by
  obtain ⟨g, u, translates, rfl⟩ := step
  cases translates with
  | kept here =>
    refine ⟨held, fun f member => ?_⟩
    rcases List.mem_append.mp member with earlier | now
    · exact before f earlier
    · rw [List.mem_singleton.mp now]
      exact held g here
  | walked =>
    refine ⟨fun f here => Option.some.inj here ▸ current, fun f member => ?_⟩
    rcases List.mem_append.mp member with earlier | now
    · exact before f earlier
    · rw [List.mem_singleton.mp now]
      exact current

theorem Fills.reached {allowed : F → Prop} (fills : Fills offsets v m mapped t) (current : allowed mapped)
    (held : ∀ f, m.held = some f → allowed f) (before : ∀ f ∈ m.written, allowed f) :
    (∀ f, t.held = some f → allowed f) ∧ ∀ f ∈ t.written, allowed f :=
  Run.invariant (I := fun u : Memory F O V => (∀ f, u.held = some f → allowed f) ∧ ∀ f ∈ u.written, allowed f)
    (fun both step => step.reached current both.1 both.2) fills ⟨held, before⟩

/-- With no other translation held the mapped frame is filled. -/
theorem Fills.sure (fills : Fills offsets v m f t) (held : ∀ g, m.held = some g → g = f) : t.Filled offsets v f := by
  induction fills with
  | done m => exact fun o member => absurd member List.not_mem_nil
  | @next m u t o offsets step rest ih =>
    have same : Stores f v m o u := step
    obtain ⟨g, w, translates, rfl⟩ := step
    have here : g = f ∧ ∀ g, w.held = some g → g = f := by
      cases translates with
      | kept holds => exact ⟨held g holds, held⟩
      | walked => exact ⟨rfl, fun g holds => (Option.some.inj holds).symm⟩
    obtain ⟨rfl, held⟩ := here
    intro p member
    rcases List.mem_cons.mp member with rfl | later
    · exact Fills.keeps rest (if_pos ⟨rfl, rfl⟩)
    · exact ih held p later

/-- The access may go on using the translation that is held. -/
theorem fills_held (mapped : F) (v : V) (offsets : List O) (held : m.held = some c) :
    ∃ t, Fills offsets v m mapped t ∧ t.held = some c ∧ (∀ f ≠ c, t.contents f = m.contents f) ∧
      (∀ f ∈ m.written, f ∈ t.written) ∧ (offsets ≠ [] → c ∈ t.written) := by
  induction offsets generalizing m with
  | nil => exact ⟨m, .done m, held, fun _ _ => rfl, fun _ => id, fun some => absurd rfl some⟩
  | cons o offsets ih =>
    obtain ⟨t, fills, holds, others, logged, -⟩ := ih (m := m.store c o v) held
    refine ⟨t, .next ⟨c, m, .kept held, rfl⟩ fills, holds, fun f other => ?_, fun f member => ?_, fun _ => ?_⟩
    · rw [others f other]
      funext p
      exact if_neg fun both => other both.1
    · exact logged f (List.mem_append.mpr (.inl member))
    · exact logged c (List.mem_append.mpr (.inr (List.mem_singleton.mpr rfl)))

theorem run_held (frames : List F) (v : V) (filling : offsets ≠ []) (held : m.held = some c) :
    ∃ t, Run (Fills offsets v) m frames t ∧ (∀ f ≠ c, t.contents f = m.contents f) ∧
      (∀ f ∈ m.written, f ∈ t.written) ∧ (frames ≠ [] → c ∈ t.written) := by
  induction frames generalizing m with
  | nil => exact ⟨m, .done m, fun _ _ => rfl, fun _ => id, fun some => absurd rfl some⟩
  | cons f frames ih =>
    obtain ⟨u, fills, holds, others, logged, now⟩ := fills_held f v offsets held
    obtain ⟨t, run, later, kept, -⟩ := ih holds
    refine ⟨t, .next fills run, fun g other => (later g other).trans (others g other), ?_, ?_⟩
    · exact fun g member => kept g (logged g member)
    · exact fun _ => kept c (now filling)

/-- What a first access may do with the mapped frame held, it may do without. -/
theorem Stores.of_hold (step : Stores f v (m.hold f) o t) : Stores f v m o t := by
  obtain ⟨g, u, translates, rfl⟩ := step
  cases translates with
  | kept holds =>
    cases Option.some.inj holds
    exact ⟨f, m.hold f, .walked, rfl⟩
  | walked => exact ⟨f, m.hold f, .walked, rfl⟩

theorem run_of_hold (filling : offsets ≠ []) (run : Run (Fills offsets v) (m.hold f) (f :: frames) t) :
    Run (Fills offsets v) m (f :: frames) t := by
  cases run with
  | next fills rest =>
    cases fills with
    | done => exact absurd rfl filling
    | next first later => exact .next (.next first.of_hold later) rest

theorem exists_run (m : Memory F O V) (frames : List F) (v : V) (filling : offsets ≠ []) :
    ∃ t, Run (Fills offsets v) m frames t := by
  cases frames with
  | nil => exact ⟨m, .done m⟩
  | cons first rest =>
    obtain ⟨t, run, -⟩ := run_held (m := m.hold first) (first :: rest) v filling rfl
    exact ⟨t, run_of_hold filling run⟩

theorem run_reached {allowed : F → Prop} (run : Run (Fills offsets v) m frames t) (inside : ∀ f ∈ frames, allowed f)
    (held : ∀ f, m.held = some f → allowed f) (before : ∀ f ∈ m.written, allowed f) : ∀ f ∈ t.written, allowed f := by
  induction run with
  | done m => exact before
  | next fills _ ih =>
    obtain ⟨held, before⟩ := Fills.reached fills (inside _ List.mem_cons_self) held before
    exact ih (fun f member => inside f (List.mem_cons_of_mem _ member)) held before

theorem Settled.filledExactly (settled : Settled offsets v m frames) (started : m.written = [])
    (run : Run (Fills offsets v) m frames t) : FilledExactly offsets v frames t := by
  have before : ∀ f ∈ m.written, f ∈ frames := by simp [started]
  cases run with
  | done => exact ⟨by simp, before⟩
  | @next m u t first rest fills run =>
    obtain ⟨others, held⟩ := settled
    have held : (∀ g, m.held = some g → g = first) ∨
        (m.Filled offsets v first ∧ ∃ f ∈ rest, m.held = some f) := by
      rcases held with none | first | other
      · exact .inl fun g here => absurd (none.symm.trans here) (by simp)
      · exact .inl fun g here => Option.some.inj (here.symm.trans first)
      · exact .inr other
    constructor
    · intro f member
      rcases List.mem_cons.mp member with rfl | later
      · rcases held with sure | ⟨already, -⟩
        · exact (Fills.sure fills sure).run run
        · exact already.run (.next fills run)
      · exact (others f later).run (.next fills run)
    · refine run_reached (.next fills run) (fun f member => member) (fun f here => ?_) before
      rcases held with sure | ⟨-, other, member, there⟩
      · exact List.mem_cons.mpr (.inl (sure f here))
      · exact List.mem_cons.mpr (.inr (Option.some.inj (here.symm.trans there) ▸ member))

theorem settled_of_filledExactly (nodup : frames.Nodup) (filling : offsets ≠ [])
    (always : ∀ t, Run (Fills offsets v) m frames t → FilledExactly offsets v frames t) : Settled offsets v m frames := by
  cases frames with
  | nil => trivial
  | cons first rest =>
    obtain ⟨fresh, -⟩ := List.nodup_cons.mp nodup
    constructor
    · intro f member
      have other : f ≠ first := fun same => fresh (same ▸ member)
      obtain ⟨t, run, others, -⟩ := run_held (m := m.hold first) (first :: rest) v filling rfl
      have filled := (always t (run_of_hold filling run)).filled f (List.mem_cons_of_mem _ member)
      intro o here
      rw [← filled o here, others f other]
      rfl
    · cases held : m.held with
      | none => exact .inl rfl
      | some c =>
        by_cases same : c = first
        · exact .inr (.inl (same ▸ rfl))
        · obtain ⟨t, run, others, -, now⟩ := run_held (first :: rest) v filling held
          have result := always t run
          have member : c ∈ rest :=
            (List.mem_cons.mp (result.confined c (now (List.cons_ne_nil _ _)))).resolve_left same
          refine .inr (.inr ⟨fun o here => ?_, c, member, rfl⟩)
          rw [← result.filled first List.mem_cons_self o here, others first (Ne.symm same)]

/-- The frames are filled exactly, whatever the processor does, if and only if there is next to nothing to do. -/
theorem filledExactly_iff (nodup : frames.Nodup) (filling : offsets ≠ []) (started : m.written = []) :
    (∀ t, Run (Fills offsets v) m frames t → FilledExactly offsets v frames t) ↔ Settled offsets v m frames :=
  ⟨settled_of_filledExactly nodup filling, fun settled _ => settled.filledExactly started⟩

end Memory

end Translation
