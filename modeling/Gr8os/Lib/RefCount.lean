import Mathlib.Algebra.BigOperators.Group.Finset.Basic

/-! Reference counting: every node has a count, the nodes that are alive refer to other nodes, and a node
whose count reaches zero dies and gives up its own references. -/
namespace RefCount

variable {ν : Type u} [DecidableEq ν]

structure Graph (ν : Type u) where
  alive : Finset ν
  count : ν → Nat
  children : ν → List ν

/-- The references that the living nodes hold on `q`. -/
def Graph.inner (g : Graph ν) (q : ν) : Nat := ∑ o ∈ g.alive, (g.children o).count q

def Graph.take (g : Graph ν) (p : ν) : Graph ν := { g with count := Function.update g.count p (g.count p + 1) }

def Graph.drop (g : Graph ν) (p : ν) : Graph ν := { g with count := Function.update g.count p (g.count p - 1) }

def Graph.kill (g : Graph ν) (p : ν) : Graph ν := { g with alive := g.alive.erase p }

/-- Giving up the references of a list in order: the last one on a node kills it, and what it refers to
is given up before the rest of the list. -/
inductive Releases : Graph ν → List ν → Graph ν → Prop
  | nil (g : Graph ν) : Releases g [] g
  | last {g t u : Graph ν} {p : ν} {ps : List ν} : g.count p = 1 → Releases ((g.drop p).kill p) (g.children p) t →
      Releases t ps u → Releases g (p :: ps) u
  | more {g u : Graph ν} {p : ν} {ps : List ν} : g.count p ≠ 1 → Releases (g.drop p) ps u → Releases g (p :: ps) u

/-- Every count is the number of references from outside and from the living nodes, and the dead have none. -/
structure Graph.Counted (g : Graph ν) (outer : ν → Nat) : Prop where
  exact : ∀ q, g.count q = outer q + g.inner q
  dead : ∀ q ∉ g.alive, g.count q = 0

variable {g t : Graph ν} {outer : ν → Nat} {p q : ν}

theorem Graph.Counted.congr {outer' : ν → Nat} (counted : g.Counted outer) (same : ∀ q, outer q = outer' q) :
    g.Counted outer' :=
  (funext same : outer = outer') ▸ counted

theorem Graph.Counted.alive_of_outer (counted : g.Counted outer) (held : 0 < outer p) : p ∈ g.alive := by
  apply Decidable.byContradiction
  intro dead
  have none := counted.dead p dead
  have exact := counted.exact p
  omega

theorem Graph.inner_mem (g : Graph ν) {o : ν} (alive : o ∈ g.alive) (member : q ∈ g.children o) : 0 < g.inner q := by
  have one : 0 < (g.children o).count q := List.count_pos_iff.mpr member
  have parts := Finset.add_sum_erase g.alive (fun o => (g.children o).count q) alive
  simp only [Graph.inner]
  omega

theorem Graph.Counted.unreferenced (counted : g.Counted outer) (dead : q ∉ g.alive) :
    outer q = 0 ∧ ∀ o ∈ g.alive, q ∉ g.children o := by
  have none := counted.dead q dead
  have exact := counted.exact q
  refine ⟨by omega, fun o alive member => ?_⟩
  have some := g.inner_mem alive member
  omega

theorem Graph.Counted.take (counted : g.Counted outer) (alive : p ∈ g.alive) :
    (g.take p).Counted fun q => outer q + [p].count q := by
  constructor
  · intro q
    have exact := counted.exact q
    rcases Decidable.em (q = p) with rfl | other
    · simp only [Graph.take, Function.update_self, Graph.inner, List.count_singleton_self] at exact ⊢
      omega
    · have apart : [p].count q = 0 := List.count_eq_zero.mpr (by simpa using other)
      simpa [Graph.take, Graph.inner, other, apart] using exact
  · intro q dead
    have other : q ≠ p := fun same => dead (same ▸ alive)
    simpa [Graph.take, other] using counted.dead q dead

theorem Graph.Counted.drop (counted : g.Counted (fun q => outer q + [p].count q)) : (g.drop p).Counted outer := by
  constructor
  · intro q
    have exact := counted.exact q
    rcases Decidable.em (q = p) with rfl | other
    · simp only [Graph.drop, Function.update_self, Graph.inner, List.count_singleton_self] at exact ⊢
      omega
    · have apart : [p].count q = 0 := List.count_eq_zero.mpr (by simpa using other)
      simpa [Graph.drop, Graph.inner, other, apart] using exact
  · intro q dead
    have none := counted.dead q dead
    rcases Decidable.em (q = p) with rfl | other
    · simp [Graph.drop, none]
    · simpa [Graph.drop, other] using none

/-- A node without references dies; its own references are then held from outside. -/
theorem Graph.Counted.kill (counted : g.Counted outer) (alive : p ∈ g.alive) (none : g.count p = 0) :
    (g.kill p).Counted (fun q => outer q + (g.children p).count q) := by
  constructor
  · intro q
    have exact := counted.exact q
    have parts := Finset.add_sum_erase g.alive (fun o => (g.children o).count q) alive
    simp only [Graph.kill, Graph.inner] at exact ⊢
    omega
  · intro q dead
    rcases Decidable.em (q = p) with rfl | other
    · exact none
    · exact counted.dead q fun member => dead (Finset.mem_erase.mpr ⟨other, member⟩)

theorem Releases.counted {ps : List ν} (run : Releases g ps t)
    (counted : g.Counted fun q => outer q + ps.count q) : t.Counted outer := by
  induction run generalizing outer with
  | nil => exact counted.congr fun q => by simp
  | @last g t u p ps one _ _ ihChildren ihRest =>
    have split : g.Counted fun q => (outer q + ps.count q) + [p].count q :=
      counted.congr fun q => by rw [← List.singleton_append, List.count_append]; omega
    have alive : p ∈ g.alive := split.alive_of_outer (by simp)
    have dropped := split.drop
    have killed := dropped.kill alive (by simp [Graph.drop, one])
    exact ihRest (ihChildren killed)
  | @more g u p ps _ _ ihRest =>
    have split : g.Counted fun q => (outer q + ps.count q) + [p].count q :=
      counted.congr fun q => by rw [← List.singleton_append, List.count_append]; omega
    exact ihRest split.drop

theorem Releases.alive {ps : List ν} (run : Releases g ps t) : t.alive ⊆ g.alive := by
  induction run with
  | nil => exact Finset.Subset.refl _
  | @last g _ _ p _ _ _ _ ihChildren ihRest =>
    exact ihRest.trans (ihChildren.trans (Finset.erase_subset p g.alive))
  | more _ _ ihRest => exact ihRest

theorem Releases.append {u : Graph ν} {ps qs : List ν} (front : Releases g ps t) (back : Releases t qs u) :
    Releases g (ps ++ qs) u := by
  induction front with
  | nil => exact back
  | last one children _ _ ih => exact .last one children (ih back)
  | more several _ ih => exact .more several (ih back)

theorem Graph.Counted.create (counted : g.Counted outer) (fresh : p ∉ g.alive) (h : Graph ν)
    (alive : h.alive = insert p g.alive) (count : h.count = Function.update g.count p 1)
    (none : h.children p = []) (children : ∀ o ≠ p, h.children o = g.children o) :
    h.Counted fun q => outer q + [p].count q := by
  have inner : ∀ q, h.inner q = g.inner q := by
    intro q
    simp only [Graph.inner, alive, Finset.sum_insert fresh, none, List.count_nil, Nat.zero_add]
    refine Finset.sum_congr rfl fun o member => ?_
    rw [children o fun same => fresh (same ▸ member)]
  have zero := counted.dead p fresh
  constructor
  · intro q
    have exact := counted.exact q
    rw [count, inner q]
    rcases Decidable.em (q = p) with rfl | other
    · simp only [Function.update_self, List.count_singleton_self]
      omega
    · have apart : [p].count q = 0 := List.count_eq_zero.mpr (by simpa using other)
      simpa [other, apart] using exact
  · intro q dead
    rw [alive, Finset.mem_insert, not_or] at dead
    rw [count, Function.update_of_ne dead.1]
    exact counted.dead q dead.2

/-- A reference from outside is stored in a living node. -/
theorem Graph.Counted.store {o : ν} (counted : g.Counted (fun q => outer q + [p].count q)) (alive : o ∈ g.alive) :
    ({ g with children := Function.update g.children o (g.children o ++ [p]) } : Graph ν).Counted outer := by
  constructor
  · intro q
    have exact := counted.exact q
    have before := Finset.add_sum_erase g.alive (fun o => (g.children o).count q) alive
    have after := Finset.add_sum_erase g.alive
      (fun i => ((Function.update g.children o (g.children o ++ [p])) i).count q) alive
    have others : ∑ i ∈ g.alive.erase o, ((Function.update g.children o (g.children o ++ [p])) i).count q =
        ∑ i ∈ g.alive.erase o, (g.children i).count q := by
      refine Finset.sum_congr rfl fun i member => ?_
      rw [Function.update_of_ne (Finset.mem_erase.mp member).1]
    simp only [Function.update_self, List.count_append] at after
    simp only [Graph.inner] at exact ⊢
    omega
  · exact counted.dead

end RefCount
