import Mathlib.Data.Set.Finite.Basic
import Mathlib.Logic.Relation
import Mathlib.Order.WellFoundedSet

/-! Walking a path through a tree of names whose links restart the walk at their target. -/
namespace PathWalk

variable {ν : Type u} {κ : Type v}

/-- What a name stands for in a directory. -/
inductive Entry (ν : Type u)
  | missing
  | branch (d : ν)
  | leaf (o : ν)
  | stop (o : ν)
  | link (o : ν)
deriving DecidableEq

structure Tree (ν : Type u) (κ : Type v) where
  root : ν
  lookup : ν → κ → Entry ν
  target : ν → List κ

inductive Result (ν : Type u) (κ : Type v)
  | found (o : ν) (rest : List κ)
  | notFound
deriving DecidableEq

/-- The reference walk, one name at a time. -/
inductive Walk (T : Tree ν κ) : ν → List κ → Result ν κ → Prop
  | done (d : ν) : Walk T d [] (.found d [])
  | missing {d : ν} {c : κ} {cs : List κ} : T.lookup d c = .missing → Walk T d (c :: cs) .notFound
  | branch {d e : ν} {c : κ} {cs : List κ} {r : Result ν κ} :
      T.lookup d c = .branch e → Walk T e cs r → Walk T d (c :: cs) r
  | leaf {d o : ν} {c : κ} : T.lookup d c = .leaf o → Walk T d [c] (.found o [])
  | middle {d o : ν} {c b : κ} {cs : List κ} : T.lookup d c = .leaf o → Walk T d (c :: b :: cs) .notFound
  | stop {d o : ν} {c : κ} {cs : List κ} : T.lookup d c = .stop o → Walk T d (c :: cs) (.found o cs)
  | link {d o : ν} {c : κ} {cs : List κ} {r : Result ν κ} :
      T.lookup d c = .link o → Walk T T.root (T.target o ++ cs) r → Walk T d (c :: cs) r

theorem Walk.unique {T : Tree ν κ} {d : ν} {cs : List κ} {r r' : Result ν κ} (first : Walk T d cs r)
    (second : Walk T d cs r') : r = r' := by
  induction first generalizing r' with
  | done => cases second; rfl
  | missing h => cases second <;> simp_all
  | branch h _ ih =>
    cases second with
    | branch h' rest =>
      cases Entry.branch.inj (h.symm.trans h')
      exact ih rest
    | _ => simp_all
  | leaf h =>
    cases second with
    | leaf h' =>
      cases Entry.leaf.inj (h.symm.trans h')
      rfl
    | _ => simp_all
  | middle h => cases second <;> simp_all
  | stop h =>
    cases second with
    | stop h' =>
      cases Entry.stop.inj (h.symm.trans h')
      rfl
    | _ => simp_all
  | link h _ ih =>
    cases second with
    | link h' rest =>
      cases Entry.link.inj (h.symm.trans h')
      exact ih rest
    | _ => simp_all

/-- One name is consumed and the walk goes on. -/
inductive Moves (T : Tree ν κ) : ν × List κ → ν × List κ → Prop
  | branch {d e : ν} {c : κ} {cs : List κ} : T.lookup d c = .branch e → Moves T (d, c :: cs) (e, cs)
  | link {d o : ν} {c : κ} {cs : List κ} :
      T.lookup d c = .link o → Moves T (d, c :: cs) (T.root, T.target o ++ cs)

abbrev Reach (T : Tree ν κ) : ν × List κ → ν × List κ → Prop := Relation.ReflTransGen (Moves T)

/-- The one place a walk can go on to. -/
def Tree.next (T : Tree ν κ) : ν × List κ → Option (ν × List κ)
  | (_, []) => none
  | (d, c :: cs) =>
    match T.lookup d c with
    | .branch e => some (e, cs)
    | .link o => some (T.root, T.target o ++ cs)
    | _ => none

theorem moves_next {T : Tree ν κ} {x y : ν × List κ} (move : Moves T x y) : T.next x = some y := by
  cases move with
  | branch h => simp [Tree.next, h]
  | link h => simp [Tree.next, h]

/-- A place that a walk reaches is where it stands or lies beyond its next place. -/
theorem Reach.head {T : Tree ν κ} {x y : ν × List κ} (reached : Reach T x y) :
    y = x ∨ ∃ z, T.next x = some z ∧ Reach T z y := by
  rcases Relation.ReflTransGen.cases_head reached with same | ⟨z, move, rest⟩
  · exact .inl same.symm
  · exact .inr ⟨z, moves_next move, rest⟩

theorem Reach.extend {T : Tree ν κ} {x y : ν × List κ} (h : Reach T x y) (rest : List κ) :
    Reach T (x.1, x.2 ++ rest) (y.1, y.2 ++ rest) := by
  induction h with
  | refl => exact .refl
  | tail _ move ih =>
    refine ih.tail ?_
    cases move with
    | branch h => exact .branch h
    | @link d o c cs h =>
      have moved : Moves T (d, c :: (cs ++ rest)) (T.root, T.target o ++ (cs ++ rest)) := .link h
      simpa using moved

/-- Resolving the target of link `l` meets link `m`, directly or through other links. -/
def Meets (T : Tree ν κ) (l m : ν) : Prop :=
  ∃ d c cs, Reach T (T.root, T.target l) (d, c :: cs) ∧ T.lookup d c = .link m

theorem Meets.trans {T : Tree ν κ} {l m k : ν} (first : Meets T l m) (second : Meets T m k) : Meets T l k := by
  obtain ⟨d, c, cs, reached, link⟩ := first
  obtain ⟨e, b, bs, reached', link'⟩ := second
  have restart : Reach T (T.root, T.target l) (T.root, T.target m ++ cs) := reached.tail (.link link)
  exact ⟨e, b, bs ++ cs, restart.trans (reached'.extend cs), link'⟩

/-- No link is met while its own target is resolved. -/
def Acyclic (T : Tree ν κ) : Prop := ∀ l, ¬ Meets T l l

def IsLink (T : Tree ν κ) (m : ν) : Prop := ∃ d c, T.lookup d c = .link m

theorem Acyclic.wellFounded {T : Tree ν κ} (acyclic : Acyclic T) (finite : {m | IsLink T m}.Finite) :
    {m | IsLink T m}.WellFoundedOn fun m l => Meets T l m := by
  have : IsStrictOrder ν fun m l => Meets T l m :=
    { irrefl := acyclic, trans := fun _ _ _ h1 h2 => h2.trans h1 }
  exact finite.wellFoundedOn

/-- If every link that a walk meets can be followed by anything that terminates, so can the walk itself. -/
theorem walk_append {T : Tree ν κ} {rest : List κ} (cs : List κ) (d : ν)
    (follow : ∀ m e b bs, Reach T (d, cs) (e, b :: bs) → T.lookup e b = .link m →
      ∀ after, (∀ e', Reach T (T.root, T.target m) (e', []) → ∃ r, Walk T e' after r) →
        ∃ r, Walk T T.root (T.target m ++ after) r)
    (go : ∀ e, Reach T (d, cs) (e, []) → ∃ r, Walk T e rest r) : ∃ r, Walk T d (cs ++ rest) r := by
  induction cs generalizing d with
  | nil => exact go d .refl
  | cons c cs ih =>
    cases entry : T.lookup d c with
    | missing => exact ⟨_, .missing entry⟩
    | leaf o =>
      cases more : cs ++ rest with
      | nil => exact ⟨_, by rw [List.cons_append, more]; exact .leaf entry⟩
      | cons b bs => exact ⟨_, by rw [List.cons_append, more]; exact .middle entry⟩
    | stop o => exact ⟨_, .stop entry⟩
    | branch e =>
      have step : Reach T (d, c :: cs) (e, cs) := .single (.branch entry)
      obtain ⟨r, walk⟩ := ih e (fun m e' b bs reached => follow m e' b bs (step.trans reached))
        fun e' reached => go e' (step.trans reached)
      exact ⟨r, .branch entry walk⟩
    | link m =>
      have step : Reach T (d, c :: cs) (T.root, T.target m ++ cs) := .single (.link entry)
      obtain ⟨r, walk⟩ := follow m d c cs .refl entry (cs ++ rest) fun e' reached => by
        have there : Reach T (d, c :: cs) (e', cs) := step.trans (reached.extend cs)
        exact ih e' (fun m' e'' b bs r' => follow m' e'' b bs (there.trans r')) fun e'' r' => go e'' (there.trans r')
      exact ⟨r, .link entry walk⟩

/-- Without cycles every walk ends: the induction is on the links, outermost last. -/
theorem walk_total {T : Tree ν κ} (acyclic : Acyclic T) (finite : {m | IsLink T m}.Finite) (d : ν)
    (cs : List κ) : ∃ r, Walk T d cs r := by
  have links : ∀ m, IsLink T m → ∀ after, (∀ e', Reach T (T.root, T.target m) (e', []) → ∃ r, Walk T e' after r) →
      ∃ r, Walk T T.root (T.target m ++ after) r := by
    intro m isLink
    refine (acyclic.wellFounded finite).induction (P := fun m => ∀ after,
      (∀ e', Reach T (T.root, T.target m) (e', []) → ∃ r, Walk T e' after r) →
        ∃ r, Walk T T.root (T.target m ++ after) r) isLink ?_
    intro l _ ih after go
    refine walk_append (T.target l) T.root ?_ go
    intro k e b bs reached link
    exact ih k ⟨e, b, link⟩ ⟨e, b, bs, reached, link⟩
  have whole : ∃ r, Walk T d (cs ++ []) r := by
    refine walk_append cs d ?_ fun e _ => ⟨_, .done e⟩
    intro m e b bs _ link
    exact links m ⟨e, b, link⟩
  rwa [List.append_nil] at whole

/-! Walks whose links are known to resolve. -/

theorem Walk.append {T : Tree ν κ} {d : ν} {cs rest : List κ} {r : Result ν κ} (walk : Walk T d cs r)
    (go : ∀ e, ∃ r, Walk T e rest r) : ∃ r, Walk T d (cs ++ rest) r := by
  induction walk with
  | done d => exact go d
  | missing entry => exact ⟨_, .missing entry⟩
  | branch entry _ ih =>
    obtain ⟨r, walk⟩ := ih
    exact ⟨r, .branch entry walk⟩
  | leaf entry =>
    cases rest with
    | nil => exact ⟨_, .leaf entry⟩
    | cons b bs => exact ⟨_, .middle entry⟩
  | middle entry => exact ⟨_, .middle entry⟩
  | stop entry => exact ⟨_, .stop entry⟩
  | link entry _ ih =>
    obtain ⟨r, walk⟩ := ih
    rw [List.append_assoc] at walk
    exact ⟨r, .link entry walk⟩

/-- When the target of every link can be walked, so can every path. -/
theorem walk_of_links {T : Tree ν κ} (links : ∀ m, IsLink T m → ∃ r, Walk T T.root (T.target m) r) (d : ν)
    (cs : List κ) : ∃ r, Walk T d cs r := by
  induction cs generalizing d with
  | nil => exact ⟨_, .done d⟩
  | cons c cs ih =>
    cases entry : T.lookup d c with
    | missing => exact ⟨_, .missing entry⟩
    | leaf o =>
      cases cs with
      | nil => exact ⟨_, .leaf entry⟩
      | cons b bs => exact ⟨_, .middle entry⟩
    | stop o => exact ⟨_, .stop entry⟩
    | branch e =>
      obtain ⟨r, walk⟩ := ih e
      exact ⟨r, .branch entry walk⟩
    | link m =>
      obtain ⟨r, target⟩ := links m ⟨d, c, entry⟩
      obtain ⟨r, walk⟩ := target.append ih
      exact ⟨r, .link entry walk⟩

/-- A walk that finds something looks up no missing name, and it stays when all it looks up stays. -/
theorem Walk.carry {T T' : Tree ν κ} {d o : ν} {cs rest : List κ} (walk : Walk T d cs (.found o rest))
    (root : T'.root = T.root)
    (same : ∀ e b bs, Reach T (d, cs) (e, b :: bs) → T.lookup e b ≠ .missing → T'.lookup e b = T.lookup e b)
    (target : ∀ e b bs m, Reach T (d, cs) (e, b :: bs) → T.lookup e b = .link m → T'.target m = T.target m) :
    Walk T' d cs (.found o rest) := by
  generalize found : Result.found o rest = r at walk
  induction walk with
  | done d =>
    cases found
    exact .done _
  | missing => exact absurd found (by simp)
  | middle => exact absurd found (by simp)
  | @branch d e c cs r entry _ ih =>
    have step : Reach T (d, c :: cs) (e, cs) := .single (.branch entry)
    have here := same d c cs .refl (by simp [entry])
    refine .branch (here.trans entry) (ih ?_ ?_ found)
    · intro e' b bs reached
      exact same e' b bs (step.trans reached)
    · intro e' b bs m reached
      exact target e' b bs m (step.trans reached)
  | leaf entry =>
    cases found
    exact .leaf ((same _ _ _ .refl (by simp [entry])).trans entry)
  | stop entry =>
    cases found
    exact .stop ((same _ _ _ .refl (by simp [entry])).trans entry)
  | @link d m c cs r entry _ ih =>
    have step : Reach T (d, c :: cs) (T.root, T.target m ++ cs) := .single (.link entry)
    have here := same d c cs .refl (by simp [entry])
    refine .link (here.trans entry) ?_
    rw [root, target d c cs m .refl entry]
    refine ih ?_ ?_ found
    · intro e' b bs reached
      exact same e' b bs (step.trans reached)
    · intro e' b bs m reached
      exact target e' b bs m (step.trans reached)

end PathWalk
