import Gr8os.Se.Token

/-! How far inheritance keeps privileges within those of the source token. -/
namespace Gr8os.Se

open Bits

/-- The two privilege words of every token, in the order the tokens were made. -/
def words (tokens : List AccessToken) : List (BitVec 32 × BitVec 32) :=
  tokens.map fun t => (t.privileges1, t.privileges2)

/-- Both words of the first pair are subsets of the second pair's. -/
def Within (w v : BitVec 32 × BitVec 32) : Prop := bits w.1 ⊆ bits v.1 ∧ bits w.2 ⊆ bits v.2

theorem within_refl (w : BitVec 32 × BitVec 32) : Within w w := ⟨subset_rfl, subset_rfl⟩

theorem Within.trans {u v w : BitVec 32 × BitVec 32} (h : Within u v) (k : Within v w) : Within u w :=
  ⟨h.1.trans k.1, h.2.trans k.2⟩

def requested (r : Request) : BitVec 32 × BitVec 32 := (r.maximumPrivileges1, r.maximumPrivileges2)

def sourceWords (s : SeState) (r : Request) : BitVec 32 × BitVec 32 :=
  let token := s.tokens[sourceToken s r]
  (token.privileges1, token.privileges2)

theorem raised_eq_zero_iff (x y : BitVec 32) : raised x y = 0 ↔ bits y ⊆ bits x :=
  xor_and_not_eq_zero_iff x y

theorem inherit_cases (s : SeState) (r : Request) :
    (¬ bits r.maximumPrivileges1 ⊆ bits (sourceWords s r).1 ∧
      inherit s r = ⟨.accessDenied, none, s.tokens⟩) ∨
    (bits r.maximumPrivileges1 ⊆ bits (sourceWords s r).1 ∧ requested r ≠ sourceWords s r ∧
      inherit s r = ⟨.insufficientResources, none, s.tokens⟩) ∨
    (bits r.maximumPrivileges1 ⊆ bits (sourceWords s r).1 ∧ requested r ≠ sourceWords s r ∧
      ∃ token, (token.privileges1, token.privileges2) = requested r ∧
        inherit s r = ⟨.success, some s.tokens.length, s.tokens ++ [token]⟩) ∨
    (requested r = sourceWords s r ∧
      ∃ token, (token.privileges1, token.privileges2) = sourceWords s r ∧
        inherit s r = ⟨.success, some (sourceToken s r), s.tokens.set (sourceToken s r) token⟩) := by
  rw [inherit_eq]
  unfold sepInheritAccessToken
  by_cases same : requested r = sourceWords s r
  · have h1 : s.tokens[sourceToken s r].privileges1 = r.maximumPrivileges1 := (congrArg Prod.fst same).symm
    have h2 : s.tokens[sourceToken s r].privileges2 = r.maximumPrivileges2 := (congrArg Prod.snd same).symm
    have equal : ¬ (s.tokens[sourceToken s r].privileges1 ≠ r.maximumPrivileges1 ∨
        s.tokens[sourceToken s r].privileges2 ≠ r.maximumPrivileges2) := by
      simp only [h1, h2, ne_eq, not_true_eq_false, or_self, not_false_eq_true]
    let shared : AccessToken :=
      { s.tokens[sourceToken s r] with
        shareCount := s.tokens[sourceToken s r].shareCount + 1, exclusive := false }
    exact .inr (.inr (.inr ⟨same, shared, rfl, if_neg equal⟩))
  · have differ : s.tokens[sourceToken s r].privileges1 ≠ r.maximumPrivileges1 ∨
        s.tokens[sourceToken s r].privileges2 ≠ r.maximumPrivileges2 := by
      by_contra equal
      simp only [not_or, not_not] at equal
      exact same (Prod.ext equal.1.symm equal.2.symm)
    simp only [if_pos differ, or_self]
    by_cases fits : bits r.maximumPrivileges1 ⊆ bits (sourceWords s r).1
    · have clear : ¬ raised s.tokens[sourceToken s r].privileges1 r.maximumPrivileges1 ≠ 0 :=
        not_not.mpr ((raised_eq_zero_iff _ _).mpr fits)
      simp only [if_neg clear]
      cases r.allocated with
      | false => exact .inr (.inl ⟨fits, same, rfl⟩)
      | true => exact .inr (.inr (.inl ⟨fits, same, _, rfl, rfl⟩))
    · have high : raised s.tokens[sourceToken s r].privileges1 r.maximumPrivileges1 ≠ 0 :=
        mt (raised_eq_zero_iff _ _).mp fits
      exact .inl ⟨fits, by simp only [if_pos high]⟩

theorem words_source (s : SeState) (r : Request) :
    (words s.tokens)[(sourceToken s r : Nat)]? = some (sourceWords s r) := by
  simp [words, sourceWords]

theorem set_getElem?_self {α : Type u} {xs : List α} {i : Nat} {x : α} (h : xs[i]? = some x) :
    xs.set i x = xs := by
  obtain ⟨hi, rfl⟩ := List.getElem?_eq_some_iff.mp h
  exact List.set_getElem_self hi

/-- Inheriting never rewrites the privileges of a token that exists. -/
theorem inherit_words (s : SeState) (r : Request) : words s.tokens <+: words (inherit s r).tokens := by
  rcases inherit_cases s r with ⟨_, h⟩ | ⟨_, _, h⟩ | ⟨_, _, token, _, h⟩ | ⟨_, token, ht, h⟩
  · exact h.symm ▸ List.prefix_rfl
  · exact h.symm ▸ List.prefix_rfl
  · rw [h]
    exact ⟨words [token], by simp [words]⟩
  · have unchanged : words (s.tokens.set (sourceToken s r) token) = words s.tokens := by
      simp only [words, List.map_set, ht]
      exact set_getElem?_self (words_source s r)
    rw [h]
    exact unchanged ▸ List.prefix_rfl

theorem inherit_length (s : SeState) (r : Request) : s.tokens.length ≤ (inherit s r).tokens.length := by
  have grown := (inherit_words s r).length_le
  simpa only [words, List.length_map] using grown

theorem newToken_live {s : SeState} {r : Request} {token : Nat}
    (made : (inherit s r).newToken = some token) : token < (inherit s r).tokens.length := by
  rcases inherit_cases s r with ⟨_, h⟩ | ⟨_, _, h⟩ | ⟨_, _, new, _, h⟩ | ⟨_, new, _, h⟩
  · simp [h] at made
  · simp [h] at made
  · rw [h] at made ⊢
    have ht : s.tokens.length = token := Option.some.inj made
    simp [← ht]
  · rw [h] at made ⊢
    have ht : (sourceToken s r : Nat) = token := Option.some.inj made
    simp [← ht, List.length_set]

/-- The receiver runs under the new token, when there is one. -/
def next (s : SeState) (r : Request) : SeState where
  tokens := (inherit s r).tokens
  accessToken := fun owner =>
    if owner = r.receiver then (inherit s r).newToken.getD (s.accessToken owner) else s.accessToken owner
  live := by
    intro owner
    have kept := Nat.lt_of_lt_of_le (s.live owner) (inherit_length s r)
    split
    · cases h : (inherit s r).newToken with
      | none => exact kept
      | some token => exact newToken_live h
    · exact kept

/-- A request together with the state it was made in. -/
structure Call where
  before : SeState
  request : Request

def Call.result (c : Call) : Inherited := inherit c.before c.request

def Call.source (c : Call) : Nat := sourceToken c.before c.request

def calls (s : SeState) : List Request → List Call
  | [] => []
  | r :: rs => ⟨s, r⟩ :: calls (next s r) rs

def final (s : SeState) : List Request → SeState
  | [] => s
  | r :: rs => final (next s r) rs

theorem final_words (s : SeState) (rs : List Request) :
    words s.tokens <+: words (final s rs).tokens := by
  induction rs generalizing s with
  | nil => exact List.prefix_rfl
  | cons r rs ih => exact (inherit_words s r).trans (ih (next s r))

theorem call_words {s : SeState} {rs : List Request} {c : Call} (made : c ∈ calls s rs) :
    words c.before.tokens <+: words (final s rs).tokens ∧
      words c.result.tokens <+: words (final s rs).tokens := by
  induction rs generalizing s with
  | nil => simp [calls] at made
  | cons r rs ih =>
    rcases List.mem_cons.mp made with rfl | made
    · exact ⟨final_words s (r :: rs), final_words (next s r) rs⟩
    · exact ih made

/-- One token was obtained from another by a successful call. -/
def Obtained (s : SeState) (rs : List Request) (earlier later : Nat) : Prop :=
  ∃ c ∈ calls s rs, c.source = earlier ∧ c.result.newToken = some later

/-- Along every chain of inheritances both words only lose bits. -/
def ChainsNarrow (s : SeState) (rs : List Request) : Prop :=
  ∀ earlier later v w, Relation.ReflTransGen (Obtained s rs) earlier later →
    (words (final s rs).tokens)[earlier]? = some v →
    (words (final s rs).tokens)[later]? = some w → Within w v

/-- A request for a bit the source lacks is denied and makes no token. -/
def RaisesDenied (s : SeState) (rs : List Request) : Prop :=
  ∀ c ∈ calls s rs, ¬ Within (requested c.request) (sourceWords c.before c.request) →
    c.result = ⟨.accessDenied, none, c.before.tokens⟩

/-- The second requested word is within the source's, or the first one already is not. -/
def SecondWordCovered (c : Call) : Prop :=
  bits c.request.maximumPrivileges1 ⊆ bits (sourceWords c.before c.request).1 →
    bits c.request.maximumPrivileges2 ⊆ bits (sourceWords c.before c.request).2

/-- A covered request that yields a token yields one within its source. -/
theorem covered_narrows {c : Call} {new : Nat} (covered : SecondWordCovered c)
    (made : c.result.newToken = some new) :
    ∃ w, (words c.result.tokens)[new]? = some w ∧ Within w (sourceWords c.before c.request) := by
  unfold Call.result at made ⊢
  rcases inherit_cases c.before c.request with ⟨_, h⟩ | ⟨_, _, h⟩ | ⟨fits, _, token, ht, h⟩ | ⟨_, token, ht, h⟩
  · simp [h] at made
  · simp [h] at made
  · have hnew : c.before.tokens.length = new := by simpa [h] using made
    refine ⟨requested c.request, ?_, fits, covered fits⟩
    simp [h, words, ← hnew, ht]
  · have hnew : (sourceToken c.before c.request : Nat) = new := by simpa [h] using made
    refine ⟨sourceWords c.before c.request, ?_, within_refl _⟩
    simp [h, words, ← hnew, ht]

theorem covered_denies {c : Call} (covered : SecondWordCovered c)
    (raises : ¬ Within (requested c.request) (sourceWords c.before c.request)) :
    c.result = ⟨.accessDenied, none, c.before.tokens⟩ := by
  rcases inherit_cases c.before c.request with ⟨_, h⟩ | ⟨fits, _, _⟩ | ⟨fits, _, _⟩ | ⟨same, _⟩
  · exact h
  · exact absurd ⟨fits, covered fits⟩ raises
  · exact absurd ⟨fits, covered fits⟩ raises
  · exact absurd (same ▸ within_refl _) raises

/-- An uncovered request is not denied, although it asks for a bit the source lacks. -/
theorem uncovered_not_denied {c : Call} (uncovered : ¬ SecondWordCovered c) :
    ¬ Within (requested c.request) (sourceWords c.before c.request) ∧
      c.result.status ≠ .accessDenied := by
  obtain ⟨fits, exceeds⟩ := Classical.not_imp.mp uncovered
  refine ⟨fun within => exceeds within.2, ?_⟩
  unfold Call.result
  rcases inherit_cases c.before c.request with ⟨exceeds', _⟩ | ⟨_, _, h⟩ | ⟨_, _, _, _, h⟩ | ⟨_, _, _, h⟩
  · exact absurd fits exceeds'
  · simp [h]
  · simp [h]
  · simp [h]

theorem getElem?_of_prefix {α : Type u} {xs ys : List α} {i : Nat} {x : α} (p : xs <+: ys)
    (h : xs[i]? = some x) : ys[i]? = some x := by
  obtain ⟨zs, rfl⟩ := p
  obtain ⟨hi, _⟩ := List.getElem?_eq_some_iff.mp h
  rw [List.getElem?_append_left hi, h]

theorem covered_obtained {s : SeState} {rs : List Request} {earlier later : Nat}
    (covered : ∀ c ∈ calls s rs, SecondWordCovered c) (obtained : Obtained s rs earlier later) :
    ∃ v w, (words (final s rs).tokens)[earlier]? = some v ∧
      (words (final s rs).tokens)[later]? = some w ∧ Within w v := by
  obtain ⟨c, made, rfl, hnew⟩ := obtained
  obtain ⟨old, new⟩ := call_words made
  obtain ⟨w, hw, within⟩ := covered_narrows (covered c made) hnew
  exact ⟨_, w, getElem?_of_prefix old (words_source _ _), getElem?_of_prefix new hw, within⟩

theorem covered_chains {s : SeState} {rs : List Request}
    (covered : ∀ c ∈ calls s rs, SecondWordCovered c) : ChainsNarrow s rs := by
  intro earlier later v w chain hv hw
  induction chain generalizing w with
  | refl =>
    have same : v = w := Option.some.inj (hv.symm.trans hw)
    exact same ▸ within_refl v
  | tail _ last ih =>
    obtain ⟨u, x, hu, hx, within⟩ := covered_obtained covered last
    have same : x = w := Option.some.inj (hx.symm.trans hw)
    exact (same ▸ within).trans (ih u hu)

theorem words_owner (s : SeState) (thread : Nat) :
    (words s.tokens)[s.accessToken (.thread thread)]? =
      some ((s.tokens.get (psGetThreadAccessToken s thread)).privileges1,
        (s.tokens.get (psGetThreadAccessToken s thread)).privileges2) := by
  have alive := s.live (.thread thread)
  simp [words, psGetThreadAccessToken, List.getElem?_eq_getElem alive]

/-- An access check passes when both words are within those of the thread's token. -/
theorem seAccessCheckEx_success_iff {s : SeState} {thread : Nat} {w : BitVec 32 × BitVec 32}
    (known : (words s.tokens)[s.accessToken (.thread thread)]? = some w) (p1 p2 : BitVec 32) :
    seAccessCheckEx s thread p1 p2 = .success ↔ Within (p1, p2) w := by
  have hw := Option.some.inj (known.symm.trans (words_owner s thread))
  subst hw
  simp [Within, ← and_eq_right_iff, seAccessCheckEx]

/-- Under a narrower token no access check passes that the wider one refuses. -/
theorem access_narrows {s : SeState} {rs : List Request} {wide narrow : Nat} {p1 p2 : BitVec 32}
    (covered : ∀ c ∈ calls s rs, SecondWordCovered c)
    (chain : Relation.ReflTransGen (Obtained s rs) ((final s rs).accessToken (.thread wide))
      ((final s rs).accessToken (.thread narrow)))
    (passes : seAccessCheckEx (final s rs) narrow p1 p2 = .success) :
    seAccessCheckEx (final s rs) wide p1 p2 = .success := by
  have hw := words_owner (final s rs) wide
  have hn := words_owner (final s rs) narrow
  have within := covered_chains covered _ _ _ _ chain hw hn
  rw [seAccessCheckEx_success_iff hn] at passes
  rw [seAccessCheckEx_success_iff hw]
  exact passes.trans within

/-- Chains narrow and raises are denied exactly when every request covers its second word. -/
theorem inheritance_monotone_iff (s : SeState) (rs : List Request) :
    ChainsNarrow s rs ∧ RaisesDenied s rs ↔ ∀ c ∈ calls s rs, SecondWordCovered c := by
  constructor
  · intro holds c made
    by_contra uncovered
    obtain ⟨raises, accepted⟩ := uncovered_not_denied uncovered
    exact accepted (by rw [holds.2 c made raises])
  · intro covered
    exact ⟨covered_chains covered, fun c made => covered_denies (covered c made)⟩

/-- A system token holding only the first eight privileges, and a request for one more in the
second word. -/
def bareState : SeState where
  tokens := [{ privileges1 := 0xFF, privileges2 := 0, exclusive := true, shareCount := 1, userToken := 0 }]
  accessToken := fun _ => 0
  live := fun _ => Nat.one_pos

def secondWordRequest : Request where
  source := .process 0
  maximumPrivileges1 := 0xFF
  maximumPrivileges2 := 1
  allocated := true
  receiver := .thread 1

theorem second_word_raised :
    ¬ ChainsNarrow bareState [secondWordRequest] ∧ ¬ RaisesDenied bareState [secondWordRequest] := by
  have raises : ¬ bits (1 : BitVec 32) ⊆ bits 0 := by
    rw [← raised_eq_zero_iff]
    decide
  constructor
  · intro narrow
    have chain : Obtained bareState [secondWordRequest] 0 1 :=
      ⟨⟨bareState, secondWordRequest⟩, by simp [calls], rfl, by decide⟩
    exact raises (narrow 0 1 (0xFF, 0) (0xFF, 1) (.single chain) rfl rfl).2
  · intro denied
    have refused := denied ⟨bareState, secondWordRequest⟩ (by simp [calls]) (fun within => raises within.2)
    exact absurd (congrArg Inherited.status refused) (by decide)

end Gr8os.Se
