import Gr8os.Lib.Fibre
import Gr8os.Lib.Run
import Gr8os.Se.Inheritance

/-! Who holds a token, over runs of creations, inheritances and deletions: the share count, the exclusive flag
and the release. A process and a thread are the addresses of their structures. -/
namespace Gr8os.Se

open Runs

structure LoggedUser where
  userId : Nat
  defaultPrivileges1 : BitVec 32
  defaultPrivileges2 : BitVec 32
deriving DecidableEq, Repr

/-- The token, if the heap has room, and the tokens after the call. -/
def seCreateAccessToken (tokens : List AccessToken) (userToken : LoggedUser) (allocated : Bool) :
    Option Nat × List AccessToken :=
  if !allocated then (none, tokens)
  else (some tokens.length, tokens ++ [{
    privileges1 := userToken.defaultPrivileges1
    privileges2 := userToken.defaultPrivileges2
    exclusive := true
    shareCount := 1
    userToken := userToken.userId }])

/-- The tokens after the call, and whether the token goes back to the heap. -/
def seDeleteAccessToken (tokens : List AccessToken) (token : Fin tokens.length) : Bool × List AccessToken :=
  let current := { tokens.get token with shareCount := (tokens.get token).shareCount - 1 }
  (current.shareCount = 0, tokens.set token current)

def seSystemUser : LoggedUser where
  userId := 0
  defaultPrivileges1 := 0xFFFFFFFF
  defaultPrivileges2 := 0xFFFFFFFF

structure TokenState where
  tokens : List AccessToken
  freed : Nat → Bool
  accessToken : BitVec 32 → Option Nat

namespace TokenState

def give (s : TokenState) (holder : BitVec 32) (token : Nat) : TokenState :=
  { s with accessToken := Function.update s.accessToken holder (some token) }

/-- A new process or thread has an address of its own. -/
def New (s : TokenState) (holder : BitVec 32) : Prop := holder ≠ 0 ∧ s.accessToken holder = none

instance (s : TokenState) (holder : BitVec 32) : Decidable (s.New holder) := inferInstanceAs (Decidable (_ ∧ _))

end TokenState

inductive TokenOp
  | seCreateAccessToken (userToken : LoggedUser) (allocated : Bool) (holder : BitVec 32)
  /-- `holder` is the new process or thread; nothing is left of it when it gets no token. -/
  | sepInheritAccessToken (source : BitVec 32) (maximumPrivileges1 maximumPrivileges2 : BitVec 32) (allocated : Bool)
      (holder : BitVec 32)
  | pspInitSystem (allocated : Bool) (initialSystemProcess systemThread : BitVec 32)
  | seDeleteAccessToken (holder : BitVec 32)

def createStep (s : TokenState) (userToken : LoggedUser) (allocated : Bool) (holder : BitVec 32) : TokenState :=
  match seCreateAccessToken s.tokens userToken allocated with
  | (none, tokens) => { s with tokens := tokens }
  | (some token, tokens) => { s with tokens := tokens }.give holder token

def inheritStep (s : TokenState) (token : Fin s.tokens.length) (maximumPrivileges1 maximumPrivileges2 : BitVec 32)
    (allocated : Bool) (holder : BitVec 32) : TokenState :=
  let r := sepInheritAccessToken s.tokens token maximumPrivileges1 maximumPrivileges2 allocated
  match r.newToken with
  | none => { s with tokens := r.tokens }
  | some new => { s with tokens := r.tokens }.give holder new

/-- Without room for the token its count is written through a null pointer. -/
def pspInitSystem (s : TokenState) (allocated : Bool) (initialSystemProcess systemThread : BitVec 32) :
    Option TokenState :=
  match seCreateAccessToken s.tokens seSystemUser allocated with
  | (none, _) => none
  | (some token, tokens) =>
    let s := ({ s with tokens := tokens }.give initialSystemProcess token).give systemThread token
    some { s with tokens := s.tokens.modify token fun t => { t with shareCount := t.shareCount + 1 } }

def deleteStep (s : TokenState) (token : Fin s.tokens.length) (holder : BitVec 32) : TokenState :=
  let r := seDeleteAccessToken s.tokens token
  { tokens := r.2
    freed := fun t => if t = token then r.1 else s.freed t
    accessToken := Function.update s.accessToken holder none }

def tokenStep (s : TokenState) : TokenOp → Option TokenState
  | .seCreateAccessToken userToken allocated holder =>
    if s.New holder then some (createStep s userToken allocated holder) else none
  | .sepInheritAccessToken source maximumPrivileges1 maximumPrivileges2 allocated holder =>
    if s.New holder then
      (s.accessToken source).bind fun token =>
        if inside : token < s.tokens.length then
          some (inheritStep s ⟨token, inside⟩ maximumPrivileges1 maximumPrivileges2 allocated holder)
        else none
    else none
  | .pspInitSystem allocated process thread =>
    if s.New process ∧ s.New thread ∧ process ≠ thread then pspInitSystem s allocated process thread else none
  | .seDeleteAccessToken holder =>
    (s.accessToken holder).bind fun token =>
      if inside : token < s.tokens.length then some (deleteStep s ⟨token, inside⟩ holder) else none

/-! What is to hold. -/

noncomputable def holders (s : TokenState) (token : Nat) : Nat := Fibre.count s.accessToken token

/-- A call that asks for all the privileges of the token `t` of its source, and no more. -/
def AsksWhole (s : TokenState) (t : Nat) : TokenOp → Prop
  | .sepInheritAccessToken source maximumPrivileges1 maximumPrivileges2 _ _ =>
    s.accessToken source = some t ∧ ∃ token, s.tokens[t]? = some token ∧
      token.privileges1 = maximumPrivileges1 ∧ token.privileges2 = maximumPrivileges2
  | _ => False

/-- A call of PspInitSystem that makes the token `t`. -/
def Boots (s : TokenState) (t : Nat) : TokenOp → Prop
  | .pspInitSystem _ _ _ => t = s.tokens.length
  | _ => False

/-- A state, with the tokens that have had several holders at once, those that PspInitSystem has made and
those that have been inherited whole. -/
structure TokenHistory where
  state : TokenState
  shared : Nat → Prop
  booted : Nat → Prop
  inherited : Nat → Prop

def TokenHistory.record (h : TokenHistory) (op : TokenOp) (s : TokenState) : TokenHistory where
  state := s
  shared t := h.shared t ∨ 1 < holders s t
  booted t := h.booted t ∨ Boots h.state t op
  inherited t := h.inherited t ∨ AsksWhole h.state t op

def HistoryStep (h : TokenHistory) (op : TokenOp) (h' : TokenHistory) : Prop :=
  ∃ s, tokenStep h.state op = some s ∧ h' = h.record op s

/-- No token has been made. -/
structure NoTokens (h : TokenHistory) : Prop where
  tokens : h.state.tokens = []
  held : ∀ holder, h.state.accessToken holder = none
  freed : ∀ t, h.state.freed t = false
  shared : ∀ t, ¬ h.shared t
  booted : ∀ t, ¬ h.booted t
  inherited : ∀ t, ¬ h.inherited t

structure SharingOk (h : TokenHistory) (t : Nat) : Prop where
  shareCount : ∀ token, h.state.tokens[t]? = some token → h.state.freed t = false →
    token.shareCount.toNat = holders h.state t
  exclusive : ∀ token, h.state.tokens[t]? = some token → h.state.freed t = false →
    (token.exclusive = true ↔ holders h.state t = 1 ∧ ¬ h.shared t)
  freed : h.state.freed t = true ↔ holders h.state t = 0

/-! What every step keeps. -/

structure TokenInv (h : TokenHistory) (t : Nat) (token : AccessToken) : Prop where
  shareCount : h.state.freed t = false → token.shareCount.toNat = holders h.state t
  exclusive : token.exclusive = true ↔ ¬ h.shared t ∨ h.booted t ∧ ¬ h.inherited t
  freed : h.state.freed t = true ↔ holders h.state t = 0
  seen : 1 < holders h.state t → h.shared t
  booted : h.booted t → h.shared t

structure Unmade (h : TokenHistory) (t : Nat) : Prop where
  held : holders h.state t = 0
  freed : h.state.freed t = false
  shared : ¬ h.shared t
  booted : ¬ h.booted t
  inherited : ¬ h.inherited t

structure HistoryOk (h : TokenHistory) : Prop where
  made : ∀ t token, h.state.tokens[t]? = some token → TokenInv h t token
  later : ∀ t, h.state.tokens.length ≤ t → Unmade h t
  null : h.state.accessToken 0 = none

section Kept

variable {h : TokenHistory} {s : TokenState} {op : TokenOp} {t : Nat} {token : AccessToken} {holder : BitVec 32}

theorem holders_give (free : s.accessToken holder = none) (token q : Nat) :
    holders (s.give holder token) q = holders s q + if q = token then 1 else 0 :=
  Fibre.count_assign free token q

theorem holders_delete {r : TokenState} (taken : s.accessToken holder = some t)
    (cleared : r.accessToken = Function.update s.accessToken holder none) (q : Nat) :
    holders s q = holders r q + if q = t then 1 else 0 := by
  rw [holders, holders, cleared]
  exact Fibre.count_clear taken q

theorem holders_lt (null : s.accessToken 0 = none) (t : Nat) : holders s t < 2 ^ 32 := by
  have other : s.accessToken 0 ≠ some t := by
    rw [null]
    exact nofun
  exact (Fibre.count_lt other).trans_eq (Fibre.card_bitVec 32)

/-- A token that a step neither gives, takes, makes nor shares. -/
theorem TokenInv.kept (inv : TokenInv h t token) (count : holders s t = holders h.state t)
    (freed : s.freed t = h.state.freed t) (boots : ¬ Boots h.state t op) (asks : ¬ AsksWhole h.state t op) :
    TokenInv (h.record op s) t token := by
  have shared : (h.record op s).shared t ↔ h.shared t := by
    constructor
    · rintro (before | now)
      · exact before
      · exact inv.seen (count ▸ now)
    · exact .inl
  have booted : (h.record op s).booted t ↔ h.booted t := or_iff_left boots
  have inherited : (h.record op s).inherited t ↔ h.inherited t := or_iff_left asks
  constructor
  · intro live
    exact (inv.shareCount (freed.symm.trans live)).trans count.symm
  · rw [shared, booted, inherited]
    exact inv.exclusive
  · change s.freed t = true ↔ holders s t = 0
    rw [freed, count]
    exact inv.freed
  · exact .inr
  · intro by_boot
    exact shared.mpr (inv.booted (booted.mp by_boot))

theorem Unmade.kept (unmade : Unmade h t) (count : holders s t = holders h.state t)
    (freed : s.freed t = h.state.freed t) (boots : ¬ Boots h.state t op) (asks : ¬ AsksWhole h.state t op) :
    Unmade (h.record op s) t where
  held := count.trans unmade.held
  freed := freed.trans unmade.freed
  shared := by
    rintro (before | now)
    · exact unmade.shared before
    · rw [count, unmade.held] at now
      exact absurd now (by decide)
  booted := by
    rintro (before | now)
    · exact unmade.booted before
    · exact boots now
  inherited := by
    rintro (before | now)
    · exact unmade.inherited before
    · exact asks now

theorem HistoryOk.same (ok : HistoryOk h) (boots : ∀ t, ¬ Boots h.state t op)
    (asks : ∀ t, ¬ AsksWhole h.state t op) : HistoryOk (h.record op h.state) where
  made t token here := (ok.made t token here).kept rfl rfl (boots t) (asks t)
  later t past := (ok.later t past).kept rfl rfl (boots t) (asks t)
  null := ok.null

end Kept

section Steps

variable {h : TokenHistory} {s : TokenState} {op : TokenOp} {t : Nat} {new : AccessToken} {holder : BitVec 32}

theorem getElem?_append_one {α : Type u} (xs : List α) (x y : α) (i : Nat) :
    (xs ++ [x])[i]? = some y ↔ xs[i]? = some y ∨ i = xs.length ∧ y = x := by
  rcases Nat.lt_trichotomy i xs.length with less | rfl | past
  · rw [List.getElem?_append_left less]
    simp [Nat.ne_of_lt less]
  · simp [eq_comm]
  · rw [List.getElem?_eq_none (by simp; omega), List.getElem?_eq_none (by omega)]
    simp [Nat.ne_of_gt past]

theorem modify_append_one {α : Type u} (xs : List α) (x : α) (f : α → α) :
    (xs ++ [x]).modify xs.length f = xs ++ [f x] := by
  induction xs with
  | nil => rfl
  | cons y xs ih => exact congrArg (y :: ·) ih

/-- The step makes one token, which has the holders and the count it comes with. -/
theorem HistoryOk.make (ok : HistoryOk h) (tokens : s.tokens = h.state.tokens ++ [new])
    (freed : s.freed = h.state.freed) (null : s.accessToken 0 = none)
    (held : ∀ t, holders s t = holders h.state t + if t = h.state.tokens.length then new.shareCount.toNat else 0)
    (some : 0 < new.shareCount.toNat) (exclusive : new.exclusive = true)
    (boots : ∀ t, Boots h.state t op ↔ t = h.state.tokens.length ∧ 1 < new.shareCount.toNat)
    (asks : ∀ t, ¬ AsksWhole h.state t op) : HistoryOk (h.record op s) where
  made t token here := by
    have cases_token := (getElem?_append_one ..).mp (tokens ▸ here)
    rcases cases_token with old | ⟨rfl, rfl⟩
    · have inside := (List.getElem?_eq_some_iff.mp old).1
      have count := held t
      rw [if_neg (by omega), Nat.add_zero] at count
      apply (ok.made t token old).kept count (congrFun freed t) ?_ (asks t)
      intro by_boot
      exact absurd ((boots t).mp by_boot).1 (by omega)
    · have unmade := ok.later _ (Nat.le_refl _)
      have count := held h.state.tokens.length
      rw [if_pos rfl, unmade.held, Nat.zero_add] at count
      have live : s.freed h.state.tokens.length = false := (congrFun freed _).trans unmade.freed
      have shared : (h.record op s).shared h.state.tokens.length ↔ 1 < token.shareCount.toNat := by
        rw [← count]
        exact or_iff_right unmade.shared
      have booted : (h.record op s).booted h.state.tokens.length ↔ 1 < token.shareCount.toNat :=
        (or_iff_right unmade.booted).trans ((boots _).trans (and_iff_right rfl))
      have inherited : ¬ (h.record op s).inherited h.state.tokens.length := not_or.mpr ⟨unmade.inherited, asks _⟩
      constructor
      · exact fun _ => count.symm
      · rw [shared, booted, exclusive]
        simp [inherited]
        omega
      · change s.freed _ = true ↔ holders s _ = 0
        rw [live, count]
        simp
        omega
      · exact fun now => .inr now
      · exact fun by_boot => shared.mpr (booted.mp by_boot)
  later t past := by
    change s.tokens.length ≤ t at past
    rw [tokens, List.length_append, List.length_singleton] at past
    have unmade := ok.later t (by omega)
    have count := held t
    rw [if_neg (by omega), Nat.add_zero] at count
    apply unmade.kept count (congrFun freed t) ?_ (asks t)
    intro by_boot
    exact absurd ((boots t).mp by_boot).1 (by omega)
  null := null

/-- The step changes the count of one token, and perhaps its flag. -/
theorem HistoryOk.alter (ok : HistoryOk h) (inside : t < h.state.tokens.length)
    (tokens : s.tokens = h.state.tokens.set t new) (null : s.accessToken 0 = none)
    (held : ∀ q, q ≠ t → holders s q = holders h.state q) (freed : ∀ q, q ≠ t → s.freed q = h.state.freed q)
    (boots : ∀ q, ¬ Boots h.state q op) (asks : ∀ q, q ≠ t → ¬ AsksWhole h.state q op)
    (inv : TokenInv (h.record op s) t new) : HistoryOk (h.record op s) where
  made q token here := by
    change s.tokens[q]? = some token at here
    rw [tokens, List.getElem?_set] at here
    split at here
    case isTrue same =>
      subst same
      cases Option.some.inj here
      exact inv
    case isFalse apart =>
      have apart : q ≠ t := Ne.symm apart
      exact (ok.made q token here).kept (held q apart) (freed q apart) (boots q) (asks q apart)
  later q past := by
    change s.tokens.length ≤ q at past
    rw [tokens, List.length_set] at past
    have apart : q ≠ t := by omega
    exact (ok.later q past).kept (held q apart) (freed q apart) (boots q) (asks q apart)
  null := null

theorem give_null {a : BitVec 32} (new : s.New a) (null : s.accessToken 0 = none) (k : Nat) :
    (s.give a k).accessToken 0 = none :=
  (Function.update_of_ne (Ne.symm new.1) ..).trans null

/-- A new token that a new process or thread is given, and nobody else. -/
theorem HistoryOk.make_given (ok : HistoryOk h) (fresh : h.state.New holder) (one : new.shareCount = 1)
    (exclusive : new.exclusive = true) (boots : ∀ t, ¬ Boots h.state t op) (asks : ∀ t, ¬ AsksWhole h.state t op) :
    HistoryOk (h.record op
      (TokenState.give { h.state with tokens := h.state.tokens ++ [new] } holder h.state.tokens.length)) := by
  have count : new.shareCount.toNat = 1 := congrArg BitVec.toNat one
  apply ok.make
  · rfl
  · rfl
  · exact give_null fresh ok.null _
  · intro t
    rw [count]
    exact holders_give fresh.2 _ t
  · exact count ▸ Nat.one_pos
  · exact exclusive
  · exact fun t => ⟨fun never => absurd never (boots t), fun both => absurd (count ▸ both.2) (Nat.lt_irrefl 1)⟩
  · exact asks

theorem create_kept {userToken : LoggedUser} {allocated : Bool} (ok : HistoryOk h) (fresh : h.state.New holder) :
    HistoryOk (h.record (.seCreateAccessToken userToken allocated holder)
      (createStep h.state userToken allocated holder)) := by
  cases allocated with
  | false => exact ok.same (fun _ => id) (fun _ => id)
  | true =>
    exact ok.make_given fresh rfl rfl (fun _ => id) fun _ => id

theorem boot_kept {allocated : Bool} {process thread : BitVec 32} (ok : HistoryOk h) (first : h.state.New process)
    (second : h.state.New thread) (apart : process ≠ thread)
    (code : pspInitSystem h.state allocated process thread = some s) :
    HistoryOk (h.record (.pspInitSystem allocated process thread) s) := by
  cases allocated with
  | false => cases code
  | true =>
    cases Option.some.inj code
    have free : (h.state.give process h.state.tokens.length).accessToken thread = none :=
      (Function.update_of_ne (Ne.symm apart) ..).trans second.2
    have fresh : (h.state.give process h.state.tokens.length).New thread := ⟨second.1, free⟩
    apply ok.make
    · exact modify_append_one ..
    · rfl
    · exact give_null fresh (give_null first ok.null _) _
    · intro t
      have once := holders_give first.2 h.state.tokens.length t
      have twice := holders_give free h.state.tokens.length t
      refine (twice.trans (congrArg (· + _) once)).trans ?_
      split <;> rfl
    · decide
    · rfl
    · exact fun t => ⟨fun here => ⟨here, by decide⟩, And.left⟩
    · exact fun _ => id

theorem HistoryOk.live {token : AccessToken} {a : BitVec 32} (ok : HistoryOk h) (here : h.state.tokens[t]? = some token)
    (held : h.state.accessToken a = some t) :
    h.state.freed t = false ∧ token.shareCount.toNat = holders h.state t ∧ 0 < holders h.state t := by
  have some : 0 < holders h.state t := Fibre.count_pos held
  have inv := ok.made t token here
  have live : h.state.freed t = false := by
    cases freed : h.state.freed t with
    | false => rfl
    | true => exact absurd (inv.freed.mp freed) (Nat.ne_of_gt some)
  exact ⟨live, inv.shareCount live, some⟩

theorem inherit_kept {source : BitVec 32} {maximumPrivileges1 maximumPrivileges2 : BitVec 32} {allocated : Bool}
    (ok : HistoryOk h) (fresh : h.state.New holder) (token : Fin h.state.tokens.length)
    (held : h.state.accessToken source = some token.val) :
    HistoryOk (h.record (.sepInheritAccessToken source maximumPrivileges1 maximumPrivileges2 allocated holder)
      (inheritStep h.state token maximumPrivileges1 maximumPrivileges2 allocated holder)) := by
  have here : h.state.tokens[token.val]? = some h.state.tokens[token] := List.getElem?_eq_getElem token.isLt
  have asked (q : Nat) : AsksWhole h.state q
      (.sepInheritAccessToken source maximumPrivileges1 maximumPrivileges2 allocated holder) ↔
        q = token ∧ h.state.tokens[token].privileges1 = maximumPrivileges1 ∧
          h.state.tokens[token].privileges2 = maximumPrivileges2 := by
    constructor
    · rintro ⟨holds, current, there, same⟩
      cases Option.some.inj (held.symm.trans holds)
      cases Option.some.inj (here.symm.trans there)
      exact ⟨rfl, same⟩
    · rintro ⟨rfl, same⟩
      exact ⟨held, _, here, same⟩
  rcases Decidable.em (h.state.tokens[token].privileges1 ≠ maximumPrivileges1 ∨
      h.state.tokens[token].privileges2 ≠ maximumPrivileges2) with differ | whole
  · -- a refusal, or a clone
    have asks : ∀ q, ¬ AsksWhole h.state q _ := fun q asks => by
      obtain ⟨-, first, second⟩ := (asked q).mp asks
      exact differ.elim (absurd first) (absurd second)
    rcases Decidable.em (raised h.state.tokens[token].privileges1 maximumPrivileges1 ≠ 0) with high | low
    · rw [inheritStep, sepInheritAccessToken, if_pos differ, if_pos (.inl high)]
      exact ok.same (fun _ => id) asks
    · rw [inheritStep, sepInheritAccessToken, if_pos differ, if_neg (not_or.mpr ⟨low, low⟩)]
      cases allocated with
      | false => exact ok.same (fun _ => id) asks
      | true =>
        exact ok.make_given fresh rfl rfl (fun _ => id) asks
  · obtain ⟨live, count, some⟩ := ok.live here held
    rw [inheritStep, sepInheritAccessToken, if_neg whole]
    simp only [ne_eq, not_or, Decidable.not_not] at whole
    have given (q : Nat) := holders_give fresh.2 token q
    have more := given token
    rw [if_pos rfl] at more
    apply ok.alter token.isLt
    · rfl
    · exact give_null fresh ok.null _
    · exact fun q apart => (given q).trans (if_neg apart ▸ rfl)
    · exact fun _ _ => rfl
    · exact fun _ => id
    · exact fun q apart asks => apart ((asked q).mp asks).1
    · have room := holders_lt (give_null fresh ok.null token) token
      have shared : 1 < holders (h.state.give holder token) token := by omega
      have inherited := (asked token).mpr ⟨rfl, whole⟩
      constructor
      · intro _
        change (h.state.tokens[token].shareCount + 1).toNat = holders (h.state.give holder token) token
        rw [BitVec.toNat_add, count]
        change (_ + 1) % 2 ^ 32 = _
        omega
      · constructor
        · exact fun on => absurd on (by simp)
        · rintro (never | ⟨-, never⟩)
          · exact absurd (.inr shared) never
          · exact absurd (.inr inherited) never
      · change h.state.freed token = true ↔ holders (h.state.give holder token) token = 0
        rw [live]
        simp
        omega
      · exact .inr
      · exact fun _ => .inr shared

theorem delete_kept (ok : HistoryOk h) (token : Fin h.state.tokens.length)
    (held : h.state.accessToken holder = some token.val) :
    HistoryOk (h.record (.seDeleteAccessToken holder) (deleteStep h.state token holder)) := by
  have here : h.state.tokens[token.val]? = some h.state.tokens[token] := List.getElem?_eq_getElem token.isLt
  have inv := ok.made _ _ here
  obtain ⟨live, count, some⟩ := ok.live here held
  have taken (q : Nat) : holders h.state q = holders (deleteStep h.state token holder) q + if q = token then 1 else 0 :=
    holders_delete held rfl q
  have less := taken token
  rw [if_pos rfl] at less
  have left : (h.state.tokens[token].shareCount - 1).toNat = holders (deleteStep h.state token holder) token := by
    have bound := h.state.tokens[token].shareCount.isLt
    have one : (1 : BitVec 32).toNat = 1 := rfl
    rw [BitVec.toNat_sub, one, count]
    omega
  have shared : (h.record (.seDeleteAccessToken holder) (deleteStep h.state token holder)).shared token ↔
      h.shared token := by
    constructor
    · rintro (before | now)
      · exact before
      · exact inv.seen (by omega)
    · exact .inl
  apply ok.alter token.isLt
  · rfl
  · change Function.update h.state.accessToken holder none 0 = none
    rw [Function.update_apply]
    split
    · rfl
    · exact ok.null
  · intro q apart
    have same := taken q
    rw [if_neg apart] at same
    exact same.symm
  · exact fun q apart => if_neg apart
  · exact fun _ => id
  · exact fun _ _ => id
  · constructor
    · exact fun _ => left
    · rw [shared]
      refine inv.exclusive.trans ?_
      change _ ↔ _ ∨ (_ ∨ False) ∧ ¬ (_ ∨ False)
      rw [or_false, or_false]
    · change (if token.val = token.val then _ else _) = true ↔ _
      rw [if_pos rfl]
      change decide (h.state.tokens[token].shareCount - 1 = 0) = true ↔ holders (deleteStep h.state token holder) token = 0
      rw [decide_eq_true_eq, ← left, ← BitVec.toNat_inj]
      rfl
    · exact .inr
    · rintro (before | now)
      · exact shared.mpr (inv.booted before)
      · exact False.elim now

theorem HistoryOk.step {h' : TokenHistory} (ok : HistoryOk h) (step : HistoryStep h op h') : HistoryOk h' := by
  obtain ⟨s, code, rfl⟩ := step
  cases op with
  | seCreateAccessToken userToken allocated holder =>
    obtain ⟨fresh, code⟩ := Option.ite_none_right_eq_some.mp code
    cases Option.some.inj code
    exact create_kept ok fresh
  | sepInheritAccessToken source maximumPrivileges1 maximumPrivileges2 allocated holder =>
    obtain ⟨fresh, code⟩ := Option.ite_none_right_eq_some.mp code
    obtain ⟨token, held, code⟩ := Option.bind_eq_some_iff.mp code
    obtain ⟨inside, code⟩ := Option.dite_none_right_eq_some.mp code
    cases Option.some.inj code
    exact inherit_kept ok fresh ⟨token, inside⟩ held
  | pspInitSystem allocated process thread =>
    obtain ⟨⟨first, second, apart⟩, code⟩ := Option.ite_none_right_eq_some.mp code
    exact boot_kept ok first second apart code
  | seDeleteAccessToken holder =>
    obtain ⟨token, held, code⟩ := Option.bind_eq_some_iff.mp code
    obtain ⟨inside, code⟩ := Option.dite_none_right_eq_some.mp code
    cases Option.some.inj code
    exact delete_kept ok ⟨token, inside⟩ held

theorem NoTokens.ok (empty : NoTokens h) : HistoryOk h where
  made t token here := by
    rw [empty.tokens] at here
    cases here
  later t _ := by
    exact ⟨Fibre.count_empty empty.held t, empty.freed t, empty.shared t, empty.booted t, empty.inherited t⟩
  null := empty.held 0

end Steps

/-- What holds of every token that was made: the count and the release always, the flag in all but one case. -/
theorem TokenInv.sharing_iff {h : TokenHistory} {t : Nat} {token : AccessToken} (inv : TokenInv h t token)
    (here : h.state.tokens[t]? = some token) :
    SharingOk h t ↔ h.state.freed t = true ∨ (h.booted t → h.inherited t) := by
  have flag (live : h.state.freed t = false) : (holders h.state t = 1 ∧ ¬ h.shared t) ↔ ¬ h.shared t := by
    constructor
    · exact And.right
    · intro never
      have some : holders h.state t ≠ 0 := fun none => by
        rw [inv.freed.mpr none] at live
        cases live
      have single : ¬ 1 < holders h.state t := mt inv.seen never
      exact ⟨by omega, never⟩
  constructor
  · intro ok
    cases live : h.state.freed t with
    | true => exact .inl rfl
    | false =>
      refine .inr fun booted => Classical.byContradiction fun never => ?_
      have exclusive := inv.exclusive.mpr (.inr ⟨booted, never⟩)
      have alone := (ok.exclusive token here live).mp exclusive
      exact alone.2 (inv.booted booted)
  · intro allowed
    constructor
    · intro token' there live
      cases Option.some.inj (here.symm.trans there)
      exact inv.shareCount live
    · intro token' there live
      cases Option.some.inj (here.symm.trans there)
      rw [flag live, inv.exclusive]
      constructor
      · rintro (never | ⟨booted, whole⟩)
        · exact never
        · rcases allowed with freed | later
          · rw [freed] at live
            cases live
          · exact absurd (later booted) whole
      · exact .inl
    · exact inv.freed

theorem token_sharing_iff {h₀ h : TokenHistory} {ops : List TokenOp} {t : Nat} (empty : NoTokens h₀)
    (run : Run HistoryStep h₀ ops h) (made : t < h.state.tokens.length) :
    SharingOk h t ↔ h.state.freed t = true ∨ (h.booted t → h.inherited t) := by
  have ok : HistoryOk h := run.invariant (fun ok step => ok.step step) empty.ok
  have here : h.state.tokens[t]? = some h.state.tokens[t] := List.getElem?_eq_getElem made
  exact (ok.made t _ here).sharing_iff here

def noTokens : TokenHistory where
  state := { tokens := [], freed := fun _ => false, accessToken := fun _ => none }
  shared _ := False
  booted _ := False
  inherited _ := False

theorem noTokens_empty : NoTokens noTokens := ⟨rfl, fun _ => rfl, fun _ => rfl, fun _ => id, fun _ => id, fun _ => id⟩

def boot : TokenOp := .pspInitSystem true 0x80010000 0x80020000

/-- A thread of the system process, under its token. -/
def firstThread : TokenOp := .sepInheritAccessToken 0x80010000 0xFFFFFFFF 0xFFFFFFFF true 0x80030000

theorem boot_token_shared : ∃ h, Run HistoryStep noTokens [boot, firstThread] h ∧ h.state.tokens.length = 1 ∧
    SharingOk h 0 := by
  have runs : ∃ s s', tokenStep noTokens.state boot = some s ∧ tokenStep s firstThread = some s' ∧
      s.accessToken 0x80010000 = some 0 ∧
      s.tokens = [⟨0xFFFFFFFF, 0xFFFFFFFF, true, 2, 0⟩] ∧ s'.tokens.length = 1 := by
    refine ⟨_, _, rfl, rfl, rfl, rfl, rfl⟩
  obtain ⟨s, s', first, second, held, tokens, length⟩ := runs
  have run : Run HistoryStep noTokens [boot, firstThread] _ := .next ⟨s, first, rfl⟩ (.next ⟨s', second, rfl⟩ (.done _))
  refine ⟨_, run, length, (token_sharing_iff noTokens_empty run ?_).mpr (.inr fun _ => .inr ?_)⟩
  · change 0 < s'.tokens.length
    omega
  · exact ⟨held, _, congrArg (·[0]?) tokens, rfl, rfl⟩

/-- The token of the system process is shared from the start, and exclusive. -/
theorem boot_token_exclusive : ∃ h, Run HistoryStep noTokens [boot] h ∧ 0 < h.state.tokens.length ∧
    ¬ SharingOk h 0 := by
  have runs : ∃ s, tokenStep noTokens.state boot = some s ∧ s.tokens = [⟨0xFFFFFFFF, 0xFFFFFFFF, true, 2, 0⟩] ∧
      s.freed 0 = false := ⟨_, rfl, rfl, rfl⟩
  obtain ⟨s, first, tokens, live⟩ := runs
  refine ⟨_, .next ⟨s, first, rfl⟩ (.done _), ?_, ?_⟩
  · change 0 < s.tokens.length
    rw [tokens]
    decide
  · intro ok
    have here : s.tokens[0]? = some ⟨0xFFFFFFFF, 0xFFFFFFFF, true, 2, 0⟩ := congrArg (·[0]?) tokens
    have two : 2 = holders s 0 := ok.shareCount _ here live
    have alone := ((ok.exclusive _ here live).mp rfl).1
    change holders s 0 = 1 at alone
    omega

end Gr8os.Se
