import Gr8os.Lib.Bits
import Gr8os.Status
import Mathlib.Logic.Relation

/-! Access tokens and their inheritance.
A token store only grows here: a token is named by its place in it. The token
lock is held from the lookup to the return, so each call is one step. -/
namespace Gr8os.Se

open Bits

structure AccessToken where
  privileges1 : BitVec 32
  privileges2 : BitVec 32
  exclusive : Bool
  shareCount : BitVec 32
  userToken : Nat
deriving DecidableEq, Repr

/-- The objects that run under a token. -/
inductive Owner
  | process (id : Nat)
  | thread (id : Nat)
deriving DecidableEq, Repr

structure SeState where
  tokens : List AccessToken
  accessToken : Owner → Nat
  live : ∀ owner, accessToken owner < tokens.length

/-- The status, the token written through the out parameter and the tokens after the call. -/
structure Inherited where
  status : Status
  newToken : Option Nat
  tokens : List AccessToken
deriving DecidableEq, Repr

def raised (x y : BitVec 32) : BitVec 32 := (x ^^^ y) &&& ~~~x

def sepInheritAccessToken (tokens : List AccessToken) (token : Fin tokens.length)
    (maximumPrivileges1 maximumPrivileges2 : BitVec 32) (allocated : Bool) : Inherited :=
  let current := tokens[token]
  if current.privileges1 ≠ maximumPrivileges1 ∨ current.privileges2 ≠ maximumPrivileges2 then
    if raised current.privileges1 maximumPrivileges1 ≠ 0 ∨
        raised current.privileges1 maximumPrivileges1 ≠ 0 then
      { status := .accessDenied, newToken := none, tokens := tokens }
    else if !allocated then
      { status := .insufficientResources, newToken := none, tokens := tokens }
    else
      { status := .success
        newToken := some tokens.length
        tokens := tokens ++ [{
          privileges1 := maximumPrivileges1
          privileges2 := maximumPrivileges2
          exclusive := true
          shareCount := 1
          userToken := current.userToken }] }
  else
    { status := .success
      newToken := some token
      tokens := tokens.set token
        { current with shareCount := current.shareCount + 1, exclusive := false } }

def psGetProcessAccessToken (s : SeState) (process : Nat) : Fin s.tokens.length :=
  ⟨s.accessToken (.process process), s.live _⟩

def psGetThreadAccessToken (s : SeState) (thread : Nat) : Fin s.tokens.length :=
  ⟨s.accessToken (.thread thread), s.live _⟩

def seInheritAccessTokenProcess (s : SeState) (process : Nat)
    (maximumPrivileges1 maximumPrivileges2 : BitVec 32) (allocated : Bool) : Inherited :=
  sepInheritAccessToken s.tokens (psGetProcessAccessToken s process)
    maximumPrivileges1 maximumPrivileges2 allocated

def seInheritAccessTokenThread (s : SeState) (thread : Nat)
    (maximumPrivileges1 maximumPrivileges2 : BitVec 32) (allocated : Bool) : Inherited :=
  sepInheritAccessToken s.tokens (psGetThreadAccessToken s thread)
    maximumPrivileges1 maximumPrivileges2 allocated

def seAccessCheckEx (s : SeState) (thread : Nat) (privileges1 privileges2 : BitVec 32) : Status :=
  let token := s.tokens[psGetThreadAccessToken s thread]
  let temp1 := token.privileges1 &&& privileges1
  let temp2 := token.privileges2 &&& privileges2
  if temp1 = privileges1 ∧ temp2 = privileges2 then .success else .accessDenied

/-- One inheritance: whose token, which maximum, whether the heap has room, and who gets the result. -/
structure Request where
  source : Owner
  maximumPrivileges1 : BitVec 32
  maximumPrivileges2 : BitVec 32
  allocated : Bool
  receiver : Owner
deriving DecidableEq, Repr

def sourceToken (s : SeState) (r : Request) : Fin s.tokens.length :=
  match r.source with
  | .process id => psGetProcessAccessToken s id
  | .thread id => psGetThreadAccessToken s id

def inherit (s : SeState) (r : Request) : Inherited :=
  match r.source with
  | .process id =>
    seInheritAccessTokenProcess s id r.maximumPrivileges1 r.maximumPrivileges2 r.allocated
  | .thread id =>
    seInheritAccessTokenThread s id r.maximumPrivileges1 r.maximumPrivileges2 r.allocated

theorem inherit_eq (s : SeState) (r : Request) :
    inherit s r = sepInheritAccessToken s.tokens (sourceToken s r)
      r.maximumPrivileges1 r.maximumPrivileges2 r.allocated := by
  unfold inherit sourceToken
  cases r.source <;> rfl

end Gr8os.Se
