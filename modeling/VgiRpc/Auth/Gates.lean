import VgiRpc.Auth.Replay

/-!
# Gates around authenticators that keep a state

A gate asks the authenticator behind it twice: for its claims, and then for the caller.  One
that answers from the request alone does not notice.  A nonce cache, or a credential that is
good for one request, sees the same request again.
-/

namespace VgiRpc.Auth

open Library
open Library.ByteStream (Bytes)
open Http (AuthContext)

/-- What comes of a request; `none` is a call that never ends. -/
abbrev Answer : Type := Option (Except AuthFailure AuthContext)

/-- An authenticator with a state of its own, of which the clock may be a part. -/
abbrev StatefulAuthenticate (σ : Type) : Type := AuthRequest → σ → Answer × σ

def Answer.isAccepted : Answer → Bool
  | some (.ok _) => true
  | _ => false

/-- The caller that the authenticator found, with the claims of the proof added to its own. -/
def addClaims (claims : List (String × String)) (merged : OrderedMap String String)
    (context : AuthContext) : AuthContext :=
  { context with
    claims := claims.foldl (fun merged claim =>
      merged.insert (claimsPrefix ++ "." ++ claim.1) claim.2) merged }

section

variable {σ : Type} (inner : StatefulAuthenticate σ) (request : AuthRequest)
  (claims : List (String × String)) (state : σ)

def askTwice : Answer × σ :=
  match inner request state with
  | (some (.ok first), next) =>
    match inner request next with
    | (some (.ok second), last) => (some (.ok (addClaims claims first.claims second)), last)
    | failed => failed
  | failed => failed

/-- What the gate is for: one call, whose answer is handed on. -/
def askOnce : Answer × σ :=
  match inner request state with
  | (some (.ok context), next) => (some (.ok (addClaims claims context.claims context)), next)
  | failed => failed

/-- The claims with which a request goes on, or the answer when it does not. -/
def admission (config : ProofConfig) : Verdict → Except Answer (List (String × String))
  | .stuck => .error none
  | .accepted claims => .ok claims
  | .rejected reason =>
    if config.mode = .require then
      .error (some (.error (.refused (.authFailure .proxyRequired "proxy proof required"))))
    else .ok (unverifiedClaims config reason)

variable (hmac : Bytes → Bytes → Bytes) (decodeMac : String → Option Bytes) (clock : σ → Int)
  (config : ProofConfig)

/-- A gate, with the way in which it asks the authenticator behind it.  Its state is its own
cache and the state of that authenticator. -/
def proofGate (ask : StatefulAuthenticate σ → AuthRequest → List (String × String) → σ → Answer × σ)
    (inner : Option (StatefulAuthenticate σ)) :
    StatefulAuthenticate (Option NonceCache × σ) := fun request (cache, state) =>
  let result := verifyRequest hmac decodeMac config request (clock state) cache
  match admission config result.1 with
  | .error answer => (answer, result.2, state)
  | .ok claims =>
    let asked :=
      match inner with
      | some inner => ask inner request claims state
      | none => (some (.ok (addClaims claims .empty
          ⟨true, claimsPrefix, (claims.lookup "proxy").getD "", .empty⟩)), state)
    (asked.1, result.2, asked.2)

theorem askTwice_eq_askOnce_iff :
    askTwice inner request claims state = askOnce inner request claims state ↔
      ∀ context next, inner request state = (some (.ok context), next) →
        ∃ others, inner request next = (some (.ok { context with claims := others }), next) := by
  rcases asked : inner request state with ⟨_ | _ | context, next⟩
  · simp [askTwice, askOnce, asked]
  · simp [askTwice, askOnce, asked]
  rcases again : inner request next with ⟨_ | _ | second, last⟩
  · simp [askTwice, askOnce, asked, again]
  · simp [askTwice, askOnce, asked, again]
  -- Both calls accept; the claims of the second are not looked at.
  simp only [askTwice, askOnce, asked, again, addClaims, Prod.mk.injEq, Option.some.injEq,
    Except.ok.injEq, AuthContext.mk.injEq]
  constructor
  · rintro ⟨⟨authenticated, domain, principal, -⟩, rfl⟩ _ _ ⟨rfl, rfl⟩
    rw [← authenticated, ← domain, ← principal]
    exact ⟨second.claims, again⟩
  · intro steady
    obtain ⟨others, same⟩ := steady context next ⟨rfl, rfl⟩
    cases again.symm.trans same
    exact ⟨⟨rfl, rfl, rfl, trivial⟩, rfl⟩

/-- A gate that refuses does not ask the authenticator behind it.  One that lets a request
through does what it would do with one call, exactly when the authenticator, asked again
after it accepted, accepts the same caller and keeps its state. -/
theorem proofGate_asks_once_iff (inner : Option (StatefulAuthenticate σ))
    (cache : Option NonceCache) :
    (∀ answer, admission config
        (verifyRequest hmac decodeMac config request (clock state) cache).1 = .error answer →
      ∀ ask other, proofGate hmac decodeMac clock config ask inner request (cache, state) =
        proofGate hmac decodeMac clock config ask other request (cache, state)) ∧
    (proofGate hmac decodeMac clock config askTwice inner request (cache, state) =
        proofGate hmac decodeMac clock config askOnce inner request (cache, state) ↔
      ∀ claims, admission config
          (verifyRequest hmac decodeMac config request (clock state) cache).1 = .ok claims →
        ∀ authenticate ∈ inner, ∀ context next,
          authenticate request state = (some (.ok context), next) →
          ∃ others, authenticate request next =
            (some (.ok { context with claims := others }), next)) := by
  unfold proofGate
  cases admitted : admission config
      (verifyRequest hmac decodeMac config request (clock state) cache).1 with
  | error answer => simp [admitted]
  | ok claims =>
    cases inner with
    | none => simp [admitted]
    | some inner =>
      have steady := askTwice_eq_askOnce_iff inner request claims state
      rw [Prod.ext_iff] at steady
      simp [admitted, ← steady]

/-- In front of an authenticator that answers from the request alone the gate is the one
without a state. -/
theorem proofGate_stateless (authenticate : Authenticate) (cache : Option NonceCache) :
    proofGate hmac decodeMac clock config askTwice
        (some fun request state => (some (authenticate request), state)) request (cache, state) =
      let result := proofAuthenticate hmac decodeMac config (some authenticate) request
        (clock state) cache
      (result.1, result.2, state) := by
  simp only [proofGate, proofAuthenticate, askTwice, gatedContext, admission]
  cases (verifyRequest hmac decodeMac config request (clock state) cache).1 with
  | stuck => rfl
  | accepted claims => cases authenticate request <;> rfl
  | rejected reason =>
    by_cases required : config.mode = .require
    · simp only [if_pos required]
    · simp only [if_neg required]
      cases authenticate request <;> rfl

end

/-- Every gate of the sample accepts proofs at the time they name. -/
def Sample.gate {σ : Type} : Option (StatefulAuthenticate σ) →
    StatefulAuthenticate (Option NonceCache × σ) :=
  proofGate noMac decodeNoMac (fun _ => 100) config askTwice

/-- One gate behind another, each with a cache of its own: either alone accepts the proof,
and together they refuse it, since the inner one sees it twice. -/
theorem nested_gates_refuse : ∃ request fresh,
    (Sample.gate none request (fresh, ())).1.isAccepted = true ∧
      (Sample.gate (some (Sample.gate none)) request (fresh, fresh, ())).1.isAccepted = false :=
  ⟨(Sample.proofAt 100).request, gateStart Sample.config, by decide +kernel⟩

end VgiRpc.Auth
