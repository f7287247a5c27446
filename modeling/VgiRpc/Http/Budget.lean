import VgiRpc.Http.Token
import VgiRpc.Shm.Pointer

/-!
# Response budgets

How long a response may be: the server, its hosting and the client each may set a
limit, and the smallest holds.  A stream keeps the limit of its first request in its
call token.
-/

namespace VgiRpc.Http

open List

def minResponseBytes : Nat := 64 * 1024

def maxSafeResponseBytes : Nat := 2 ^ 53 - 1

/-- A limit that the builder and the header parser let pass. -/
abbrev ByteBudget := { bytes : Nat // minResponseBytes ≤ bytes ∧ bytes ≤ maxSafeResponseBytes }

structure ResponseLimits where
  maxResponseBytes : Option ByteBudget
  hostingMaxResponseBytes : Option ByteBudget
  preferredResponseBytes : Option ByteBudget
  maxExternalizedResponseBytes : Option Nat

def smallest (limits : List (Option Nat)) : Option Nat := (limits.filterMap id).min?

def acceptHeaderError (text : String) : RpcError :=
  .valueError ("VGI-Accept-Max-Response-Bytes " ++ text)

def parseAcceptedValue (raw : String) : Except RpcError ByteBudget :=
  if raw.toList = [] ∨ raw.toList.head? = some '0' ∨ ¬ raw.toList.all Char.isDigit then
    .error (acceptHeaderError "must match [1-9][0-9]*")
  else
    match Shm.parseU64 raw with
    | none => .error (acceptHeaderError "is outside the supported range")
    | some parsed =>
      if bounded : minResponseBytes ≤ parsed ∧ parsed ≤ maxSafeResponseBytes then
        .ok ⟨parsed, bounded⟩
      else
        .error (acceptHeaderError ("must be between " ++ toString minResponseBytes ++ " and " ++
          toString maxSafeResponseBytes))

/-- The client's limit, from the values of its header; a value that is not visible ASCII
has no text. -/
def parseAcceptedMaxResponseBytes : List (Option String) → Except RpcError (Option ByteBudget)
  | [] => .ok none
  | [none] => .error (acceptHeaderError "must be ASCII decimal")
  | [some raw] => (parseAcceptedValue raw).map some
  | _ :: _ :: _ => .error (acceptHeaderError "must occur exactly once")

variable (limits : ResponseLimits) (accepted : Option ByteBudget)

def hardLimit : Option Nat :=
  smallest [limits.maxResponseBytes.map Subtype.val, limits.hostingMaxResponseBytes.map Subtype.val,
    accepted.map Subtype.val]

def effectiveResponseBudget (accepted : List (Option String)) :
    Except RpcError (Option Nat × Option Nat) := do
  let accepted ← parseAcceptedMaxResponseBytes accepted
  let hard := hardLimit limits accepted
  pure (hard, limits.preferredResponseBytes.map fun value => hard.elim value.val (min value.val))

/-- The budget of a continuation: the limit of the first request holds as well. -/
def continuationLimit (hard : Option Nat) (call : ResolvedCall) : Option Nat :=
  smallest [hard, call.responseLimitBytes.map fun limit => limit.val.toNat]

/-- What the outermost layer buffers of a response, once the header was parsed. -/
def responseBufferCeiling (hard : Option Nat) : Option Nat := hard.map (max (64 * 1024))

/-- A body keeps a limit; no limit is kept by every body. -/
def Within (limit : Option Nat) (length : Nat) : Prop := ∀ bytes, limit = some bytes → length ≤ bytes

instance (limit : Option Nat) (length : Nat) : Decidable (Within limit length) :=
  match limit with
  | none => .isTrue (fun _ given => nomatch given)
  | some bytes =>
    if fits : length ≤ bytes then .isTrue (fun _ given => Option.some.inj given ▸ fits)
    else .isFalse (fun within => fits (within bytes rfl))

/-- The smallest limit is kept exactly when every limit is. -/
theorem within_smallest {limits : List (Option Nat)} {length : Nat} :
    Within (smallest limits) length ↔ ∀ limit ∈ limits, Within limit length := by
  unfold Within smallest
  constructor
  · intro within limit member bytes given
    subst given
    have present : bytes ∈ limits.filterMap id := mem_filterMap.mpr ⟨some bytes, member, rfl⟩
    cases least : (limits.filterMap id).min? with
    | none =>
      rw [min?_eq_none_iff] at least
      rw [least] at present
      cases present
    | some bound =>
      exact Nat.le_trans (within bound least) ((min?_eq_some_iff.mp least).2 bytes present)
  · intro all bytes least
    obtain ⟨limit, member, given⟩ := mem_filterMap.mp (min?_eq_some_iff.mp least).1
    exact all limit member bytes given

/-- No limit is so small that the buffer would hold more than it. -/
theorem responseBufferCeiling_hardLimit :
    responseBufferCeiling (hardLimit limits accepted) = hardLimit limits accepted := by
  cases least : hardLimit limits accepted with
  | none => rfl
  | some hard =>
    obtain ⟨limit, member, given⟩ := mem_filterMap.mp (min?_eq_some_iff.mp least).1
    obtain ⟨budget, rfl⟩ : ∃ budget : ByteBudget, limit = some budget.val := by
      simp only [mem_cons, not_mem_nil, or_false] at member
      rcases member with rfl | rfl | rfl
      · exact Option.map_eq_some_iff.mp given |>.imp fun _ found => by rw [found.1]; rfl
      · exact Option.map_eq_some_iff.mp given |>.imp fun _ found => by rw [found.1]; rfl
      · exact Option.map_eq_some_iff.mp given |>.imp fun _ found => by rw [found.1]; rfl
    cases given
    exact congrArg some (Nat.max_eq_right budget.property.1)

end VgiRpc.Http
