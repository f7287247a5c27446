import Mathlib.Data.List.DropRight
import VgiRpc.Http.Token

/-!
# Requests and authenticators

An authenticator sees the headers of a request and accepts the caller, possibly as
anonymous, or refuses it.  An outage of what it asks is an error of a type of its own, so
that nobody takes it for a refusal.
-/

namespace VgiRpc.Auth

open Library List
open Http (AuthContext)

inductive AuthReason where
  | missingCredential
  | invalidCredential
  | expiredCredential
  | insufficientScope
  | proxyRequired
  | unauthorized
  deriving DecidableEq, Repr

/-- An error with what the transport reads from it to choose a status. -/
structure AuthError extends RpcError where
  authReason : Option AuthReason
  retryAfterSeconds : Option UInt32
  deriving DecidableEq

namespace AuthError

def authUnavailableErrorType : String := "AuthUnavailableError"
def defaultAuthRetryAfterSeconds : UInt32 := 5

def authFailure (reason : AuthReason) (detail : String) : AuthError :=
  ⟨⟨"PermissionError", detail⟩, some reason, none⟩

variable (detail : String)

def permissionError : AuthError := ⟨⟨"PermissionError", detail⟩, none, none⟩

def authUnavailable : AuthError :=
  ⟨⟨authUnavailableErrorType, detail⟩, none, some defaultAuthRetryAfterSeconds⟩

variable (error : AuthError)

def withRetryAfter (seconds : UInt32) : AuthError :=
  { error with retryAfterSeconds := some seconds }

def isAuthUnavailable : Bool := error.errorType == authUnavailableErrorType

@[simp]
theorem isAuthUnavailable_authUnavailable : (authUnavailable detail).isAuthUnavailable = true := rfl

@[simp]
theorem isAuthUnavailable_authFailure (reason : AuthReason) (detail : String) :
    (authFailure reason detail).isAuthUnavailable = false := by
  simp [isAuthUnavailable, authFailure, authUnavailableErrorType]

@[simp]
theorem isAuthUnavailable_withRetryAfter (seconds : UInt32) :
    (error.withRetryAfter seconds).isAuthUnavailable = error.isAuthUnavailable := rfl

end AuthError

/-- How an authenticator ends when it does not accept: with an error, or in a panic. -/
inductive AuthFailure where
  | refused (error : AuthError)
  | panicked

structure AuthRequest where
  method : String
  headers : List (String × String)
  peerAddr : Option String

def eqIgnoreAsciiCase (first second : List Char) : Bool :=
  first.map Char.toLower == second.map Char.toLower

/-- The value of the first header of a name, whatever its case. -/
def AuthRequest.header (request : AuthRequest) (name : String) : Option String :=
  (request.headers.find? fun header => eqIgnoreAsciiCase header.1.toList name.toList).map Prod.snd

def anonymous : AuthContext := ⟨false, "", "", OrderedMap.empty⟩

abbrev Authenticate : Type := AuthRequest → Except AuthFailure AuthContext

/-- The characters with the Unicode property `White_Space`. -/
def isWhitespace (char : Char) : Bool :=
  let code := char.toNat
  (9 ≤ code && code ≤ 13) || code == 0x20 || code == 0x85 || code == 0xa0 || code == 0x1680 ||
    (0x2000 ≤ code && code ≤ 0x200a) || code == 0x2028 || code == 0x2029 || code == 0x202f ||
    code == 0x205f || code == 0x3000

def trim (text : List Char) : List Char := text.dropWhile isWhitespace |>.rdropWhile isWhitespace

variable {test : Char → Bool}

theorem rdropWhile_append_cons {char : Char} (kept : test char = false) (front more : List Char) :
    (front ++ char :: more).rdropWhile test = front ++ char :: more.rdropWhile test := by
  simp only [rdropWhile, reverse_append, reverse_cons, append_assoc, singleton_append,
    dropWhile_append]
  split
  · next none => simp [kept, isEmpty_iff.mp none]
  · simp

theorem rdropWhile_append_of_neg {front : List Char} (kept : ∀ char ∈ front, test char = false)
    (more : List Char) : (front ++ more).rdropWhile test = front ++ more.rdropWhile test := by
  rcases eq_nil_or_concat front with rfl | ⟨init, last, rfl⟩
  · rfl
  · rw [concat_append, concat_append, rdropWhile_append_cons (kept last (by simp))]

def byteLength (text : List Char) : Nat := (text.map Char.utf8Size).sum

/-- Cut a text at a byte; there is no place to cut inside a character. -/
def splitAtByte : List Char → Nat → Option (List Char × List Char)
  | text, 0 => some ([], text)
  | [], _ + 1 => none
  | char :: rest, count + 1 =>
    if char.utf8Size ≤ count + 1 then
      (splitAtByte rest (count + 1 - char.utf8Size)).map fun parts => (char :: parts.1, parts.2)
    else none

def bearerScheme : List Char := "Bearer ".toList

/-- The token of a bearer credential.  The scheme is cut off at a byte, which panics when
the header is not a text of that scheme at all but has a longer character there. -/
def extractBearer (request : AuthRequest) : Except AuthFailure (Option (List Char)) :=
  match request.header "authorization" with
  | none => .ok none
  | some header =>
    if byteLength header.toList ≤ byteLength bearerScheme then .ok none
    else
      match splitAtByte header.toList (byteLength bearerScheme) with
      | none => .error .panicked
      | some (scheme, credential) =>
        if eqIgnoreAsciiCase scheme bearerScheme then
          .ok (if trim credential = [] then none else some (trim credential))
        else .ok none

end VgiRpc.Auth
