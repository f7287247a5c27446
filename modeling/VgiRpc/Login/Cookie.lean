import VgiRpc.Client.ResumeToken
import VgiRpc.Identity.Admission

/-!
# The cookie of a login

Between the start of a login and its callback the browser keeps a signed record: a nonce, the
time, where to go afterwards and the verifier.  The record is four lines of text, a bar, and a
signature of fixed length, in base64.  The line of the return address comes from the caller.
-/

namespace VgiRpc.Login

open Library List
open Library.ByteStream (Bytes)
open Http (utf8 fromUtf8)
open String (ofList toList_ofList ofList_toList)

/-- The texts between the marks, the last one with all marks that are left. -/
def splitn (mark : Char) : Nat → List Char → List (List Char)
  | 0, _ => []
  | 1, text => [text]
  | count + 2, text =>
    if mark ∈ text then
      text.takeWhile (· ≠ mark) :: splitn mark (count + 1) (text.dropWhile (· ≠ mark)).tail
    else [text]

def base64 (bytes : Bytes) : String := ofList (Base64Url.encode bytes)

/-- Only the text that would be written for the bytes is read. -/
def base64Decode (text : String) : Option Bytes :=
  (Base64Url.decode text.toList).filter fun bytes => Base64Url.encode bytes = text.toList

theorem base64Decode_base64 (bytes : Bytes) : base64Decode (base64 bytes) = some bytes := by
  rw [base64Decode, base64, toList_ofList, Base64Url.decode_encode, Option.filter_some]
  simp

structure Mac where
  sign : Bytes → Bytes → Bytes
  length : ∀ key message, (sign key message).length = 32

structure PkcePair where
  verifier : String
  challenge : String

def generatePkcePair (sha256 : Bytes → Bytes) (random : Bytes) : PkcePair :=
  ⟨base64 random, base64 (sha256 (utf8 (base64 random)))⟩

structure PkceState where
  cookie : String
  state : String

def randomState (random : Bytes) : String := base64 random

def statePayload (state : String) (createdAt : UInt64) (returnTo verifier : String) : String :=
  state ++ "\n" ++ toString createdAt.toNat ++ "\n" ++ returnTo ++ "\n" ++ verifier

variable (mac : Mac) (signingKey : Bytes)

def newStateCookie (returnTo : String) (pair : PkcePair)
    (random : Bytes) (createdAt : UInt64) : PkceState :=
  let payload := utf8 (statePayload (randomState random) createdAt returnTo pair.verifier)
  ⟨base64 (payload ++ 0x7c :: mac.sign signingKey payload), randomState random⟩

def malformed : RpcError := .valueError "malformed PKCE state cookie"

variable (text : String) (maxAge : Nat) (now : UInt64)

def readState : Except RpcError (String × String × String) :=
  let parts := splitn '\n' 4 text.toList
  match (parts[1]?).bind Client.parseUsize with
  | none => .error malformed
  | some createdAt =>
    if maxAge < now.toNat - createdAt then .error (.valueError "PKCE state cookie expired")
    else
      .ok (ofList ((parts[0]?).getD []), ofList ((parts[2]?).getD []), ofList ((parts[3]?).getD []))

def verifyStateCookie (cookie : String) (maxAge : Nat)
    (now : UInt64) : Except RpcError (String × String × String) :=
  match base64Decode cookie with
  | none => .error malformed
  | some raw =>
    if raw.length < 33 then .error malformed
    else
      let payloadWithSep := raw.take (raw.length - 32)
      let sig := raw.drop (raw.length - 32)
      if payloadWithSep.getLast? ≠ some 0x7c then .error malformed
      else if sig ≠ mac.sign signingKey payloadWithSep.dropLast then
        .error (.valueError "PKCE state cookie signature mismatch")
      else
        match fromUtf8 payloadWithSep.dropLast with
        | none => .error malformed
        | some text => readState text maxAge now

/-- A signed text is read as its lines, whatever they are. -/
theorem verifyStateCookie_signed : verifyStateCookie mac signingKey
        (base64 (utf8 text ++ 0x7c :: mac.sign signingKey (utf8 text))) maxAge now =
      readState text maxAge now := by
  have raw : utf8 text ++ 0x7c :: mac.sign signingKey (utf8 text) =
      (utf8 text ++ [0x7c]) ++ mac.sign signingKey (utf8 text) := by simp
  have length : ((utf8 text ++ [0x7c]) ++ mac.sign signingKey (utf8 text)).length =
      (utf8 text ++ [0x7c]).length + 32 := by
    rw [length_append, mac.length]
  have long : ¬ (utf8 text ++ [0x7c]).length + 32 < 33 := by
    rw [length_append, length_singleton]
    omega
  unfold verifyStateCookie
  rw [base64Decode_base64, raw]
  simp only [length, long, if_false, Nat.add_sub_cancel, take_left, drop_left,
    getLast?_append, getLast?_singleton, Option.some_or, ne_eq, not_true_eq_false,
    dropLast_concat, Http.fromUtf8_utf8]

variable {mark : Char} {first : List Char}

theorem takeWhile_mark (free : mark ∉ first) (rest : List Char) :
    (first ++ mark :: rest).takeWhile (· ≠ mark) = first ∧
      (first ++ mark :: rest).dropWhile (· ≠ mark) = mark :: rest := by
  have plain : ∀ char ∈ first, decide (char ≠ mark) = true := by
    intro char member
    refine decide_eq_true ?_
    rintro rfl
    exact free member
  constructor
  · rw [takeWhile_append_of_pos plain]
    simp
  · rw [dropWhile_append_of_pos plain]
    simp

theorem splitn_mark {rest : List Char} (free : mark ∉ first) (count : Nat) :
    splitn mark (count + 2) (first ++ mark :: rest) = first :: splitn mark (count + 1) rest := by
  obtain ⟨taken, dropped⟩ := takeWhile_mark free rest
  rw [splitn, if_pos (by simp), taken, dropped, tail_cons]

theorem toList_toString (value : Nat) : (toString value).toList = Nat.toDigits 10 value := by
  rw [Nat.toString_eq_repr, Nat.toList_repr]

/-- What is taken for the return address: its first line. -/
def firstLine (returnTo : String) : String :=
  ofList (returnTo.toList.takeWhile (· ≠ '\n'))

variable (returnTo verifier : String)

/-- What is taken for the verifier: the other lines of the return address come before it. -/
def otherLines : String :=
  ofList ((returnTo.toList ++ '\n' :: verifier.toList).dropWhile (· ≠ '\n')).tail

theorem readState_statePayload {state returnTo verifier : String} {createdAt now : UInt64} {maxAge :
    Nat} (oneLine : '\n' ∉ state.toList) (unexpired : now.toNat - createdAt.toNat ≤ maxAge) :
    readState (statePayload state createdAt returnTo verifier) maxAge now =
      .ok (state, firstLine returnTo, otherLines returnTo verifier) := by
  have digits : '\n' ∉ (toString createdAt.toNat).toList := by
    rw [toList_toString]
    exact fun member => absurd (Client.toDigits_isDigit member) (by decide)
  have number : Client.parseUsize (toString createdAt.toNat).toList = some createdAt.toNat := by
    rw [toList_toString]
    exact Client.parseUsize_toDigits createdAt.toNat_lt
  have lines : (statePayload state createdAt returnTo verifier).toList =
      state.toList ++ '\n' :: ((toString createdAt.toNat).toList ++
        '\n' :: (returnTo.toList ++ '\n' :: verifier.toList)) := by
    simp [statePayload, String.toList_append]
  have third : splitn '\n' 2 (returnTo.toList ++ '\n' :: verifier.toList) =
      [(returnTo.toList ++ '\n' :: verifier.toList).takeWhile (· ≠ '\n'),
        ((returnTo.toList ++ '\n' :: verifier.toList).dropWhile (· ≠ '\n')).tail] := by
    rw [splitn, if_pos (by simp), splitn]
  have parts : splitn '\n' 4 (statePayload state createdAt returnTo verifier).toList =
      [state.toList, (toString createdAt.toNat).toList,
        (returnTo.toList ++ '\n' :: verifier.toList).takeWhile (· ≠ '\n'),
        ((returnTo.toList ++ '\n' :: verifier.toList).dropWhile (· ≠ '\n')).tail] := by
    rw [lines, splitn_mark oneLine, splitn_mark digits, third]
  have line : (returnTo.toList ++ '\n' :: verifier.toList).takeWhile (· ≠ '\n') =
      returnTo.toList.takeWhile (· ≠ '\n') := by
    rw [takeWhile_append]
    split
    · next whole =>
      rw [takeWhile_cons_of_neg (by simp), append_nil]
      exact ((List.takeWhile_prefix _).eq_of_length whole).symm
    · rfl
  have fresh : ¬ maxAge < now.toNat - createdAt.toNat := by omega
  simp only [readState, parts, getElem?_cons_succ, getElem?_cons_zero,
    ofList_toList, Option.bind_some, number, fresh, if_false, Option.getD_some, line]
  rfl

/-- The record is read as it was written exactly when the return address is one line. -/
theorem lines_iff : (firstLine returnTo = returnTo ∧ otherLines returnTo verifier = verifier) ↔
      '\n' ∉ returnTo.toList := by
  constructor
  · rintro ⟨same, -⟩ member
    have line := congrArg String.toList same
    rw [firstLine, toList_ofList] at line
    rw [← line] at member
    exact absurd (mem_takeWhile_imp member) (by simp)
  · intro free
    obtain ⟨-, dropped⟩ := takeWhile_mark free verifier.toList
    have line : returnTo.toList.takeWhile (· ≠ '\n') = returnTo.toList := by
      rw [takeWhile_eq_self_iff]
      intro char member
      refine decide_eq_true ?_
      rintro rfl
      exact free member
    rw [firstLine, otherLines, dropped, line, tail_cons, ofList_toList, ofList_toList]
    exact ⟨rfl, rfl⟩

theorem base64_oneLine (bytes : Bytes) : '\n' ∉ (base64 bytes).toList := by
  rw [base64, toList_ofList]
  intro member
  exact absurd (Base64Url.mem_encode member) (by decide)

end VgiRpc.Login
