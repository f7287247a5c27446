import VgiRpc.Auth.Request
import VgiRpc.Http.Routing

/-!
# Client certificates forwarded by a proxy

An adjacent proxy states the certificate of its client in one header: elements divided by
commas, each a list of fields divided by semicolons, with quotes around what would
otherwise be taken for a divider.  The reader divides twice with the same routine, once at
the commas and once at the semicolons, and takes an identity from a single element.
-/

namespace VgiRpc.Auth

open Library
open Library.ByteStream (Bytes)
open Http (fromUtf8 isAsciiAlphabetic isAsciiAlphanumeric)

section

variable (delimiter : Char)

/-- Divide a text outside quotes.  A backslash inside quotes stands for the quote or
backslash behind it and is left out; the quotes themselves stay. -/
def splitXfccFrom : Bool → Bool → List Char → List Char → Option (List (List Char))
  | quoted, escaped, current, [] => if quoted || escaped then none else some [current]
  | quoted, true, current, char :: rest =>
    if char = '"' || char = '\\' then splitXfccFrom quoted false (current ++ [char]) rest
    else none
  | quoted, false, current, char :: rest =>
    if quoted && char = '\\' then splitXfccFrom quoted true current rest
    else if char = '"' then splitXfccFrom (!quoted) false (current ++ [char]) rest
    else if char = delimiter && !quoted then
      (splitXfccFrom false false [] rest).map (current :: ·)
    else splitXfccFrom quoted false (current ++ [char]) rest

def splitXfcc (text : List Char) : Option (List (List Char)) :=
  splitXfccFrom delimiter false false [] text

end

variable (text : List Char)

def xfccValue : Option (List Char) :=
  if text.head? = some '"' || text.getLast? = some '"' then
    match text with
    | '"' :: rest => if rest.getLast? = some '"' then some rest.dropLast else none
    | _ => none
  else if text.isEmpty || text.any fun char => char = ',' || char = ';' || char = '=' then none
  else some text

def hex (char : Char) : Option Nat :=
  let code := char.toNat
  if 48 ≤ code && code ≤ 57 then some (code - 48)
  else if 97 ≤ code && code ≤ 102 then some (code - 97 + 10)
  else if 65 ≤ code && code ≤ 70 then some (code - 65 + 10)
  else none

def printable (byte : UInt8) : Option UInt8 := if byte < 0x20 || byte = 0x7f then none else some byte

/-- The bytes of a text of one-byte characters, with each percent sign and its two digits
taken for one. -/
def percentBytes : List Char → Option Bytes
  | [] => some []
  | '%' :: high :: low :: rest => do
      let first ← hex high
      let second ← hex low
      let byte ← printable (UInt8.ofNat (first * 16 + second))
      let others ← percentBytes rest
      some (byte :: others)
  | char :: rest =>
    if char = '%' then none
    else do
      let byte ← printable (UInt8.ofNat char.toNat)
      let others ← percentBytes rest
      some (byte :: others)

def strictPercentDecode : Option String := (percentBytes text).bind fromUtf8

def validXfccKey (key : List Char) : Bool :=
  (match key with
    | [] => false
    | first :: _ => isAsciiAlphabetic first) &&
    key.all fun char => isAsciiAlphanumeric char || char == '_' || char == '-'

def allowedKeys : List String := ["by", "hash", "cert", "chain", "subject", "uri", "dns", "issuer"]

def splitOnce : Option (List Char × List Char) :=
  if text.contains '=' then
    some (text.takeWhile (· != '='), (text.dropWhile (· != '=')).tail)
  else none

theorem splitOnce_key {key rest : List Char} (apart : '=' ∉ key) :
    splitOnce (key ++ '=' :: rest) = some (key, rest) := by
  have keep : ∀ char ∈ key, (char != '=') = true := by
    intro char member
    simp only [bne_iff_ne, ne_eq]
    rintro rfl
    exact apart member
  unfold splitOnce
  rw [if_pos (by simp), List.takeWhile_append_of_pos keep, List.dropWhile_append_of_pos keep]
  simp

variable (key : String)

def isPercentEncoded : Bool := ["by", "uri", "cert", "chain"].contains key

def isRepeatable : Bool := ["by", "uri", "dns"].contains key

def fieldValue (value : List Char) : Option String :=
  if isPercentEncoded key then strictPercentDecode value else some (String.ofList value)

def parsePair (pair : List Char) : Option (String × String) := do
  let (keyRaw, valueRaw) ← splitOnce pair
  let keyRaw := trim keyRaw
  let key := String.ofList (keyRaw.map Char.toLower)
  if !validXfccKey keyRaw || !allowedKeys.contains key then none
  else do
    let value ← xfccValue (trim valueRaw)
    let value ← fieldValue key value
    some (key, value)

abbrev XfccFields : Type := OrderedMap String (List String)

def addField (fields : XfccFields) (field : String × String) : Option XfccFields :=
  if !isRepeatable field.1 && fields.contains field.1 then none
  else some (fields.insert field.1 ((fields.get? field.1).getD [] ++ [field.2]))

def parsePairs : List (List Char) → XfccFields → Option XfccFields
  | [], fields => some fields
  | pair :: rest, fields => do
      let field ← parsePair pair
      let fields ← addField fields field
      parsePairs rest fields

def parseXfcc (raw : String) (maximumBytes : Nat) : Option XfccFields :=
  if raw = "" || maximumBytes < byteLength raw.toList ||
      raw.toList.any fun char => 128 ≤ char.toNat || char.toNat < 0x20 || char.toNat = 0x7f then
    none
  else
    match splitXfcc ',' raw.toList with
    | some [element] =>
      if (trim element).isEmpty then none
      else (splitXfcc ';' element).bind fun pairs => parsePairs pairs OrderedMap.empty
    | _ => none

def validTrustDomain (domain : List Char) : Bool :=
  let lower (char : Char) : Bool := char.isLower || char.isDigit
  1 ≤ byteLength domain && byteLength domain ≤ 255 && domain.head?.any lower &&
    domain.getLast?.any lower &&
    domain.all fun char => lower char || char == '.' || char == '_' || char == '-'

def spiffeScheme : List Char := "spiffe://".toList

def validSegment (segment : List Char) : Bool :=
  !segment.isEmpty && segment != ['.'] && segment != ['.', '.'] && segment.all fun char =>
      isAsciiAlphanumeric char || char == '.' || char == '_' || char == '-'

/-- The trust domain of a canonical identifier, when it is an allowed one. -/
def validateSpiffeId (value : List Char) (trustDomains : List String) : Option String :=
  if value.isEmpty || 2048 < byteLength value ||
      (value.any fun char => char.toNat < 0x20 || 0x7e < char.toNat) || value.contains '%' ||
      !spiffeScheme.isPrefixOf value then
    none
  else
    let remainder := value.drop spiffeScheme.length
    if !remainder.contains '/' then none
    else
      let domain := remainder.takeWhile (· != '/')
      let path := (remainder.dropWhile (· != '/')).tail
      if !validTrustDomain domain || !trustDomains.contains (String.ofList domain) then none
      else if path.isEmpty || path.getLast? = some '/' ||
          (path.splitOn '/').any fun segment => !validSegment segment then none
      else some (String.ofList domain)

structure EnvoyConfig where
  trustDomains : List String
  /-- Whether the address of the immediate peer is one of the trusted proxies. -/
  trusts : Option String → Bool
  header : String
  maxHeaderBytes : Nat

structure WorkloadIdentity where
  id : String
  trustDomain : String
  certificateSha256 : String
  proxyIdentities : Option (List String)
  deriving DecidableEq

inductive EnvoyResult where
  | untrustedProxy
  | noMatch
  | invalid
  | available (identity : WorkloadIdentity)
  deriving DecidableEq

def isSha256 (hash : String) : Bool :=
  byteLength hash.toList == 64 && hash.toList.all fun char => (hex char).isSome

variable (config : EnvoyConfig)

def envoyIdentity (fields : XfccFields) : EnvoyResult :=
  match fields.get? "uri", fields.get? "hash" with
  | some [uri], some [hash] =>
    if !isSha256 hash then .invalid
    else
      match validateSpiffeId uri.toList config.trustDomains with
      | none => .invalid
      | some trustDomain =>
        .available ⟨uri, trustDomain, String.ofList (hash.toList.map Char.toLower),
          fields.get? "by"⟩
  | _, _ => .invalid

/-- Take the identity from the header of a request; several headers of the name are refused. -/
def resolveEnvoy (immediatePeer : Option String)
    (header : String → Except Unit (Option String)) : EnvoyResult :=
  if !config.trusts immediatePeer then .untrustedProxy
  else
    match header config.header with
    | .error () => .invalid
    | .ok none => .noMatch
    | .ok (some raw) =>
      match parseXfcc raw config.maxHeaderBytes with
      | none => .invalid
      | some fields => envoyIdentity config fields

end VgiRpc.Auth
