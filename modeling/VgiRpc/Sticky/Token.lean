import VgiRpc.Http.CallCache
import VgiRpc.Http.Identity

/-!
# Session tokens

A sticky session is named by a token that only the header of a request carries: the
server that opened it, its random id and two wall-clock times, sealed under
associated data that names the caller, in the URL alphabet of base64.
-/

namespace VgiRpc.Sticky

open Library List ByteStream LittleEndian Http

structure SessionPrimitives extends Primitives where
  base64UrlEncode : Bytes → String
  base64UrlDecode : String → Option Bytes
  fromUtf8Lossy : Bytes → String

/-- The documented behaviour of `char::is_whitespace`. -/
def isWhitespace (char : Char) : Bool :=
  let code := char.toNat
  (9 ≤ code && code ≤ 13) || code == 0x20 || code == 0x85 || code == 0xA0 || code == 0x1680 ||
    (0x2000 ≤ code && code ≤ 0x200A) || code == 0x2028 || code == 0x2029 || code == 0x202F ||
    code == 0x205F || code == 0x3000

def trim (text : String) : String :=
  String.ofList ((text.toList.dropWhile isWhitespace).reverse.dropWhile isWhitespace).reverse

/-- The laws of the ciphers, and of the second base64 alphabet: it decodes what it
encoded, has no white space, and agrees with the first where both decode a text. -/
structure SessionPrimitives.Lawful (P : SessionPrimitives) : Prop extends
    toLawful : P.toPrimitives.Lawful where
  base64Url_decode : ∀ bytes, P.base64UrlDecode (P.base64UrlEncode bytes) = some bytes
  base64Url_visible : ∀ bytes, ∀ char ∈ (P.base64UrlEncode bytes).toList, isWhitespace char = false
  base64Url_nonempty : ∀ bytes, bytes ≠ [] → P.base64UrlEncode bytes ≠ ""
  alphabets_agree : ∀ text standard url, P.base64Decode text = some standard →
    P.base64UrlDecode text = some url → standard = url
  fromUtf8Lossy_utf8 : ∀ text, P.fromUtf8Lossy (utf8 text) = text

def computeSessionAad (auth : AuthContext) : Bytes :=
  labelledAad "vgi_rpc.session.v1\x00" "vgi_rpc.session.v2\x00" auth

def principalKey (auth : AuthContext) : String :=
  let binding := (peerEvidenceBinding auth).getD ""
  if auth.authenticated then
    if binding = "" then auth.domain ++ "\x00" ++ auth.principal
    else auth.domain ++ "\x00" ++ auth.principal ++ "\x00" ++ binding
  else if binding = "" then "\x00anonymous"
  else "\x00anonymous\x00" ++ binding

theorem computeSessionAad_eq_iff (first second : AuthContext) :
    computeSessionAad first = computeSessionAad second ↔ first.identity.Alike second.identity :=
  labelledAad_eq_iff ⟨by decide, by decide⟩ first second

/-- The key depends on who the caller is and on nothing else. -/
theorem principalKey_identity {first second : AuthContext}
    (same : first.identity = second.identity) : principalKey first = principalKey second := by
  obtain ⟨authenticated, domain, principal, binding⟩ := Identity.ext_iff.mp same
  simp only [AuthContext.identity] at authenticated domain principal binding
  simp only [principalKey, authenticated, domain, principal, binding]

def tokenVersion : UInt8 := 0x01

def sessionIdLength : Nat := 12

@[ext]
structure SessionId where
  bytes : Bytes
  length : bytes.length = sessionIdLength

instance : DecidableEq SessionId := fun first second =>
  decidable_of_iff (first.bytes = second.bytes)
    ⟨SessionId.ext, fun same => congrArg SessionId.bytes same⟩

/-- The length of the server id is written as one byte. -/
def sessionPlaintext (createdAt : UInt64) (serverId : String) (sessionId : SessionId)
    (expiresAt : UInt64) : Bytes :=
  word createdAt ++ (UInt8.ofNat (utf8 serverId).length ::
    (utf8 serverId ++ (sessionId.bytes ++ word expiresAt)))

def lostToken : RpcError := .sessionLostError "session token verification failed"

section

variable (P : SessionPrimitives)

def sealSessionToken (serverId : String) (sessionId : SessionId) (expiresAt : UInt64)
    (tokenKey aad : Bytes) (now : UInt64) (nonce : Nonce) : String :=
  P.base64UrlEncode (sealBytes P.toPrimitives (sessionPlaintext now serverId sessionId expiresAt)
    tokenKey aad tokenVersion nonce)

def readSessionId (bytes : Bytes) : Option SessionId :=
  if length : (bytes.take sessionIdLength).length = sessionIdLength then
    some ⟨bytes.take sessionIdLength, length⟩
  else none

/-- The fields of a plaintext, whose length must be the one its length byte asks for. -/
def readSession (plaintext : Bytes) : Option (String × SessionId × UInt64) :=
  match plaintext.drop 8 with
  | [] => none
  | serverIdLength :: rest =>
    if plaintext.length = 9 + serverIdLength.toNat + sessionIdLength + 8 then
      (readSessionId (rest.drop serverIdLength.toNat)).map fun sessionId =>
        (P.fromUtf8Lossy (rest.take serverIdLength.toNat), sessionId,
          UInt64.ofNat (ofLe ((rest.drop serverIdLength.toNat).drop sessionIdLength)))
    else none

/-- Every failure to open a token is the same one. -/
def openSessionToken (token : String) (tokenKey aad : Bytes) :
    Except RpcError (String × SessionId × UInt64) :=
  match P.base64UrlDecode token with
  | none => .error lostToken
  | some raw =>
    match openBytes P.toPrimitives raw tokenKey aad tokenVersion with
    | none => .error lostToken
    | some plaintext =>
      match readSession P plaintext with
      | none => .error lostToken
      | some session => .ok session

end

section

variable {P : SessionPrimitives} (createdAt : UInt64) (serverId : String) (sessionId : SessionId)
  (expiresAt : UInt64)

theorem sessionPlaintext_drop : (sessionPlaintext createdAt serverId sessionId expiresAt).drop 8 =
      UInt8.ofNat (utf8 serverId).length ::
        (utf8 serverId ++ (sessionId.bytes ++ word expiresAt)) :=
  drop_left' (word_length createdAt)

theorem sessionPlaintext_length : (sessionPlaintext createdAt serverId sessionId expiresAt).length =
      9 + (utf8 serverId).length + sessionIdLength + 8 := by
  simp only [sessionPlaintext, length_append, length_cons, word_length, sessionId.length]
  omega

theorem readSessionId_append (rest : Bytes) :
    readSessionId (sessionId.bytes ++ rest) = some sessionId := by
  have taken : (sessionId.bytes ++ rest).take sessionIdLength = sessionId.bytes := by
    rw [← sessionId.length, take_left]
  rw [readSessionId, dif_pos (by rw [taken, sessionId.length])]
  exact congrArg some (SessionId.ext taken)

/-- A plaintext reads back exactly when one byte can say how long the server id is. -/
theorem readSession_plaintext (lawful : P.Lawful) (createdAt : UInt64) (serverId : String)
    (sessionId : SessionId) (expiresAt : UInt64) :
    readSession P (sessionPlaintext createdAt serverId sessionId expiresAt) =
      if (utf8 serverId).length < 256 then some (serverId, sessionId, expiresAt) else none := by
  have length : (UInt8.ofNat (utf8 serverId).length).toNat = (utf8 serverId).length % 256 := by
    simp
  have left : (sessionId.bytes ++ word expiresAt).drop sessionIdLength = word expiresAt := by
    rw [← sessionId.length, drop_left]
  rw [readSession, sessionPlaintext_drop, sessionPlaintext_length]
  simp only [length]
  by_cases short : (utf8 serverId).length < 256
  · rw [Nat.mod_eq_of_lt short, if_pos rfl, if_pos short, drop_left, take_left,
      readSessionId_append, left, ofLe_word, lawful.fromUtf8Lossy_utf8]
    rfl
  · rw [if_neg (by omega), if_neg short]

/-- A token opens under its own associated data exactly when its server id is short. -/
theorem openSessionToken_seal (lawful : P.Lawful) (serverId : String) (sessionId : SessionId)
    (expiresAt : UInt64) (tokenKey aad : Bytes) (now : UInt64) (nonce : Nonce) :
    openSessionToken P (sealSessionToken P serverId sessionId expiresAt tokenKey aad now nonce)
        tokenKey aad =
      if (utf8 serverId).length < 256 then .ok (serverId, sessionId, expiresAt)
      else .error lostToken := by
  simp only [openSessionToken, sealSessionToken, lawful.base64Url_decode,
    openBytes_sealBytes lawful.toLawful, readSession_plaintext lawful]
  by_cases short : (utf8 serverId).length < 256
  · rw [if_pos short, if_pos short]
  · rw [if_neg short, if_neg short]

theorem dropWhile_visible {text : List Char} (visible : ∀ char ∈ text, isWhitespace char = false) :
    text.dropWhile isWhitespace = text := by
  cases text with
  | nil => rfl
  | cons char rest =>
    exact dropWhile_cons_of_neg (by rw [visible char (mem_cons_self ..)]; decide)

theorem trim_visible {text : String} (visible : ∀ char ∈ text.toList, isWhitespace char = false) :
    trim text = text := by
  rw [trim, dropWhile_visible visible,
    dropWhile_visible fun char member => visible char (mem_reverse.mp member),
    reverse_reverse, String.ofList_toList]

end

/-! ## A small instance

Two letters a byte for both alphabets, and a cipher whose tag tells one associated
data from all others. -/

namespace Sample

def letter (nibble : Nat) : Char := Char.ofNat (97 + nibble)

def letters : Bytes → List Char
  | [] => []
  | byte :: rest => letter (byte.toNat / 16) :: letter (byte.toNat % 16) :: letters rest

def ofLetters : List Char → Option Bytes
  | [] => some []
  | [_] => none
  | high :: low :: rest =>
    (ofLetters rest).map fun bytes =>
      UInt8.ofNat (16 * (high.toNat - 97) + (low.toNat - 97)) :: bytes

def tag (known aad : Bytes) : Bytes := List.replicate tagLength (if aad = known then 1 else 0)

/-- The cipher that has met one associated data before. -/
def primitives (known : Bytes) : SessionPrimitives where
  base64Encode bytes := String.ofList (letters bytes)
  base64Decode text := ofLetters text.toList
  sha256 bytes := (bytes ++ List.replicate 32 0).take 32
  encrypt _ _ aad message := message ++ tag known aad
  decrypt _ _ aad ciphertext :=
    if ciphertext.drop (ciphertext.length - tagLength) = tag known aad then
      some (ciphertext.take (ciphertext.length - tagLength))
    else none
  zstdCompress bytes := some bytes
  zstdDecompress capacity bytes := if bytes.length ≤ capacity then some bytes else none
  base64UrlEncode bytes := String.ofList (letters bytes)
  base64UrlDecode text := ofLetters text.toList
  fromUtf8Lossy bytes := (fromUtf8 bytes).getD ""

variable {nibble : Nat}

theorem letter_toNat (small : nibble < 16) : (letter nibble).toNat = 97 + nibble := by
  have table : ∀ nibble : Fin 16, (letter nibble.val).toNat = 97 + nibble.val := by decide
  exact table ⟨nibble, small⟩

theorem letter_visible (small : nibble < 16) : isWhitespace (letter nibble) = false := by
  have table : ∀ nibble : Fin 16, isWhitespace (letter nibble.val) = false := by decide
  exact table ⟨nibble, small⟩

theorem ofLetters_letters (bytes : Bytes) : ofLetters (letters bytes) = some bytes := by
  induction bytes with
  | nil => rfl
  | cons byte rest ih =>
    have small := byte.toNat_lt
    have whole : 16 * (byte.toNat / 16) + byte.toNat % 16 = byte.toNat := Nat.div_add_mod _ _
    rw [letters, ofLetters, ih, letter_toNat (by omega), letter_toNat (by omega),
      Nat.add_sub_cancel_left, Nat.add_sub_cancel_left, whole]
    exact congrArg (fun head => some (head :: rest)) UInt8.ofNat_toNat

theorem letters_visible (bytes : Bytes) : ∀ char ∈ letters bytes, isWhitespace char = false := by
  induction bytes with
  | nil => exact forall_mem_nil _
  | cons byte rest ih =>
    have small := byte.toNat_lt
    exact forall_mem_cons.mpr ⟨letter_visible (by omega),
      forall_mem_cons.mpr ⟨letter_visible (by omega), ih⟩⟩

theorem primitives_lawful (known : Bytes) : (primitives known).Lawful where
  base64_decode bytes := by
    simp [primitives, ofLetters_letters]
  decrypt_encrypt key nonce aad message := by
    simp [primitives, tag]
  encrypt_length key nonce aad message := by
    simp [primitives, tag]
  zstd_within bytes packed capacity packs fits := by
    cases packs
    exact if_pos fits
  zstd_beyond bytes packed capacity packs beyond := by
    cases packs
    exact if_neg (Nat.not_le.mpr beyond)
  base64Url_decode bytes := by
    simp [primitives, ofLetters_letters]
  base64Url_visible bytes := by
    simp only [primitives, String.toList_ofList]
    exact letters_visible bytes
  base64Url_nonempty bytes nonempty := by
    intro empty
    have none : letters bytes = [] := by
      rw [← String.toList_ofList (l := letters bytes)]
      exact String.toList_eq_nil_iff.mpr empty
    cases bytes with
    | nil => exact nonempty rfl
    | cons byte rest => cases none
  alphabets_agree text standard url one two := Option.some.inj (one.symm.trans two)
  fromUtf8Lossy_utf8 text := by
    simp [primitives, fromUtf8_utf8]

/-- What is sealed under the known associated data opens under no other. -/
theorem opens_only_known {known aad payload key opened : Bytes} {version other : UInt8}
    {nonce : Nonce}
    (opens : openBytes (primitives known).toPrimitives
      (sealBytes (primitives known).toPrimitives payload key known version nonce) key aad other =
        some opened) : aad = known := by
  unfold openBytes at opens
  split_ifs at opens
  rw [sealBytes_drop] at opens
  by_contra differs
  simp [primitives, tag, tagLength, differs] at opens

end Sample

end VgiRpc.Sticky
