import VgiRpc.Sticky.Lifetime

/-!
# Texts that open as session tokens

A server can be built with any id, and its tokens put the length of the id in one byte.
What opens is what was sealed over such fields under the same key and for the same caller;
every other text is lost, and no slice of the reader lies outside the plaintext.
-/

namespace VgiRpc.Sticky

open Library List Option ByteStream LittleEndian Http

/-- The cipher and the alphabet invert: nothing opens or decodes but what they made. -/
structure SessionPrimitives.Inverts (P : SessionPrimitives) : Prop where
  decrypted : ∀ key nonce aad ciphertext message,
    P.decrypt key nonce aad ciphertext = some message → ciphertext = P.encrypt key nonce aad message
  decoded : ∀ text bytes, P.base64UrlDecode text = some bytes → text = P.base64UrlEncode bytes

/-- A slice, which panics outside the bytes. -/
def slice? (bytes : Bytes) (start stop : Nat) : Option Bytes :=
  if start ≤ stop ∧ stop ≤ bytes.length then some ((bytes.take stop).drop start) else none

section

variable (P : SessionPrimitives)

/-- The fields of a plaintext, with the index and the slices that the reader takes. -/
def sliceSession (plaintext : Bytes) : Option (Except RpcError (String × Bytes × UInt64)) :=
  if plaintext.length < 8 + 1 then some (.error lostToken)
  else do
    let serverIdLength ← plaintext[8]?
    let sidPos := 9 + serverIdLength.toNat
    let endPos := sidPos + sessionIdLength + 8
    if plaintext.length ≠ endPos then some (.error lostToken)
    else do
      let serverId ← slice? plaintext 9 sidPos
      let sessionId ← slice? plaintext sidPos (sidPos + sessionIdLength)
      let expiresAt ← slice? plaintext (sidPos + sessionIdLength) endPos
      some (.ok (P.fromUtf8Lossy serverId, sessionId, UInt64.ofNat (ofLe expiresAt)))

/-- Opening a token; `none` is a panic. -/
def openSliced (token : String) (tokenKey aad : Bytes) :
    Option (Except RpcError (String × Bytes × UInt64)) :=
  match P.base64UrlDecode token with
  | none => some (.error lostToken)
  | some raw =>
    match openBytes P.toPrimitives raw tokenKey aad tokenVersion with
    | none => some (.error lostToken)
    | some plaintext => sliceSession P plaintext

/-- What a token is sealed over, with a server id of any bytes that one byte can count. -/
structure SessionFields where
  createdAt : UInt64
  serverId : Bytes
  short : serverId.length < 256
  sessionId : SessionId
  expiresAt : UInt64

def SessionFields.plaintext (fields : SessionFields) : Bytes :=
  word fields.createdAt ++ (UInt8.ofNat fields.serverId.length ::
    (fields.serverId ++ (fields.sessionId.bytes ++ word fields.expiresAt)))

def IsSessionToken (tokenKey aad : Bytes) (token : String) : Prop :=
  ∃ (fields : SessionFields) (nonce : Nonce), token = P.base64UrlEncode
    (sealBytes P.toPrimitives fields.plaintext tokenKey aad tokenVersion nonce)

variable {P}

theorem word_ofLe {bytes : Bytes} (eight : bytes.length = 8) :
    word (UInt64.ofNat (ofLe bytes)) = bytes := by
  have bound := ofLe_lt bytes
  rw [eight] at bound
  rw [word, UInt64.toNat_ofNat_of_lt' bound, ← eight, toLe_ofLe]

/-- A plaintext is read when it is that of some fields, and every slice of it exists. -/
theorem sliceSession_cases (plaintext : Bytes) :
    (∃ fields : SessionFields, plaintext = fields.plaintext ∧ readSession P plaintext =
        some (P.fromUtf8Lossy fields.serverId, fields.sessionId, fields.expiresAt) ∧
      sliceSession P plaintext =
        some (.ok (P.fromUtf8Lossy fields.serverId, fields.sessionId.bytes, fields.expiresAt))) ∨
    readSession P plaintext = none ∧ sliceSession P plaintext = some (.error lostToken) := by
  by_cases long : 8 < plaintext.length
  · obtain ⟨created, count, rest, rfl, eight⟩ : ∃ created count rest,
        plaintext = created ++ count :: rest ∧ created.length = 8 :=
      ⟨plaintext.take 8, plaintext[8], plaintext.drop 9, by simp, by simp; omega⟩
    have at8 : (created ++ count :: rest)[8]? = some count := by
      rw [getElem?_append_right (by omega), eight]
      rfl
    have small := count.toNat_lt
    by_cases whole : rest.length = count.toNat + sessionIdLength + 8
    · obtain ⟨name, sid, expires, rfl, named, twelve, last⟩ : ∃ name sid expires : Bytes,
          rest = name ++ (sid ++ expires) ∧ name.length = count.toNat ∧
            sid.length = sessionIdLength ∧ expires.length = 8 :=
        ⟨rest.take count.toNat, (rest.drop count.toNat).take sessionIdLength,
          (rest.drop count.toNat).drop sessionIdLength, by simp only [take_append_drop],
          by simp; omega, by simp; omega, by simp; omega⟩
      refine .inl ⟨⟨UInt64.ofNat (ofLe created), name, by omega, ⟨sid, twelve⟩,
        UInt64.ofNat (ofLe expires)⟩, ?_, ?_, ?_⟩
      · simp [SessionFields.plaintext, word_ofLe eight, word_ofLe last, named]
      · rw [readSession, drop_left' eight]
        dsimp only
        rw [if_pos (by simp; omega), drop_left' named, take_left' named,
          drop_left' twelve, readSessionId_append ⟨sid, twelve⟩]
        rfl
      · have cut (before middle behind : Bytes) (start stop : Nat) (starts : before.length = start)
            (stops : start + middle.length = stop) :
            slice? (before ++ (middle ++ behind)) start stop = some middle := by
          subst starts stops
          simp [slice?, take_append]
        have first := cut (created ++ [count]) name (sid ++ expires) 9 (9 + count.toNat)
          (by simp [eight]) (by omega)
        have second := cut (created ++ count :: name) sid expires (9 + count.toNat)
          (9 + count.toNat + sessionIdLength) (by simp; omega) (by omega)
        have third := cut (created ++ count :: name ++ sid) expires []
          (9 + count.toNat + sessionIdLength) (9 + count.toNat + sessionIdLength + 8)
          (by simp; omega) (by omega)
        simp only [append_assoc, cons_append, nil_append, append_nil] at *
        rw [sliceSession, if_neg (by omega), at8]
        simp only [bind_eq_bind, bind_some]
        rw [if_neg (by simp; omega), first, second, third]
        rfl
    · refine .inr ⟨?_, ?_⟩
      · rw [readSession, drop_left' eight]
        exact if_neg (by simp; omega)
      · rw [sliceSession, if_neg (by omega), at8]
        simp only [bind_eq_bind, bind_some]
        rw [if_pos (by simp; omega)]
  · refine .inr ⟨?_, ?_⟩
    · rw [readSession, drop_eq_nil_of_le (by omega)]
    · rw [sliceSession, if_pos (by omega)]

/-- The reader with its slices reads what the one without them reads. -/
theorem openSliced_eq (token : String) (tokenKey aad : Bytes) : openSliced P token tokenKey aad =
      some ((openSessionToken P token tokenKey aad).map fun (serverId, sessionId, expiresAt) =>
        (serverId, sessionId.bytes, expiresAt)) := by
  rw [openSliced, openSessionToken]
  cases P.base64UrlDecode token with
  | none => rfl
  | some raw =>
    dsimp only
    cases openBytes P.toPrimitives raw tokenKey aad tokenVersion with
    | none => rfl
    | some plaintext =>
      dsimp only
      rcases sliceSession_cases (P := P) plaintext with ⟨fields, -, read, sliced⟩ | ⟨read, sliced⟩
      · rw [read, sliced]
        rfl
      · rw [read, sliced]
        rfl

/-- Whatever is no token of the key and the caller is lost. -/
theorem openSliced_other (inverts : P.Inverts) {tokenKey aad : Bytes} {token : String}
    (other : ¬ IsSessionToken P tokenKey aad token) :
    openSliced P token tokenKey aad = some (.error lostToken) := by
  rw [openSliced]
  cases decoded : P.base64UrlDecode token with
  | none => rfl
  | some raw =>
    dsimp only
    cases opened : openBytes P.toPrimitives raw tokenKey aad tokenVersion with
    | none => rfl
    | some plaintext =>
      dsimp only
      rcases sliceSession_cases (P := P) plaintext with ⟨fields, rfl, -⟩ | ⟨-, sliced⟩
      · obtain ⟨nonce, rfl⟩ := sealed_of_openBytes inverts.decrypted opened
        exact absurd ⟨fields, nonce, inverts.decoded _ _ decoded⟩ other
      · exact sliced

end

/-- The tokens of a server open to what they were sealed over, and every other text is
lost, exactly when the id of the server has at most 255 bytes. -/
theorem session_tokens_exact_iff {P : SessionPrimitives} (lawful : P.Lawful) (inverts : P.Inverts)
    (serverId : String) (tokenKey : Bytes) :
    ((∀ (auth : AuthContext) (sessionId : SessionId) (expiresAt now : UInt64) (nonce : Nonce),
        openSliced P (sealSessionToken P serverId sessionId expiresAt tokenKey
            (computeSessionAad auth) now nonce) tokenKey (computeSessionAad auth) =
          some (.ok (serverId, sessionId.bytes, expiresAt))) ∧
      ∀ (auth : AuthContext) (token : String),
        ¬ IsSessionToken P tokenKey (computeSessionAad auth) token →
          openSliced P token tokenKey (computeSessionAad auth) = some (.error lostToken)) ↔
      (utf8 serverId).length ≤ 255 := by
  constructor
  · rintro ⟨opens, -⟩
    have opened := opens ⟨false, "", "", OrderedMap.empty⟩ Sample.sessionId 0 0 Http.Sample.nonce
    rw [openSliced_eq, openSessionToken_seal lawful] at opened
    by_contra long
    rw [if_neg (by omega)] at opened
    cases opened
  · intro short
    refine ⟨fun auth sessionId expiresAt now nonce => ?_, fun auth token => openSliced_other inverts⟩
    rw [openSliced_eq, openSessionToken_seal lawful, if_pos (by omega)]
    rfl

namespace Sample

/-- The small instance with an alphabet that decodes nothing but what it encodes. -/
def strict : SessionPrimitives :=
  { primitives [] with
    base64UrlDecode := fun text =>
      (ofLetters text.toList).filter fun bytes => String.ofList (letters bytes) = text }

theorem strict_decoded {text : String} {bytes : Bytes}
    (decoded : strict.base64UrlDecode text = some bytes) : text = strict.base64UrlEncode bytes :=
  (of_decide_eq_true (filter_eq_some_iff.mp decoded).2).symm

theorem strict_lawful : strict.Lawful :=
  { primitives_lawful [] with
    base64Url_decode := fun bytes => by simp [strict, primitives, ofLetters_letters]
    alphabets_agree := fun text standard url one two =>
      Option.some.inj (one.symm.trans (filter_eq_some_iff.mp two).1) }

theorem strict_inverts : strict.Inverts where
  decrypted key nonce aad ciphertext message opened := by
    have opened : (primitives []).decrypt key nonce aad ciphertext = some message := opened
    simp only [primitives, ite_none_right_eq_some] at opened
    obtain ⟨tagged, taken⟩ := opened
    show ciphertext = message ++ tag [] aad
    rw [← tagged, ← Option.some.inj taken, take_append_drop]
  decoded text bytes := strict_decoded

end Sample

open Sample Http.Sample in
theorem session_tokens_exact_iff_short :
    openSliced strict (sealSessionToken strict "worker" sessionId 60 [] (computeSessionAad ada) 0 nonce)
      [] (computeSessionAad ada) = some (.ok ("worker", sessionId.bytes, 60)) :=
  ((session_tokens_exact_iff strict_lawful strict_inverts "worker" []).mpr (by decide)).1
    ada sessionId 60 0 nonce

open Sample Http.Sample in
/-- The token of a server whose id has 256 bytes is lost at once. -/
theorem long_id_token_lost :
    openSliced strict (sealSessionToken strict (longId 256) sessionId 60 [] (computeSessionAad ada) 0
      nonce) [] (computeSessionAad ada) = some (.error lostToken) := by
  rw [openSliced_eq, openSessionToken_seal strict_lawful, if_neg (longId_long (Nat.le_refl 256))]
  rfl

end VgiRpc.Sticky
