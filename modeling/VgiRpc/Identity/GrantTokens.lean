import VgiRpc.Identity.Grants

/-!
# Tokens and their claims

A payload has one encoding, bytes have one spelling, and an envelope that opens is the one
that sealing makes.  A token therefore opens to claims exactly when it is what the claims
are sealed to under one of the keys, and is not too long.
-/

namespace VgiRpc.Identity

open Library List Cursor
open Library.ByteStream (Bytes)
open Library.LittleEndian (toLe)
open Http (Primitives Nonce sealBytes utf8 fromUtf8)
open Auth (byteLength)
open Base64Url (alphabet encode length_encode mem_encode)

namespace Payload

theorem i64_append (value : Int64) (rest : Bytes) :
    i64 (packI64 value ++ rest) = .ok (value, rest) := by
  have fits : value.toUInt64.toNat < 256 ^ 8 := value.toUInt64.toNat_lt
  rw [i64, packI64, bind_of_ok (word_append truncated fits rest)]
  simp only [UInt64.ofNat_toNat, Int64.toInt64_toUInt64]
  rfl

theorem i64_ok {input rest : Bytes} {value : Int64} (read : i64 input = .ok (value, rest)) :
    input = packI64 value ++ rest := by
  obtain ⟨word, middle, taken, ended⟩ := bind_ok read
  cases ended
  obtain ⟨fits, rfl⟩ := word_ok taken
  have back : (UInt64.ofNat word).toInt64.toUInt64.toNat = word := by
    rw [UInt64.toUInt64_toInt64, UInt64.toNat_ofNat']
    exact Nat.mod_eq_of_lt fits
  rw [packI64, back]

theorem text_agrees : Cursor.Agrees packText text where
  back := by
    intro value bytes rest written
    unfold packText at written
    split_ifs at written with short
    cases written
    have fits : (utf8 value).length < 256 ^ 2 := by
      unfold maxField at short
      omega
    rw [text, u16, append_assoc, bind_of_ok (word_append truncated fits _),
      bind_of_ok (take_append truncated (utf8 value) rest)]
    simp only [Http.fromUtf8_utf8]
    rfl
  only := by
    intro input value rest read
    obtain ⟨length, middle, sized, more⟩ := bind_ok read
    obtain ⟨bytes, last, taken, ended⟩ := bind_ok more
    obtain ⟨fits, rfl⟩ := word_ok sized
    obtain ⟨rfl, rfl⟩ := take_ok taken
    cases decoded : fromUtf8 bytes with
    | none =>
      simp only [decoded] at ended
      cases ended
    | some value =>
      simp only [decoded] at ended
      cases ended
      have same := Http.utf8_fromUtf8 decoded
      subst same
      refine ⟨_, ?_, (append_assoc _ _ _).symm⟩
      rw [packText, if_neg]
      unfold maxField
      omega

end Payload

variable {claims : GrantClaims} {payload : Bytes}

theorem encodePayload_ok (encoded : encodePayload claims = .ok payload) :
    ∃ grantId principal purpose scopes, claims.scopes.length ≤ maxField ∧
      packText claims.grantId = .ok grantId ∧ packText claims.principal = .ok principal ∧
      packText claims.purpose = .ok purpose ∧
      Cursor.writeAll packText claims.scopes = .ok scopes ∧
      payload = packI64 claims.issuedAt ++ (packI64 claims.expiresAt ++ (grantId ++ (principal ++
        (purpose ++ (toLe 2 claims.scopes.length ++ scopes))))) := by
  unfold encodePayload at encoded
  by_cases many : maxField < claims.scopes.length
  · simp only [many, if_true] at encoded
    cases encoded
  · simp only [many, if_false] at encoded
    obtain ⟨grantId, first, encoded⟩ := exceptBind_eq_ok encoded
    obtain ⟨principal, second, encoded⟩ := exceptBind_eq_ok encoded
    obtain ⟨purpose, third, encoded⟩ := exceptBind_eq_ok encoded
    obtain ⟨scopes, fourth, encoded⟩ := exceptBind_eq_ok encoded
    cases encoded
    exact ⟨grantId, principal, purpose, scopes, not_lt.mp many, first, second, third, fourth, rfl⟩

theorem decodePayload_encodePayload
    (encoded : encodePayload claims = .ok payload) : decodePayload payload = .ok claims := by
  obtain ⟨grantId, principal, purpose, scopes, few, first, second, third, fourth, rfl⟩ :=
    encodePayload_ok encoded
  have count : claims.scopes.length < 256 ^ 2 := by
    unfold maxField at few
    omega
  have read : Payload.claims (packI64 claims.issuedAt ++ (packI64 claims.expiresAt ++ (grantId ++
      (principal ++ (purpose ++ (toLe 2 claims.scopes.length ++ scopes)))))) = .ok (claims, []) := by
    unfold Payload.claims
    rw [bind_of_ok (Payload.i64_append _ _), bind_of_ok (Payload.i64_append _ _),
      bind_of_ok (Payload.text_agrees.back _ first), bind_of_ok (Payload.text_agrees.back _ second),
      bind_of_ok (Payload.text_agrees.back _ third), Payload.u16,
      bind_of_ok (word_append Payload.truncated count _)]
    have last := Payload.text_agrees.many_back [] fourth
    rw [append_nil] at last
    rw [bind_of_ok last]
    rfl
  rw [decodePayload, read]
  rfl

/-- Claims have one encoding. -/
theorem encodePayload_of_decodePayload
    (decoded : decodePayload payload = .ok claims) : encodePayload claims = .ok payload := by
  obtain ⟨⟨found, rest⟩, read, decoded⟩ := exceptBind_eq_ok decoded
  cases rest with
  | cons byte more => cases decoded
  | nil =>
    cases decoded
    unfold Payload.claims at read
    obtain ⟨issuedAt, _, first, read⟩ := bind_ok read
    obtain ⟨expiresAt, _, second, read⟩ := bind_ok read
    obtain ⟨grantId, _, third, read⟩ := bind_ok read
    obtain ⟨principal, _, fourth, read⟩ := bind_ok read
    obtain ⟨purpose, _, fifth, read⟩ := bind_ok read
    obtain ⟨count, _, sixth, read⟩ := bind_ok read
    obtain ⟨scopes, _, seventh, ended⟩ := bind_ok read
    cases ended
    obtain ⟨idBytes, idWritten, rfl⟩ := Payload.text_agrees.only third
    obtain ⟨principalBytes, principalWritten, rfl⟩ := Payload.text_agrees.only fourth
    obtain ⟨purposeBytes, purposeWritten, rfl⟩ := Payload.text_agrees.only fifth
    obtain ⟨few, rfl⟩ := word_ok sixth
    obtain ⟨rfl, scopeBytes, scopesWritten, rfl⟩ := Payload.text_agrees.many_only seventh
    rw [Payload.i64_ok first, Payload.i64_ok second, append_nil]
    unfold encodePayload
    simp only [show ¬ maxField < scopes.length by unfold maxField; omega, if_false, idWritten,
      principalWritten, purposeWritten, scopesWritten]
    rfl

theorem alphabet_facts {char : Char} (member : char ∈ alphabet) :
    (Http.isAsciiAlphanumeric char || char == '-' || char == '_') = true ∧ char.utf8Size = 1 := by
  have facts : (alphabet.all fun char => decide
      ((Http.isAsciiAlphanumeric char || char == '-' || char == '_') = true ∧
        char.utf8Size = 1)) = true := by
    decide +kernel
  exact of_decide_eq_true (all_eq_true.mp facts char member)

variable {text : List Char}

theorem byteLength_of_alphabet (letters : ∀ char ∈ text, char ∈ alphabet) :
    byteLength text = text.length := by
  unfold byteLength
  induction text with
  | nil => rfl
  | cons char rest ih =>
    rw [map_cons, sum_cons, ih (forall_mem_cons.mp letters).2,
      (alphabet_facts (letters char (by simp))).2, length_cons, Nat.add_comm]

variable {bytes : Bytes}

theorem b64urlStrict_encode (some_byte : bytes ≠ []) : b64urlStrict (encode bytes) = .ok bytes := by
  have positive := length_pos_of_ne_nil some_byte
  have length := length_encode bytes
  unfold b64urlStrict
  rw [if_neg, Base64Url.decode_encode]
  · simp
  · simp only [Bool.or_eq_true, List.isEmpty_iff, List.any_eq_true, beq_iff_eq, not_or, not_exists,
      not_and]
    refine ⟨⟨?_, fun char member => ?_⟩, ?_⟩
    · intro empty
      rw [empty, List.length_nil] at length
      omega
    · simp [(alphabet_facts (mem_encode member)).1]
    · rw [byteLength_of_alphabet fun char => mem_encode, length]
      omega

theorem b64urlStrict_ok (read : b64urlStrict text = .ok bytes) : text = encode bytes := by
  unfold b64urlStrict at read
  split_ifs at read
  split at read
  · cases read
  split_ifs at read with same
  cases read
  exact same.symm

variable (kid envelope : Bytes)

theorem grantToken_toList :
    (grantToken kid envelope).toList = grantTokenPrefix ++ encode (kid ++ envelope) := by
  rw [grantToken, String.toList_ofList]

theorem byteLength_grantToken : byteLength (grantToken kid envelope).toList =
      6 + (4 * (kid.length + envelope.length) + 2) / 3 := by
  have body := byteLength_of_alphabet fun char => @Base64Url.mem_encode (kid ++ envelope) char
  rw [grantToken_toList]
  unfold byteLength at body ⊢
  rw [map_append, sum_append, body, length_encode, length_append]
  rfl

section

variable {P : Primitives}

def Digests (P : Primitives) : Prop := ∀ bytes, (P.sha256 bytes).length = 32

/-- The cipher opens only what it sealed under the same key, nonce and associated data. -/
def OpensOnlySealed (P : Primitives) : Prop :=
  ∀ key nonce aad ciphertext message, P.decrypt key nonce aad ciphertext = some message →
    ciphertext = P.encrypt key nonce aad message

theorem grantKeyId_length (digests : Digests P) (key : Bytes) :
    (grantKeyId P key).length = kidLength := by
  rw [grantKeyId, length_take, digests]
  rfl

theorem sealBytes_length (lawful : P.Lawful) (payload key aad : Bytes) (version : UInt8)
    (nonce : Nonce) :
    (sealBytes P payload key aad version nonce).length = payload.length + 41 := by
  rw [sealBytes, length_cons, length_append, lawful.encrypt_length, nonce.length]
  unfold Http.nonceLength Http.tagLength
  omega

variable {key : Bytes}

theorem GrantKeys.find_key (config : GrantKeys P) (member : key ∈ config.keys) :
    config.keys.find? (fun other => grantKeyId P other == grantKeyId P key) = some key := by
  cases found : config.keys.find? (fun other => grantKeyId P other == grantKeyId P key) with
  | none =>
    have none := find?_eq_none.mp found key member
    simp at none
  | some other =>
    have same : grantKeyId P other = grantKeyId P key := by
      simpa using find?_some found
    rw [inj_on_of_nodup_map config.distinct (mem_of_find?_eq_some found) member same]

/-- A token that is sealed under one of the keys opens to what was sealed. -/
theorem openGrant_sealed (lawful : P.Lawful) (digests : Digests P) (config : GrantKeys P)
    (member : key ∈ config.keys) (payload : Bytes) (nonce : Nonce)
    (short : 6 + (4 * (payload.length + 49) + 2) / 3 ≤ maxGrantTokenChars) :
    openGrant config (grantToken (grantKeyId P key) (sealBytes P payload key
      (config.aad (grantKeyId P key)) envelopeVersion nonce)) = decodePayload payload := by
  have kid := grantKeyId_length digests key
  have length := sealBytes_length lawful payload key (config.aad (grantKeyId P key)) envelopeVersion
    nonce
  have fits := byteLength_grantToken (grantKeyId P key) (sealBytes P payload key
    (config.aad (grantKeyId P key)) envelopeVersion nonce)
  have opened := Http.openBytes_sealBytes lawful payload key (config.aad (grantKeyId P key))
    envelopeVersion nonce
  have found := config.find_key member
  generalize sealBytes P payload key (config.aad (grantKeyId P key)) envelopeVersion nonce =
    envelope at *
  have some_byte : grantKeyId P key ++ envelope ≠ [] := by
    intro empty
    have none := congrArg List.length empty
    rw [length_append, kid, length_nil] at none
    cases Nat.eq_zero_of_add_eq_zero_right none
  unfold openGrant
  rw [if_neg, if_neg, grantToken_toList, drop_left, b64urlStrict_encode some_byte]
  · simp only [bind, Except.bind]
    rw [if_neg, ← kid, take_left, drop_left, found]
    · simp only [opened]
    · rw [length_append, kid]
      omega
  · rw [fits, kid, length]
    unfold kidLength
    omega
  · rw [grantToken_toList]
    simp

variable {token : String}

theorem openGrant_long (config : GrantKeys P) (long : maxGrantTokenChars < byteLength token.toList)
    (claims : GrantClaims) : openGrant config token ≠ .ok claims := by
  unfold openGrant
  rw [if_pos long]
  intro opened
  split at opened
  · cases opened
  · cases opened

/-- A token that opens is what its claims are sealed to under one of the keys. -/
theorem openGrant_ok (sealing : OpensOnlySealed P) {config : GrantKeys P} {claims : GrantClaims}
    (opened : openGrant config token = .ok claims) :
    ∃ key ∈ config.keys, ∃ payload nonce, encodePayload claims = .ok payload ∧
      token = grantToken (grantKeyId P key) (sealBytes P payload key
        (config.aad (grantKeyId P key)) envelopeVersion nonce) := by
  unfold openGrant at opened
  split_ifs at opened with labelled
  obtain ⟨raw, read, opened⟩ := exceptBind_eq_ok opened
  split_ifs at opened
  dsimp only at opened
  split at opened
  · cases opened
  rename_i key found
  have named : grantKeyId P key = raw.take kidLength := by
    simpa using find?_some found
  rw [← named] at opened
  split at opened
  · cases opened
  rename_i payload envelope
  obtain ⟨nonce, sealed⟩ := Http.sealed_of_openBytes sealing envelope
  refine ⟨key, mem_of_find?_eq_some found, payload, nonce,
    encodePayload_of_decodePayload opened, ?_⟩
  have starts : grantTokenPrefix <+: token.toList := by simpa using labelled
  obtain ⟨body, whole⟩ := starts
  rw [grantToken, ← sealed, named, take_append_drop, ← b64urlStrict_ok read,
    ← whole, drop_left, whole, String.ofList_toList]

end

section

variable {P : Primitives}

theorem checkGrant_ok_iff (config : GrantKeys P) (claims found : GrantClaims) (current : ℚ) :
    checkGrant config claims current = .ok found ↔
      claims = found ∧ claims.principal ≠ "" ∧ claims.issuedAt.toInt < claims.expiresAt.toInt ∧
      saturate (claims.expiresAt.toInt - claims.issuedAt.toInt) ≤ config.maxTtlSeconds.toInt ∧
      asF64 claims.issuedAt ≤ addF64 current (asF64 config.clockSkewSeconds) ∧
      current < addF64 (asF64 claims.expiresAt) (asF64 config.clockSkewSeconds) := by
  unfold checkGrant
  simp only [Int64.le_iff_toInt_le, String.isEmpty_iff]
  split_ifs with empty span early late
  · simp [empty]
  · simp only [false_iff, not_and]
    intro _ _ positive within
    omega
  · simp only [false_iff, not_and]
    intro _ _ _ _ begun
    exact absurd early (not_lt.mpr begun)
  · simp only [false_iff, not_and]
    intro _ _ _ _ _ ends
    exact absurd late (not_le.mpr ends)
  · rw [not_or, not_le, not_lt] at span
    simp only [Except.ok.injEq]
    exact ⟨fun same => ⟨same, empty, span.1, span.2, not_lt.mp early, not_le.mp late⟩,
      fun facts => facts.1⟩

theorem verifyGrantToken_ok {config : GrantKeys P} {token : String} {current : ℚ}
    {claims : GrantClaims} (verified : verifyGrantToken config token current = .ok claims) :
    openGrant config token = .ok claims ∧ checkGrant config claims current = .ok claims := by
  obtain ⟨found, opened, checked⟩ := exceptBind_eq_ok verified
  obtain ⟨rfl, -⟩ := (checkGrant_ok_iff config found claims current).mp checked
  exact ⟨opened, checked⟩

end

end VgiRpc.Identity
