import Mathlib.Data.String.Basic
import VgiRpc.Identity.GrantTokens

/-!
# Grants while they last

The minter and the verifier of grants check different things.  A grant is honoured for as
long as it was issued for exactly when it names somebody, its token is short enough to be
read, and the end of its lifetime is a moment that neither the integers nor the doubles of
the verifier lose.
-/

namespace VgiRpc.Identity

open Library List Float64
open Library.ByteStream (Bytes)
open Library.Float64 (nearest)
open Http (Primitives sealBytes utf8)
open Auth (byteLength)

/-! ## Lengths -/

variable (principal purpose : String) (scopes : List String)

/-- The number of bytes of a payload with an id of 32 characters. -/
def payloadLength : Nat :=
  56 + (utf8 principal).length + (utf8 purpose).length +
    (scopes.map fun scope => 2 + (utf8 scope).length).sum

def grantLength : Nat :=
  6 + (4 * (payloadLength principal purpose scopes + 49) + 2) / 3

variable {bytes : Bytes}

theorem packText_length {value : String} (packed : packText value = .ok bytes) :
    bytes.length = 2 + (utf8 value).length := by
  unfold packText at packed
  split_ifs at packed
  cases packed
  rw [length_append, LittleEndian.toLe_length]

theorem writeAll_packText_length {values : List String}
    (packed : Cursor.writeAll packText values = .ok bytes) :
    bytes.length = (values.map fun value => 2 + (utf8 value).length).sum := by
  induction values generalizing bytes with
  | nil =>
    cases packed
    rfl
  | cons value rest ih =>
    obtain ⟨first, others, head, tail, rfl⟩ := Cursor.writeAll_cons_ok packed
    rw [length_append, packText_length head, ih tail, map_cons, sum_cons]

theorem encodePayload_length {claims : GrantClaims} {payload : Bytes}
    (encoded : encodePayload claims = .ok payload) (id : (utf8 claims.grantId).length = 32) :
    payload.length = payloadLength claims.principal claims.purpose claims.scopes := by
  obtain ⟨grantId, principal, purpose, scopes, -, first, second, third, fourth, rfl⟩ :=
    encodePayload_ok encoded
  simp only [length_append, packI64, LittleEndian.toLe_length, packText_length first,
    packText_length second, packText_length third, writeAll_packText_length fourth, id,
    payloadLength]
  omega

theorem utf8Len_eq (chars : List Char) : String.utf8Len chars = byteLength chars := by
  induction chars with
  | nil => rfl
  | cons char rest ih =>
    rw [String.utf8Len_cons, ih, Nat.add_comm]
    rfl

theorem utf8_ofList_length (chars : List Char) :
    (utf8 (String.ofList chars)).length = byteLength chars := by
  rw [← utf8Len_eq, ← String.utf8ByteSize_ofList, utf8, Array.length_toList]
  rfl

theorem byteLength_flatMap_hexByte (bytes : Bytes) :
    byteLength (bytes.flatMap Http.hexByte) = 2 * bytes.length := by
  have digits : ∀ value < 16, (Nat.digitChar value).utf8Size = 1 := by decide
  unfold byteLength
  induction bytes with
  | nil => rfl
  | cons byte rest ih =>
    have bound := byte.toNat_lt
    rw [flatMap_cons, map_append, sum_append, ih, Http.hexByte, map_cons,
      map_cons, map_nil, digits _ (by omega), digits _ (by omega), length_cons]
    simp only [sum_cons, sum_nil]
    omega

theorem Surroundings.grantId_length (surroundings : Surroundings) :
    (utf8 surroundings.grantId).length = 32 := by
  rw [grantId, utf8_ofList_length, byteLength_flatMap_hexByte, surroundings.idLength]

/-! ## Moments -/

def Surroundings.second (surroundings : Surroundings) : ℤ := ⌊surroundings.clock.seconds⌋

theorem Surroundings.second_fits (surroundings : Surroundings) :
    0 ≤ surroundings.second ∧ surroundings.second < 2 ^ 63 := by
  refine ⟨Int.floor_nonneg.mpr (representable_nonneg surroundings.clock.representable), ?_⟩
  refine Int.floor_lt.mpr ?_
  exact_mod_cast surroundings.clock.below

theorem Surroundings.toInt_second (surroundings : Surroundings) :
    (Int64.ofInt surroundings.second).toInt = surroundings.second := by
  obtain ⟨low, high⟩ := surroundings.second_fits
  exact Int64.toInt_ofInt_of_le (by omega) high

theorem Surroundings.representable_second (surroundings : Surroundings) :
    Representable (surroundings.second : ℚ) :=
  representable_floor surroundings.clock.representable

theorem nearest_second (surroundings : Surroundings) :
    nearest (surroundings.second : ℚ) = surroundings.second := by
  have nonneg : (0 : ℚ) ≤ surroundings.second := by exact_mod_cast surroundings.second_fits.1
  refine nearest_of_representable ?_
  rw [abs_of_nonneg nonneg]
  exact surroundings.representable_second

theorem nearest_zero : nearest 0 = 0 := by
  have same := nearest_of_representable (representable_intCast
    (show |(0 : ℤ)| ≤ 2 ^ 53 by norm_num))
  simpa using same

section

variable {P : Primitives} (config : GrantKeys P)

theorem lifetime_fits {ttlSeconds : Int64} (positive : 0 < ttlSeconds.toInt) :
    0 < (lifetime config ttlSeconds).toInt ∧
      (lifetime config ttlSeconds).toInt ≤ config.maxTtlSeconds.toInt := by
  unfold lifetime
  split
  · rename_i within
    exact ⟨positive, Int64.le_iff_toInt_le.mp within⟩
  · exact ⟨config.ttlPositive, le_refl _⟩

variable (surroundings : Surroundings)

def Surroundings.ending (config : GrantKeys P) (ttlSeconds : Int64) :
    ℤ := surroundings.second + (lifetime config ttlSeconds).toInt

def mintedClaims
    (principal purpose : String) (scopes : List String) (ttlSeconds : Int64) : GrantClaims :=
  ⟨principal, scopes, purpose, surroundings.grantId, Int64.ofInt surroundings.second,
    Int64.ofInt surroundings.second + lifetime config ttlSeconds⟩

variable {config other : GrantKeys P} {surroundings : Surroundings} {principal purpose : String}
  {scopes : List String} {ttlSeconds : Int64} {grant : IssuedGrant}

theorem mintGrantToken_ok_iff {overrides : MintOverrides} {token : String} {claims : GrantClaims} :
    mintGrantToken config surroundings principal scopes purpose ttlSeconds overrides =
        .ok (token, claims) ↔
      0 < ttlSeconds.toInt ∧
      (let issuedAt := overrides.now.getD (Int64.ofInt surroundings.second);
        ⟨principal, scopes, purpose, overrides.grantId.getD surroundings.grantId, issuedAt,
          issuedAt + lifetime config ttlSeconds⟩) = claims ∧
      ∃ payload, encodePayload claims = .ok payload ∧
        token = grantToken (grantKeyId P config.first) (sealBytes P payload config.first
          (config.aad (grantKeyId P config.first)) envelopeVersion
          (overrides.nonce.getD surroundings.nonce)) := by
  unfold mintGrantToken
  split_ifs with never <;> rw [Int64.le_iff_toInt_le] at never
  · exact iff_of_false (by rintro ⟨⟩) fun minted => absurd never (not_le.mpr minted.1)
  · constructor
    · intro minted
      obtain ⟨payload, encoded, made⟩ := exceptBind_eq_ok minted
      cases made
      exact ⟨not_le.mp never, rfl, payload, encoded, rfl⟩
    · rintro ⟨-, rfl, payload, encoded, rfl⟩
      unfold Surroundings.second at encoded
      simp only [encoded]
      rfl

theorem exists_sealedMintGrant {payload : Bytes} (positive : 0 < ttlSeconds.toInt) (encoded :
    encodePayload (mintedClaims config surroundings principal purpose scopes ttlSeconds) = .ok
    payload) :
    ∃ grant, sealedMintGrant config surroundings principal purpose scopes ttlSeconds = .ok grant := by
  have minted : mintGrantToken config surroundings principal scopes purpose ttlSeconds .none = _ :=
    mintGrantToken_ok_iff.mpr ⟨positive, rfl, payload, encoded, rfl⟩
  rw [sealedMintGrant, minted, if_neg]
  · exact ⟨_, rfl⟩
  · rw [Int64.le_iff_toInt_le]
    exact not_le.mpr positive

section

variable
  (issued : sealedMintGrant config surroundings principal purpose scopes ttlSeconds = .ok grant)

include issued

theorem sealedMintGrant_ok :
    0 < ttlSeconds.toInt ∧ grant.grantId = surroundings.grantId ∧ ∃ payload,
      encodePayload (mintedClaims config surroundings principal purpose scopes ttlSeconds) =
        .ok payload ∧
      grant.token = grantToken (grantKeyId P config.first) (sealBytes P payload config.first
        (config.aad (grantKeyId P config.first)) envelopeVersion surroundings.nonce) := by
  unfold sealedMintGrant at issued
  split_ifs at issued
  split at issued
  · cases issued
  · next token claims minted =>
    cases issued
    obtain ⟨positive, rfl, payload, encoded, rfl⟩ := mintGrantToken_ok_iff.mp minted
    exact ⟨positive, rfl, payload, encoded, rfl⟩

variable (lawful : P.Lawful) (digests : Digests P)

include lawful digests

theorem byteLength_minted :
    byteLength grant.token.toList = grantLength principal purpose scopes := by
  obtain ⟨-, -, payload, encoded, token⟩ := sealedMintGrant_ok issued
  have length : payload.length = payloadLength principal purpose scopes :=
    encodePayload_length encoded surroundings.grantId_length
  rw [token, byteLength_grantToken, sealBytes_length lawful, grantKeyId_length digests, length,
    grantLength]
  unfold kidLength
  omega

theorem openGrant_minted (member : config.first ∈ other.keys) (audience : other.audience =
    config.audience) (short : grantLength principal purpose scopes ≤ maxGrantTokenChars) :
    openGrant other grant.token =
      .ok (mintedClaims config surroundings principal purpose scopes ttlSeconds) := by
  obtain ⟨-, -, payload, encoded, token⟩ := sealedMintGrant_ok issued
  have length := encodePayload_length encoded surroundings.grantId_length
  have aad (kid : Bytes) : config.aad kid = other.aad kid := by
    rw [GrantKeys.aad, GrantKeys.aad, audience]
  rw [token, aad, openGrant_sealed lawful digests other member payload,
    decodePayload_encodePayload encoded]
  rw [length]
  exact short

end

section

variable {claims : GrantClaims}
  (made : mintedClaims config surroundings principal purpose scopes ttlSeconds = claims)

include made

/-- The end of a grant comes after its beginning exactly when it fits. -/
theorem expiresAt_minted (positive : 0 < ttlSeconds.toInt) :
    claims.issuedAt.toInt = surroundings.second ∧
    (claims.issuedAt.toInt < claims.expiresAt.toInt ↔
      surroundings.ending config ttlSeconds < 2 ^ 63) ∧
    (surroundings.ending config ttlSeconds < 2 ^ 63 →
      claims.expiresAt.toInt = surroundings.ending config ttlSeconds) := by
  obtain ⟨low, high⟩ := surroundings.second_fits
  obtain ⟨some_time, -⟩ := lifetime_fits config positive
  have bound := (lifetime config ttlSeconds).toInt_lt
  have sum : claims.expiresAt.toInt = (surroundings.ending config ttlSeconds).bmod (2 ^ 64) := by
    rw [← made, mintedClaims, Surroundings.ending, Int64.toInt_add, surroundings.toInt_second]
  have begun : claims.issuedAt.toInt = surroundings.second := made ▸ surroundings.toInt_second
  rw [sum, begun]
  unfold Surroundings.ending
  refine ⟨rfl, ?_⟩
  constructor
  · constructor
    · intro later
      by_contra beyond
      rw [Int.bmod_def] at later
      split at later <;> omega
    · intro fits
      rw [Int.bmod_eq_of_le (by omega) (by omega)]
      omega
  · intro fits
    rw [Int.bmod_eq_of_le (by omega) (by omega)]

/-- A moment of a grant's lifetime is one for the verifier. -/
theorem checkGrant_minted (positive : 0 < ttlSeconds.toInt) (named : principal ≠ "") (fits :
    surroundings.ending config ttlSeconds < 2 ^ 63) (kept : (surroundings.ending config ttlSeconds :
    ℚ) ≤ nearest (surroundings.ending config ttlSeconds)) (ceiling : other.maxTtlSeconds =
    config.maxTtlSeconds) {current : ℚ} (reading : Representable current) (begun :
    (surroundings.second : ℚ) ≤ current) (going : current < surroundings.ending config ttlSeconds) :
    checkGrant other claims current = .ok claims := by
  obtain ⟨low, high⟩ := surroundings.second_fits
  obtain ⟨some_time, within⟩ := lifetime_fits config positive
  obtain ⟨starts, order, ends⟩ := expiresAt_minted made positive
  have most := config.maxTtlSeconds.toInt_lt
  have skew : 0 ≤ asF64 other.clockSkewSeconds := by
    rw [← nearest_zero]
    exact nearest_mono (by exact_mod_cast other.skewNonneg)
  have issuedAt : asF64 claims.issuedAt = surroundings.second := by
    rw [asF64, starts, nearest_second]
  have expiresAt : asF64 claims.expiresAt = nearest (surroundings.ending config ttlSeconds) := by
    rw [asF64, ends fits]
  rw [checkGrant_ok_iff, issuedAt, expiresAt]
  refine ⟨rfl, made ▸ named, order.mpr fits, ?_, ?_, ?_⟩
  · rw [ends fits, starts, ceiling, Surroundings.ending, saturate]
    omega
  · have exact : nearest current = current := by
      refine nearest_of_representable ?_
      rwa [abs_of_nonneg (representable_nonneg reading)]
    calc (surroundings.second : ℚ) ≤ nearest current := by rwa [exact]
      _ ≤ addF64 current (asF64 other.clockSkewSeconds) :=
        nearest_mono (le_add_of_nonneg_right skew)
  · have nonneg : (0 : ℚ) ≤ surroundings.ending config ttlSeconds := by
      unfold Surroundings.ending
      exact_mod_cast (by omega)
    have below : (surroundings.ending config ttlSeconds : ℚ) < 2 ^ 100 := by
      exact_mod_cast fits.trans (by norm_num)
    calc current < surroundings.ending config ttlSeconds := going
      _ ≤ nearest (nearest (surroundings.ending config ttlSeconds)) := by
        rwa [nearest_nearest nonneg below]
      _ ≤ addF64 (nearest (surroundings.ending config ttlSeconds))
          (asF64 other.clockSkewSeconds) := nearest_mono (le_add_of_nonneg_right skew)

end

/-- The token verifies at every moment of its lifetime that a clock shows, wherever the key
that sealed it is held, and gives back what it was minted with. -/
def Honoured (config : GrantKeys P) (surroundings : Surroundings) (principal purpose : String)
    (scopes : List String) (ttlSeconds : Int64) (grant : IssuedGrant) : Prop :=
  ∀ other : GrantKeys P, config.first ∈ other.keys → other.audience = config.audience →
    other.maxTtlSeconds = config.maxTtlSeconds →
    ∀ current : ℚ, Representable current → (surroundings.second : ℚ) ≤ current →
      current < surroundings.ending config ttlSeconds →
      ∃ claims, verifyGrantToken other grant.token current = .ok claims ∧
        claims.principal = principal ∧ claims.purpose = purpose ∧ claims.scopes = scopes ∧
        claims.grantId = grant.grantId

def GrantKeys.withoutSkew (config : GrantKeys P) : GrantKeys P :=
  { config with clockSkewSeconds := 0, skewNonneg := le_refl _ }

/-- An issued grant is honoured exactly when it names somebody, its token is short enough,
and the end of its lifetime is neither wrapped around nor rounded down. -/
theorem honoured_iff (lawful : P.Lawful) (digests : Digests P)
    (issued : sealedMintGrant config surroundings principal purpose scopes ttlSeconds = .ok grant) :
    Honoured config surroundings principal purpose scopes ttlSeconds grant ↔
      principal ≠ "" ∧ grantLength principal purpose scopes ≤ maxGrantTokenChars ∧
      surroundings.ending config ttlSeconds < 2 ^ 63 ∧
      (surroundings.ending config ttlSeconds : ℚ) ≤
        nearest (surroundings.ending config ttlSeconds) := by
  obtain ⟨positive, id, -⟩ := sealedMintGrant_ok issued
  obtain ⟨some_time, -⟩ := lifetime_fits config positive
  have held : config.first ∈ config.keys := head_mem _
  have started : (surroundings.second : ℚ) < surroundings.ending config ttlSeconds := by
    unfold Surroundings.ending
    exact_mod_cast (by omega)
  constructor
  · intro honoured
    obtain ⟨claims, verified, -⟩ := honoured config held rfl rfl _ surroundings.representable_second
      (le_refl _) started
    obtain ⟨opened, checked⟩ := verifyGrantToken_ok verified
    have short : grantLength principal purpose scopes ≤ maxGrantTokenChars := by
      by_contra long
      rw [not_le, ← byteLength_minted issued lawful digests] at long
      exact openGrant_long config long claims opened
    rw [openGrant_minted issued lawful digests held rfl short] at opened
    have made := Except.ok.inj opened
    obtain ⟨-, named, order, -⟩ := (checkGrant_ok_iff _ _ _ _).mp checked
    rw [← made] at named
    obtain ⟨-, fits, ends⟩ := expiresAt_minted made positive
    refine ⟨named, short, fits.mp order, ?_⟩
    by_contra lost
    rw [not_le] at lost
    have nonneg : (0 : ℚ) ≤ surroundings.ending config ttlSeconds :=
      (representable_nonneg surroundings.representable_second).trans started.le
    have below : (surroundings.ending config ttlSeconds : ℚ) < 2 ^ 100 := by
      exact_mod_cast (fits.mp order).trans (by norm_num)
    have rounded : nearest (surroundings.ending config ttlSeconds : ℚ) =
        nearestMagnitude (surroundings.ending config ttlSeconds) :=
      if_neg (not_lt.mpr nonneg)
    -- The rounded end is a moment of the lifetime, and the verifier takes it for the end.
    obtain ⟨claims, verified, -⟩ := honoured config.withoutSkew held rfl rfl
      (nearest (surroundings.ending config ttlSeconds))
      (rounded ▸ nearestMagnitude_representable nonneg below)
      (by
        rw [← nearest_second]
        exact nearest_mono started.le)
      lost
    obtain ⟨opened, checked⟩ := verifyGrantToken_ok verified
    rw [openGrant_minted issued lawful digests
      (show config.first ∈ config.withoutSkew.keys from held) rfl short] at opened
    cases made.symm.trans (Except.ok.inj opened)
    obtain ⟨-, -, -, -, -, going⟩ := (checkGrant_ok_iff _ _ _ _).mp checked
    have skew : asF64 config.withoutSkew.clockSkewSeconds = 0 := nearest_zero
    rw [skew, addF64, add_zero, asF64, ends (fits.mp order), nearest_nearest nonneg below] at going
    exact lt_irrefl _ going
  · rintro ⟨named, short, fits, kept⟩ other member audience ceiling current reading begun going
    refine ⟨mintedClaims config surroundings principal purpose scopes ttlSeconds, ?_, rfl, rfl, rfl,
      id.symm⟩
    rw [verifyGrantToken, openGrant_minted issued lawful digests member audience short]
    exact checkGrant_minted rfl positive named fits kept ceiling reading begun going

end

namespace Sample

open Http.Sample (primitives primitives_lawful nonce)

theorem digests : Digests primitives := by
  intro bytes
  simp [primitives]

def keys : GrantKeys primitives where
  keys := [List.replicate 32 7]
  audience := "billing"
  maxTtlSeconds := 604800
  clockSkewSeconds := 60
  someKey := by simp
  keyLengths := by simp [keyLength]
  distinct := by simp
  ttlPositive := by decide
  skewNonneg := by decide
  audienceShort := by decide +kernel

def clock : Clock where
  seconds := (1000 : ℤ)
  representable := ⟨1000, 0, by norm_num, by norm_num, by norm_num, by norm_num⟩
  below := by norm_num

def surroundings : Surroundings := ⟨clock, List.replicate 16 0, by simp, nonce⟩

theorem second_eq : surroundings.second = 1000 := Int.floor_intCast 1000

end Sample

open Sample

/-- A grant of an hour is honoured for an hour. -/
theorem honoured_hour : ∃ grant, sealedMintGrant keys surroundings "alice" "nightly" ["read"] 3600 =
      .ok grant ∧ Honoured keys surroundings "alice" "nightly" ["read"] 3600 grant := by
  have issued : ∃ grant,
      sealedMintGrant keys surroundings "alice" "nightly" ["read"] 3600 = .ok grant :=
    ⟨_, rfl⟩
  obtain ⟨grant, issued⟩ := issued
  refine ⟨grant, issued, (honoured_iff Http.Sample.primitives_lawful digests issued).mpr ?_⟩
  have ending : surroundings.ending keys 3600 = 4600 := by
    rw [Surroundings.ending, second_eq]
    rfl
  refine ⟨by decide, by decide +kernel, by rw [ending]; norm_num, ?_⟩
  rw [ending, nearest_of_representable (representable_intCast (by norm_num))]

/-- A grant with a long purpose is issued, and no verifier ever reads it. -/
theorem long_purpose_never_verifies : ∃ grant, sealedMintGrant keys surroundings "alice"
        (String.ofList (List.replicate 4096 'a')) [] 3600 = .ok grant ∧
      ∀ current claims, verifyGrantToken keys grant.token current ≠ .ok claims := by
  have length : (utf8 (String.ofList (List.replicate 4096 'a'))).length = 4096 := by
    rw [utf8_ofList_length, byteLength, map_replicate, sum_replicate]
    rfl
  have purpose : packText (String.ofList (List.replicate 4096 'a')) = .ok _ :=
    if_neg (by rw [length]; decide)
  have encoded : ∃ payload, encodePayload (mintedClaims keys surroundings "alice"
      (String.ofList (List.replicate 4096 'a')) [] 3600) = .ok payload := by
    unfold encodePayload mintedClaims
    simp only [purpose]
    exact ⟨_, rfl⟩
  obtain ⟨payload, encoded⟩ := encoded
  obtain ⟨grant, issued⟩ := exists_sealedMintGrant (show 0 < (3600 : Int64).toInt by decide) encoded
  refine ⟨grant, issued, fun current claims verified => ?_⟩
  refine openGrant_long keys ?_ claims (verifyGrantToken_ok verified).1
  rw [byteLength_minted issued Http.Sample.primitives_lawful digests, grantLength,
    payloadLength, length]
  unfold maxGrantTokenChars
  omega

end VgiRpc.Identity

