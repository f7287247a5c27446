import VgiRpc.Identity.GrantLifetimes

/-!
# What verifies was minted

A text that verifies is the token of a grant that one of the deployment's keys seals for the
deployment's audience, and no other text stands for the same bytes.  The moments between
which it verifies are compared as doubles, and the verifier adds the skew before it compares.
-/

namespace VgiRpc.Identity

open Library Float64
open Library.ByteStream (Bytes)
open Library.Float64 (nearest)
open Http (Primitives)
open Base64Url (decode decode_encode)

section

variable {P : Primitives} {config : GrantKeys P} {token : String} {claims : GrantClaims}

theorem grantToken_injective {kid other envelope another : Bytes} (lengths : kid.length =
    other.length) (same : grantToken kid envelope = grantToken other another) : kid = other := by
  have texts := congrArg String.toList same
  rw [grantToken_toList, grantToken_toList] at texts
  have bytes := congrArg decode (List.append_cancel_left texts)
  rw [decode_encode, decode_encode, Option.some.injEq] at bytes
  exact (List.append_inj bytes lengths).1

def GrantKeys.only (config : GrantKeys P) {key : Bytes} (member : key ∈ config.keys) :
    GrantKeys P :=
  { config with
    keys := [key]
    someKey := by simp
    keyLengths := by simpa using config.keyLengths key member
    distinct := by simp }

/-- The token is what minting the claims with one of the keys gives. -/
def Minted (config : GrantKeys P) (token : String) (claims : GrantClaims) : Prop :=
  ∃ key, ∃ member : key ∈ config.keys, ∃ ttlSeconds ≤ config.maxTtlSeconds, ∃ overrides,
    ∀ surroundings, mintGrantToken (config.only member) surroundings claims.principal claims.scopes
      claims.purpose ttlSeconds overrides = .ok (token, claims)

theorem minted_of_openGrant (sealing : OpensOnlySealed P) (opened : openGrant config token = .ok
    claims) (order : claims.issuedAt.toInt < claims.expiresAt.toInt) (within :
    claims.expiresAt.toInt - claims.issuedAt.toInt ≤ config.maxTtlSeconds.toInt) :
    Minted config token claims := by
  obtain ⟨key, member, payload, nonce, encoded, rfl⟩ := openGrant_ok sealing opened
  have most := config.maxTtlSeconds.toInt_lt
  have span : (Int64.ofInt (claims.expiresAt.toInt - claims.issuedAt.toInt)).toInt =
      claims.expiresAt.toInt - claims.issuedAt.toInt :=
    Int64.toInt_ofInt_of_le (by omega) (by omega)
  have shorter : Int64.ofInt (claims.expiresAt.toInt - claims.issuedAt.toInt) ≤
      config.maxTtlSeconds := by
    rw [Int64.le_iff_toInt_le, span]
    exact within
  have kept : claims.issuedAt + lifetime (config.only member)
      (Int64.ofInt (claims.expiresAt.toInt - claims.issuedAt.toInt)) = claims.expiresAt := by
    have low := claims.expiresAt.le_toInt
    have high := claims.expiresAt.toInt_lt
    rw [lifetime, if_pos (show _ ≤ (config.only member).maxTtlSeconds from shorter),
      ← Int64.toInt_inj, Int64.toInt_add, span, Int.bmod_eq_of_le (by omega) (by omega)]
    omega
  refine ⟨key, member, _, shorter, ⟨some claims.issuedAt, some claims.grantId, some nonce⟩,
    fun surroundings => ?_⟩
  simp only [mintGrantToken_ok_iff, Option.getD_some, kept]
  exact ⟨by omega, trivial, payload, encoded, rfl⟩

/-- Whole seconds of 52 bits are compared exactly. -/
theorem asF64_of_small {value : Int64} (small : |value.toInt| ≤ 2 ^ 52) :
    asF64 value = value.toInt :=
  nearest_of_representable (representable_intCast (small.trans (by norm_num)))

theorem addF64_of_small {first second : ℤ} (one : |first| ≤ 2 ^ 52) (two : |second| ≤ 2 ^ 52) :
    addF64 first second = first + second := by
  have bound : |first + second| ≤ 2 ^ 53 := (abs_add_le _ _).trans (by linarith)
  have exact := nearest_of_representable (representable_intCast bound)
  rw [addF64]
  exact_mod_cast exact

/-- What verifies is the token of a grant minted with one of the keys, within the ceiling and
at a moment that the doubles place in its lifetime; it has no second spelling, its payload no
second encoding, and the tokens of a key that is not held do not verify. -/
theorem verifies_only_minted (digests : Digests P) (sealing : OpensOnlySealed P)
    (config : GrantKeys P) (ceiling : config.maxTtlSeconds.toInt < 2 ^ 63 - 1) :
    (∀ token current claims, verifyGrantToken config token current = .ok claims →
      Minted config token claims ∧ claims.issuedAt.toInt < claims.expiresAt.toInt ∧
      claims.expiresAt.toInt - claims.issuedAt.toInt ≤ config.maxTtlSeconds.toInt ∧
      asF64 claims.issuedAt ≤ addF64 current (asF64 config.clockSkewSeconds) ∧
      current < addF64 (asF64 claims.expiresAt) (asF64 config.clockSkewSeconds) ∧
      ∀ moment : ℤ, current = moment → |moment| ≤ 2 ^ 52 → |claims.issuedAt.toInt| ≤ 2 ^ 52 →
        |claims.expiresAt.toInt| ≤ 2 ^ 52 → config.clockSkewSeconds.toInt ≤ 2 ^ 52 →
        claims.issuedAt.toInt ≤ moment + config.clockSkewSeconds.toInt ∧
        moment < claims.expiresAt.toInt + config.clockSkewSeconds.toInt) ∧
    (∀ token other current later claims found, verifyGrantToken config token current = .ok claims →
      verifyGrantToken config other later = .ok found →
      decode (token.toList.drop grantTokenPrefix.length) =
        decode (other.toList.drop grantTokenPrefix.length) → token = other) ∧
    (∀ payload claims, decodePayload payload = .ok claims → encodePayload claims = .ok payload) ∧
    (∀ minting : GrantKeys P, minting.first ∉ config.keys →
      (∀ key ∈ config.keys, grantKeyId P key = grantKeyId P minting.first → key = minting.first) →
      ∀ surroundings principal scopes purpose ttlSeconds overrides token claims,
        mintGrantToken minting surroundings principal scopes purpose ttlSeconds overrides =
          .ok (token, claims) →
        ∀ current found, verifyGrantToken config token current ≠ .ok found) := by
  refine ⟨fun token current claims verified => ?_, ?_, fun _ _ => encodePayload_of_decodePayload, ?_⟩
  · obtain ⟨opened, checked⟩ := verifyGrantToken_ok verified
    obtain ⟨-, -, order, saturated, begun, going⟩ := (checkGrant_ok_iff _ _ _ _).mp checked
    have within : claims.expiresAt.toInt - claims.issuedAt.toInt ≤ config.maxTtlSeconds.toInt := by
      unfold saturate at saturated
      omega
    refine ⟨minted_of_openGrant sealing opened order within, order, within, begun, going, ?_⟩
    rintro moment rfl now first last skew
    have nonneg := config.skewNonneg
    have small : |config.clockSkewSeconds.toInt| ≤ 2 ^ 52 := by rwa [abs_of_nonneg nonneg]
    rw [asF64_of_small small, asF64_of_small first, addF64_of_small now small] at begun
    rw [asF64_of_small small, asF64_of_small last, addF64_of_small last small] at going
    exact ⟨by exact_mod_cast begun, by exact_mod_cast going⟩
  · intro token other current later claims found verified likewise same
    obtain ⟨key, -, payload, nonce, -, rfl⟩ := openGrant_ok sealing (verifyGrantToken_ok verified).1
    obtain ⟨held, -, sealed, random, -, rfl⟩ := openGrant_ok sealing (verifyGrantToken_ok likewise).1
    rw [grantToken_toList, grantToken_toList, List.drop_left, List.drop_left,
      decode_encode, decode_encode, Option.some.injEq] at same
    rw [grantToken, grantToken, same]
  · intro minting absent distinct surroundings principal scopes purpose ttlSeconds overrides token
      claims minted current found verified
    obtain ⟨-, -, _, -, rfl⟩ := mintGrantToken_ok_iff.mp minted
    obtain ⟨key, member, payload, nonce, -, same⟩ :=
      openGrant_ok sealing (verifyGrantToken_ok verified).1
    have lengths := (grantKeyId_length digests minting.first).trans
      (grantKeyId_length digests key).symm
    have named := grantToken_injective lengths same
    exact absurd (distinct key member named.symm ▸ member) absent

end

namespace Sample

open Http.Sample (primitives primitives_lawful nonce)

theorem opensOnlySealed : OpensOnlySealed primitives := by
  intro key nonce aad ciphertext message opened
  simp only [primitives] at opened ⊢
  split_ifs at opened with tagged
  cases opened
  rw [← tagged, List.take_append_drop]

def boundless : GrantKeys primitives :=
  { keys with maxTtlSeconds := Int64.maxValue, ttlPositive := by decide }

variable (issuedAt expiresAt : Int64)

def claimsBetween : GrantClaims :=
  ⟨"alice", [], "nightly", "0", issuedAt, expiresAt⟩

theorem encodes : ∃ payload, encodePayload (claimsBetween issuedAt expiresAt) = .ok payload ∧
      payload.length = 37 := ⟨_, rfl, by simp [packI64, claimsBetween]; decide +kernel⟩

theorem verifies {config : GrantKeys primitives} (same : config.keys = keys.keys) {issuedAt
    expiresAt : Int64} {current : ℚ} (checked : checkGrant config (claimsBetween issuedAt expiresAt)
    current = .ok (claimsBetween issuedAt expiresAt)) :
    ∃ token, verifyGrantToken config token current = .ok (claimsBetween issuedAt expiresAt) := by
  obtain ⟨payload, encoded, length⟩ := encodes issuedAt expiresAt
  have member : List.replicate 32 7 ∈ config.keys := by
    rw [same]
    exact List.mem_singleton.mpr rfl
  have opened := openGrant_sealed primitives_lawful digests config member payload nonce
    (by rw [length]; decide)
  rw [decodePayload_encodePayload encoded] at opened
  exact ⟨_, by rw [verifyGrantToken, opened]; exact checked⟩

end Sample

open Sample

/-- A token of the deployment verifies, and was minted. -/
theorem verifies_only_minted_hour : ∃ token, verifyGrantToken keys token (1000 : ℤ) =
        .ok (claimsBetween 1000 4600) ∧
      Minted keys token (claimsBetween 1000 4600) := by
  have checked : checkGrant keys (claimsBetween 1000 4600) (1000 : ℤ) =
      .ok (claimsBetween 1000 4600) := by
    rw [checkGrant_ok_iff, asF64_of_small (by decide), asF64_of_small (by decide),
      asF64_of_small (by decide), addF64_of_small (by decide) (by decide),
      addF64_of_small (by decide) (by decide)]
    refine ⟨rfl, by decide, by decide, by decide, ?_, ?_⟩
    · exact_mod_cast (by decide : (1000 : Int64).toInt ≤ 1000 + (60 : Int64).toInt)
    · exact_mod_cast (by decide : 1000 < (4600 : Int64).toInt + (60 : Int64).toInt)
  obtain ⟨token, verified⟩ := verifies rfl checked
  exact ⟨token, verified, ((verifies_only_minted digests opensOnlySealed keys
    (by decide)).1 token _ _ verified).1⟩

/-- The least bit of a clock is lost when the skew is added to it. -/
theorem nearest_below_minute : nearest (64 - 1 / 2 ^ 51) = 64 := by
  have log : Int.log 2 (64 - 1 / 2 ^ 51 : ℚ) = 5 := by
    have positive : (0 : ℚ) < 64 - 1 / 2 ^ 51 := by norm_num
    have above := (Int.zpow_le_iff_le_log (show 1 < 2 by norm_num) positive).mp
      (show ((2 : ℕ) : ℚ) ^ (5 : ℤ) ≤ _ by norm_num)
    have below := (Int.lt_zpow_iff_log_lt (show 1 < 2 by norm_num) positive).mp
      (show _ < ((2 : ℕ) : ℚ) ^ (6 : ℤ) by norm_num)
    omega
  have unit : lastBit (64 - 1 / 2 ^ 51) = -47 := by
    rw [lastBit, log]
    norm_num
  have scaled : nearestInt ((64 - 1 / 2 ^ 51) / 2 ^ (-47 : ℤ)) = 2 ^ 53 := by
    have floor : ⌊((64 - 1 / 2 ^ 51) / 2 ^ (-47 : ℤ) : ℚ)⌋ = 2 ^ 53 - 1 := by
      rw [Int.floor_eq_iff]
      norm_num
    rw [nearestInt, floor, if_neg]
    · norm_num
    · norm_num
  rw [nearest, if_neg (by norm_num), nearestMagnitude, unit, scaled]
  norm_num

/-- A token verifies a moment before its lifetime with the skew begins, and one verifies that
lasts longer than the ceiling. -/
theorem verifies_outside_lifetime : Representable (4 - 1 / 2 ^ 51) ∧
    (∃ token claims, verifyGrantToken keys token (4 - 1 / 2 ^ 51) = .ok claims ∧
      (4 - 1 / 2 ^ 51 : ℚ) + keys.clockSkewSeconds.toInt < claims.issuedAt.toInt) ∧
    ∃ token claims, verifyGrantToken boundless token (0 : ℤ) = .ok claims ∧
      boundless.maxTtlSeconds.toInt < claims.expiresAt.toInt - claims.issuedAt.toInt := by
  have skew : asF64 keys.clockSkewSeconds = (60 : ℤ) := asF64_of_small (by decide)
  refine ⟨⟨2 ^ 53 - 1, -51, by norm_num, by norm_num, by norm_num, by norm_num⟩, ?_, ?_⟩
  · have checked : checkGrant keys (claimsBetween 64 3664) (4 - 1 / 2 ^ 51) =
        .ok (claimsBetween 64 3664) := by
      rw [checkGrant_ok_iff, skew, asF64_of_small (by decide), asF64_of_small (by decide),
        addF64_of_small (by decide) (by decide)]
      refine ⟨rfl, by decide, by decide, by decide, ?_, ?_⟩
      · have sum : addF64 (4 - 1 / 2 ^ 51) (60 : ℤ) = 64 := by
          rw [addF64, ← nearest_below_minute]
          norm_num
        rw [sum]
        exact_mod_cast (by decide : (64 : Int64).toInt ≤ 64)
      · have ends : (claimsBetween 64 3664).expiresAt.toInt = 3664 := by decide
        rw [ends]
        norm_num
    obtain ⟨token, verified⟩ := verifies rfl checked
    refine ⟨token, _, verified, ?_⟩
    have begins : (claimsBetween 64 3664).issuedAt.toInt = 64 := by decide
    have minute : keys.clockSkewSeconds.toInt = 60 := by decide
    rw [begins, minute]
    norm_num
  · have checked : checkGrant boundless (claimsBetween (-2) Int64.maxValue) (0 : ℤ) =
        .ok (claimsBetween (-2) Int64.maxValue) := by
      rw [checkGrant_ok_iff, show asF64 boundless.clockSkewSeconds = (60 : ℤ) from skew,
        show asF64 (claimsBetween (-2) Int64.maxValue).issuedAt = (-2 : ℤ) from
          asF64_of_small (by decide), addF64_of_small (by decide) (by decide)]
      refine ⟨rfl, by decide, by decide, by decide, by norm_num, ?_⟩
      have ends : (claimsBetween (-2) Int64.maxValue).expiresAt.toInt = 2 ^ 63 - 1 := by decide
      have one : nearest ((1 : ℤ) : ℚ) = 1 := by
        rw [nearest_of_representable (representable_intCast (by norm_num))]
        norm_num
      have far : (1 : ℚ) ≤ asF64 (claimsBetween (-2) Int64.maxValue).expiresAt := by
        rw [asF64, ends, ← one]
        exact nearest_mono (by norm_num)
      calc ((0 : ℤ) : ℚ) < nearest ((1 : ℤ) : ℚ) := by
            rw [one]
            norm_num
        _ ≤ addF64 (asF64 (claimsBetween (-2) Int64.maxValue).expiresAt) (60 : ℤ) :=
            nearest_mono (by push_cast; linarith)
    obtain ⟨token, verified⟩ :=
      verifies (show boundless.keys = keys.keys from rfl) checked
    exact ⟨token, _, verified, by decide⟩

end VgiRpc.Identity
