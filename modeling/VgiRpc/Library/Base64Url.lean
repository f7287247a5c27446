import VgiRpc.Library.ByteStream

/-!
# Unpadded base64url

Three bytes are four digits, and what is left over is two or three.  The decoder takes the
bits of a last digit that belong to no byte as they come, so that several texts may decode
to the same bytes; only one of them is their encoding.
-/

namespace VgiRpc.Library.Base64Url

open ByteStream (Bytes)

def alphabet : List Char :=
  "ABCDEFGHIJKLMNOPQRSTUVWXYZabcdefghijklmnopqrstuvwxyz0123456789-_".toList

def digit (value : Nat) : Char := alphabet.getD value 'A'

def digitValue (char : Char) : Option Nat := alphabet.idxOf? char

def encode : Bytes → List Char
  | [] => []
  | [first] => [digit (first.toNat / 4), digit (first.toNat % 4 * 16)]
  | [first, second] =>
    [digit (first.toNat / 4), digit (first.toNat % 4 * 16 + second.toNat / 16),
      digit (second.toNat % 16 * 4)]
  | first :: second :: third :: rest =>
    digit (first.toNat / 4) :: digit (first.toNat % 4 * 16 + second.toNat / 16) ::
      digit (second.toNat % 16 * 4 + third.toNat / 64) :: digit (third.toNat % 64) :: encode rest

def decode : List Char → Option Bytes
  | [] => some []
  | [_] => none
  | [one, two] => do
      let one ← digitValue one
      let two ← digitValue two
      some [UInt8.ofNat (one * 4 + two / 16)]
  | [one, two, three] => do
      let one ← digitValue one
      let two ← digitValue two
      let three ← digitValue three
      some [UInt8.ofNat (one * 4 + two / 16), UInt8.ofNat (two % 16 * 16 + three / 4)]
  | one :: two :: three :: four :: rest => do
      let one ← digitValue one
      let two ← digitValue two
      let three ← digitValue three
      let four ← digitValue four
      let others ← decode rest
      some (UInt8.ofNat (one * 4 + two / 16) :: UInt8.ofNat (two % 16 * 16 + three / 4) ::
        UInt8.ofNat (three % 4 * 64 + four) :: others)

variable {value : Nat}

theorem digitValue_digit (small : value < 64) : digitValue (digit value) = some value := by
  revert value
  decide +kernel

theorem digit_mem (small : value < 64) : digit value ∈ alphabet := by
  revert value
  decide +kernel

/-- The bits of a byte come together again. -/
theorem ofNat_eq {byte : UInt8} (same : value = byte.toNat) : UInt8.ofNat value = byte := by
  rw [same, UInt8.ofNat_toNat]

theorem decode_encode (bytes : Bytes) : decode (encode bytes) = some bytes := by
  induction bytes using encode.induct with
  | case1 => rfl
  | case2 first =>
    have bound := first.toNat_lt
    rw [encode, decode, digitValue_digit (by omega), digitValue_digit (by omega)]
    simp only [bind, Option.bind_some]
    rw [ofNat_eq (show _ = first.toNat by omega)]
  | case3 first second =>
    have bound := first.toNat_lt
    have limit := second.toNat_lt
    rw [encode, decode, digitValue_digit (by omega), digitValue_digit (by omega),
      digitValue_digit (by omega)]
    simp only [bind, Option.bind_some]
    rw [ofNat_eq (show _ = first.toNat by omega), ofNat_eq (show _ = second.toNat by omega)]
  | case4 first second third rest ih =>
    have bound := first.toNat_lt
    have limit := second.toNat_lt
    have top := third.toNat_lt
    rw [encode, decode, digitValue_digit (by omega), digitValue_digit (by omega),
      digitValue_digit (by omega), digitValue_digit (by omega), ih]
    simp only [bind, Option.bind_some]
    rw [ofNat_eq (show _ = first.toNat by omega), ofNat_eq (show _ = second.toNat by omega),
      ofNat_eq (show _ = third.toNat by omega)]

theorem mem_encode {bytes : Bytes} {char : Char} (member : char ∈ encode bytes) :
    char ∈ alphabet := by
  induction bytes using encode.induct with
  | case1 => cases member
  | case2 first =>
    have bound := first.toNat_lt
    simp only [encode, List.mem_cons, List.not_mem_nil, or_false] at member
    rcases member with rfl | rfl <;> exact digit_mem (by omega)
  | case3 first second =>
    have bound := first.toNat_lt
    have limit := second.toNat_lt
    simp only [encode, List.mem_cons, List.not_mem_nil, or_false] at member
    rcases member with rfl | rfl | rfl <;> exact digit_mem (by omega)
  | case4 first second third rest ih =>
    have bound := first.toNat_lt
    have limit := second.toNat_lt
    have top := third.toNat_lt
    simp only [encode, List.mem_cons] at member
    rcases member with rfl | rfl | rfl | rfl | member
    · exact digit_mem (by omega)
    · exact digit_mem (by omega)
    · exact digit_mem (by omega)
    · exact digit_mem (by omega)
    · exact ih member

theorem length_encode (bytes : Bytes) : (encode bytes).length = (4 * bytes.length + 2) / 3 := by
  induction bytes using encode.induct with
  | case1 => rfl
  | case2 first => simp [encode]
  | case3 first second => simp [encode]
  | case4 first second third rest ih =>
    simp only [encode, List.length_cons, ih]
    omega

end VgiRpc.Library.Base64Url
