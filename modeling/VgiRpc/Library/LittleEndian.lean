import Mathlib.Data.List.Basic
import Mathlib.Tactic.Ring

/-!
# Little-endian words

Fixed-width little-endian encodings of natural numbers as byte lists.  A width
too small for the number truncates it, as a machine cast does; the round trip
is therefore stated modulo the width.
-/

namespace VgiRpc.Library.LittleEndian

def toLe : Nat → Nat → List UInt8
  | 0, _ => []
  | width + 1, value => UInt8.ofNat value :: toLe width (value / 256)

def ofLe : List UInt8 → Nat
  | [] => 0
  | byte :: rest => byte.toNat + 256 * ofLe rest

@[simp]
theorem toLe_length (width value : Nat) : (toLe width value).length = width := by
  induction width generalizing value with
  | zero => rfl
  | succ width ih => simp [toLe, ih]

/-- Decoding an encoded number gives the number modulo the encoding's width. -/
theorem ofLe_toLe (width value : Nat) : ofLe (toLe width value) = value % 256 ^ width := by
  induction width generalizing value with
  | zero => simp [toLe, ofLe, Nat.mod_one]
  | succ width ih =>
    have low : (UInt8.ofNat value).toNat = value % 256 := by simp
    rw [toLe, ofLe, ih, low, Nat.pow_succ', Nat.mod_mul]

theorem ofLe_toLe_of_lt {width value : Nat} (fits : value < 256 ^ width) :
    ofLe (toLe width value) = value := by
  rw [ofLe_toLe, Nat.mod_eq_of_lt fits]

theorem ofLe_lt (bytes : List UInt8) : ofLe bytes < 256 ^ bytes.length := by
  induction bytes with
  | nil => simp [ofLe]
  | cons byte rest ih =>
    have low : byte.toNat < 256 := byte.toNat_lt
    rw [ofLe, List.length_cons, Nat.pow_succ]
    omega

/-- Every byte string is the encoding of the number it decodes to. -/
theorem toLe_ofLe (bytes : List UInt8) : toLe bytes.length (ofLe bytes) = bytes := by
  induction bytes with
  | nil => rfl
  | cons byte rest ih =>
    have low : byte.toNat < 256 := byte.toNat_lt
    have head : UInt8.ofNat (byte.toNat + 256 * ofLe rest) = byte := by
      apply UInt8.toNat_inj.mp
      simp only [UInt8.toNat_ofNat']
      omega
    have tail : (byte.toNat + 256 * ofLe rest) / 256 = ofLe rest := by omega
    rw [List.length_cons, ofLe, toLe, head, tail, ih]

theorem toLe_injective {width first second : Nat} (firstFits : first < 256 ^ width)
    (secondFits : second < 256 ^ width) (words : toLe width first = toLe width second) :
    first = second := by
  rw [← ofLe_toLe_of_lt firstFits, words, ofLe_toLe_of_lt secondFits]

end VgiRpc.Library.LittleEndian
