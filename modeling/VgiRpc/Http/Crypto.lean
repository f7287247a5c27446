import VgiRpc.Library.ByteStream
import VgiRpc.Library.LittleEndian

/-!
# Sealing bytes

The AEAD envelope around anything the HTTP transport hands to a client: a version
byte, a nonce, and the ciphertext with its tag.  The cipher, the hash, base64 and
zstd are parameters; what the transport relies on is `Primitives.Lawful`.
-/

namespace VgiRpc.Http

open Library.ByteStream List

structure Primitives where
  base64Encode : Bytes → String
  base64Decode : String → Option Bytes
  sha256 : Bytes → Bytes
  /-- Encryption under a key, a nonce and associated data. -/
  encrypt : Bytes → Bytes → Bytes → Bytes → Bytes
  decrypt : Bytes → Bytes → Bytes → Bytes → Option Bytes
  zstdCompress : Bytes → Option Bytes
  /-- Decompression into a buffer of the given capacity. -/
  zstdDecompress : Nat → Bytes → Option Bytes

def nonceLength : Nat := 24
def tagLength : Nat := 16

/-- What the documentation of the four libraries promises. -/
structure Primitives.Lawful (P : Primitives) : Prop where
  base64_decode : ∀ bytes, P.base64Decode (P.base64Encode bytes) = some bytes
  decrypt_encrypt : ∀ key nonce aad message,
    P.decrypt key nonce aad (P.encrypt key nonce aad message) = some message
  encrypt_length : ∀ key nonce aad message,
    (P.encrypt key nonce aad message).length = message.length + tagLength
  zstd_within : ∀ bytes packed capacity, P.zstdCompress bytes = some packed →
    bytes.length ≤ capacity → P.zstdDecompress capacity packed = some bytes
  zstd_beyond : ∀ bytes packed capacity, P.zstdCompress bytes = some packed →
    capacity < bytes.length → P.zstdDecompress capacity packed = none

structure Nonce where
  bytes : Bytes
  length : bytes.length = nonceLength

variable (P : Primitives)

def normalizeKey (key : Bytes) : Bytes := if key.length = 32 then key else P.sha256 key

variable (payload key aad : Bytes) (version : UInt8)

def sealBytes (nonce : Nonce) : Bytes :=
  version :: (nonce.bytes ++ P.encrypt (normalizeKey P key) nonce.bytes aad payload)

/-- Open an envelope; every failure is the same one. -/
def openBytes (token key aad : Bytes) (version : UInt8) : Option Bytes :=
  if token.length < 1 + nonceLength + tagLength ∨ token.head? ≠ some version then none
  else
    P.decrypt (normalizeKey P key) ((token.drop 1).take nonceLength) aad
      (token.drop (1 + nonceLength))

def sealBase64 (nonce : Nonce) : String :=
  P.base64Encode (sealBytes P payload key aad version nonce)

variable {P}

/-- Behind the version and the nonce of an envelope stands its ciphertext. -/
theorem sealBytes_drop (payload key aad : Bytes) (version : UInt8) (nonce : Nonce) :
    (sealBytes P payload key aad version nonce).drop (1 + nonceLength) =
      P.encrypt (normalizeKey P key) nonce.bytes aad payload := by
  rw [sealBytes, Nat.add_comm, drop_succ_cons, ← nonce.length, drop_left]

theorem openBytes_sealBytes (lawful : P.Lawful) (payload key aad : Bytes) (version : UInt8)
    (nonce : Nonce) :
    openBytes P (sealBytes P payload key aad version nonce) key aad version = some payload := by
  have length := lawful.encrypt_length (normalizeKey P key) nonce.bytes aad payload
  have nonceTaken : ((sealBytes P payload key aad version nonce).drop 1).take nonceLength =
      nonce.bytes := by
    rw [sealBytes, drop_succ_cons, drop_zero, ← nonce.length, take_left]
  have long : ¬ (sealBytes P payload key aad version nonce).length <
      1 + nonceLength + tagLength := by
    simp only [sealBytes, length_cons, length_append, nonce.length, length]
    omega
  have head : (sealBytes P payload key aad version nonce).head? = some version := rfl
  rw [openBytes, if_neg (by simp [long, head]), nonceTaken, sealBytes_drop]
  exact lawful.decrypt_encrypt _ _ _ _

/-- An envelope that opens was sealed with the nonce that it carries, when the cipher opens only
what it sealed. -/
theorem sealed_of_openBytes (only : ∀ key nonce aad ciphertext message, P.decrypt key nonce aad
    ciphertext = some message → ciphertext = P.encrypt key nonce aad message) {raw key aad payload :
    Bytes} {version : UInt8} (opened : openBytes P raw key aad version = some payload) :
    ∃ nonce : Nonce, raw = sealBytes P payload key aad version nonce := by
  unfold openBytes at opened
  split_ifs at opened with refused
  obtain ⟨long, first⟩ := not_or.mp refused
  cases raw with
  | nil => cases not_not.mp first
  | cons head rest =>
    cases not_not.mp first
    have length : (rest.take nonceLength).length = nonceLength := by
      simp at long ⊢
      omega
    refine ⟨⟨rest.take nonceLength, length⟩, ?_⟩
    rw [Nat.add_comm, drop_succ_cons, drop_succ_cons, drop_zero] at opened
    rw [sealBytes, ← only _ _ _ _ _ opened, take_append_drop]

/-! ## A small instance

Stand-ins for the four libraries that keep their laws: text of one character a
byte, a cipher that leaves the message and checks a sum over key, nonce, associated
data and message, and a compressor that never saves anything. -/

namespace Sample

open Library.LittleEndian

def toChar (byte : UInt8) : Char := Char.ofNat byte.toNat

def ofChar (char : Char) : Option UInt8 :=
  if char.toNat < 256 then some (UInt8.ofNat char.toNat) else none

def tag (key nonce aad message : Bytes) : Bytes :=
  toLe tagLength ((key ++ nonce ++ aad ++ message).foldl
    (fun sum byte => 257 * sum + byte.toNat + 1) 0)

def primitives : Primitives where
  base64Encode bytes := String.ofList (bytes.map toChar)
  base64Decode text := text.toList.mapM ofChar
  sha256 bytes := (bytes ++ List.replicate 32 0).take 32
  encrypt key nonce aad message := message ++ tag key nonce aad message
  decrypt key nonce aad ciphertext :=
    if ciphertext.drop (ciphertext.length - tagLength) =
        tag key nonce aad (ciphertext.take (ciphertext.length - tagLength)) then
      some (ciphertext.take (ciphertext.length - tagLength))
    else none
  zstdCompress bytes := some bytes
  zstdDecompress capacity bytes := if bytes.length ≤ capacity then some bytes else none

theorem ofChar_toChar (byte : UInt8) : ofChar (toChar byte) = some byte := by
  have small := byte.toNat_lt
  have valid : byte.toNat.isValidChar := Or.inl (by omega)
  have back : (toChar byte).toNat = byte.toNat := by
    rw [toChar, Char.ofNat, dif_pos valid]
    rfl
  rw [ofChar, back, if_pos small, UInt8.ofNat_toNat]

theorem mapM_ofChar (bytes : Bytes) : (bytes.map toChar).mapM ofChar = some bytes := by
  induction bytes with
  | nil => rfl
  | cons byte rest ih => simp [mapM_cons, ofChar_toChar, ih]

theorem primitives_lawful : primitives.Lawful where
  base64_decode bytes := by
    simp only [primitives, String.toList_ofList]
    exact mapM_ofChar bytes
  decrypt_encrypt key nonce aad message := by
    simp [primitives, tag]
  encrypt_length key nonce aad message := by
    simp [primitives, tag]
  zstd_within bytes packed capacity packs fits := by
    cases packs
    exact if_pos fits
  zstd_beyond bytes packed capacity packs beyond := by
    cases packs
    exact if_neg (Nat.not_le.mpr beyond)

def nonce : Nonce := ⟨List.replicate nonceLength 0, by simp⟩

end Sample

end VgiRpc.Http
