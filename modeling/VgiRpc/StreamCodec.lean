import VgiRpc.Errors
import VgiRpc.Library.ByteStream

/-!
# Stream state as bytes

A stream served over HTTP turns its state into bytes after every turn.  A state
type has a derived codec, over bincode, or one written by hand.  The bincode
decoder runs under a limit that the encoder does not have.
-/

namespace VgiRpc

open Library.ByteStream

/-- What a call into application code comes to. -/
inductive Outcome (α : Type) where
  | returned (result : Except RpcError α)
  | panicked

/-- Run application code; a panic is an error like any other. -/
def callGuard {α : Type} : Outcome α → Except RpcError α
  | .returned result => result
  | .panicked => .error ⟨"RuntimeError", "handler panicked"⟩

/-- The two bincode entry points at one type; a failure is the name of its kind. -/
structure Bincode (σ : Type) where
  serialize : σ → Except String Bytes
  deserialize : Nat → Bytes → Except String σ

def maxStateDecodeBytes : Nat := 16 * 1024 * 1024

section

variable {σ : Type} (bincode : Bincode σ)

def bincodeEncode (state : σ) : Except RpcError Bytes :=
  (bincode.serialize state).mapError fun kind => .runtimeError ("bincode encode: " ++ kind)

def bincodeDecode (bytes : Bytes) : Except RpcError σ :=
  (bincode.deserialize maxStateDecodeBytes bytes).mapError fun kind =>
    .runtimeError ("bincode decode: " ++ kind)

end

/-- The codec of a state type: derived, with an optional function that restores what
serde skipped, or written by hand. -/
inductive StreamStateCodec (σ : Type) where
  | derived (bincode : Bincode σ) (rebuild : Option (σ → σ))
  | manual (encode : σ → Outcome Bytes) (decode : Bytes → Outcome σ)

namespace StreamStateCodec

variable {σ : Type}

def encode : StreamStateCodec σ → σ → Outcome Bytes
  | .derived bincode _, state => .returned (bincodeEncode bincode state)
  | .manual encode _, state => encode state

def decode : StreamStateCodec σ → Bytes → Outcome σ
  | .derived bincode rebuild, bytes =>
    .returned ((bincodeDecode bincode bytes).map (rebuild.getD id))
  | .manual _ decode, bytes => decode bytes

/-- Bincode reads back what it wrote, up to what `rebuild` restores, within the limit
it is given and not beyond. -/
def Lawful : StreamStateCodec σ → Prop
  | .derived bincode rebuild =>
    ∀ state bytes limit, bincode.serialize state = .ok bytes → (bytes.length ≤ limit →
        (bincode.deserialize limit bytes).map (rebuild.getD id) = .ok state) ∧
      (limit < bytes.length → bincode.deserialize limit bytes = .error "SizeLimit")
  | .manual _ _ => True

/-- The codec can read these bytes of the state: a derived one is bound by its limit, a
hand-written one has to be the inverse of its encoder. -/
def Reads (codec : StreamStateCodec σ) (state : σ) (bytes : Bytes) : Prop :=
  match codec with
  | .derived _ _ => bytes.length ≤ maxStateDecodeBytes
  | .manual _ decode => callGuard (decode bytes) = .ok state

theorem map_mapError {ε ε' α β : Type} (result : Except ε α) (rename : ε → ε') (change : α → β) :
    (result.mapError rename).map change = (result.map change).mapError rename := by
  cases result <;> rfl

variable {state : σ} {bytes : Bytes}

/-- Encoded state decodes to itself exactly within the codec's limit. -/
theorem decode_encode_iff {codec : StreamStateCodec σ} (lawful : codec.Lawful)
    (encoded : callGuard (codec.encode state) = .ok bytes) :
    callGuard (codec.decode bytes) = .ok state ↔ codec.Reads state bytes := by
  cases codec with
  | manual encode decode => exact Iff.rfl
  | derived bincode rebuild =>
    have serialized : bincode.serialize state = .ok bytes := by
      simp only [encode, callGuard, bincodeEncode] at encoded
      cases wrote : bincode.serialize state with
      | error kind => rw [wrote] at encoded; cases encoded
      | ok written => rw [wrote] at encoded; cases encoded; rfl
    obtain ⟨within, beyond⟩ := lawful state bytes maxStateDecodeBytes serialized
    simp only [decode, callGuard, bincodeDecode, map_mapError, Reads]
    by_cases fits : bytes.length ≤ maxStateDecodeBytes
    · rw [within fits]
      exact iff_of_true rfl fits
    · rw [beyond (Nat.lt_of_not_le fits)]
      exact iff_of_false (by simp [Except.map, Except.mapError]) fits

end StreamStateCodec
end VgiRpc
