import Mathlib.Algebra.GroupWithZero.Nat
import VgiRpc.Library.ByteStream

/-!
# The PROXY preamble

A trusted proxy puts a preamble of version 2 in front of the bytes that it forwards: a
signature, a command, a family, a length, and behind them an address block and a list of
records, each a type, a length and a value.  A listener may opt in to one private record
that names the Iroh endpoint behind the proxy.
-/

namespace VgiRpc.Proxy

open List
open Library.ByteStream (Bytes)

/-! ## The parser -/

inductive IoErrorKind where
  | invalidData
  | invalidInput
  | unexpectedEof
  | timedOut
  | other
  deriving DecidableEq

structure IoError where
  kind : IoErrorKind
  message : String
  deriving DecidableEq

def invalid (message : String) : IoError := ⟨.invalidData, message⟩

def signature : Bytes := [0x0d, 0x0a, 0x0d, 0x0a, 0x00, 0x0d, 0x0a, 0x51, 0x55, 0x49, 0x54, 0x0a]

def fixedBytes : Nat := 16
def defaultMaxProxyV2Bytes : Nat := 536
def irohEndpointTlv : UInt8 := 0xe0
def irohEndpointVersion : UInt8 := 1
def irohEndpointValueBytes : Nat := 33

inductive IpAddr where
  | v4 (octets : Bytes)
  | v6 (octets : Bytes)
  deriving DecidableEq

structure SocketAddr where
  ip : IpAddr
  port : UInt16
  deriving DecidableEq

structure Address where
  source : SocketAddr
  destination : SocketAddr
  deriving DecidableEq

structure Parsed where
  address : Option Address
  irohEndpointId : Option Bytes
  deriving DecidableEq

/-- An IPv4 address that is mapped into IPv6 is an IPv4 address. -/
def normalizeIp : IpAddr → IpAddr
  | .v4 octets => .v4 octets
  | .v6 octets =>
    if octets.take 12 = List.replicate 10 0 ++ [0xff, 0xff] then .v4 (octets.drop 12)
    else .v6 octets

def fromBe (high low : UInt8) : Nat := high.toNat * 256 + low.toNat

variable (maximumBytes : Nat)

def maximumBytesOrDefault : Except IoError Nat :=
  let maximumBytes := if maximumBytes = 0 then defaultMaxProxyV2Bytes else maximumBytes
  if maximumBytes < fixedBytes then .error (invalid "maximum PROXY v2 bytes must be at least 16")
  else .ok maximumBytes

/-- The two addresses and ports in front of a body, for addresses of the given width. -/
def parseTcp (width : Nat) (ip : Bytes → IpAddr) (short : String) (body : Bytes) :
    Except IoError (Option Address × Nat) :=
  if body.length < 2 * width + 4 then .error (invalid short)
  else
    let port (index : Nat) : UInt16 :=
      UInt16.ofNat (fromBe (body.getD index 0) (body.getD (index + 1) 0))
    .ok (some
      { source := ⟨ip (body.take width), port (2 * width)⟩
        destination := ⟨ip ((body.drop width).take width), port (2 * width + 2)⟩ },
      2 * width + 4)

def parseAddress (family : UInt8) (body : Bytes) (allowIrohIdentity : Bool) :
    Except IoError (Option Address × Nat) :=
  if family = 0x00 ∧ allowIrohIdentity then .ok (none, 0)
  else if family = 0x11 then
    parseTcp 4 .v4 "truncated PROXY v2 TCP/IPv4 address block" body
  else if family = 0x21 then
    parseTcp 16 (fun octets => normalizeIp (.v6 octets))
      "truncated PROXY v2 TCP/IPv6 address block" body
  else .error (invalid "PROXY v2 requires TCP over IPv4 or IPv6")

def readTlvs (allowIrohIdentity : Bool) (found : Option Bytes) :
    Bytes → Except IoError (Option Bytes)
  | [] => .ok found
  | kind :: high :: low :: rest =>
    if rest.length < fromBe high low then .error (invalid "truncated PROXY v2 TLV value")
    else
      let value := rest.take (fromBe high low)
      if kind = irohEndpointTlv ∧ allowIrohIdentity then
        if found.isSome then .error (invalid "duplicate VGI Iroh identity TLV")
        else if value.length ≠ irohEndpointValueBytes ∨ value.head? ≠ some irohEndpointVersion then
          .error (invalid "invalid VGI Iroh identity TLV")
        else readTlvs allowIrohIdentity (some (value.drop 1)) (rest.drop (fromBe high low))
      else readTlvs allowIrohIdentity found (rest.drop (fromBe high low))
  | _ => .error (invalid "truncated PROXY v2 TLV header")
termination_by bytes => bytes.length
decreasing_by
  all_goals
    simp only [List.length_drop, List.length_cons]
    omega

/-- What is left to do once the fixed part has been found in order. -/
def parseBody (family : UInt8) (body : Bytes) (allowIrohIdentity : Bool) : Except IoError Parsed := do
  let (address, addressBytes) ← parseAddress family body allowIrohIdentity
  let endpoint ← readTlvs allowIrohIdentity none (body.drop addressBytes)
  if family = 0x00 ∧ endpoint = none then
    .error (invalid "PROXY/UNSPEC requires one VGI Iroh identity TLV")
  else if endpoint ≠ none ∧ family ≠ 0x00 then
    .error (invalid "VGI Iroh identity requires PROXY/UNSPEC")
  else .ok ⟨address, endpoint⟩

def parseProxyProtocolV2WithOptions (preamble : Bytes) (maximumBytes : Nat)
    (allowIrohIdentity : Bool) : Except IoError Parsed := do
  let maximumBytes ← maximumBytesOrDefault maximumBytes
  let byte (index : Nat) : UInt8 := preamble.getD index 0
  if preamble.length < fixedBytes then .error (invalid "truncated PROXY v2 fixed preamble")
  else if maximumBytes < preamble.length then
    .error (invalid "PROXY v2 preamble exceeds configured limit")
  else if preamble.take 12 ≠ signature then .error (invalid "missing PROXY v2 signature")
  else if byte 12 >>> 4 ≠ 2 then .error (invalid "unsupported PROXY protocol version")
  else if byte 12 &&& 0x0f ≠ 1 then .error (invalid "PROXY v2 LOCAL command is not accepted")
  else if preamble.length ≠ fixedBytes + fromBe (byte 14) (byte 15) then
    .error (invalid "truncated or overlong PROXY v2 preamble")
  else parseBody (byte 13) (preamble.drop fixedBytes) allowIrohIdentity

/-! ## The grammar -/

def toBe (number : Nat) : Bytes := [UInt8.ofNat (number / 256), UInt8.ofNat (number % 256)]

def ipOf (six : Bool) (octets : Bytes) : IpAddr :=
  if six then normalizeIp (.v6 octets) else .v4 octets

def ipWidth (six : Bool) : Nat := if six then 16 else 4

inductive Block where
  | unspecified
  | tcp (six : Bool) (source destination : Bytes) (sourcePort destinationPort : UInt16)
      (sized : source.length = ipWidth six ∧ destination.length = ipWidth six)

def Block.family : Block → UInt8
  | .unspecified => 0x00
  | .tcp six .. => if six then 0x21 else 0x11

def Block.bytes : Block → Bytes
  | .unspecified => []
  | .tcp _ source destination sourcePort destinationPort _ =>
    source ++ (destination ++ (toBe sourcePort.toNat ++ toBe destinationPort.toNat))

def Block.address : Block → Option Address
  | .unspecified => none
  | .tcp six source destination sourcePort destinationPort _ =>
    some ⟨⟨ipOf six source, sourcePort⟩, ⟨ipOf six destination, destinationPort⟩⟩

structure Record where
  kind : UInt8
  value : Bytes
  fits : value.length < 2 ^ 16

def Record.bytes (record : Record) : Bytes :=
  record.kind :: (toBe record.value.length ++ record.value)

structure Header where
  block : Block
  records : List Record
  fits : (block.bytes ++ records.flatMap Record.bytes).length < 2 ^ 16

namespace Header

variable (header : Header)

def body : Bytes := header.block.bytes ++ header.records.flatMap Record.bytes

def bytes : Bytes :=
  signature ++ (0x21 :: header.block.family :: (toBe header.body.length ++ header.body))

def identities : List Bytes :=
  (header.records.filter (·.kind = irohEndpointTlv)).map Record.value

/-- What a header means to a listener.  With the opt-in a header without addresses names one
endpoint, and one with addresses none; without it no record is read. -/
inductive Means (header : Header) : Bool → Parsed → Prop where
  | closed (named : header.block ≠ .unspecified) : Means header false ⟨header.block.address, none⟩
  | addressed (named : header.block ≠ .unspecified) (unclaimed : header.identities = []) :
      Means header true ⟨header.block.address, none⟩
  | endpoint {id : Bytes} (unnamed : header.block = .unspecified) (length : id.length = 32)
      (claimed : header.identities = [irohEndpointVersion :: id]) :
      Means header true ⟨none, some id⟩

end Header

/-! ## Numbers -/

theorem fromBe_lt (high low : UInt8) : fromBe high low < 2 ^ 16 := by
  have first := high.toNat_lt
  have second := low.toNat_lt
  unfold fromBe
  omega

theorem toBe_fromBe (high low : UInt8) : toBe (fromBe high low) = [high, low] := by
  have second := low.toNat_lt
  have quotient : fromBe high low / 256 = high.toNat := by unfold fromBe; omega
  have rest : fromBe high low % 256 = low.toNat := by unfold fromBe; omega
  rw [toBe, quotient, rest, UInt8.ofNat_toNat, UInt8.ofNat_toNat]

theorem fromBe_toBe {number : Nat} (fits : number < 2 ^ 16) :
    fromBe (UInt8.ofNat (number / 256)) (UInt8.ofNat (number % 256)) = number := by
  simp only [fromBe, UInt8.toNat_ofNat']
  omega

section

variable {allow : Bool} {found : Option Bytes}

/-- The loop takes one record at a time, whatever stands behind it. -/
theorem readTlvs_record (record : Record) (rest : Bytes) :
    readTlvs allow found (record.bytes ++ rest) = if record.kind = irohEndpointTlv ∧ allow then
        if found.isSome then .error (invalid "duplicate VGI Iroh identity TLV")
        else if record.value.length ≠ irohEndpointValueBytes ∨
            record.value.head? ≠ some irohEndpointVersion then
          .error (invalid "invalid VGI Iroh identity TLV")
        else readTlvs allow (some (record.value.drop 1)) rest
      else readTlvs allow found rest := by
  rw [Record.bytes, toBe, cons_append, append_assoc, cons_append, cons_append, nil_append, readTlvs,
    fromBe_toBe record.fits, if_neg (by simp), take_left, drop_left]

variable (records : List Record)

theorem readTlvs_closed : readTlvs false found (records.flatMap Record.bytes) = .ok found := by
  induction records with
  | nil => rw [flatMap_nil, readTlvs]
  | cons record rest ih => rw [flatMap_cons, readTlvs_record, if_neg (by simp), ih]

theorem refuse_eq_ok_iff {α : Type} {refused : Prop} [Decidable refused] {error : IoError}
    {rest : Except IoError α} {result : α} :
    (if refused then .error error else rest) = .ok result ↔ ¬ refused ∧ rest = .ok result := by
  by_cases holds : refused <;> simp [holds]

theorem identity_iff (value : Bytes) :
    ¬ (value.length ≠ irohEndpointValueBytes ∨ value.head? ≠ some irohEndpointVersion) ↔
      ∃ id : Bytes, id.length = 32 ∧ value = irohEndpointVersion :: id := by
  cases value with
  | nil => simp
  | cons head tail => simp [irohEndpointValueBytes, and_comm]

/-- With the opt-in the records are read when none of them is an identity, or the first is
well formed and no other has been met or follows. -/
theorem readTlvs_open_iff (result : Option Bytes) :
    readTlvs true found (records.flatMap Record.bytes) = .ok result ↔
      (((records.filter (·.kind = irohEndpointTlv)).map Record.value = [] ∧ result = found) ∨
        found = none ∧ ∃ id : Bytes, id.length = 32 ∧
          (records.filter (·.kind = irohEndpointTlv)).map Record.value = [irohEndpointVersion :: id] ∧
          result = some id) := by
  induction records generalizing found with
  | nil =>
    rw [flatMap_nil, readTlvs]
    simp [eq_comm]
  | cons record rest ih =>
    rw [flatMap_cons, readTlvs_record]
    by_cases identity : record.kind = irohEndpointTlv
    · rw [if_pos ⟨identity, rfl⟩, filter_cons_of_pos (by simpa using identity), map_cons]
      cases found with
      | some known => simp
      | none =>
        rw [if_neg (by simp), refuse_eq_ok_iff, identity_iff, ih]
        constructor
        · rintro ⟨⟨id, length, value⟩, ⟨others, rfl⟩ | ⟨⟨⟩, -⟩⟩
          exact .inr ⟨rfl, id, length, by rw [others, value], by rw [value]; rfl⟩
        · rintro (⟨⟨⟩, -⟩ | ⟨-, id, length, same, rfl⟩)
          obtain ⟨value, others⟩ := List.cons.inj same
          exact ⟨⟨id, length, value⟩, .inl ⟨others, by rw [value]; rfl⟩⟩
    · rw [if_neg (by simp [identity]), filter_cons_of_neg (by simpa using identity), ih]

/-- What the loop accepts is a list of records. -/
theorem readTlvs_sound {bytes : Bytes} {result : Option Bytes}
    (read : readTlvs allow found bytes = .ok result) :
    ∃ records : List Record, bytes = records.flatMap Record.bytes := by
  induction size : bytes.length using Nat.strongRecOn generalizing bytes found with
  | _ size ih =>
    rcases bytes with _ | ⟨kind, _ | ⟨high, _ | ⟨low, rest⟩⟩⟩
    · exact ⟨[], rfl⟩
    · simp [readTlvs] at read
    · simp [readTlvs] at read
    · rw [readTlvs] at read
      obtain ⟨short, next, read⟩ : ¬ rest.length < fromBe high low ∧ ∃ next,
          readTlvs allow next (rest.drop (fromBe high low)) = .ok result := by
        dsimp only at read
        split_ifs at read with short
        · exact ⟨short, _, read⟩
        · exact ⟨short, _, read⟩
      obtain ⟨records, same⟩ := ih _ (by simp at size; simp; omega) read rfl
      have length : (rest.take (fromBe high low)).length = fromBe high low :=
        length_take_of_le (by omega)
      have fits : (rest.take (fromBe high low)).length < 2 ^ 16 :=
        length.symm ▸ fromBe_lt high low
      refine ⟨⟨kind, rest.take (fromBe high low), fits⟩ :: records, ?_⟩
      rw [flatMap_cons, ← same, Record.bytes, length, toBe_fromBe]
      simp

end

/-! ## Addresses -/

variable {width : Nat}

theorem parseTcp_block {ip : Bytes → IpAddr} {short : String} {source destination : Bytes}
    (first : source.length = width) (second : destination.length = width)
    (sourcePort destinationPort : UInt16) (rest : Bytes) :
    parseTcp width ip short (source ++ (destination ++
        (toBe sourcePort.toNat ++ (toBe destinationPort.toNat ++ rest)))) =
      .ok (some ⟨⟨ip source, sourcePort⟩, ⟨ip destination, destinationPort⟩⟩, 2 * width + 4) := by
  have behind (tail : Bytes) (index : Nat) :
      (source ++ (destination ++ tail)).getD (2 * width + index) 0 = tail.getD index 0 := by
    rw [getD_eq_getElem?_getD, getElem?_append_right (by omega),
      getElem?_append_right (by omega), getD_eq_getElem?_getD]
    congr 2
    omega
  have port (number : UInt16) :
      UInt16.ofNat (fromBe (UInt8.ofNat (number.toNat / 256)) (UInt8.ofNat (number.toNat % 256))) =
        number := by
    rw [fromBe_toBe number.toNat_lt, UInt16.ofNat_toNat]
  rw [parseTcp, if_neg (by simp [toBe]; omega)]
  dsimp only
  rw [take_left' first, drop_left' first, take_left' second, Nat.add_assoc,
    behind _ 2, behind _ 3, behind _ 1]
  have start := behind (toBe sourcePort.toNat ++ (toBe destinationPort.toNat ++ rest)) 0
  rw [Nat.add_zero] at start
  rw [start]
  exact congrArg₂ (fun one two => Except.ok (some (Address.mk ⟨_, one⟩ ⟨_, two⟩), _))
    (port sourcePort) (port destinationPort)

variable {body : Bytes}

/-- A body with room for two addresses and ports starts with them. -/
theorem addresses_of_le (long : 2 * width + 4 ≤ body.length) :
    ∃ (source destination : Bytes) (sourcePort destinationPort : UInt16) (rest : Bytes),
      source.length = width ∧ destination.length = width ∧ body = source ++ (destination ++
          (toBe sourcePort.toNat ++ (toBe destinationPort.toNat ++ rest))) := by
  obtain ⟨source, destination, tail, rfl, first, second⟩ : ∃ source destination tail : Bytes,
      body = source ++ (destination ++ tail) ∧ source.length = width ∧ destination.length = width :=
    ⟨body.take width, (body.drop width).take width, (body.drop width).drop width,
      by simp only [take_append_drop], by simp; omega, by simp; omega⟩
  have port (high low : UInt8) : toBe (UInt16.ofNat (fromBe high low)).toNat = [high, low] := by
    rw [UInt16.toNat_ofNat_of_lt' (fromBe_lt high low), toBe_fromBe]
  rcases tail with _ | ⟨a, _ | ⟨b, _ | ⟨c, _ | ⟨d, rest⟩⟩⟩⟩
  all_goals try (simp at long; omega)
  exact ⟨source, destination, UInt16.ofNat (fromBe a b), UInt16.ofNat (fromBe c d), rest, first,
    second, by rw [port, port]; rfl⟩

theorem parseAddress_block (block : Block) (rest : Bytes) {allow : Bool}
    (named : block ≠ .unspecified ∨ allow = true) :
    parseAddress block.family (block.bytes ++ rest) allow = .ok (block.address, block.bytes.length) := by
  cases block with
  | unspecified =>
    rw [parseAddress, if_pos ⟨rfl, named.resolve_left (absurd rfl)⟩]
    rfl
  | tcp six source destination sourcePort destinationPort sized =>
    obtain ⟨first, second⟩ := sized
    simp only [Block.bytes, append_assoc, Block.address]
    cases six with
    | false =>
      change parseAddress 0x11 _ _ = _
      have first : source.length = 4 := first
      have second : destination.length = 4 := second
      rw [parseAddress, if_neg (fun both => absurd both.1 (by decide)), if_pos rfl,
        parseTcp_block first second]
      simp [first, second, toBe, ipOf]
    | true =>
      change parseAddress 0x21 _ _ = _
      have first : source.length = 16 := first
      have second : destination.length = 16 := second
      rw [parseAddress, if_neg (fun both => absurd both.1 (by decide)), if_neg (by decide),
        if_pos rfl, parseTcp_block first second]
      simp [first, second, toBe, ipOf]

variable {family : UInt8} {allow : Bool}

theorem parseAddress_sound {result : Option Address × Nat}
    (parsed : parseAddress family body allow = .ok result) :
    ∃ (block : Block) (rest : Bytes), family = block.family ∧ body = block.bytes ++ rest ∧
      (block ≠ .unspecified ∨ allow = true) := by
  have tcp (six : Bool) (short : String)
      (made : parseTcp (ipWidth six) (ipOf six) short body = .ok result) :
      ∃ (block : Block) (rest : Bytes), (if six then 0x21 else 0x11) = block.family ∧
        body = block.bytes ++ rest ∧ (block ≠ .unspecified ∨ allow = true) := by
    by_cases long : body.length < 2 * ipWidth six + 4
    · rw [parseTcp, if_pos long] at made
      cases made
    · obtain ⟨source, destination, sourcePort, destinationPort, rest, first, second, rfl⟩ :=
        addresses_of_le (Nat.not_lt.mp long)
      exact ⟨.tcp six source destination sourcePort destinationPort ⟨first, second⟩, rest, rfl,
        by simp only [Block.bytes, append_assoc], .inl (by rintro ⟨⟩)⟩
  unfold parseAddress at parsed
  split_ifs at parsed with unspecified four six
  · exact ⟨.unspecified, body, unspecified.1, rfl, .inr unspecified.2⟩
  · exact four ▸ tcp false _ parsed
  · exact six ▸ tcp true _ parsed

/-! ## Preambles -/

theorem versionCommand_iff (byte : UInt8) : byte >>> 4 = 2 ∧ byte &&& 0x0f = 1 ↔ byte = 0x21 := by
  have small := byte.toNat_lt
  have low := Nat.and_two_pow_sub_one_eq_mod byte.toNat 4
  simp only [← UInt8.toNat_inj, UInt8.toNat_shiftRight, UInt8.toNat_and, UInt8.reduceToNat,
    Nat.shiftRight_eq_div_pow]
  change byte.toNat &&& 15 = byte.toNat % 16 at low
  change byte.toNat / 16 = 2 ∧ _ ↔ _
  rw [low]
  omega

def limit : Nat :=
  if maximumBytes = 0 then defaultMaxProxyV2Bytes else maximumBytes

theorem maximumBytesOrDefault_eq : maximumBytesOrDefault maximumBytes =
      if limit maximumBytes < fixedBytes then
        .error (invalid "maximum PROXY v2 bytes must be at least 16")
      else .ok (limit maximumBytes) :=
  rfl

/-- The parser accepts what has a fixed part in order and a body it accepts. -/
theorem parse_eq_ok_iff (preamble : Bytes) (maximumBytes : Nat) (allow : Bool) (parsed : Parsed) :
    parseProxyProtocolV2WithOptions preamble maximumBytes allow = .ok parsed ↔
      preamble.length ≤ limit maximumBytes ∧ ∃ family body, body.length < 2 ^ 16 ∧
        preamble = signature ++ (0x21 :: family :: (toBe body.length ++ body)) ∧
        parseBody family body allow = .ok parsed := by
  have checks : parseProxyProtocolV2WithOptions preamble maximumBytes allow = .ok parsed ↔
      ¬ limit maximumBytes < fixedBytes ∧ ¬ preamble.length < fixedBytes ∧
      ¬ limit maximumBytes < preamble.length ∧ preamble.take 12 = signature ∧
      preamble.getD 12 0 >>> 4 = 2 ∧ preamble.getD 12 0 &&& 0x0f = 1 ∧
      preamble.length = fixedBytes + fromBe (preamble.getD 14 0) (preamble.getD 15 0) ∧
      parseBody (preamble.getD 13 0) (preamble.drop fixedBytes) allow = .ok parsed := by
    rw [parseProxyProtocolV2WithOptions, maximumBytesOrDefault_eq]
    by_cases small : limit maximumBytes < fixedBytes
    · rw [if_pos small]
      exact iff_of_false (by rintro ⟨⟩) fun both => both.1 small
    · rw [if_neg small]
      change (if preamble.length < fixedBytes then _ else _) = _ ↔ _
      simp only [refuse_eq_ok_iff, not_not, ne_eq, small, not_false_eq_true, true_and]
  rw [checks]
  constructor
  · rintro ⟨-, long, within, signed, version, command, whole, accepted⟩
    obtain ⟨code, family, high, low, body, rfl⟩ : ∃ code family high low body,
        preamble = signature ++ (code :: family :: high :: low :: body) := by
      rcases behind : preamble.drop 12 with _ | ⟨a, _ | ⟨b, _ | ⟨c, _ | ⟨d, rest⟩⟩⟩⟩
      all_goals try (have size := congrArg List.length behind; simp [fixedBytes] at size long; omega)
      exact ⟨a, b, c, d, rest, by rw [← signed, ← behind, take_append_drop]⟩
    have code : code = 0x21 := (versionCommand_iff code).mp ⟨version, command⟩
    have length : body.length = fromBe high low := by
      change _ = fixedBytes + fromBe high low at whole
      simp [signature, fixedBytes] at whole
      omega
    refine ⟨Nat.not_lt.mp within, family, body, length ▸ fromBe_lt high low, ?_, accepted⟩
    rw [code, length, toBe_fromBe]
    rfl
  · rintro ⟨within, family, body, fits, rfl, accepted⟩
    have size : (signature ++ (0x21 :: family :: (toBe body.length ++ body))).length =
        fixedBytes + body.length := by
      simp [signature, toBe, fixedBytes]
      omega
    rw [size] at within ⊢
    refine ⟨by omega, by omega, Nat.not_lt.mpr within, rfl,
      ((versionCommand_iff 0x21).mpr rfl).1, ((versionCommand_iff 0x21).mpr rfl).2, ?_, accepted⟩
    exact congrArg _ (fromBe_toBe fits).symm

theorem Block.family_eq_zero_iff (block : Block) : block.family = 0x00 ↔ block = .unspecified := by
  cases block with
  | unspecified => exact iff_of_true rfl rfl
  | tcp six =>
    cases six with
    | false => exact iff_of_false (show ¬ (0x11 : UInt8) = 0x00 by decide) (by rintro ⟨⟩)
    | true => exact iff_of_false (show ¬ (0x21 : UInt8) = 0x00 by decide) (by rintro ⟨⟩)

theorem parseBody_header (header : Header) (allow : Bool) (parsed : Parsed) :
    parseBody header.block.family header.body allow = .ok parsed ↔ header.Means allow parsed := by
  by_cases named : header.block ≠ .unspecified ∨ allow = true
  · have steps : parseBody header.block.family header.body allow = .ok parsed ↔
        ∃ endpoint, readTlvs allow none (header.records.flatMap Record.bytes) = .ok endpoint ∧
          ¬ (header.block = .unspecified ∧ endpoint = none) ∧
          ¬ (endpoint ≠ none ∧ header.block ≠ .unspecified) ∧
          ⟨header.block.address, endpoint⟩ = parsed := by
      rw [parseBody, Header.body, parseAddress_block header.block _ named]
      change readTlvs _ _ (List.drop _ _) >>= _ = _ ↔ _
      rw [drop_left]
      cases readTlvs allow none (header.records.flatMap Record.bytes) with
      | error error => exact iff_of_false (by rintro ⟨⟩) (by rintro ⟨_, ⟨⟩, _⟩)
      | ok endpoint =>
        change (if _ then _ else _) = _ ↔ _
        simp [refuse_eq_ok_iff, Block.family_eq_zero_iff]
    rw [steps]
    cases allow with
    | false =>
      have named := named.resolve_right (by decide)
      simp only [readTlvs_closed, Except.ok.injEq, exists_eq_left', named, false_and,
        not_false_eq_true, ne_eq, not_true, true_and]
      exact ⟨fun same => same ▸ .closed named, fun means => by cases means; rfl⟩
    | true =>
      simp only [readTlvs_open_iff, true_and]
      constructor
      · rintro ⟨endpoint, ⟨none, rfl⟩ | ⟨id, length, one, rfl⟩, unclaimed, misplaced, rfl⟩
        · exact .addressed (fun unnamed => unclaimed ⟨unnamed, rfl⟩) none
        · have unnamed : header.block = .unspecified := by
            by_contra named
            exact misplaced ⟨by rintro ⟨⟩, named⟩
          rw [unnamed]
          exact .endpoint unnamed length one
      · intro means
        cases means with
        | addressed named none =>
          exact ⟨_, .inl ⟨none, rfl⟩, fun both => named both.1, fun both => both.1 rfl, rfl⟩
        | @endpoint id unnamed length one =>
          exact ⟨_, .inr ⟨id, length, one, rfl⟩, fun both => absurd both.2 (by rintro ⟨⟩),
            fun both => both.2 unnamed, by rw [unnamed]; rfl⟩
  · obtain ⟨unnamed, closed⟩ := not_or.mp named
    have unnamed := not_not.mp unnamed
    have closed : allow = false := by simpa using closed
    subst closed
    refine iff_of_false ?_ fun means => by cases means with | closed named => exact named unnamed
    rw [parseBody, unnamed, parseAddress, if_neg (by simp), if_neg (by decide), if_neg (by decide)]
    rintro ⟨⟩

theorem parseBody_sound {parsed : Parsed} (fits : body.length < 2 ^ 16)
    (accepted : parseBody family body allow = .ok parsed) :
    ∃ header : Header, family = header.block.family ∧ body = header.body := by
  obtain ⟨result, addressed, accepted⟩ := Library.exceptBind_eq_ok accepted
  obtain ⟨block, rest, rfl, rfl, named⟩ := parseAddress_sound addressed
  cases (parseAddress_block block rest named).symm.trans addressed
  obtain ⟨endpoint, read, -⟩ := Library.exceptBind_eq_ok accepted
  rw [drop_left] at read
  obtain ⟨records, rfl⟩ := readTlvs_sound read
  exact ⟨⟨block, records, fits⟩, rfl, rfl⟩

theorem parse_header_iff (header : Header) (maximumBytes : Nat) (allow : Bool) (parsed : Parsed) :
    parseProxyProtocolV2WithOptions header.bytes maximumBytes allow = .ok parsed ↔
      header.bytes.length ≤ limit maximumBytes ∧ header.Means allow parsed := by
  rw [parse_eq_ok_iff, ← parseBody_header]
  refine and_congr_right fun _ => ⟨?_, fun accepted => ⟨_, _, header.fits, rfl, accepted⟩⟩
  rintro ⟨family, body, -, same, accepted⟩
  injection append_cancel_left same with _ same
  injection same with family_ same
  obtain ⟨-, rfl⟩ := append_inj same (by rfl)
  rw [family_]
  exact accepted

/-- Everything the parser accepts is a header, and of a header it accepts exactly what is
within the limit and means something to the listener. -/
theorem parser_exact (maximumBytes : Nat) (allowIrohIdentity : Bool) :
    (∀ bytes parsed, parseProxyProtocolV2WithOptions bytes maximumBytes allowIrohIdentity = .ok parsed →
      ∃ header : Header, bytes = header.bytes) ∧
    ∀ (header : Header) (parsed : Parsed),
      parseProxyProtocolV2WithOptions header.bytes maximumBytes allowIrohIdentity = .ok parsed ↔
        header.bytes.length ≤ limit maximumBytes ∧ header.Means allowIrohIdentity parsed := by
  refine ⟨fun bytes parsed parses => ?_, fun header parsed => parse_header_iff header ..⟩
  obtain ⟨-, family, body, fits, rfl, accepted⟩ := (parse_eq_ok_iff ..).mp parses
  obtain ⟨header, rfl, rfl⟩ := parseBody_sound fits accepted
  exact ⟨header, rfl⟩

end VgiRpc.Proxy
