import VgiRpc.Auth.MtlsReading
import VgiRpc.External.Location
import VgiRpc.Http.Correlation

/-!
# Content codings

A request lists the codings of its body.  They are undone from the last to the first, each within
the smallest limit on requests, before a handler runs.
-/

namespace VgiRpc.Http.Codings

open List
open Correlation (RequestLimits Inbound admits)
open Library.ByteStream

/-- What a decoder reads, one buffer after the other. -/
abbrev Reads := List (Except String Bytes)

/-- The decoders.  That of Zstandard is opened for a window; a text says which step failed. -/
structure Decoders where
  zstd : Nat → Bytes → Except String Reads
  gzip : Bytes → Reads

def decodeBounded (maxSize : Nat) (coding : String) (out : Bytes) : Reads → Except RpcError Bytes
  | [] => .ok out
  | .error message :: _ => .error (.runtimeError (coding ++ " decode: " ++ message))
  | .ok chunk :: rest =>
    if chunk = [] then .ok out
    else if maxSize < out.length + chunk.length then
      .error (.runtimeError ("Decompressed body exceeds max size (" ++
        toString (out.length + chunk.length) ++ "+ bytes > " ++ toString maxSize ++ ")"))
    else decodeBounded maxSize coding (out ++ chunk) rest

def maxContentCodings : Nat := 4

def codingName (part : List Char) : String := String.ofList ((Auth.trim part).map Char.toLower)

def codings (header : String) : List String :=
  ((header.toList.splitOn ',').map codingName).filter (· ≠ "")

variable (limits : RequestLimits)

def configured : List (Option Nat) :=
  [some limits.maxBodySize, limits.maxRequestBytes, limits.hostingMaxRequestBytes]

def requestDecodeLimit : Nat :=
  (smallest (configured limits)).getD limits.maxBodySize

section

variable (decoders : Decoders) (maxSize : Nat)

def decodeCoding (data : Bytes) (name : String) : Except RpcError Bytes :=
  if name = "zstd" then
    match decoders.zstd (External.zstdWindowLogForLimit maxSize) data with
    | .error message => .error (.runtimeError message)
    | .ok reads => decodeBounded maxSize name [] reads
  else if name = "gzip" then decodeBounded maxSize name [] (decoders.gzip data)
  else .ok data

variable (names : List String) (data : Bytes)

def decodeCodings : Except RpcError Bytes :=
  names.foldlM (decodeCoding decoders maxSize) data

variable (contentEncoding : Option String)

def decodeContentEncoding (maxOutputSize : Option Nat) : Except RpcError Bytes :=
  match contentEncoding.filter fun header => !(Auth.trim header.toList).isEmpty with
  | none => .ok data
  | some header =>
    if maxContentCodings < (codings header).length then
      .error (.runtimeError ("Content-Encoding lists more than " ++ toString maxContentCodings ++
        " codings"))
    else decodeCodings decoders (maxOutputSize.getD (2 ^ 64 - 1)) (codings header).reverse data

def maybeDecompress (body : Bytes) : Except RpcError Bytes :=
  if maxSize < body.length then
    .error (.runtimeError ("Request body exceeds max size (" ++ toString body.length ++
      " bytes > " ++ toString maxSize ++ ")"))
  else decodeContentEncoding decoders body contentEncoding (some maxSize)

/-- The layers, and a dispatch path up to what it makes of the decoded body: a handler may run. -/
def dispatch {α : Type} (limits : RequestLimits) (inbound : Inbound)
    (contentEncoding : Option String) (body : Bytes) (handle : Bytes → Option α) : Option α :=
  if admits limits { inbound with body := some body.length } ∧ body.length ≤ limits.maxBodySize then
    (maybeDecompress decoders (requestDecodeLimit limits) contentEncoding body).toOption.bind handle
  else none

/-- What any number of codings, or none, leaves of the data is at most this long. -/
def Bounded (most : Nat) : Prop :=
  ∀ count, ∃ left, decodeCodings decoders maxSize (names.take count) data = .ok left ∧
    left.length ≤ most

/-- The reads give the bytes, in chunks. -/
def Yields (reads : Reads) (plain : Bytes) : Prop :=
  ∃ chunks : List Bytes, [] ∉ chunks ∧ reads = chunks.map .ok ∧ chunks.flatten = plain

/-- A coding of a body that its decoder undoes, if it allows the window.  Any other leaves the body
as it is. -/
def Encodes (plain packed : Bytes) (name : String) : Prop :=
  if name = "zstd" then
    ∃ reads, decoders.zstd (External.zstdWindowLogForLimit maxSize) packed = .ok reads ∧
      Yields reads plain
  else if name = "gzip" then Yields (decoders.gzip packed) plain
  else packed = plain

/-- Codings applied to a body one after the other. -/
inductive Encoded (body : Bytes) : List String → Bytes → Prop
  | nil : Encoded body [] body
  | concat (names data packed name) : Encoded body names data → data.length ≤ maxSize →
      Encodes decoders maxSize data packed name → Encoded body (names ++ [name]) packed

variable {decoders maxSize}

theorem decodeBounded_within {coding : String} {reads : Reads} {out plain : Bytes}
    (decoded : decodeBounded maxSize coding out reads = .ok plain) (within : out.length ≤ maxSize) :
    plain.length ≤ maxSize := by
  induction reads generalizing out with
  | nil => cases decoded; exact within
  | cons read rest ih =>
    cases read with
    | error message => cases decoded
    | ok chunk =>
      rw [decodeBounded] at decoded
      split_ifs at decoded with ends beyond
      · cases decoded; exact within
      · exact ih decoded (by rw [length_append]; omega)

theorem decodeCoding_within {name : String} {data plain : Bytes} (decoded : decodeCoding decoders
    maxSize data name = .ok plain) (within : data.length ≤ maxSize) : plain.length ≤ maxSize := by
  unfold decodeCoding at decoded
  split_ifs at decoded
  · split at decoded
    · cases decoded
    · exact decodeBounded_within decoded (Nat.zero_le _)
  · exact decodeBounded_within decoded (Nat.zero_le _)
  · cases decoded; exact within

theorem decodeCodings_bounded {names : List String} {data plain : Bytes}
    (decoded : decodeCodings decoders maxSize names data = .ok plain)
    (within : data.length ≤ maxSize) : Bounded decoders maxSize names data maxSize := by
  unfold Bounded
  unfold decodeCodings at decoded ⊢
  induction names generalizing data with
  | nil => exact fun count => ⟨data, by rw [take_nil]; rfl, within⟩
  | cons name rest ih =>
    intro count
    cases count with
    | zero => exact ⟨data, rfl, within⟩
    | succ count =>
      rw [foldlM_cons] at decoded
      rw [take_succ_cons, foldlM_cons]
      obtain ⟨next, first, later⟩ := Library.exceptBind_eq_ok decoded
      rw [first]
      exact ih later (decodeCoding_within first within) count

theorem codings_blank {header : String} (blank : Auth.trim header.toList = []) :
    codings header = [] := by
  have apart : ',' ∉ header.toList := by
    intro member
    have kept := Auth.Mtls.mem_trim member (by decide)
    rw [blank] at kept
    cases kept
  have whole := splitOn_intercalate ',' (forall_mem_singleton.mpr apart) (cons_ne_nil _ _)
  rw [intercalate_singleton] at whole
  rw [codings, whole, map_singleton, codingName, blank]
  rfl

/-- A blank header makes no difference. -/
theorem decodeContentEncoding_ok_iff {header : String} {data plain : Bytes} {max : Option Nat} :
    decodeContentEncoding decoders data (some header) max = .ok plain ↔
      (codings header).length ≤ maxContentCodings ∧
        decodeCodings decoders (max.getD (2 ^ 64 - 1)) (codings header).reverse data = .ok plain := by
  unfold decodeContentEncoding
  by_cases blank : Auth.trim header.toList = []
  · rw [codings_blank blank, Option.filter_some, blank]
    exact (and_iff_right (Nat.zero_le _)).symm
  · rw [Option.filter_some, if_pos (by simpa using blank)]
    by_cases many : maxContentCodings < (codings header).length
    · simp [many]
    · simp [many, Nat.le_of_not_lt many]

theorem maybeDecompress_bounded {contentEncoding : Option String} {body plain : Bytes}
    (decoded : maybeDecompress decoders maxSize contentEncoding body = .ok plain) :
    Bounded decoders maxSize (contentEncoding.elim [] codings).reverse body maxSize := by
  unfold maybeDecompress at decoded
  split_ifs at decoded with beyond
  have fits := Nat.le_of_not_lt beyond
  cases contentEncoding with
  | none => exact @decodeCodings_bounded _ _ [] _ body rfl fits
  | some header => exact decodeCodings_bounded (decodeContentEncoding_ok_iff.mp decoded).2 fits

theorem requestDecodeLimit_le {limits : RequestLimits} {most : Nat}
    (listed : some most ∈ configured limits) : requestDecodeLimit limits ≤ most := by
  have among : most ∈ filterMap id _ := mem_filterMap.mpr ⟨_, listed, rfl⟩
  rw [requestDecodeLimit, smallest]
  obtain ⟨least, found⟩ := Option.isSome_iff_exists.mp (isSome_min?_of_mem among)
  rw [found]
  exact (min?_eq_some_iff.mp found).2 _ among

theorem decodeBounded_yields (coding : String) {chunks : List Bytes} (full : [] ∉ chunks)
    (out : Bytes) (fits : out.length + chunks.flatten.length ≤ maxSize) :
    decodeBounded maxSize coding out (chunks.map .ok) = .ok (out ++ chunks.flatten) := by
  induction chunks generalizing out with
  | nil => rw [flatten_nil, append_nil]; rfl
  | cons chunk rest ih =>
    rw [mem_cons, not_or] at full
    rw [flatten_cons, length_append] at fits
    rw [map_cons, decodeBounded, if_neg (Ne.symm full.1), if_neg (by omega),
      ih full.2 (out ++ chunk) (by rw [length_append]; omega), flatten_cons, append_assoc]

theorem decodeCoding_encodes {name : String} {plain packed : Bytes}
    (encodes : Encodes decoders maxSize plain packed name) (fits : plain.length ≤ maxSize) :
    decodeCoding decoders maxSize packed name = .ok plain := by
  unfold decodeCoding
  unfold Encodes at encodes
  split_ifs at encodes ⊢
  · obtain ⟨_, opened, chunks, full, rfl, rfl⟩ := encodes
    rw [opened]
    exact decodeBounded_yields _ full [] (by simpa using fits)
  · obtain ⟨chunks, full, reads, rfl⟩ := encodes
    rw [reads]
    exact decodeBounded_yields _ full [] (by simpa using fits)
  · rw [encodes]

theorem decodeCodings_encoded {body packed : Bytes} {names : List String}
    (encoded : Encoded decoders maxSize body names packed) :
    decodeCodings decoders maxSize names.reverse packed = .ok body := by
  induction encoded with
  | nil => rfl
  | concat names data packed name _ fits encodes ih =>
    rw [reverse_concat, decodeCodings, foldlM_cons, decodeCoding_encodes encodes fits]
    exact ih

theorem codings_intercalate {parts : List (List Char)}
    (spelled : ∀ part ∈ parts, ',' ∉ part ∧ codingName part ≠ "") :
    codings (String.ofList ([','].intercalate parts)) = parts.map codingName := by
  rw [codings, String.toList_ofList]
  by_cases empty : parts = []
  · rw [empty]; rfl
  · rw [splitOn_intercalate ',' (fun part member => (spelled part member).1) empty, filter_eq_self]
    simpa using fun part member => (spelled part member).2

end

/-- A handler runs only when the body as it came and what its codings leave of it one after the
other are within every limit; and a body comes back from every chain of at most four codings. -/
theorem decodes_within_limits (decoders : Decoders) :
    (∀ (α : Type) limits inbound contentEncoding body (handle : Bytes → Option α),
      dispatch decoders limits inbound contentEncoding body handle ≠ none →
      ∀ most, some most ∈ configured limits → Bounded decoders (requestDecodeLimit limits)
        (contentEncoding.elim [] codings).reverse body most) ∧
    ∀ max body packed parts,
      Encoded decoders (max.getD (2 ^ 64 - 1)) body (parts.map codingName) packed →
      parts.length ≤ 4 → (∀ part ∈ parts, ',' ∉ part ∧ codingName part ≠ "") →
      decodeContentEncoding decoders packed (some (String.ofList ([','].intercalate parts))) max =
        .ok body := by
  constructor
  · intro α limits inbound contentEncoding body handle handled most listed count
    unfold dispatch at handled
    split_ifs at handled
    · cases decoded : maybeDecompress decoders (requestDecodeLimit limits) contentEncoding body with
      | error error => rw [decoded] at handled; exact absurd rfl handled
      | ok plain =>
        obtain ⟨left, decodes, within⟩ := maybeDecompress_bounded decoded count
        exact ⟨left, decodes, within.trans (requestDecodeLimit_le listed)⟩
    · exact absurd rfl handled
  · intro max body packed parts encoded few spelled
    rw [decodeContentEncoding_ok_iff, codings_intercalate spelled, length_map]
    exact ⟨few, decodeCodings_encoded encoded⟩

/-- Two codings that each put a byte behind the body. -/
theorem decodes_within_limits_twice :
    let decoders : Decoders := ⟨fun _ data => .ok [.ok data.dropLast], fun data => [.ok data.dropLast]⟩
    dispatch decoders ⟨64, some 8, none⟩ ⟨none, "/Echo/echo", none, none⟩ (some "gzip, ZSTD")
        [1, 0, 0] some = some [1] ∧
      decodeContentEncoding decoders [1, 0, 0] (some "gzip,zstd") none = .ok [1] := by
  refine ⟨by decide, (decodes_within_limits _).2 none [1] _ ["gzip".toList, "zstd".toList] ?_
    (by decide) (by decide)⟩
  refine .concat ["gzip"] [1, 0] _ "zstd" (.concat [] _ _ "gzip" .nil (by decide) ?_) (by decide) ?_
  · exact ⟨[[1]], by decide, rfl, rfl⟩
  · exact ⟨_, rfl, [[1, 0]], by decide, rfl, rfl⟩

end VgiRpc.Http.Codings
