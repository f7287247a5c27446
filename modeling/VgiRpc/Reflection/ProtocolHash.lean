import VgiRpc.Http.Crypto
import VgiRpc.Library.Document
import VgiRpc.Reflection.TokenReading

/-!
# The protocol hash

A protocol is hashed over a canonical JSON document of its name and its methods, sorted by
name, with a token for the type of every field.  The version of a protocol is not in the
document.  Equal documents come from the same name and the same methods, up to what the
tokens normalise, as long as the names and zones inside the types are plain.
-/

namespace VgiRpc.Reflection

open Arrow List Library.Document Library
open Library.ByteStream (Bytes)

structure HashMethod where
  name : String
  methodType : String
  hasReturn : Bool
  hasHeader : Bool
  paramsSchema : Option Schema
  resultSchema : Option Schema
  headerSchema : Option Schema

structure FieldToken where
  name : String
  nullable : Bool
  typeToken : String

def FieldToken.document (token : FieldToken) : Document :=
  .object [("name", .text token.name), ("nullable", .bool token.nullable),
    ("type", .text token.typeToken)]

def fieldTokens : List Field → Except UnsupportedArrowType (List FieldToken)
  | [] => .ok []
  | field :: rest => do
      let token ← typeToken field.dataType
      let tokens ← fieldTokens rest
      .ok (⟨field.name, field.nullable, token⟩ :: tokens)

variable (schema : Option Schema)

def fieldsOf : List Field := (schema.map Schema.fields).getD []

def schemaTokens : Except UnsupportedArrowType (List FieldToken) :=
  fieldTokens (fieldsOf schema)

structure MethodEntry where
  hasHeader : Bool
  hasReturn : Bool
  header : Option (List FieldToken)
  name : String
  params : List FieldToken
  result : Option (List FieldToken)
  methodType : String

def tokensDocument (tokens : List FieldToken) : Document := .array (tokens.map FieldToken.document)

def MethodEntry.document (entry : MethodEntry) : Document :=
  .object ([("has_header", .bool entry.hasHeader), ("has_return", .bool entry.hasReturn)] ++
    (entry.header.map fun tokens => ("header", tokensDocument tokens)).toList ++
    [("name", .text entry.name), ("params", tokensDocument entry.params)] ++
    (entry.result.map fun tokens => ("result", tokensDocument tokens)).toList ++
    [("type", .text entry.methodType)])

def tokensWhen (present : Bool) (schema : Option Schema) :
    Except UnsupportedArrowType (Option (List FieldToken)) :=
  if present then (schemaTokens schema).map some else .ok none

def methodEntry (method : HashMethod) : Except UnsupportedArrowType MethodEntry := do
  let header ← tokensWhen method.hasHeader method.headerSchema
  let params ← schemaTokens method.paramsSchema
  let result ← tokensWhen method.hasReturn method.resultSchema
  .ok ⟨method.hasHeader, method.hasReturn, header, method.name, params, result, method.methodType⟩

def methodEntries : List HashMethod → Except UnsupportedArrowType (List MethodEntry)
  | [] => .ok []
  | method :: rest => do
      let entry ← methodEntry method
      let entries ← methodEntries rest
      .ok (entry :: entries)

def sortedMethods (methods : List HashMethod) : List HashMethod :=
  methods.insertionSort fun first second => first.name ≤ second.name

def canonicalDescription (protocolName : String) (methods : List HashMethod) :
    Except UnsupportedArrowType String := do
  let entries ← methodEntries (sortedMethods methods)
  .ok ("\x7b\"methods\":" ++ String.ofList (Document.array (entries.map MethodEntry.document)).write ++
    ",\"protocol\":" ++ String.ofList (Document.text protocolName).write ++ "\x7d")

def hashDomain : String := "vgi_rpc.protocol_hash.v1|"

def hexDigest (bytes : Bytes) : String :=
  String.ofList (bytes.flatMap fun byte =>
    [Document.hexDigit (byte.toNat / 16), Document.hexDigit (byte.toNat % 16)])

def computeProtocolHash (P : Http.Primitives) (protocolName : String) (methods : List HashMethod) :
    Except UnsupportedArrowType String :=
  (canonicalDescription protocolName methods).map fun preimage =>
    hexDigest (P.sha256 ((hashDomain ++ preimage).toUTF8.toList))

structure ProtocolDescription where
  name : String
  version : String
  methods : List HashMethod

variable (description : ProtocolDescription)

def ProtocolDescription.preimage : Except UnsupportedArrowType String :=
  canonicalDescription description.name description.methods

def SameFields (first second : Option Schema) : Prop :=
  (fieldsOf first).map (fun field => (field.name, field.nullable, normalise field.dataType)) =
    (fieldsOf second).map fun field => (field.name, field.nullable, normalise field.dataType)

structure SameMethod (first second : HashMethod) : Prop where
  name : first.name = second.name
  methodType : first.methodType = second.methodType
  hasReturn : first.hasReturn = second.hasReturn
  hasHeader : first.hasHeader = second.hasHeader
  params : SameFields first.paramsSchema second.paramsSchema
  result : first.hasReturn = true → SameFields first.resultSchema second.resultSchema
  header : first.hasHeader = true → SameFields first.headerSchema second.headerSchema

/-- The same name, and the same methods in some order. -/
def ProtocolDescription.Same (first second : ProtocolDescription) : Prop :=
  first.name = second.name ∧
    ∃ order, order.Perm second.methods ∧ List.Forall₂ SameMethod first.methods order

def plainSchema : Bool :=
  (fieldsOf schema).all fun field => plainType field.dataType

/-- The names and zones inside the types of a method are plain. -/
def HashMethod.plain (method : HashMethod) : Bool :=
  plainSchema method.paramsSchema && (!method.hasReturn || plainSchema method.resultSchema) &&
    (!method.hasHeader || plainSchema method.headerSchema)

def ProtocolDescription.plain : Bool :=
  description.methods.all HashMethod.plain

theorem FieldToken.document_inj {first second : FieldToken}
    (same : first.document = second.document) :
    first = second := by
  obtain ⟨name, nullable, token⟩ := first
  obtain ⟨otherName, otherNullable, otherToken⟩ := second
  simp only [FieldToken.document, object.injEq, List.cons.injEq, Prod.mk.injEq,
    text.injEq, bool.injEq, true_and, and_true] at same
  obtain ⟨rfl, rfl, rfl⟩ := same
  rfl

theorem tokensDocument_inj {first second : List FieldToken}
    (same : tokensDocument first = tokensDocument second) : first = second :=
  map_injective_iff.mpr (fun _ _ => FieldToken.document_inj) (array.inj same)

theorem MethodEntry.document_inj {first second : MethodEntry}
    (same : first.document = second.document) : first = second := by
  obtain ⟨hasHeader, hasReturn, header, name, params, result, methodType⟩ := first
  obtain ⟨alsoHeader, alsoReturn, otherHeader, otherName, otherParams, otherResult, otherType⟩ := second
  cases header <;> cases otherHeader <;> cases result <;> cases otherResult <;>
    simp only [MethodEntry.document, Option.map_none, Option.map_some, Option.toList_none,
      Option.toList_some, append_nil, cons_append, nil_append,
      object.injEq, List.cons.injEq, Prod.mk.injEq, text.injEq, bool.injEq,
      true_and, and_true, String.reduceEq, false_and, and_false, reduceCtorEq] at same
  · obtain ⟨rfl, rfl, rfl, params, rfl⟩ := same
    rw [tokensDocument_inj params]
  · obtain ⟨rfl, rfl, rfl, params, result, rfl⟩ := same
    rw [tokensDocument_inj params, tokensDocument_inj result]
  · obtain ⟨rfl, rfl, header, rfl, params, rfl⟩ := same
    rw [tokensDocument_inj header, tokensDocument_inj params]
  · obtain ⟨rfl, rfl, header, rfl, params, result, rfl⟩ := same
    rw [tokensDocument_inj header, tokensDocument_inj params, tokensDocument_inj result]

theorem canonicalDescription_ok {name preimage : String} {methods : List HashMethod}
    (made : canonicalDescription name methods = .ok preimage) :
    ∃ entries, methodEntries (sortedMethods methods) = .ok entries ∧
      preimage.toList = (Document.object
        [("methods", .array (entries.map MethodEntry.document)), ("protocol", .text name)]).write := by
  obtain ⟨entries, listed, made⟩ := exceptBind_eq_ok made
  cases made
  refine ⟨entries, listed, ?_⟩
  have methods : quote "methods" = "\"methods\"".toList := by decide
  have protocol : quote "protocol" = "\"protocol\"".toList := by decide
  simp [write, writeEntries, methods, protocol]

theorem fieldTokens_same {first second : List Field} {tokens : List FieldToken}
    (made : fieldTokens first = .ok tokens) (also : fieldTokens second = .ok tokens)
    (plain : (first.all fun field => plainType field.dataType) = true)
    (alsoPlain : (second.all fun field => plainType field.dataType) = true) :
    first.map (fun field => (field.name, field.nullable, normalise field.dataType)) =
      second.map fun field => (field.name, field.nullable, normalise field.dataType) := by
  induction first generalizing second tokens with
  | nil =>
    cases made
    cases second with
    | nil => rfl
    | cons other others =>
      obtain ⟨token, -, also⟩ := exceptBind_eq_ok also
      obtain ⟨rest, -, also⟩ := exceptBind_eq_ok also
      cases also
  | cons field fields ih =>
    obtain ⟨token, spelled, made⟩ := exceptBind_eq_ok made
    obtain ⟨rest, behind, made⟩ := exceptBind_eq_ok made
    cases made
    cases second with
    | nil => cases also
    | cons other others =>
      obtain ⟨otherToken, otherSpelled, also⟩ := exceptBind_eq_ok also
      obtain ⟨otherRest, otherBehind, also⟩ := exceptBind_eq_ok also
      simp only [Except.ok.injEq, List.cons.injEq, FieldToken.mk.injEq] at also
      obtain ⟨⟨name, nullable, rfl⟩, rfl⟩ := also
      rw [all_cons, Bool.and_eq_true] at plain alsoPlain
      rw [map_cons, map_cons, ih behind otherBehind plain.2 alsoPlain.2, name, nullable,
        normalise_eq_of_typeToken spelled otherSpelled plain.1 alsoPlain.1]

theorem tokensWhen_same {present : Bool} {first second : Option Schema}
    {tokens : Option (List FieldToken)} (made : tokensWhen present first = .ok tokens)
    (also : tokensWhen present second = .ok tokens) (plain : (!present || plainSchema first) = true)
    (alsoPlain : (!present || plainSchema second) = true) (there : present = true) :
    SameFields first second := by
  subst there
  obtain ⟨spelled, listed, rfl⟩ := exceptMap_eq_ok made
  obtain ⟨alsoSpelled, alsoListed, same⟩ := exceptMap_eq_ok also
  cases same
  exact fieldTokens_same listed alsoListed plain alsoPlain

theorem methodEntry_same {first second : HashMethod} {entry : MethodEntry}
    (made : methodEntry first = .ok entry) (also : methodEntry second = .ok entry)
    (plain : first.plain = true) (alsoPlain : second.plain = true) : SameMethod first second := by
  obtain ⟨header, headed, made⟩ := exceptBind_eq_ok made
  obtain ⟨params, taking, made⟩ := exceptBind_eq_ok made
  obtain ⟨result, returning, made⟩ := exceptBind_eq_ok made
  cases made
  obtain ⟨otherHeader, otherHeaded, also⟩ := exceptBind_eq_ok also
  obtain ⟨otherParams, otherTaking, also⟩ := exceptBind_eq_ok also
  obtain ⟨otherResult, otherReturning, also⟩ := exceptBind_eq_ok also
  simp only [Except.ok.injEq, MethodEntry.mk.injEq] at also
  obtain ⟨hasHeader, hasReturn, rfl, name, rfl, rfl, methodType⟩ := also
  simp only [HashMethod.plain, Bool.and_eq_true] at plain alsoPlain
  rw [hasHeader] at otherHeaded alsoPlain
  rw [hasReturn] at otherReturning alsoPlain
  exact
    { name := name.symm
      methodType := methodType.symm
      hasReturn := hasReturn.symm
      hasHeader := hasHeader.symm
      params := fieldTokens_same taking otherTaking plain.1.1 alsoPlain.1.1
      result := tokensWhen_same returning otherReturning plain.1.2 alsoPlain.1.2
      header := tokensWhen_same headed otherHeaded plain.2 alsoPlain.2 }

theorem methodEntries_same {first second : List HashMethod} {entries : List MethodEntry}
    (made : methodEntries first = .ok entries) (also : methodEntries second = .ok entries)
    (plain : ∀ method ∈ first, method.plain = true)
    (alsoPlain : ∀ method ∈ second, method.plain = true) : List.Forall₂ SameMethod first second := by
  induction first generalizing second entries with
  | nil =>
    cases made
    cases second with
    | nil => exact .nil
    | cons other others =>
      obtain ⟨entry, -, also⟩ := exceptBind_eq_ok also
      obtain ⟨rest, -, also⟩ := exceptBind_eq_ok also
      cases also
  | cons method methods ih =>
    obtain ⟨entry, described, made⟩ := exceptBind_eq_ok made
    obtain ⟨rest, behind, made⟩ := exceptBind_eq_ok made
    cases made
    cases second with
    | nil => cases also
    | cons other others =>
      obtain ⟨otherEntry, otherDescribed, also⟩ := exceptBind_eq_ok also
      obtain ⟨otherRest, otherBehind, also⟩ := exceptBind_eq_ok also
      simp only [Except.ok.injEq, List.cons.injEq] at also
      obtain ⟨rfl, rfl⟩ := also
      rw [forall_mem_cons] at plain alsoPlain
      exact .cons (methodEntry_same described otherDescribed plain.1 alsoPlain.1)
        (ih behind otherBehind plain.2 alsoPlain.2)

/-- Descriptions with one preimage have the same name and the same methods. -/
theorem same_of_preimage {first second : ProtocolDescription} {preimage : String}
    (made : first.preimage = .ok preimage) (also : second.preimage = .ok preimage)
    (plain : first.plain = true) (alsoPlain : second.plain = true) : first.Same second := by
  obtain ⟨entries, listed, text⟩ := canonicalDescription_ok made
  obtain ⟨others, otherListed, otherText⟩ := canonicalDescription_ok also
  have documents := (write_append_inj (congrArg (· ++ []) (text.symm.trans otherText))).1
  simp only [object.injEq, List.cons.injEq, Prod.mk.injEq, array.injEq,
    Document.text.injEq, true_and, and_true] at documents
  obtain ⟨same, name⟩ := documents
  have same : entries = others := map_injective_iff.mpr (fun _ _ => MethodEntry.document_inj) same
  subst same
  have sorted : ∀ description : ProtocolDescription,
      (sortedMethods description.methods).Perm description.methods :=
    fun description => perm_insertionSort _ _
  have inOrder := methodEntries_same listed otherListed
    (fun method member => all_eq_true.mp plain method ((sorted first).mem_iff.mp member))
    (fun method member => all_eq_true.mp alsoPlain method ((sorted second).mem_iff.mp member))
  obtain ⟨order, matched, permuted⟩ := perm_comp_forall₂ (sorted first).symm inOrder
  exact ⟨name, order, permuted.trans (sorted second), matched⟩

namespace Sample

variable (name : String) (dataType : DataType)

def child : Field := .mk name dataType false []

def taker : HashMethod :=
  ⟨name, "unary", false, false, some ⟨[child "value" dataType], []⟩, none, none⟩

/-- A protocol with a method that takes a value of a type. -/
def taking : ProtocolDescription := ⟨"Tokens", "1.0.0", [taker "take" dataType]⟩

variable {first second : DataType}

theorem normalise_of_same (same : (taking first).Same (taking second)) :
    normalise first = normalise second := by
  obtain ⟨-, order, permuted, matched⟩ := same
  rw [perm_singleton.mp permuted] at matched
  obtain ⟨method, -⟩ := forall₂_cons.mp matched
  simpa [SameFields, fieldsOf, taker, child, Field.name, Field.nullable, Field.dataType] using method.params

def Collide (first second : DataType) : Prop :=
  (taking first).preimage = (taking second).preimage ∧ ¬ (taking first).Same (taking second)

theorem collide (tokens : (taking first).preimage = (taking second).preimage)
    (apart : normalise first ≠ normalise second) : Collide first second :=
  ⟨tokens, fun same => apart (normalise_of_same same)⟩

def items : DataType := .list (child name .utf8)

def counts (keysSorted : Bool) (name : String) (nullable : Bool) : DataType :=
  .map (.mk name (.struct [child "key" .utf8, child "value" .int64]) nullable []) keysSorted

def runs (nullable : Bool) : DataType :=
  .runEndEncoded (child "run_ends" .int32) (.mk name .utf8 nullable [])

end Sample

open Sample in
/-- The order of the methods and the name of a list item do not matter. -/
theorem same_of_preimage_order :
    (⟨"Tokens", "1.0.0", [taker "take" (items "item"), taker "drop" .utf8]⟩ :
      ProtocolDescription).Same
      ⟨"Tokens", "2.0.0", [taker "drop" .utf8, taker "take" (items "element")]⟩ :=
  same_of_preimage rfl rfl rfl rfl

open Sample in
/-- Neither the version of a protocol nor metadata nor the name and the nullability of
run-end encoded values and of the entries of a map are in the preimage; and a name or a zone
can imitate the punctuation behind it: a colon, a comma, the mark of a nullable child, and the
parenthesis behind a zone. -/
theorem preimages_collide : (⟨"Tokens", "1.0.0", []⟩ : ProtocolDescription).preimage =
      (⟨"Tokens", "2.0.0", []⟩ : ProtocolDescription).preimage ∧
    (taking (.struct [.mk "a" .utf8 false [("unit", "m")]])).preimage =
      (taking (.struct [.mk "a" .utf8 false []])).preimage ∧
    (taking (runs "values" true)).preimage = (taking (runs "items" false)).preimage ∧
    (taking (counts true "entries" true)).preimage = (taking (counts true "pairs" false)).preimage ∧
    Collide (.struct [child "a:struct<b" (.struct [child "c" (.list (child "item" .utf8))])])
      (.struct [child "a" (.struct [child "b" (.struct [child "c:list<item" .utf8])])]) ∧
    Collide (.struct [child "a" (counts true "entries" false), child "b" .utf8])
      (.struct [child "a" (counts false "entries" false), child "keys_sorted,b" .utf8]) ∧
    Collide (.struct [.mk "a" .utf8 true []]) (.struct [.mk "a?" .utf8 false []]) ∧
    Collide
      (.struct [child "a" (.timestamp .second (some "UTC")), child "b" (.timestamp .second (some "UTC"))])
      (.struct [child "a" (.timestamp .second (some "UTC),b:timestamp(s,tz=UTC"))]) := by
  refine ⟨rfl, rfl, rfl, rfl, collide rfl ?_, collide rfl ?_, collide rfl ?_, collide rfl ?_⟩
  · simp [child, normalise, normaliseFields, normaliseAs, Field.name]
  · simp [child, counts, normalise, normaliseFields, normaliseAs, Field.name]
  · simp [normalise, normaliseFields, normaliseAs, Field.name]
  · simp [child, normalise, normaliseFields, normaliseAs, Field.name]

end VgiRpc.Reflection
