import VgiRpc.Arrow.Schema
import VgiRpc.Library.Labelled
import VgiRpc.Library.Program

/-!
# Tokens for Arrow types

The canonical text of an Arrow type inside the preimage of the protocol hash.  The names of
list items and of the keys and values of a map are normalised; the names of the children of
structs and unions, and time zones, are carried verbatim next to the punctuation of the
token.  A token determines the type up to the normalised parts as long as those names and
zones hold none of the punctuation that ends them.
-/

namespace VgiRpc.Reflection

open Arrow

structure UnsupportedArrowType where
  dataType : DataType

def unitToken : TimeUnit → String
  | .second => "s"
  | .millisecond => "ms"
  | .microsecond => "us"
  | .nanosecond => "ns"

def nullableMark (nullable : Bool) : String := if nullable then "?" else ""

mutual

def typeToken : DataType → Except UnsupportedArrowType String
  | .null => .ok "null"
  | .boolean => .ok "bool"
  | .int8 => .ok "int8"
  | .int16 => .ok "int16"
  | .int32 => .ok "int32"
  | .int64 => .ok "int64"
  | .uint8 => .ok "uint8"
  | .uint16 => .ok "uint16"
  | .uint32 => .ok "uint32"
  | .uint64 => .ok "uint64"
  | .float16 => .ok "float16"
  | .float32 => .ok "float32"
  | .float64 => .ok "float64"
  | .utf8 => .ok "utf8"
  | .largeUtf8 => .ok "large_utf8"
  | .utf8View => .ok "utf8_view"
  | .binary => .ok "binary"
  | .largeBinary => .ok "large_binary"
  | .binaryView => .ok "binary_view"
  | .fixedSizeBinary width => .ok ("fixed_size_binary(" ++ width.repr ++ ")")
  | .date32 => .ok "date32"
  | .date64 => .ok "date64"
  | .time32 unit => .ok ("time32(" ++ unitToken unit ++ ")")
  | .time64 unit => .ok ("time64(" ++ unitToken unit ++ ")")
  | .timestamp unit (some zone) => .ok ("timestamp(" ++ unitToken unit ++ ",tz=" ++ zone ++ ")")
  | .timestamp unit none => .ok ("timestamp(" ++ unitToken unit ++ ")")
  | .duration unit => .ok ("duration(" ++ unitToken unit ++ ")")
  | .interval .yearMonth => .ok "interval_months"
  | .interval .dayTime => .ok "interval_day_time"
  | .interval .monthDayNano => .ok "interval_month_day_nano"
  | .decimal32 precision scale => .ok ("decimal32(" ++ precision.repr ++ "," ++ scale.repr ++ ")")
  | .decimal64 precision scale => .ok ("decimal64(" ++ precision.repr ++ "," ++ scale.repr ++ ")")
  | .decimal128 precision scale => .ok ("decimal128(" ++ precision.repr ++ "," ++ scale.repr ++ ")")
  | .decimal256 precision scale => .ok ("decimal256(" ++ precision.repr ++ "," ++ scale.repr ++ ")")
  | .list item => (anonChild item "item").map fun child => "list<" ++ child ++ ">"
  | .largeList item => (anonChild item "item").map fun child => "large_list<" ++ child ++ ">"
  | .listView item => (anonChild item "item").map fun child => "list_view<" ++ child ++ ">"
  | .largeListView item => (anonChild item "item").map fun child => "large_list_view<" ++ child ++ ">"
  | .fixedSizeList item size =>
    (anonChild item "item").map fun child => "fixed_size_list(" ++ size.repr ++ ")<" ++ child ++ ">"
  | .struct fields => (childrenTokens fields).map fun parts => "struct<" ++ ",".intercalate parts ++ ">"
  | .map (.mk _ (.struct [key, value]) _ _) keysSorted => do
      let keyToken ← anonChild key "key"
      let valueToken ← anonChild value "value"
      let token := "map<" ++ keyToken ++ "," ++ valueToken ++ ">"
      .ok (if keysSorted then token ++ ",keys_sorted" else token)
  | .map entries keysSorted => .error ⟨.map entries keysSorted⟩
  | .dictionary index value => do
      let indexToken ← typeToken index
      let valueToken ← typeToken value
      .ok ("dictionary<index:" ++ indexToken ++ ",value:" ++ valueToken ++ ">")
  | .runEndEncoded (.mk _ runEnds _ _) (.mk _ values _ _) => do
      let runEndsToken ← typeToken runEnds
      let valuesToken ← typeToken values
      .ok ("run_end_encoded<run_ends:" ++ runEndsToken ++ ",values:" ++ valuesToken ++ ">")
  | .union fields .sparse =>
    (unionTokens fields).map fun parts => "sparse_union<" ++ ",".intercalate parts ++ ">"
  | .union fields .dense =>
    (unionTokens fields).map fun parts => "dense_union<" ++ ",".intercalate parts ++ ">"

def anonChild : Field → String → Except UnsupportedArrowType String
  | .mk _ dataType nullable _, name =>
    (typeToken dataType).map fun token => name ++ nullableMark nullable ++ ":" ++ token

def childrenTokens : List Field → Except UnsupportedArrowType (List String)
  | [] => .ok []
  | field :: rest => do
      let part ← anonChild field field.name
      let parts ← childrenTokens rest
      .ok (part :: parts)

def unionTokens : List (Int × Field) → Except UnsupportedArrowType (List String)
  | [] => .ok []
  | (code, field) :: rest => do
      let part ← anonChild field field.name
      let parts ← unionTokens rest
      .ok ((code.repr ++ "=" ++ part) :: parts)

end

mutual

/-- A type with the normalised parts in their place: the names of list items and of the keys
and values of a map, the field around these two, the fields of a run-end encoded type, and
the metadata of every field. -/
def normalise : DataType → DataType
  | .list item => .list (normaliseAs "item" item)
  | .largeList item => .largeList (normaliseAs "item" item)
  | .listView item => .listView (normaliseAs "item" item)
  | .largeListView item => .largeListView (normaliseAs "item" item)
  | .fixedSizeList item size => .fixedSizeList (normaliseAs "item" item) size
  | .struct fields => .struct (normaliseFields fields)
  | .union fields mode => .union (normaliseCodes fields) mode
  | .map (.mk _ (.struct [key, value]) _ _) keysSorted =>
    .map (.mk "entries" (.struct [normaliseAs "key" key, normaliseAs "value" value]) false [])
      keysSorted
  | .dictionary index value => .dictionary (normalise index) (normalise value)
  | .runEndEncoded (.mk _ runEnds _ _) (.mk _ values _ _) =>
    .runEndEncoded (.mk "run_ends" (normalise runEnds) false [])
      (.mk "values" (normalise values) true [])
  | other => other

def normaliseAs (name : String) : Field → Field
  | .mk _ dataType nullable _ => .mk name (normalise dataType) nullable []

def normaliseFields : List Field → List Field
  | [] => []
  | field :: rest => normaliseAs field.name field :: normaliseFields rest

def normaliseCodes : List (Int × Field) → List (Int × Field)
  | [] => []
  | (code, field) :: rest => (code, normaliseAs field.name field) :: normaliseCodes rest

end

/-- A name that the punctuation behind it ends. -/
def plainName (name : String) : Bool :=
  !name.toList.contains ':' && !name.toList.contains ',' && name.toList.getLast? != some '?'

def plainZone (zone : String) : Bool := !zone.toList.contains ')'

mutual

/-- The names of the children of structs and unions, and the zones, are plain. -/
def plainType : DataType → Bool
  | .timestamp _ (some zone) => plainZone zone
  | .list item | .largeList item | .listView item | .largeListView item | .fixedSizeList item _ =>
    plainField item
  | .struct fields => plainFields fields
  | .union fields _ => plainCodes fields
  | .map (.mk _ (.struct [key, value]) _ _) _ => plainField key && plainField value
  | .dictionary index value => plainType index && plainType value
  | .runEndEncoded runEnds values => plainField runEnds && plainField values
  | _ => true

def plainField : Field → Bool
  | .mk _ dataType _ _ => plainType dataType

def plainFields : List Field → Bool
  | [] => true
  | field :: rest => plainName field.name && plainField field && plainFields rest

def plainCodes : List (Int × Field) → Bool
  | [] => true
  | (_, field) :: rest => plainName field.name && plainField field && plainCodes rest

end

end VgiRpc.Reflection
