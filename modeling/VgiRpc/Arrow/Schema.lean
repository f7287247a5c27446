import Mathlib.Logic.Basic

/-!
# Arrow schemas

The schema language of the batches the framework carries: the data types of the
Arrow columnar format with their children, fields, and schemas.
-/

namespace VgiRpc.Arrow

inductive TimeUnit where
  | second
  | millisecond
  | microsecond
  | nanosecond
  deriving DecidableEq, Repr

inductive IntervalUnit where
  | yearMonth
  | dayTime
  | monthDayNano
  deriving DecidableEq, Repr

inductive UnionMode where
  | sparse
  | dense
  deriving DecidableEq, Repr

mutual

inductive DataType where
  | null
  | boolean
  | int8
  | int16
  | int32
  | int64
  | uint8
  | uint16
  | uint32
  | uint64
  | float16
  | float32
  | float64
  | timestamp (unit : TimeUnit) (timezone : Option String)
  | date32
  | date64
  | time32 (unit : TimeUnit)
  | time64 (unit : TimeUnit)
  | duration (unit : TimeUnit)
  | interval (unit : IntervalUnit)
  | binary
  | fixedSizeBinary (width : Int)
  | largeBinary
  | binaryView
  | utf8
  | largeUtf8
  | utf8View
  | list (item : Field)
  | listView (item : Field)
  | fixedSizeList (item : Field) (size : Int)
  | largeList (item : Field)
  | largeListView (item : Field)
  | struct (fields : List Field)
  | union (fields : List (Int × Field)) (mode : UnionMode)
  | dictionary (key value : DataType)
  | decimal32 (precision : Nat) (scale : Int)
  | decimal64 (precision : Nat) (scale : Int)
  | decimal128 (precision : Nat) (scale : Int)
  | decimal256 (precision : Nat) (scale : Int)
  | map (entries : Field) (sorted : Bool)
  | runEndEncoded (runEnds values : Field)

inductive Field where
  | mk (name : String) (dataType : DataType) (nullable : Bool) (metadata : List (String × String))

end

namespace Field

def name : Field → String
  | .mk name _ _ _ => name

def dataType : Field → DataType
  | .mk _ dataType _ _ => dataType

def nullable : Field → Bool
  | .mk _ _ nullable _ => nullable

def metadata : Field → List (String × String)
  | .mk _ _ _ metadata => metadata

end Field

deriving instance BEq for DataType, Field

structure Schema where
  fields : List Field
  metadata : List (String × String)
  deriving BEq

namespace Schema

def empty : Schema := ⟨[], []⟩

end Schema

def DataType.isDictionary : DataType → Bool
  | .dictionary _ _ => true
  | _ => false

def DataType.isLargeBinary : DataType → Bool
  | .largeBinary => true
  | _ => false

mutual

/-- The number of dictionary-encoded columns in a type, children included. -/
def DataType.dictionaryCount : DataType → Nat
  | .list item => item.dictionaryCount
  | .listView item => item.dictionaryCount
  | .fixedSizeList item _ => item.dictionaryCount
  | .largeList item => item.dictionaryCount
  | .largeListView item => item.dictionaryCount
  | .struct fields => fieldsDictionaryCount fields
  | .union fields _ => unionDictionaryCount fields
  | .dictionary _ value => value.dictionaryCount + 1
  | .map entries _ => entries.dictionaryCount
  | .runEndEncoded runEnds values => runEnds.dictionaryCount + values.dictionaryCount
  | _ => 0

def Field.dictionaryCount : Field → Nat
  | .mk _ dataType _ _ => dataType.dictionaryCount

def fieldsDictionaryCount : List Field → Nat
  | [] => 0
  | field :: rest => field.dictionaryCount + fieldsDictionaryCount rest

def unionDictionaryCount : List (Int × Field) → Nat
  | [] => 0
  | (_, field) :: rest => field.dictionaryCount + unionDictionaryCount rest

end

theorem DataType.dictionaryCount_largeBinary {dataType : DataType}
    (large : dataType.isLargeBinary = true) : dataType.dictionaryCount = 0 := by
  unfold DataType.isLargeBinary at large
  split at large
  · rfl
  · cases large

def Schema.dictionaryCount (schema : Schema) : Nat := fieldsDictionaryCount schema.fields

end VgiRpc.Arrow
