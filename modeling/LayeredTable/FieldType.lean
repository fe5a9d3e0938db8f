/-! The types a column is declared with. A declared type says what the cells should hold; what a
cell does hold is told by its value. -/
namespace LayeredTable

inductive IntegerKind
  | int8
  | int16
  | int32
  | int64
  | uint8
  | uint16
  | uint32
  | uint64
  deriving DecidableEq, Repr

namespace IntegerKind

def least : IntegerKind → Int
  | int8 => -128
  | int16 => -32768
  | int32 => -2147483648
  | int64 => -9223372036854775808
  | uint8 | uint16 | uint32 | uint64 => 0

def greatest : IntegerKind → Int
  | int8 => 127
  | int16 => 32767
  | int32 => 2147483647
  | int64 => 9223372036854775807
  | uint8 => 255
  | uint16 => 65535
  | uint32 => 4294967295
  | uint64 => 18446744073709551615

def Admits (kind : IntegerKind) (n : Int) : Prop := kind.least ≤ n ∧ n ≤ kind.greatest

instance (kind : IntegerKind) (n : Int) : Decidable (kind.Admits n) :=
  inferInstanceAs (Decidable (_ ∧ _))

end IntegerKind

/-- A declared type. Dates, custom fields and unknown types have no values of their own kind. -/
inductive FieldType
  | bool
  | integer (kind : IntegerKind)
  | float32
  | float64
  | text
  | timestamp
  | date
  | custom
  | null
  | unknown
  deriving DecidableEq, Repr

namespace FieldType

def all : List FieldType :=
  [bool, integer .int8, integer .int16, integer .int32, integer .int64, integer .uint8,
    integer .uint16, integer .uint32, integer .uint64, float32, float64, text, timestamp, date,
    custom, null, unknown]

/-- The name in interchange. -/
def name : FieldType → String
  | bool => "bool"
  | integer .int8 => "int8"
  | integer .int16 => "int16"
  | integer .int32 => "int32"
  | integer .int64 => "int64"
  | integer .uint8 => "u_int8"
  | integer .uint16 => "u_int16"
  | integer .uint32 => "u_int32"
  | integer .uint64 => "u_int64"
  | float32 => "float32"
  | float64 => "float64"
  | text => "utf8"
  | timestamp => "timestamp"
  | date => "date"
  | custom => "custom"
  | null => "null"
  | unknown => "unknown"

/-- The name in messages. -/
def label : FieldType → String
  | bool => "BOOL"
  | integer .int8 => "INT8"
  | integer .int16 => "INT16"
  | integer .int32 => "INT32"
  | integer .int64 => "INT64"
  | integer .uint8 => "UINT8"
  | integer .uint16 => "UINT16"
  | integer .uint32 => "UINT32"
  | integer .uint64 => "UINT64"
  | float32 => "FLOAT32"
  | float64 => "FLOAT64"
  | text => "STRING"
  | timestamp => "TIMESTAMP"
  | date => "DATE"
  | custom => "CUSTOM"
  | null => "NULL"
  | unknown => "UNKNOWN"

def ofName? (s : String) : Option FieldType := all.find? fun t => t.name == s

def isInteger : FieldType → Bool
  | integer _ => true
  | _ => false

def isFloat : FieldType → Bool
  | float32 | float64 => true
  | _ => false

def isNumeric (t : FieldType) : Bool := t.isInteger || t.isFloat

def isTemporal : FieldType → Bool
  | timestamp | date => true
  | _ => false

end FieldType

structure Nullable where
  allowed : Bool := false
  replacement : Option String := none
  deriving DecidableEq, Repr, Inhabited

end LayeredTable
