import LayeredTable.Binary.Text
import LayeredTable.FieldType
import LayeredTable.Text.Quoted
import LayeredTable.Time.Reading

/-! Cell values: what each kind holds, the declared types it conforms to, its text, and the order
among values of one kind. -/
namespace LayeredTable

open Text

/-- What a cell holds. An integer is of one kind and in that kind's range. -/
inductive Value
  | null
  | bool (b : Bool)
  | integer (kind : IntegerKind) (n : Int) (admitted : kind.Admits n)
  | float32 (x : Binary32)
  | float64 (x : Binary64)
  | text (s : String)
  | instant (t : Instant)
  deriving DecidableEq, Repr

inductive TypeError
  | mismatch (left right : FieldType)
  | notAllowed (left right : FieldType)
  | incomparable (left right : FieldType)
  | invalidCast (source target : FieldType)
  | lossyCast (value : String) (target : FieldType)
  | invalidTimestamp (text : String)
  | nonNumeric (value : String) (type : FieldType)
  | isNull
  deriving DecidableEq, Repr

def TypeError.message : TypeError → String
  | mismatch left right =>
    "type mismatch: left is " ++ left.label ++ ", right is " ++ right.label
  | notAllowed left right =>
    "type mismatch: " ++ left.label ++ " and " ++ right.label ++ " are not both in the allowed set"
  | incomparable left right =>
    "values of type " ++ left.label ++ " and " ++ right.label ++ " cannot be compared"
  | invalidCast source target =>
    "cannot cast value of type " ++ source.label ++ " to " ++ target.label
  | lossyCast value target =>
    "cannot cast " ++ value ++ " to " ++ target.label ++ " without loss"
  | invalidTimestamp text => "cannot parse " ++ quoted text ++ " as a timestamp"
  | nonNumeric value type =>
    "value " ++ quoted value ++ " has non-numeric type " ++ type.label
  | isNull => "value is null"

namespace Value

instance : Inhabited Value := ⟨null⟩

def kind : Value → FieldType
  | null => .null
  | bool _ => .bool
  | integer kind _ _ => .integer kind
  | float32 _ => .float32
  | float64 _ => .float64
  | text _ => .text
  | instant _ => .timestamp

def isNull : Value → Bool
  | null => true
  | _ => false

/-- Whether a column of type `t` may hold the value. Dates are held as instants and custom fields
as texts; nothing conforms to an unknown type. -/
def conformsTo (v : Value) (t : FieldType) : Bool :=
  match v, t with
  | _, .unknown => false
  | instant _, .date => true
  | text _, .custom => true
  | v, t => v.kind == t

def asBool? : Value → Option Bool
  | bool b => some b
  | _ => none

def epochSeconds? : Value → Option Int
  | instant t => some t.seconds
  | _ => none

def ofInt? (kind : IntegerKind) (n : Int) : Option Value :=
  if admitted : kind.Admits n then some (integer kind n admitted) else none

/-- How a cell is written out: a boolean as `1` or `0`, null as nothing. -/
def toText : Value → String
  | null => ""
  | bool b => if b then "1" else "0"
  | integer _ n _ => intText n
  | float32 x => x.text .plain
  | float64 x => x.text .plain
  | text s => s
  | instant t => t.text

def toDouble : Value → Except TypeError Binary64
  | integer _ n _ => .ok (.ofInt n)
  | float32 x => .ok x.convert
  | float64 x => .ok x
  | null => .error .isNull
  | v => .error (.nonNumeric v.toText v.kind)

/-- Compares two values of one kind; instants by their seconds. `none` is the answer for a pair
with not-a-number. -/
def order (a b : Value) : Except TypeError (Option Ordering) :=
  match a, b with
  | bool x, bool y => .ok (some (compare x y))
  | integer j x _, integer k y _ =>
    if j = k then .ok (some (compare x y)) else .error (.incomparable a.kind b.kind)
  | float32 x, float32 y => .ok (x.order y)
  | float64 x, float64 y => .ok (x.order y)
  | text x, text y => .ok (some (compare x y))
  | instant x, instant y => .ok (some (compare x.seconds y.seconds))
  | _, _ => .error (.incomparable a.kind b.kind)

/-- Equality of what values mean: floating-point numbers numerically, all else exactly. -/
def equal (a b : Value) : Bool :=
  match a, b with
  | float32 x, float32 y => x.equal y
  | float64 x, float64 y => x.equal y
  | a, b => a == b

end Value

def commonType (allowed : List FieldType) (left right : FieldType) :
    Except TypeError FieldType :=
  let admitted (t : FieldType) : Bool := t != .unknown && allowed.contains t
  if !admitted left || !admitted right then .error (.notAllowed left right)
  else if left ≠ right then .error (.mismatch left right)
  else .ok left

end LayeredTable
