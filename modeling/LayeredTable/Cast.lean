import LayeredTable.Value

/-! Casting a value to what a declared type holds. A cast keeps the value or is refused; only
between the floating-point widths may it round. -/
namespace LayeredTable

open Text

def readInstant (s : String) : Except TypeError Instant :=
  let cs := trim s.toList
  match Instant.read cs with
  | some t => .ok t
  | none => .error (.invalidTimestamp (.ofList cs))

namespace Value

def boolOfText? (cs : List Char) : Option Bool :=
  if ["1", "true", "TRUE", "True"].any fun s => s.toList == cs then some true
  else if ["0", "false", "FALSE", "False"].any fun s => s.toList == cs then some false
  else none

/-- The double nearest to `10 ^ 38`: beyond it a number counts as no integer. -/
def integralLimit : Nat := 99999999999999997748809823456034029568

/-- Whether a signed word of 128 bits holds the integer; a text denotes no other. -/
def isWide (n : Int) : Bool :=
  -170141183460469231731687303715884105728 ≤ n && n ≤ 170141183460469231731687303715884105727

def integral? : Value → Option Int
  | integer _ n _ => some n
  | float32 x => x.toInt?.filter fun n => n.natAbs ≤ integralLimit
  | float64 x => x.toInt?.filter fun n => n.natAbs ≤ integralLimit
  | text s => (readInt (trim s.toList)).filter isWide
  | _ => none

def cast (v : Value) (target : FieldType) : Except TypeError Value :=
  if v.isNull || v.conformsTo target then .ok v
  else
    match target, v with
    | .null, _ => .ok null
    | .bool, text s =>
      match boolOfText? (trim s.toList) with
      | some b => .ok (bool b)
      | none => .error (.lossyCast v.toText target)
    | .integer kind, _ =>
      match v.integral? with
      | none => .error (.invalidCast v.kind target)
      | some n =>
        match ofInt? kind n with
        | some w => .ok w
        | none => .error (.lossyCast v.toText target)
    | .float32, _ => v.toDouble.map fun x => float32 x.convert
    | .float64, _ => v.toDouble.map float64
    | .timestamp, text s | .date, text s => (readInstant s).map instant
    | _, _ => .error (.invalidCast v.kind target)

end Value
end LayeredTable
