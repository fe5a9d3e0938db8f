import LayeredTable.CellId
import LayeredTable.Defect
import LayeredTable.Json.Read
import LayeredTable.Policy
import LayeredTable.Value

/-! Interchange forms of ids, types, values, defects and policies. A record is an object with its
members in order; it is also read from an array of all its members, and of an object unknown
members are passed over. A choice is its name, or an object of its name and null. -/
namespace LayeredTable

namespace Json

def toText? : Json → Option String
  | string spelling => (textOf? spelling).map .ofList
  | _ => none

def toBool? : Json → Option Bool
  | bool b => some b
  | _ => none

def toInt? (least greatest : Int) : Json → Option Int
  | number spelling => do
    let n ← (← JsonNumber.read spelling).toInt?
    if least ≤ n ∧ n ≤ greatest then return n else none
  | _ => none

def toUInt32? (j : Json) : Option UInt32 :=
  (j.toInt? 0 4294967295).map fun n => .ofNat n.toNat

def toUInt64? (j : Json) : Option UInt64 :=
  (j.toInt? 0 18446744073709551615).map fun n => .ofNat n.toNat

def isWord (n : Int) : Bool := IntegerKind.int64.least ≤ n && n ≤ IntegerKind.uint64.greatest

/-- The double nearest to an integer, or the one that scaling gives. -/
def toDouble? : Json → Option Binary64
  | number spelling => do
    let n ← JsonNumber.read spelling
    match n.toInt?.filter isWord with
    | some i => return .ofInt i
    | none => n.toDouble?
  | _ => none

/-- A single is rounded from an integer at once, from another number by way of a double. -/
def toSingle? : Json → Option Binary32
  | number spelling => do
    let n ← JsonNumber.read spelling
    match n.toInt?.filter isWord with
    | some i => return .ofInt i
    | none => n.toDouble?.map .convert
  | _ => none

def toOption? (read : Json → Option α) : Json → Option (Option α)
  | null => some none
  | j => (read j).map some

def toName? : Json → Option String
  | string spelling => (textOf? spelling).map .ofList
  | object [(key, null)] => (textOf? key).map .ofList
  | _ => none

def namedMembers? (members : List (List Char × Json)) : Option (List (String × Json)) :=
  members.mapM fun member => do return (.ofList (← textOf? member.1), member.2)

/-- The values of a record's fields, in the order of `names`. An object may lack some and have
others, but none twice; an array has all. -/
def fields? (names : List String) : Json → Option (List (Option Json))
  | array items => if items.length = names.length then some (items.map some) else none
  | object members => do
    let members ← namedMembers? members
    names.mapM fun name =>
      match members.filter fun member => member.1 == name with
      | [] => some none
      | [member] => some (some member.2)
      | _ => none
  | _ => none

def onlyHas (names : List String) : Json → Bool
  | object members =>
    (namedMembers? members).any fun members => members.all fun member => names.contains member.1
  | _ => true

def optional? (read : Json → Option α) : Option Json → Option (Option α)
  | none => some none
  | some j => j.toOption? read

def ofOption (write : α → Json) : Option α → Json
  | none => null
  | some a => write a

def ofBinary (x : Binary f) : Json :=
  if x.isFinite then number (x.chars (.interchange f)) else null

end Json

open Json

namespace CellId

def toJson (id : CellId) : Json := .ofNat id.packed.toNat

def ofJson? (j : Json) : Option CellId := j.toUInt64?.map mk

end CellId

namespace FieldType

def toJson (t : FieldType) : Json := .ofText t.name

def ofJson? (j : Json) : Option FieldType := j.toName?.bind ofName?

end FieldType

namespace Nullable

def toJson (n : Nullable) : Json :=
  .ofMembers [("allowed", .bool n.allowed), ("replace_with", .ofOption .ofText n.replacement)]

def ofJson? (j : Json) : Option Nullable := do
  match ← j.fields? ["allowed", "replace_with"] with
  | [some allowed, replacement] =>
    return { allowed := ← allowed.toBool?, replacement := ← optional? toText? replacement }
  | _ => none

end Nullable

namespace Value

def content? : Value → Option Json
  | null => none
  | bool b => some (.bool b)
  | integer _ n _ => some (.ofInt n)
  | float32 x => some (.ofBinary x)
  | float64 x => some (.ofBinary x)
  | text s => some (.ofText s)
  | instant t => some (.ofText t.interchangeText)

def toJson (v : Value) : Json :=
  .ofMembers (("kind", v.kind.toJson) ::
    match v.content? with
    | none => []
    | some content => [("value", content)])

def ofContent? : FieldType → Json → Option Value
  | .null, .null => some null
  | .bool, j => j.toBool?.map bool
  | .integer kind, j => (j.toInt? kind.least kind.greatest).bind (ofInt? kind)
  | .float32, j => j.toSingle?.map float32
  | .float64, j => j.toDouble?.map float64
  | .text, j => j.toText?.map text
  | .timestamp, j => (j.toText?.bind fun s => Instant.readInterchange s.toList).map instant
  | _, _ => none

/-- The kind of a value. In an array only a text names it, in an object any choice does. -/
def kindOf? (j kind : Json) : Option FieldType :=
  match j with
  | array _ => kind.toText?.bind FieldType.ofName?
  | _ => FieldType.ofJson? kind

def ofJson? (j : Json) : Option Value := do
  match ← j.fields? ["kind", "value"] with
  | [some kind, content] =>
    let kind ← kindOf? j kind
    match content with
    | some content => ofContent? kind content
    | none => if kind = .null then return null else none
  | _ => none

end Value

namespace Defect

def toJson (d : Defect) : Json :=
  .ofMembers [("column", .ofOption (.ofNat ·.toNat) d.column),
    ("row", .ofOption (.ofNat ·.toNat) d.row), ("message", .ofText d.message),
    ("keys", .ofMembers (d.keys.entries.map fun entry => (entry.1, .ofText entry.2)))]

/-- The keys of a defect; of members with one key the last counts. -/
def keysOf? : Json → Option (OrderedMap String String)
  | .object members => do
    let members ← namedMembers? members
    return .ofList (← members.mapM fun member => do return (member.1, ← member.2.toText?))
  | _ => none

def ofJson? (j : Json) : Option Defect := do
  match ← j.fields? ["column", "row", "message", "keys"] with
  | [column, row, some message, some keys] =>
    return {
      column := ← optional? toUInt32? column
      row := ← optional? toUInt32? row
      message := ← message.toText?
      keys := ← keysOf? keys }
  | _ => none

end Defect

namespace Duration

def toJson (d : Duration) : Json :=
  .ofMembers [("secs", .ofNat d.seconds.toNat), ("nanos", .ofNat d.nanos.toNat)]

def ofJson? (j : Json) : Option Duration := do
  let names := ["secs", "nanos"]
  if !j.onlyHas names then none
  else
    match ← j.fields? names with
    | [some seconds, some nanos] => of? (← seconds.toUInt64?) (← nanos.toUInt32?)
    | _ => none

end Duration

namespace Mode

def name : Mode → String
  | strict => "strict"
  | hardened => "hardened"

def toJson (m : Mode) : Json := .ofText m.name

def ofJson? (j : Json) : Option Mode := do
  let name ← j.toName?
  [strict, hardened].find? fun m => m.name == name

end Mode

namespace Policy

def toJson (p : Policy) : Json :=
  .ofMembers [("mode", p.mode.toJson), ("deadline", .ofOption Duration.toJson p.deadline),
    ("record_row_defects", .bool p.recordRowDefects)]

def ofJson? (j : Json) : Option Policy := do
  match ← j.fields? ["mode", "deadline", "record_row_defects"] with
  | [some mode, deadline, some recordRowDefects] =>
    return {
      mode := ← Mode.ofJson? mode
      deadline := ← optional? Duration.ofJson? deadline
      recordRowDefects := ← recordRowDefects.toBool? }
  | _ => none

end Policy
end LayeredTable
