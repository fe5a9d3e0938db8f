import LayeredTable.OrderedMap
import LayeredTable.Text.Numeral

/-! Defects: problems in the data that are recorded and do not stop the work, the log that holds
them, and its tabular report. -/
namespace LayeredTable

structure Defect where
  column : Option UInt32 := none
  row : Option UInt32 := none
  message : String
  keys : OrderedMap String String := .empty
  deriving DecidableEq, Repr

namespace Defect

def of (message : String) : Defect := { message }

def atCell (d : Defect) (column row : UInt32) : Defect :=
  { d with column := some column, row := some row }

def atRow (d : Defect) (row : UInt32) : Defect := { d with row := some row }

def withKey (d : Defect) (name value : String) : Defect :=
  { d with keys := d.keys.insert name value }

end Defect

/-- Defects in the order they were logged. A log that is switched off drops new ones. -/
structure DefectLog where
  records : Array Defect := #[]
  enabled : Bool := true
  deriving DecidableEq, Repr, Inhabited

namespace DefectLog

def log (l : DefectLog) (d : Defect) : DefectLog :=
  if l.enabled then { l with records := l.records.push d } else l

def logAll (l : DefectLog) (ds : List Defect) : DefectLog := ds.foldl log l

def disable (l : DefectLog) : DefectLog := { l with enabled := false }

def count (l : DefectLog) : Nat := l.records.size

def isEmpty (l : DefectLog) : Bool := l.count == 0

def baseHeaders : List String := ["Column", "Row", "Message"]

/-- The base headers, then every key that is not among the headers yet, as first seen. -/
def headers (l : DefectLog) : List String :=
  (l.records.toList.flatMap fun d => d.keys.keys).foldl
    (fun hs key => if hs.contains key then hs else hs ++ [key]) baseHeaders

def coordinate (offset : UInt32) : Option UInt32 → String
  | none => ""
  | some n => Text.natText (n.toNat + offset.toNat)

def line (headers : List String) (offset : UInt32) (d : Defect) : List String :=
  d.keys.entries.foldl (fun cells entry => cells.set (headers.idxOf entry.1) entry.2)
    (coordinate offset d.column :: coordinate offset d.row :: d.message ::
      List.replicate (headers.length - 3) "")

/-- The headers and one line for each defect. Places are moved by `offset`. -/
def report (l : DefectLog) (offset : UInt32) : List (List String) :=
  l.headers :: l.records.toList.map (line l.headers offset)

end DefectLog
end LayeredTable
