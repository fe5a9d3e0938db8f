import LayeredTable.Json.Basic
import LayeredTable.Json.Number

/-! Reading JSON texts. -/
namespace LayeredTable.Json

def isGap (c : Char) : Bool := c = ' ' || c = '\n' || c = '\t' || c = '\r'

def skipGaps (cs : List Char) : List Char := cs.dropWhile isGap

def takeString : List Char → Option (List Char × List Char)
  | [] => none
  | '"' :: rest => some ([], rest)
  | '\\' :: 'u' :: a :: b :: c :: d :: rest => do
    let _ ← hexWord? a b c d
    let (spelling, rest) ← takeString rest
    return ('\\' :: 'u' :: a :: b :: c :: d :: spelling, rest)
  | '\\' :: c :: rest => do
    let _ ← escaped? c
    let (spelling, rest) ← takeString rest
    return ('\\' :: c :: spelling, rest)
  | c :: rest =>
    if c.toNat < 32 || c = '\\' then none
    else (takeString rest).map fun (spelling, rest) => (c :: spelling, rest)

def inNumber (c : Char) : Bool :=
  Text.isDigit c || c = '-' || c = '+' || c = '.' || c = 'e' || c = 'E'

def takeNumber (cs : List Char) : Option (Json × List Char) := do
  let spelling := cs.takeWhile inNumber
  let _ ← JsonNumber.read spelling
  return (number spelling, cs.dropWhile inNumber)

def takeKey (cs : List Char) : Option (List Char × List Char) :=
  match skipGaps cs with
  | '"' :: rest => do
    let (key, rest) ← takeString rest
    match skipGaps rest with
    | ':' :: rest => return (key, rest)
    | _ => none
  | _ => none

mutual

def takeValue : (fuel : Nat) → List Char → Option (Json × List Char)
  | 0, _ => none
  | fuel + 1, cs =>
    match skipGaps cs with
    | 'n' :: 'u' :: 'l' :: 'l' :: rest => some (null, rest)
    | 't' :: 'r' :: 'u' :: 'e' :: rest => some (bool true, rest)
    | 'f' :: 'a' :: 'l' :: 's' :: 'e' :: rest => some (bool false, rest)
    | '"' :: rest => (takeString rest).map fun (spelling, rest) => (string spelling, rest)
    | '[' :: rest =>
      match skipGaps rest with
      | ']' :: rest => some (array [], rest)
      | rest => (takeItems fuel rest).map fun (items, rest) => (array items, rest)
    | '\x7b' :: rest =>
      match skipGaps rest with
      | '\x7d' :: rest => some (object [], rest)
      | rest => (takeMembers fuel rest).map fun (members, rest) => (object members, rest)
    | rest => takeNumber rest

def takeItems : (fuel : Nat) → List Char → Option (List Json × List Char)
  | 0, _ => none
  | fuel + 1, cs => do
    let (item, rest) ← takeValue fuel cs
    match skipGaps rest with
    | ',' :: rest =>
      let (items, rest) ← takeItems fuel rest
      return (item :: items, rest)
    | ']' :: rest => return ([item], rest)
    | _ => none

def takeMembers : (fuel : Nat) → List Char → Option (List (List Char × Json) × List Char)
  | 0, _ => none
  | fuel + 1, cs => do
    let (key, rest) ← takeKey cs
    let (value, rest) ← takeValue fuel rest
    match skipGaps rest with
    | ',' :: rest =>
      let (members, rest) ← takeMembers fuel rest
      return ((key, value) :: members, rest)
    | '\x7d' :: rest => return ([(key, value)], rest)
    | _ => none

end

/-- Reads a text that holds one value and gaps around it. Each step into a value or on to the next
takes a character. -/
def read (cs : List Char) : Option Json := do
  let (j, rest) ← takeValue (2 * cs.length + 1) cs
  if (skipGaps rest).isEmpty then return j else none

def readText (s : String) : Option Json := read s.toList

end LayeredTable.Json
