import LayeredTable.Text.Quoted

/-! JSON texts as trees that keep strings and numbers as they are spelled. Whether a spelling
denotes anything is asked only of what is used, so a member that is passed over may hold a number
or a surrogate that nothing could represent. -/
namespace LayeredTable

inductive Json
  | null
  | bool (b : Bool)
  | number (spelling : List Char)
  /-- What stands between the quotes. -/
  | string (spelling : List Char)
  | array (items : List Json)
  | object (members : List (List Char × Json))
  deriving Repr, Inhabited

namespace Json

open Text

def hexValue? (c : Char) : Option Nat :=
  if '0' ≤ c && c ≤ '9' then some (c.toNat - 48)
  else if 'a' ≤ c && c ≤ 'f' then some (c.toNat - 87)
  else if 'A' ≤ c && c ≤ 'F' then some (c.toNat - 55)
  else none

def hexWord? (a b c d : Char) : Option Nat := do
  let a ← hexValue? a
  let b ← hexValue? b
  let c ← hexValue? c
  let d ← hexValue? d
  return a * 4096 + b * 256 + c * 16 + d

def escaped? (c : Char) : Option Char :=
  if c = '"' || c = '\\' || c = '/' then some c
  else if c = 'b' then some '\x08'
  else if c = 'f' then some '\x0c'
  else if c = 'n' then some '\n'
  else if c = 'r' then some '\r'
  else if c = 't' then some '\t'
  else none

/-- The text that a spelling denotes. Surrogates must come in pairs. -/
def textOf? : List Char → Option (List Char)
  | [] => some []
  | '\\' :: 'u' :: a :: b :: c :: d :: rest => do
    let n ← hexWord? a b c d
    if n < 0xD800 || 0xDFFF < n then return .ofNat n :: (← textOf? rest)
    else if 0xDC00 ≤ n then none
    else
      match rest with
      | '\\' :: 'u' :: a :: b :: c :: d :: rest =>
        let m ← hexWord? a b c d
        if 0xDC00 ≤ m && m ≤ 0xDFFF then
          return .ofNat (0x10000 + (n - 0xD800) * 0x400 + (m - 0xDC00)) :: (← textOf? rest)
        else none
      | _ => none
  | '\\' :: c :: rest => do return (← escaped? c) :: (← textOf? rest)
  | c :: rest => (textOf? rest).map (c :: ·)

/-- The shortest spelling of a character: control characters, quotes and backslashes are escaped. -/
def escape (c : Char) : List Char :=
  if c = '"' then ['\\', '"']
  else if c = '\\' then ['\\', '\\']
  else if c = '\x08' then ['\\', 'b']
  else if c = '\x0c' then ['\\', 'f']
  else if c = '\n' then ['\\', 'n']
  else if c = '\r' then ['\\', 'r']
  else if c = '\t' then ['\\', 't']
  else if c.toNat < 32 then
    ['\\', 'u', '0', '0', hexDigit (c.toNat / 16), hexDigit (c.toNat % 16)]
  else [c]

def spell (s : String) : List Char := s.toList.flatMap escape

def ofText (s : String) : Json := string (spell s)

def ofNat (n : Nat) : Json := number (digits n)

def ofInt (n : Int) : Json := number (intChars n)

def ofMembers (members : List (String × Json)) : Json :=
  object (members.map fun member => (spell member.1, member.2))

def quote (spelling : List Char) : List Char := '"' :: spelling ++ ['"']

mutual

def chars : Json → List Char
  | null => ['n', 'u', 'l', 'l']
  | bool true => ['t', 'r', 'u', 'e']
  | bool false => ['f', 'a', 'l', 's', 'e']
  | number spelling => spelling
  | string spelling => quote spelling
  | array items => '[' :: itemChars items
  | object members => '\x7b' :: memberChars members

/-- The items of an array and its closing bracket. -/
def itemChars : List Json → List Char
  | [] => [']']
  | [item] => item.chars ++ [']']
  | item :: items => item.chars ++ ',' :: itemChars items

def memberChars : List (List Char × Json) → List Char
  | [] => ['\x7d']
  | [(key, value)] => quote key ++ ':' :: value.chars ++ ['\x7d']
  | (key, value) :: members => quote key ++ ':' :: value.chars ++ ',' :: memberChars members

end

def text (j : Json) : String := .ofList j.chars

end Json
end LayeredTable
