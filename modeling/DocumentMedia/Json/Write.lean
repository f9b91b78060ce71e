import DocumentMedia.Json.Basic

/-! # Writing JSON

Each item of a list and each field of an object stands on a line of its own, indented by two spaces
a level. Texts are ASCII: other characters are written as the numbers of their UTF-16 units.
-/
namespace DocumentMedia.JsonValue

def hexDigit (n : Nat) : Char := Nat.digitChar (n % 16)

def unitEscape (n : Nat) : List Char :=
  ['\\', 'u', hexDigit (n / 4096), hexDigit (n / 256), hexDigit (n / 16), hexDigit n]

/-- The letters that stand for characters behind a backslash. -/
def shortEscapes : List (Char × Char) :=
  [('"', '"'), ('\\', '\\'), ('n', '\n'), ('r', '\r'), ('t', '\t'), ('b', '\x08'), ('f', '\x0c')]

def escape (c : Char) : List Char :=
  match shortEscapes.find? (·.2 = c) with
  | some (letter, _) => ['\\', letter]
  | none =>
    let n := c.toNat
    if 32 ≤ n && n ≤ 126 then [c]
    else if n < 0x10000 then unitEscape n
    else unitEscape (0xD800 + (n - 0x10000) / 1024) ++ unitEscape (0xDC00 + (n - 0x10000) % 1024)

def quote (s : String) : List Char := '"' :: s.toList.flatMap escape ++ ['"']

def indent (depth : Nat) : List Char := '\n' :: List.replicate (2 * depth) ' '

mutual

def write (depth : Nat) : JsonValue → List Char
  | .null => "null".toList
  | .bool b => if b then "true".toList else "false".toList
  | .number digits => digits
  | .text s => quote s
  | .brokenText => quote ""
  | .list [] => "[]".toList
  | .list (v :: vs) =>
    '[' :: indent (depth + 1) ++ write (depth + 1) v ++ writeItems (depth + 1) vs ++
      indent depth ++ [']']
  | .object [] => ['\x7b', '\x7d']
  | .object ((k, v) :: fs) =>
    '\x7b' :: indent (depth + 1) ++ quote k ++ ": ".toList ++ write (depth + 1) v ++
      writeFields (depth + 1) fs ++ indent depth ++ ['\x7d']

def writeItems (depth : Nat) : List JsonValue → List Char
  | [] => []
  | v :: vs => ',' :: indent depth ++ write depth v ++ writeItems depth vs

def writeFields (depth : Nat) : List (String × JsonValue) → List Char
  | [] => []
  | (k, v) :: fs =>
    ',' :: indent depth ++ quote k ++ ": ".toList ++ write depth v ++ writeFields depth fs

end

def toText (v : JsonValue) : String := String.ofList (write 0 v)

end DocumentMedia.JsonValue
