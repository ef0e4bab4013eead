import LoadTiers.Json

/-! # Printed JSON

JSON text with each item on a line of its own, indented by two blanks for each level.
-/

namespace LoadTiers.Json

/-- How a character stands between quotes: control characters, quotes and backslashes escaped. -/
def escape (c : Char) : List Char :=
  match c with
  | '"' => ['\\', '"']
  | '\\' => ['\\', '\\']
  | '\n' => ['\\', 'n']
  | '\r' => ['\\', 'r']
  | '\t' => ['\\', 't']
  | '\x08' => ['\\', 'b']
  | '\x0c' => ['\\', 'f']
  | c =>
    if c.toNat < 0x20 then
      ['\\', 'u', '0', '0', Nat.digitChar (c.toNat / 16), Nat.digitChar (c.toNat % 16)]
    else [c]

def quote (s : String) : String := .ofList ('"' :: s.toList.flatMap escape ++ ['"'])

def newline (level : Nat) : String := .ofList ('\n' :: List.replicate (2 * level) ' ')

def decimalText (mantissa : Int) (places : Nat) : String :=
  let digits := Nat.toDigits 10 mantissa.natAbs
  let padded := List.replicate (places + 1 - digits.length) '0' ++ digits
  let whole := padded.take (padded.length - places)
  let part := padded.drop (padded.length - places)
  .ofList ((if mantissa < 0 then ['-'] else []) ++ whole ++ '.' :: part)

mutual

def print (level : Nat) : Json → String
  | null => "null"
  | bool b => toString b
  | int n => toString n
  | decimal mantissa places => decimalText mantissa places
  | str s => quote s
  | arr [] => "[]"
  | arr (j :: js) =>
    "[" ++ newline (level + 1) ++ print (level + 1) j ++ printItems (level + 1) js ++
      newline level ++ "]"
  | obj [] => "\x7b\x7d"
  | obj ((k, j) :: ms) =>
    "\x7b" ++ newline (level + 1) ++ quote k ++ ": " ++ print (level + 1) j ++
      printMembers (level + 1) ms ++ newline level ++ "\x7d"

def printItems (level : Nat) : List Json → String
  | [] => ""
  | j :: js => "," ++ newline level ++ print level j ++ printItems level js

def printMembers (level : Nat) : List (String × Json) → String
  | [] => ""
  | (k, j) :: ms =>
    "," ++ newline level ++ quote k ++ ": " ++ print level j ++ printMembers level ms

end

def pretty (j : Json) : String := print 0 j

end LoadTiers.Json
