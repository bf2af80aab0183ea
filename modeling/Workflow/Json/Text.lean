import Workflow.Json.Basic
import Workflow.Number.Layout
/-!
# Workflow — values as JSON text

JSON text is written without blanks, members in their own order, and with no
more escapes than the format asks for.
-/

namespace Workflow

namespace Json

/-- The hexadecimal digits of a number, at least `width` of them. -/
def hexText (width n : Nat) : List Char :=
  let digits := Nat.toDigits 16 n
  List.replicate (width - digits.length) '0' ++ digits

/-- A character inside a string. -/
def escaped (c : Char) : List Char :=
  if c = '"' then ['\\', '"']
  else if c = '\\' then ['\\', '\\']
  else if c = '\n' then ['\\', 'n']
  else if c = '\r' then ['\\', 'r']
  else if c = '\t' then ['\\', 't']
  else if c = '\x08' then ['\\', 'b']
  else if c = '\x0c' then ['\\', 'f']
  else if c.toNat < 0x20 then '\\' :: 'u' :: hexText 4 c.toNat
  else [c]

/-- A string in its quotes. -/
def quoted (s : String) : List Char :=
  '"' :: (s.toList.flatMap escaped ++ ['"'])

/-- An integer in decimal. -/
def decimal (n : Int) : List Char :=
  (if n < 0 then ['-'] else []) ++ Nat.toDigits 10 n.natAbs

mutual

/-- A value as JSON text. -/
def text : Json → List Char
  | null => ['n', 'u', 'l', 'l']
  | bool true => ['t', 'r', 'u', 'e']
  | bool false => ['f', 'a', 'l', 's', 'e']
  | int n => decimal n
  | float x => Layout.json.text x
  | str s => quoted s
  | arr [] => ['[', ']']
  | arr (v :: rest) => '[' :: (text v ++ itemsText rest)
  | obj [] => ['{', '}']
  | obj ((key, v) :: rest) => '{' :: (quoted key ++ ':' :: (text v ++ membersText rest))

/-- The elements after the first, and the closing bracket. -/
def itemsText : List Json → List Char
  | [] => [']']
  | v :: rest => ',' :: (text v ++ itemsText rest)

/-- The members after the first, and the closing brace. -/
def membersText : List (String × Json) → List Char
  | [] => ['}']
  | (key, v) :: rest => ',' :: (quoted key ++ ':' :: (text v ++ membersText rest))

end

/-- A value as a JSON text. -/
def render (v : Json) : String :=
  String.ofList v.text

end Json

end Workflow
