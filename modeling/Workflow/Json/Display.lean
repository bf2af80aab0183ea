import Workflow.Json.Text
import Workflow.Text.Printable
/-!
# Workflow — values in messages

A message shows a text as it is and any other value in a notation of its
own, in which texts inside lists and objects are quoted.
-/

namespace Workflow

namespace Json

/-- The quote of a text: single, unless that would need escapes and the
double quote would not. -/
def quoteOf (cs : List Char) : Char :=
  if cs.contains '\'' && !cs.contains '"' then '"' else '\''

/-- A character between two of the quotes `quote`: the quote and the
backslash are escaped, and what does not print is given by number. -/
def shownChar (quote c : Char) : List Char :=
  if c = quote ∨ c = '\\' then ['\\', c]
  else if c = '\t' then ['\\', 't']
  else if c = '\n' then ['\\', 'n']
  else if c = '\r' then ['\\', 'r']
  else if Text.isPrintable c then [c]
  else if c.toNat < 0x100 then '\\' :: 'x' :: hexText 2 c.toNat
  else if c.toNat < 0x10000 then '\\' :: 'u' :: hexText 4 c.toNat
  else '\\' :: 'U' :: hexText 8 c.toNat

/-- A text in quotes. -/
def shownText (s : String) : List Char :=
  let cs := s.toList
  let quote := quoteOf cs
  quote :: (cs.flatMap (shownChar quote) ++ [quote])

mutual

/-- A value in the notation of messages, texts quoted. -/
def shown : Json → List Char
  | null => "None".toList
  | bool true => "True".toList
  | bool false => "False".toList
  | int n => decimal n
  | float x => Layout.message.text x
  | str s => shownText s
  | arr [] => ['[', ']']
  | arr (v :: rest) => '[' :: (shown v ++ shownItems rest)
  | obj [] => ['{', '}']
  | obj ((key, v) :: rest) =>
    '{' :: (shownText key ++ ':' :: ' ' :: (shown v ++ shownMembers rest))

/-- The elements after the first, and the closing bracket. -/
def shownItems : List Json → List Char
  | [] => [']']
  | v :: rest => ',' :: ' ' :: (shown v ++ shownItems rest)

/-- The members after the first, and the closing brace. -/
def shownMembers : List (String × Json) → List Char
  | [] => ['}']
  | (key, v) :: rest =>
    ',' :: ' ' :: (shownText key ++ ':' :: ' ' :: (shown v ++ shownMembers rest))

end

/-- A value in a message: a text is itself. -/
def display : Json → String
  | str s => s
  | v => String.ofList v.shown

/-- What a kind of value is called where no value may stand. -/
def Kind.displayName : Kind → String
  | .null => "NoneType"
  | .bool => "bool"
  | .int => "int"
  | .float => "float"
  | .str => "str"
  | .array => "list"
  | .object => "dict"

end Json

end Workflow
