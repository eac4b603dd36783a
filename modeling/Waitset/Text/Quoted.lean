/-
# Waitset.Text.Quoted -- texts between quotation marks

Descriptions of values show a text between double quotation marks.  A quotation mark, a backslash,
the common controls and every code point without a glyph are written as escapes, so the text that is
meant can be read off.
-/
import Waitset.Text.Printable

namespace Waitset.Text

/-- Lower-case hexadecimal digits of a number, without leading zeros. -/
def hexDigits (n : Nat) : List Char := Nat.toDigits 16 n

/-- How a character is written between quotation marks. -/
def escape (c : Char) : List Char :=
  match c with
  | '\x00' => ['\\', '0']
  | '\t' => ['\\', 't']
  | '\r' => ['\\', 'r']
  | '\n' => ['\\', 'n']
  | '"' => ['\\', '"']
  | '\\' => ['\\', '\\']
  | c =>
    if isPrintable c then [c]
    else ['\\', 'u', '\x7b'] ++ hexDigits c.toNat ++ ['\x7d']

/-- A text between quotation marks. -/
def quote (text : String) : String :=
  String.ofList ('"' :: text.toList.flatMap escape ++ ['"'])

/-- An optional value in a description. -/
def optional {α : Type} (render : α → String) : Option α → String
  | none => "None"
  | some a => "Some(" ++ render a ++ ")"

/-- The description of a record: its name and its fields in order. -/
def record (name : String) (fields : List (String × String)) : String :=
  name ++ " \x7b " ++ ", ".intercalate (fields.map fun field => field.1 ++ ": " ++ field.2) ++ " \x7d"

/-- The description of a record of which some fields are not shown. -/
def partialRecord (name : String) (fields : List (String × String)) : String :=
  name ++ " \x7b " ++
    ", ".intercalate ((fields.map fun field => field.1 ++ ": " ++ field.2) ++ [".."]) ++ " \x7d"

end Waitset.Text
