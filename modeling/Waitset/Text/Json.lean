/-
# Waitset.Text.Json -- reading JSON

Records are written as JSON objects, and this is how others read them: by the grammar of RFC 8259, one
character after the other.  A reader is given a text and answers what it has read and the text behind
it.  Numbers are read exactly, as a mantissa and a power of ten.  An object
keeps all of its members in the order of the text, so that a name that occurs twice is seen.  Control
characters inside of strings are against the grammar; a lenient reader takes them as they are.
-/
import Waitset.Bytes
import Waitset.StringMap

namespace Waitset

/-- A JSON value. -/
inductive Json where
  | null
  | bool (b : Bool)
  /-- The number `mantissa * 10 ^ exponent`. -/
  | number (mantissa exponent : Int)
  | string (text : String)
  | array (items : List Json)
  | object (members : List (String × Json))
  deriving Repr

namespace Json

/-- Whether control characters may stand in strings as they are. -/
inductive Strictness where
  | strict
  | lenient
  deriving DecidableEq, Repr

/-! ## Blanks and words -/

def isBlank (c : Char) : Bool := c = ' ' || c = '\t' || c = '\n' || c = '\r'

def skipBlanks (text : List Char) : List Char := text.dropWhile isBlank

/-- Reads a word that stands for a value. -/
def readWord (word : String) (value : Json) (text : List Char) : Option (Json × List Char) :=
  if word.toList.isPrefixOf text then some (value, text.drop word.length) else none

/-! ## Numbers -/

/-- The digits in front of a text, and the text behind them. -/
def spanDigits : List Char → List Char × List Char
  | [] => ([], [])
  | c :: rest =>
    if c.isDigit then ((c :: (spanDigits rest).1), (spanDigits rest).2) else ([], c :: rest)

/-- Reads at least one digit. -/
def readDigits (text : List Char) : Option (List Char × List Char) :=
  match spanDigits text with
  | ([], _) => none
  | result => some result

/-- Reads the whole part of a number, which has no zeros in front. -/
def readWhole (text : List Char) : Option (List Char × List Char) :=
  match readDigits text with
  | some ('0' :: _ :: _, _) => none
  | result => result

/-- Reads the digits behind the point, if there is one. -/
def readFraction : List Char → Option (List Char × List Char)
  | '.' :: rest => readDigits rest
  | text => some ([], text)

/-- Reads the power of ten, if there is one. -/
def readExponent : List Char → Option (Int × List Char)
  | c :: rest =>
    if c = 'e' ∨ c = 'E' then
      match rest with
      | '+' :: rest => (readDigits rest).map fun (digits, rest) => (Nat.ofDigitChars 10 digits 0, rest)
      | '-' :: rest =>
        (readDigits rest).map fun (digits, rest) => (-(Nat.ofDigitChars 10 digits 0 : Int), rest)
      | rest => (readDigits rest).map fun (digits, rest) => (Nat.ofDigitChars 10 digits 0, rest)
    else some (0, c :: rest)
  | [] => some (0, [])

/-- Reads a number without a sign. -/
def readUnsigned (text : List Char) : Option ((Nat × Int) × List Char) := do
  let (whole, text) ← readWhole text
  let (fraction, text) ← readFraction text
  let (exponent, text) ← readExponent text
  return ((Nat.ofDigitChars 10 (whole ++ fraction) 0, exponent - fraction.length), text)

/-- Reads a number. -/
def readNumber : List Char → Option (Json × List Char)
  | '-' :: rest => (readUnsigned rest).map fun (n, rest) => (number (-(n.1 : Int)) n.2, rest)
  | text => (readUnsigned text).map fun (n, rest) => (number n.1 n.2, rest)

/-! ## Strings -/

/-- Reads the four hexadecimal digits of a code unit. -/
def readUnit : List Char → Option (Nat × List Char)
  | a :: b :: c :: d :: rest => do
    let a ← Bytes.digitValue? a
    let b ← Bytes.digitValue? b
    let c ← Bytes.digitValue? c
    let d ← Bytes.digitValue? d
    return (4096 * a + 256 * b + 16 * c + d, rest)
  | _ => none

/-- The character that a backslash and a letter stand for. -/
def escaped? (c : Char) : Option Char :=
  if c = '"' then some '"'
  else if c = '\\' then some '\\'
  else if c = '/' then some '/'
  else if c = 'b' then some (Char.ofNat 8)
  else if c = 'f' then some (Char.ofNat 12)
  else if c = 'n' then some '\n'
  else if c = 'r' then some '\r'
  else if c = 't' then some '\t'
  else none

/-- Reads what is behind a backslash: a letter, or one or two code units.  Half of a pair of code units
is no character. -/
def readEscape : List Char → Option (Char × List Char)
  | [] => none
  | c :: rest =>
    if c = 'u' then do
      let (unit, rest) ← readUnit rest
      if 0xd800 ≤ unit ∧ unit < 0xdc00 then
        match rest with
        | '\\' :: 'u' :: rest => do
          let (low, rest) ← readUnit rest
          if 0xdc00 ≤ low ∧ low < 0xe000 then
            return (Char.ofNat (0x10000 + 1024 * (unit - 0xd800) + (low - 0xdc00)), rest)
          else none
        | _ => none
      else if 0xdc00 ≤ unit ∧ unit < 0xe000 then none
      else return (Char.ofNat unit, rest)
    else (escaped? c).map fun c => (c, rest)

/-- Reads a string behind its opening quotation mark.  No string has more characters than its text. -/
def readChars (strictness : Strictness) : Nat → List Char → Option (List Char × List Char)
  | 0, _ => none
  | _ + 1, [] => none
  | fuel + 1, c :: rest =>
    if c = '"' then some ([], rest)
    else if c = '\\' then do
      let (d, rest) ← readEscape rest
      let (chars, rest) ← readChars strictness fuel rest
      return (d :: chars, rest)
    else if c.toNat < 32 ∧ strictness = .strict then none
    else do
      let (chars, rest) ← readChars strictness fuel rest
      return (c :: chars, rest)

def readString (strictness : Strictness) (text : List Char) : Option (String × List Char) :=
  (readChars strictness text.length text).map fun (chars, rest) => (String.ofList chars, rest)

/-! ## Values -/

/-- Reads elements, separated by commas, up to the closing character. -/
def readMany {α : Type} (element : List Char → Option (α × List Char)) (close : Char) :
    Nat → List Char → Option (List α × List Char)
  | 0, _ => none
  | fuel + 1, text => do
    let (a, rest) ← element text
    match skipBlanks rest with
    | [] => none
    | c :: rest =>
      if c = close then return ([a], rest)
      else if c = ',' then do
        let (as, rest) ← readMany element close fuel rest
        return (a :: as, rest)
      else none

/-- Reads what stands between brackets: nothing, or elements. -/
def readList {α : Type} (element : List Char → Option (α × List Char)) (close : Char) (text : List Char) :
    Option (List α × List Char) :=
  match skipBlanks text with
  | [] => none
  | c :: rest => if c = close then some ([], rest) else readMany element close text.length text

/-- Reads a member of an object. -/
def readMember (strictness : Strictness) (value : List Char → Option (Json × List Char)) (text : List Char) :
    Option ((String × Json) × List Char) :=
  match skipBlanks text with
  | '"' :: rest => do
    let (name, rest) ← readString strictness rest
    match skipBlanks rest with
    | ':' :: rest => do
      let (v, rest) ← value rest
      return ((name, v), rest)
    | _ => none
  | _ => none

/-- Reads a value.  No value is nested deeper than its text is long. -/
def readValue (strictness : Strictness) : Nat → List Char → Option (Json × List Char)
  | 0, _ => none
  | fuel + 1, text =>
    match skipBlanks text with
    | [] => none
    | c :: rest =>
      if c = '"' then (readString strictness rest).map fun (s, rest) => (string s, rest)
      else if c = '\x7b' then
        (readList (readMember strictness (readValue strictness fuel)) '\x7d' rest).map
          fun (members, rest) => (object members, rest)
      else if c = '[' then
        (readList (readValue strictness fuel) ']' rest).map fun (items, rest) => (array items, rest)
      else if c = 't' then readWord "true" (bool true) (c :: rest)
      else if c = 'f' then readWord "false" (bool false) (c :: rest)
      else if c = 'n' then readWord "null" null (c :: rest)
      else readNumber (c :: rest)

/-- The value that a text is, as a whole. -/
def parse (strictness : Strictness) (text : String) : Option Json :=
  match readValue strictness (text.length + 1) text.toList with
  | some (value, rest) => if (skipBlanks rest).isEmpty then some value else none
  | none => none

example : parse .strict "[-1.50e2, \"\\u00e9\", true]" =
    some (.array [.number (-150) 0, .string "é", .bool true]) := by rfl

example : parse .strict "\"\n\"" = none := by rfl
example : parse .lenient "\"\n\"" = some (.string "\n") := by rfl

/-! ## Looking into values -/

/-- The first member of a name. -/
def member? (name : String) : Json → Option Json
  | object members => StringMap.lookup? name members
  | _ => none

/-- A member that may be missing, but that is of the right kind if it is there. -/
def optional? {α : Type} (kind : Json → Option α) : Option Json → Option (Option α)
  | none => some none
  | some value => (kind value).map some

def integer? : Json → Option Int
  | number n 0 => some n
  | _ => none

def natural? (value : Json) : Option Nat := value.integer?.bind Int.toNat?

def text? : Json → Option String
  | string text => some text
  | _ => none

/-- The names and texts of an object that has only texts. -/
def texts? : Json → Option (List (String × String))
  | object members => members.mapM fun member => member.2.text?.map fun text => (member.1, text)
  | _ => none

theorem optional?_map {α β : Type} {kind : Json → Option β} {value : α → Json} {b : α → β}
    (h : ∀ a, kind (value a) = some (b a)) (o : Option α) :
    optional? kind (o.map value) = some (o.map b) := by
  cases o with
  | none => rfl
  | some a => simp [optional?, h a]

@[simp] theorem integer?_number (n : Int) : (number n 0).integer? = some n := rfl

@[simp] theorem natural?_number (n : Nat) : (number n 0).natural? = some n := rfl

@[simp] theorem text?_string (text : String) : (string text).text? = some text := rfl

@[simp] theorem texts?_object (pairs : List (String × String)) :
    (object (pairs.map fun pair => (pair.1, string pair.2))).texts? = some pairs := by
  induction pairs with
  | nil => rfl
  | cons pair pairs ih =>
    simp only [texts?] at ih
    simp [texts?, ih]

end Json

end Waitset
