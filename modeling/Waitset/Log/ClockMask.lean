/-
# Waitset.Log.ClockMask -- a log text without its clock readings

Every line of a log starts with a clock reading, in brackets or as the first field of a JSON object.
Two runs of one program differ in these readings and agree in all else, so they are compared with
the readings replaced by the letter `T`.
-/

namespace Waitset.Log

/-- Replaces the digits at the start of a text by `T`, if there are any. -/
def maskDigits (text : List Char) : List Char :=
  if (text.takeWhile Char.isDigit).isEmpty then text else 'T' :: text.dropWhile Char.isDigit

/-- The two ways in which a line leads up to its clock reading. -/
def readingPrefixes : List (List Char) := ["[".toList, "\x7b\"timestamp\":".toList]

/-- Replaces the clock reading at the start of a line. -/
def maskLine (line : List Char) : List Char :=
  match readingPrefixes.find? fun start => start.isPrefixOf line with
  | some start => start ++ maskDigits (line.drop start.length)
  | none => line

/-- Replaces the clock reading at the start of every line. -/
def maskReadings (text : String) : String :=
  String.ofList (List.intercalate ['\n'] ((text.toList.splitOn '\n').map maskLine))

end Waitset.Log
