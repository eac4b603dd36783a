/-
# Waitset.Log.Record -- one log record, as a line and as a JSON object

A record is written in two ways.  The line joins its parts by spaces and is meant for people.  The
JSON object has a fixed order of keys, and of its texts exactly the quotation mark and the backslash
are escaped.  Metadata is a map, written in the order of its keys' bytes.
-/
import Waitset.Log.Level
import Waitset.Log.Moment
import Waitset.StringMap

namespace Waitset.Log

/-- One log record. -/
structure Record where
  moment : Moment := {}
  level : Level
  /-- Who wrote the record. -/
  component : String
  /-- The operation that the record is about. -/
  operation : Option Nat := none
  /-- The descriptor that the record is about. -/
  descriptor : Option Int := none
  message : String
  /-- Additional pairs of key and value. -/
  metadata : StringMap String := .empty
  duration : Option Duration := none
  deriving DecidableEq, Repr

namespace Record

/-! ## The line -/

/-- One pair of metadata in a line. -/
def pairText (pair : String × String) : String := pair.1 ++ "=" ++ pair.2

/-- The parts of the line, in order. -/
def parts (r : Record) : List String :=
  ["[" ++ toString r.moment.millis ++ "]", r.level.name, r.component] ++
    (r.operation.map fun n => "iop:" ++ toString n).toList ++
    (r.descriptor.map fun n => "fd:" ++ toString n).toList ++
    [r.message] ++
    (r.duration.map fun d => "duration:" ++ toString d.micros ++ "us").toList ++
    (if r.metadata.isEmpty then []
     else ["\x7b" ++ ",".intercalate (r.metadata.entries.map pairText) ++ "\x7d"])

/-- The record as a line for people. -/
def line (r : Record) : String := " ".intercalate r.parts

/-! ## The JSON object -/

/-- Escapes the quotation mark and the backslash, and nothing else. -/
def escapeChar (c : Char) : List Char :=
  if c = '\\' then ['\\', '\\'] else if c = '"' then ['\\', '"'] else [c]

/-- A text as a JSON string. -/
def jsonString (text : String) : String :=
  "\"" ++ String.ofList (text.toList.flatMap escapeChar) ++ "\""

/-- A key and a value that is already JSON. -/
def jsonField (key value : String) : String := "\"" ++ key ++ "\":" ++ value

/-- A JSON object from its fields. -/
def jsonObject (fields : List String) : String := "\x7b" ++ ",".intercalate fields ++ "\x7d"

/-- The fields of the JSON object, in order. -/
def jsonFields (r : Record) : List String :=
  [jsonField "timestamp" (toString r.moment.millis),
    jsonField "level" ("\"" ++ r.level.name ++ "\""),
    jsonField "component" (jsonString r.component),
    jsonField "message" (jsonString r.message)] ++
    (r.operation.map fun n => jsonField "iop_id" (toString n)).toList ++
    (r.descriptor.map fun n => jsonField "fd" (toString n)).toList ++
    (r.duration.map fun d => jsonField "duration_us" (toString d.micros)).toList ++
    (if r.metadata.isEmpty then []
     else [jsonField "metadata"
      (jsonObject (r.metadata.entries.map fun pair => jsonString pair.1 ++ ":" ++ jsonString pair.2))])

/-- The record as a JSON object. -/
def json (r : Record) : String := jsonObject r.jsonFields

/-- The record in one of its two forms. -/
def render (asJson : Bool) (r : Record) : String := if asJson then r.json else r.line

end Record

end Waitset.Log
