import Wiring.Json.Value
import Wiring.Decimal.Style
import Wiring.Text.Quoted

/-!
Contract: documents to compact JSON text. Entries stand in the order in which the document holds them,
floating numbers have their shortest digits, and a number that is not finite is written as `null`.
-/

namespace Wiring.Json

def escape (c : Char) : String :=
  match c with
  | '"' => "\\\""
  | '\\' => "\\\\"
  | '\x08' => "\\b"
  | '\x0c' => "\\f"
  | '\n' => "\\n"
  | '\r' => "\\r"
  | '\t' => "\\t"
  | c =>
      if c.toNat < 0x20 then
        (if c.toNat < 0x10 then "\\u000" else "\\u00") ++ Quoted.hexDigits c.toNat
      else c.toString

def writeString (text : String) : String :=
  text.toList.foldl (fun written c => written ++ escape c) "\"" ++ "\""

def writeFloating (reading : Decimal.Reading) : String :=
  match reading with
  | .notANumber | .infinite _ => "null"
  | reading => Decimal.Style.json.write reading

def Number.render : Number → String
  | .integer value => toString value
  | .floating value => writeFloating (.ofFloat value)
  | .single value => writeFloating (.ofFloat32 value)

mutual

/-- Appends the text of a document. -/
def write (written : String) : Json → String
  | .null | .unreadable => written ++ "null"
  | .bool value => written ++ (if value then "true" else "false")
  | .number value => written ++ value.render
  | .string value => written ++ writeString value
  | .array [] => written ++ "[]"
  | .array (item :: rest) => writeItems (write (written ++ "[") item) rest ++ "]"
  | .object [] => written ++ "\x7b\x7d"
  | .object ((key, value) :: rest) =>
      writeEntries (write (written ++ "\x7b" ++ writeString key ++ ":") value) rest ++ "\x7d"

def writeItems (written : String) : List Json → String
  | [] => written
  | item :: rest => writeItems (write (written ++ ",") item) rest

def writeEntries (written : String) : List (String × Json) → String
  | [] => written
  | (key, value) :: rest => writeEntries (write (written ++ "," ++ writeString key ++ ":") value) rest

end

def render (json : Json) : String :=
  write "" json

end Wiring.Json
