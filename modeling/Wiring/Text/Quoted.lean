import Wiring.Text.CharClass

/-!
Contract: the quoted form of a string in messages. A quote and a backslash are escaped, the usual controls
have their letter, every other character that would not show is written as `\u{hex}`, and all else stands
as it is.
-/

namespace Wiring.Quoted

/-- The digits of a code point in lower-case hexadecimal, without leading zeros. -/
def hexDigits (n : Nat) : String :=
  String.ofList (Nat.toDigits 16 n)

def escape (c : Char) : String :=
  match c with
  | '"' => "\\\""
  | '\\' => "\\\\"
  | '\n' => "\\n"
  | '\t' => "\\t"
  | '\r' => "\\r"
  | '\x00' => "\\0"
  | c => if CharClass.isEscaped c then "\\u\x7b" ++ hexDigits c.toNat ++ "\x7d" else c.toString

/-- The text between quotes. -/
def encode (text : String) : String :=
  text.toList.foldl (fun written c => written ++ escape c) "\"" ++ "\""

end Wiring.Quoted
