import Wiring.Text.Quoted

/-!
Contract: the one-line form in which messages and dumps show a value: a name, a name with fields in braces,
a name with arguments in parentheses, or a bracketed sequence. What a type looks like is said where the
type is defined; this module only lays it out.
-/

namespace Wiring

inductive Term where
  | atom (text : String)
  /-- Fields in braces; an `elided` record has more than it shows and says so. -/
  | record (name : String) (fields : List (String × Term)) (elided : Bool)
  | apply (name : String) (arguments : List Term)
  | list (items : List Term)
  | map (entries : List (String × Term))

namespace Term

def quoted (text : String) : Term :=
  .atom (Quoted.encode text)

def bool (flag : Bool) : Term :=
  .atom (if flag then "true" else "false")

def nat (n : Nat) : Term :=
  .atom (toString n)

def option (term : Option Term) : Term :=
  match term with
  | none => .atom "None"
  | some inner => .apply "Some" [inner]

mutual

def render : Term → String
  | .atom text => text
  | .record name fields elided =>
      let shown := String.intercalate ", " (renderFields fields)
      let more := if elided then (if fields.isEmpty then ".." else ", ..") else ""
      name ++ " \x7b " ++ shown ++ more ++ " \x7d"
  | .apply name arguments => name ++ "(" ++ String.intercalate ", " (renderAll arguments) ++ ")"
  | .list items => "[" ++ String.intercalate ", " (renderAll items) ++ "]"
  | .map entries => "\x7b" ++ String.intercalate ", " (renderEntries entries) ++ "\x7d"

def renderAll : List Term → List String
  | [] => []
  | term :: rest => render term :: renderAll rest

def renderFields : List (String × Term) → List String
  | [] => []
  | (name, term) :: rest => (name ++ ": " ++ render term) :: renderFields rest

def renderEntries : List (String × Term) → List String
  | [] => []
  | (key, term) :: rest => (Quoted.encode key ++ ": " ++ render term) :: renderEntries rest

end

example : (record "Point" [("x", nat 1), ("name", quoted "a\"b")] false).render =
    "Point \x7b x: 1, name: \"a\\\"b\" \x7d" := by decide +kernel

end Term

end Wiring
