import Wiring.Json.Value

/-!
Contract: how records and unions of alternatives are read from documents.

A record is an object, or an array that gives its fields by position. In an object unknown fields are
skipped and a known field may stand only once; in an array later fields may be missing and no extra one may
stand. A tagged union is an object whose entry `type` names the alternative, or an array that starts with
that name; inside another tagged union the alternative may also be given by its number.
-/

namespace Wiring.Json

/-- The values of the named fields, in the order of the names. -/
def fields? (names : List String) : Json → Option (List (Option Json))
  | .object entries =>
      names.mapM fun name =>
        match entries.filter fun entry => entry.1 = name with
        | [] => some none
        | [entry] => some (some entry.2)
        | _ => none
  | .array items =>
      if items.length ≤ names.length then
        some (items.map some ++ List.replicate (names.length - items.length) none)
      else none
  | _ => none

/-- A field with a default for its absence. -/
def fieldOr (fallback : α) (decode : Json → Option α) : Option Json → Option α
  | none => some fallback
  | some json => decode json

/-- A field that must be there. -/
def required (decode : Json → Option α) : Option Json → Option α
  | none => none
  | some json => decode json

/-- The alternative that a tag names. -/
def tagIndex? (nested : Bool) (names : List String) : Json → Option Nat
  | .string name => names.findIdx? (· = name)
  | .number (.integer index) =>
      if nested ∧ 0 ≤ index ∧ index < names.length then some index.toNat else none
  | _ => none

/-- The number of the alternative and the document without its tag. -/
def tagged? (nested : Bool) (names : List String) : Json → Option (Nat × Json)
  | .object entries =>
      match entries.filter fun entry => entry.1 = "type" with
      | [tag] =>
          (tagIndex? nested names tag.2).map (·, .object (entries.filter fun entry => entry.1 ≠ "type"))
      | _ => none
  | .array (tag :: rest) => (tagIndex? nested names tag).map (·, .array rest)
  | _ => none

/-- One of several bare names: the name itself, or an object with the name over an empty value. Where the
document has been set aside before reading, an empty object is an empty value too. -/
def choice? (setAside : Bool) (choices : List (String × α)) : Json → Option α
  | .string name => choices.lookup name
  | .object [(name, .null)] => choices.lookup name
  | .object [(name, .object [])] => if setAside then choices.lookup name else none
  | _ => none

end Wiring.Json
