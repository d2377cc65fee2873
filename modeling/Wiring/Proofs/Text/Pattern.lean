import Wiring.Text.CharClass

/-!
Contract: patterns of text, and the search for one.

Owns: `Pattern`; `ways`, the ways to read a pattern at a place, in the order of preference; `search`, which takes the
preferred way at the leftmost place that has one; and that a way reads what stands at its place.

Does not own: repetition, and any pattern in particular.
-/

namespace Wiring

inductive Pattern where
  | nothing
  /-- One character of a class. -/
  | one (belongs : Char → Bool)
  /-- A place with a word character on one side only. -/
  | edge
  | both (first second : Pattern)
  /-- One of two, by preference the first. -/
  | either (first second : Pattern)
  /-- What is read is kept under a number. -/
  | group (number : Nat) (inner : Pattern)

namespace Pattern

/-- A place in a text, between the character before it, if any, and those after it. -/
structure Place where
  before : Option Char
  after : List Char

/-- A way to read a pattern: what is read, what the groups keep of it, and the place behind. -/
structure Way where
  read : List Char
  groups : List (Nat × List Char)
  behind : Place

namespace Way

def append (first second : Way) : Way :=
  ⟨first.read ++ second.read, first.groups ++ second.groups, second.behind⟩

def keep (number : Nat) (way : Way) : Way :=
  { way with groups := (number, way.read) :: way.groups }

def group? (way : Way) (number : Nat) : Option (List Char) :=
  way.groups.lookup number

end Way

/-- The ways to read a pattern at a place, the preferred one first. -/
def ways : Pattern → Place → List Way
  | .nothing, place => [⟨[], [], place⟩]
  | .one belongs, place =>
      match place.after with
      | c :: rest => if belongs c then [⟨[c], [], ⟨some c, rest⟩⟩] else []
      | [] => []
  | .edge, place =>
      if place.before.any CharClass.isWord != place.after.head?.any CharClass.isWord then [⟨[], [], place⟩] else []
  | .both first second, place =>
      (first.ways place).flatMap fun way => (second.ways way.behind).map way.append
  | .either first second, place => first.ways place ++ second.ways place
  | .group number inner, place => (inner.ways place).map (·.keep number)

/-- The preferred way at the first place that has one. -/
def search (pattern : Pattern) (before : Option Char) : List Char → Option Way
  | [] => (pattern.ways ⟨before, []⟩).head?
  | c :: rest => (pattern.ways ⟨before, c :: rest⟩).head?.or (pattern.search (some c) rest)

/-- The characters of a word, one after the other. -/
def literal : List Char → Pattern
  | [] => .nothing
  | c :: rest => .both (.one (· = c)) (literal rest)

theorem mem_ways_one {belongs : Char → Bool} {place : Place} {way : Way} :
    way ∈ (one belongs).ways place ↔
      ∃ c rest, place.after = c :: rest ∧ belongs c = true ∧ way = ⟨[c], [], ⟨some c, rest⟩⟩ := by
  obtain ⟨before, _ | ⟨c, rest⟩⟩ := place <;> simp [ways, and_assoc]

/-- A way reads what stands at its place. -/
theorem after_of_mem_ways {pattern : Pattern} {place : Place} {way : Way} (possible : way ∈ pattern.ways place) :
    place.after = way.read ++ way.behind.after := by
  induction pattern generalizing place way with
  | nothing =>
      obtain rfl := List.mem_singleton.mp possible
      rfl
  | one belongs =>
      rcases mem_ways_one.mp possible with ⟨c, rest, stands, -, rfl⟩
      exact stands
  | edge =>
      rw [ways] at possible
      split at possible
      · obtain rfl := List.mem_singleton.mp possible
        rfl
      · cases possible
  | both first second firstHypothesis secondHypothesis =>
      rcases List.mem_flatMap.mp possible with ⟨one, oneWay, other⟩
      rcases List.mem_map.mp other with ⟨rest, restWay, rfl⟩
      rw [firstHypothesis oneWay, secondHypothesis restWay, Way.append, List.append_assoc]
  | either first second firstHypothesis secondHypothesis =>
      rcases List.mem_append.mp possible with possible | possible
      · exact firstHypothesis possible
      · exact secondHypothesis possible
  | group number inner inductionHypothesis =>
      rcases List.mem_map.mp possible with ⟨kept, keptWay, rfl⟩
      have stands := inductionHypothesis keptWay
      exact stands

theorem read_of_mem_literal {word : List Char} {place : Place} {way : Way}
    (possible : way ∈ (literal word).ways place) : way.read = word := by
  induction word generalizing place way with
  | nil =>
      obtain rfl := List.mem_singleton.mp possible
      rfl
  | cons c word inductionHypothesis =>
      rcases List.mem_flatMap.mp possible with ⟨one, oneWay, other⟩
      rcases List.mem_map.mp other with ⟨rest, restWay, rfl⟩
      rcases mem_ways_one.mp oneWay with ⟨d, _, -, same, rfl⟩
      rw [Way.append, inductionHypothesis restWay, of_decide_eq_true same]
      rfl

end Pattern

end Wiring
