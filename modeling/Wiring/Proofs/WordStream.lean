import Mathlib.Data.List.Basic
import Wiring.WordStream

/-!
Contract: draws below a bound from a stream of words.

Owns: `Draw`, by which a draw takes words up to the first that it accepts; `Draws`, one draw after the other; that what
is drawn lies below the bound; that draws never fail where accepted words come again and again; and that the fuel of
`below?` decides only whether there is an answer.

Does not own: how likely a word is; unit draws; normal samples.
-/

namespace Wiring.WordStream

/-- The lower half of the product lies in the part of the range that favours no number. -/
def Accepts (bound : Nat) (word : UInt64) : Prop :=
  word.toNat * bound % wordRange ≤ acceptedUpTo bound

instance (bound : Nat) (word : UInt64) : Decidable (Accepts bound word) :=
  inferInstanceAs (Decidable (_ ≤ _))

/-- The upper half of the product. -/
def upper (bound : Nat) (word : UInt64) : Nat :=
  word.toNat * bound / wordRange

/-- The stream after some more words. -/
def skip (stream : WordStream) (count : Nat) : WordStream :=
  { stream with taken := stream.taken + count }

theorem skip_skip (stream : WordStream) (count more : Nat) :
    (stream.skip count).skip more = stream.skip (count + more) :=
  congrArg (mk stream.word stream.normalAt) (Nat.add_assoc stream.taken count more)

/-- A draw takes words up to the first that is accepted, which gives the value. -/
inductive Draw (bound : Nat) : WordStream → Nat → WordStream → Prop where
  | accept {stream : WordStream} (accepted : Accepts bound (stream.word stream.taken)) :
      Draw bound stream (upper bound (stream.word stream.taken)) (stream.skip 1)
  | reject {stream rest : WordStream} {value : Nat} (rejected : ¬Accepts bound (stream.word stream.taken))
      (later : Draw bound (stream.skip 1) value rest) : Draw bound stream value rest

/-- Draws one after the other. -/
inductive Draws (bound : Nat) : WordStream → List Nat → WordStream → Prop where
  | nil (stream : WordStream) : Draws bound stream [] stream
  | cons {stream next rest : WordStream} {value : Nat} {values : List Nat} (first : Draw bound stream value next)
      (others : Draws bound next values rest) : Draws bound stream (value :: values) rest

/-- Accepted words come again and again, so that a draw ends wherever it starts. -/
def Unfailing (bound : Nat) (stream : WordStream) : Prop :=
  ∀ position, ∃ later, position ≤ later ∧ Accepts bound (stream.word later)

variable {bound : Nat} {stream rest : WordStream} {value : Nat}

theorem upper_lt (positive : 0 < bound) (word : UInt64) : upper bound word < bound :=
  Nat.div_lt_of_lt_mul (Nat.mul_lt_mul_of_pos_right word.toNat_lt positive)

theorem Draw.lt (draw : Draw bound stream value rest) (positive : 0 < bound) : value < bound := by
  induction draw with
  | accept => exact upper_lt positive _
  | reject _ _ inductionHypothesis => exact inductionHypothesis

theorem Draws.lt {values : List Nat} (draws : Draws bound stream values rest) (positive : 0 < bound) :
    ∀ value ∈ values, value < bound := by
  induction draws with
  | nil => exact fun _ none => nomatch none
  | cons first _ inductionHypothesis => exact List.forall_mem_cons.mpr ⟨first.lt positive, inductionHypothesis⟩

theorem Draw.word_eq (draw : Draw bound stream value rest) : rest.word = stream.word := by
  induction draw with
  | accept => rfl
  | reject _ _ inductionHypothesis => exact inductionHypothesis

theorem Unfailing.skip (unfailing : stream.Unfailing bound) (count : Nat) : (stream.skip count).Unfailing bound :=
  unfailing

theorem Unfailing.of_draw (unfailing : stream.Unfailing bound) (draw : Draw bound stream value rest) :
    rest.Unfailing bound := by
  unfold Unfailing
  rw [draw.word_eq]
  exact unfailing

/-- A draw needs at most the words up to one that is accepted. -/
theorem exists_draw_of_accepts (more : Nat) (accepted : Accepts bound (stream.word (stream.taken + more))) :
    ∃ value rest, Draw bound stream value rest := by
  induction more generalizing stream with
  | zero => exact ⟨_, _, .accept accepted⟩
  | succ more inductionHypothesis =>
      by_cases now : Accepts bound (stream.word stream.taken)
      · exact ⟨_, _, .accept now⟩
      · have position : stream.taken + 1 + more = stream.taken + (more + 1) := by omega
        have later : Accepts bound ((stream.skip 1).word ((stream.skip 1).taken + more)) := by
          show Accepts bound (stream.word (stream.taken + 1 + more))
          rwa [position]
        rcases inductionHypothesis later with ⟨value, rest, draw⟩
        exact ⟨value, rest, .reject now draw⟩

theorem Unfailing.exists_draw (unfailing : stream.Unfailing bound) : ∃ value rest, Draw bound stream value rest := by
  rcases unfailing stream.taken with ⟨later, after, accepted⟩
  obtain ⟨more, rfl⟩ := Nat.exists_eq_add_of_le after
  exact exists_draw_of_accepts more accepted

/-! ### The fuel -/

/-- One more unit of fuel pays for one more word. -/
theorem below?_succ (bound fuel : Nat) (stream : WordStream) :
    stream.below? bound (fuel + 1) =
      if Accepts bound (stream.word stream.taken) then some (upper bound (stream.word stream.taken), stream.skip 1)
      else (stream.skip 1).below? bound fuel :=
  rfl

theorem below?_of_le {fuel more : Nat} {answer : Nat × WordStream} (answered : stream.below? bound fuel = some answer)
    (enough : fuel ≤ more) : stream.below? bound more = some answer := by
  induction fuel generalizing stream more with
  | zero => cases answered
  | succ fuel inductionHypothesis =>
      obtain ⟨more, rfl⟩ : ∃ less, more = less + 1 := ⟨more - 1, by omega⟩
      rw [below?_succ] at answered ⊢
      split at answered
      · next accepted => rwa [if_pos accepted]
      · next rejected =>
          rw [if_neg rejected]
          exact inductionHypothesis answered (Nat.le_of_succ_le_succ enough)

theorem Draw.exists_fuel (draw : Draw bound stream value rest) :
    ∃ fuel, stream.below? bound fuel = some (value, rest) := by
  induction draw with
  | accept accepted => exact ⟨1, if_pos accepted⟩
  | reject rejected _ inductionHypothesis =>
      rcases inductionHypothesis with ⟨fuel, answered⟩
      exact ⟨fuel + 1, (if_neg rejected).trans answered⟩

end Wiring.WordStream
