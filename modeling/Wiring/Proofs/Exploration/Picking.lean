import Wiring.Proofs.Exploration.Construction
import Wiring.Proofs.WordStream

/-!
Contract: random actions in place of samples.

Owns: that a decider takes one word for each of its decisions; `Replaces`, by which samples stay or are replaced by
drawn values, in their order; and what `pick` answers for every exploration that was made, on every stream whose draws
do not fail.

Does not own: the draws themselves; schedules; noise.
-/

namespace Wiring

namespace EpsilonDecider

/-- Whether the word at a position, as a fraction of one, lies below the probability of acting at random. -/
def explores (decider : EpsilonDecider) (time : Nat) (stream : WordStream) (position : Nat) : Bool :=
  Decidable.decide (WordStream.fraction (stream.word position) < decider.epsilon time)

/-- The decisions take one word each, in their order. -/
theorem decide_eq (decider : EpsilonDecider) (time count : Nat) (stream : WordStream) :
    decider.decide time count stream =
      ((List.range count).map fun i => decider.explores time stream (stream.taken + i), stream.skip count) := by
  induction count generalizing stream with
  | zero => rfl
  | succ count inductionHypothesis =>
      have unfolded : decider.decide time (count + 1) stream =
          (decider.explores time stream stream.taken :: (decider.decide time count (stream.skip 1)).1,
            (decider.decide time count (stream.skip 1)).2) := rfl
      rw [unfolded, inductionHypothesis, WordStream.skip_skip, Nat.add_comm 1 count, List.range_succ_eq_map,
        List.map_cons, List.map_map]
      refine Prod.ext (congrArg (List.cons _) (List.map_congr_left fun i _ => ?_)) rfl
      exact congrArg (decider.explores time stream) (Nat.add_right_comm stream.taken 1 i)

theorem exists_decisions (decider : EpsilonDecider) (time count : Nat) (stream : WordStream) :
    ∃ decisions, decider.decide time count stream = (decisions, stream.skip count) ∧ decisions.length = count ∧
      ∀ i, i < count → decisions[i]? = some (decider.explores time stream (stream.taken + i)) := by
  refine ⟨_, decider.decide_eq time count stream, ?_, fun i below => ?_⟩
  · rw [List.length_map, List.length_range]
  · rw [List.getElem?_map, List.getElem?_range below, Option.map_some]

end EpsilonDecider

namespace Exploration

/-- A sample stays where the decision is against acting at random. The others are replaced by the drawn values: the
number of decisions for it before an item is the place of its value. -/
structure Replaces (decisions : List Bool) (samples : List Int) (values : List Nat) (picked : List Int) : Prop where
  length : picked.length = samples.length
  drawn : values.length = decisions.count true
  kept : ∀ i : Nat, decisions[i]? = some false → picked[i]? = samples[i]?
  explored : ∀ i : Nat, decisions[i]? = some true →
    picked[i]? = values[(decisions.take i).count true]?.map Int.ofNat

namespace Replaces

variable {decisions : List Bool} {samples : List Int} {values : List Nat} {picked : List Int}

theorem nil : Replaces [] [] [] [] where
  length := rfl
  drawn := rfl
  kept _ none := nomatch none
  explored _ none := nomatch none

theorem keep (replaces : Replaces decisions samples values picked) (sample : Int) :
    Replaces (false :: decisions) (sample :: samples) values (sample :: picked) where
  length := congrArg Nat.succ replaces.length
  drawn := by simp [replaces.drawn]
  kept i decided := by
    cases i with
    | zero => rfl
    | succ i => exact replaces.kept i decided
  explored i decided := by
    cases i with
    | zero => simp at decided
    | succ i => simpa using replaces.explored i decided

theorem explore (replaces : Replaces decisions samples values picked) (sample : Int) (value : Nat) :
    Replaces (true :: decisions) (sample :: samples) (value :: values) ((value : Int) :: picked) where
  length := congrArg Nat.succ replaces.length
  drawn := by simp [replaces.drawn]
  kept i decided := by
    cases i with
    | zero => simp at decided
    | succ i => exact replaces.kept i decided
  explored i decided := by
    cases i with
    | zero => rfl
    | succ i => simpa using replaces.explored i decided

end Replaces

section

variable {bound : Nat}

theorem replaceExplored_keep (fuel : Nat) (sample : Int) (rest : List (Bool × Int)) (stream : WordStream) :
    replaceExplored bound fuel ((false, sample) :: rest) stream =
      (replaceExplored bound fuel rest stream).map fun answer => (sample :: answer.1, answer.2) := by
  cases answered : replaceExplored bound fuel rest stream <;> simp [replaceExplored, answered]

theorem replaceExplored_explore (fuel : Nat) (sample : Int) (rest : List (Bool × Int)) (stream : WordStream) :
    replaceExplored bound fuel ((true, sample) :: rest) stream =
      (stream.below? bound fuel).bind fun drawn =>
        (replaceExplored bound fuel rest drawn.2).map fun answer => ((drawn.1 : Int) :: answer.1, answer.2) := by
  cases drawn : stream.below? bound fuel with
  | none => simp [replaceExplored, drawn]
  | some draw =>
      cases answered : replaceExplored bound fuel rest draw.2 <;> simp [replaceExplored, drawn, answered]

theorem replaceExplored_of_le {fuel more : Nat} (enough : fuel ≤ more) {items : List (Bool × Int)}
    {stream : WordStream} {answer : List Int × WordStream}
    (answered : replaceExplored bound fuel items stream = some answer) :
    replaceExplored bound more items stream = some answer := by
  induction items generalizing stream answer with
  | nil => exact answered
  | cons item items inductionHypothesis =>
      rcases item with ⟨_ | _, sample⟩
      · rw [replaceExplored_keep] at answered ⊢
        rcases Option.map_eq_some_iff.mp answered with ⟨later, answeredLater, rfl⟩
        rw [inductionHypothesis answeredLater, Option.map_some]
      · rw [replaceExplored_explore] at answered ⊢
        rcases Option.bind_eq_some_iff.mp answered with ⟨drawn, draws, answered⟩
        rcases Option.map_eq_some_iff.mp answered with ⟨later, answeredLater, rfl⟩
        rw [WordStream.below?_of_le draws enough, Option.bind_some, inductionHypothesis answeredLater, Option.map_some]

/-- Where draws do not fail, the samples are replaced as the decisions say. -/
theorem exists_replaces {stream : WordStream} (unfailing : stream.Unfailing bound) {decisions : List Bool}
    {samples : List Int} (same : decisions.length = samples.length) :
    ∃ values picked rest, stream.Draws bound values rest ∧ Replaces decisions samples values picked ∧
      ∃ fuel, replaceExplored bound fuel (decisions.zip samples) stream = some (picked, rest) := by
  induction decisions generalizing samples stream with
  | nil =>
      obtain rfl := List.eq_nil_of_length_eq_zero same.symm
      exact ⟨[], [], stream, .nil stream, .nil, 0, rfl⟩
  | cons decision decisions inductionHypothesis =>
      rcases samples with _ | ⟨sample, samples⟩
      · cases same
      · have sameLater := Nat.succ.inj same
        cases decision with
        | false =>
            rcases inductionHypothesis unfailing sameLater with ⟨values, picked, rest, draws, replaces, fuel, answered⟩
            refine ⟨values, sample :: picked, rest, draws, replaces.keep sample, fuel, ?_⟩
            rw [List.zip_cons_cons, replaceExplored_keep, answered, Option.map_some]
        | true =>
            rcases unfailing.exists_draw with ⟨value, next, draw⟩
            rcases draw.exists_fuel with ⟨first, drawn⟩
            rcases inductionHypothesis (unfailing.of_draw draw) sameLater with
              ⟨values, picked, rest, draws, replaces, later, answered⟩
            -- Fuel that is enough for the first draw and for the later ones is enough for both.
            refine ⟨value :: values, value :: picked, rest, .cons draw draws, replaces.explore sample value,
              max first later, ?_⟩
            rw [List.zip_cons_cons, replaceExplored_explore,
              WordStream.below?_of_le drawn (Nat.le_max_left first later), Option.bind_some,
              replaceExplored_of_le (Nat.le_max_right first later) answered, Option.map_some]

end

theorem checkActions_of_checkConfig {config : ExplorationConfig} {actions : Space}
    (accepted : checkConfig config actions = .ok ⟨⟩) : checkActions config actions = .ok ⟨⟩ := by
  unfold checkConfig at accepted
  split at accepted
  · cases accepted
  · exact accepted

/-- An exploration with a schedule has actions to choose from. -/
theorem categories_of_create {config : ExplorationConfig} {actions : Space} {graph made : Graph}
    {exploration : Exploration} (created : (create config actions).run graph = (.ok exploration, made))
    {decider : EpsilonDecider} (mode : exploration.mode = .epsilon decider) :
    ∃ n, exploration.actions.asBox?.bind Box.categories = some n ∧ 1 ≤ n := by
  rcases strategy_of_create created with ⟨strategy, rfl⟩
  have scheduled : config.epsilon.isSome = true := by
    rw [mode] at strategy
    rcases config with ⟨scope, _ | epsilon, _ | noise⟩
    · cases strategy
    · cases strategy
    · rfl
    · rfl
  have accepted := checkActions_of_checkConfig (accepted_of_create created).1
  unfold checkActions at accepted
  rw [if_pos scheduled] at accepted
  split at accepted
  · next suits =>
      rcases (Option.any_eq_true _ _).mp suits with ⟨leaf, found, suits⟩
      rcases (Option.any_eq_true _ _).mp (Bool.and_eq_true_iff.mp suits).2 with ⟨n, counted, positive⟩
      exact ⟨n, by rw [found]; exact counted, of_decide_eq_true positive⟩
  · cases accepted

/-- The number fits a word of sixty-four bits with a sign. -/
def IsSigned (number : Int) : Prop :=
  Int64.minValue.toInt ≤ number ∧ number ≤ Int64.maxValue.toInt

/-- No action is too large for a signed word if no sample and no drawn value is. -/
theorem Replaces.isSigned {decisions : List Bool} {samples : List Int} {values : List Nat} {picked : List Int}
    (replaces : Replaces decisions samples values picked) (same : decisions.length = samples.length)
    (fit : ∀ value ∈ values, IsSigned value) (fitToo : ∀ sample ∈ samples, IsSigned sample) :
    ∀ action ∈ picked, IsSigned action := by
  intro action member
  rcases List.mem_iff_getElem?.mp member with ⟨i, found⟩
  have below : i < decisions.length := by
    rw [same, ← replaces.length]
    exact (List.getElem?_eq_some_iff.mp found).1
  have decided := List.getElem?_eq_getElem below
  cases decision : decisions[i] with
  | false =>
      rw [decision] at decided
      rw [replaces.kept i decided] at found
      exact fitToo action (List.mem_of_getElem? found)
  | true =>
      rw [decision] at decided
      rw [replaces.explored i decided] at found
      rcases Option.map_eq_some_iff.mp found with ⟨value, drawn, rfl⟩
      exact fit value (List.mem_of_getElem? drawn)

theorem pick_of_not_epsilon {exploration : Exploration} {useExploration : Bool}
    (plain : useExploration = false ∨ ∀ decider, exploration.mode ≠ .epsilon decider) (fuel : Nat)
    (stream : WordStream) (time : Nat) (samples : List Int) :
    exploration.pick fuel stream time samples useExploration = some (samples, stream) := by
  unfold pick
  split
  · next decider mode =>
      rw [plain.resolve_right fun other => other decider mode]
      rfl
  · rfl

theorem pick_epsilon {exploration : Exploration} {decider : EpsilonDecider} (mode : exploration.mode = .epsilon decider)
    (fuel : Nat) (stream : WordStream) (time : Nat) (samples : List Int) :
    exploration.pick fuel stream time samples true =
      replaceExplored exploration.categories fuel ((decider.decide time samples.length stream).1.zip samples)
        (decider.decide time samples.length stream).2 := by
  unfold pick
  rw [mode]
  rfl

/-- With a schedule, and where draws do not fail, first every item is decided, with one word, and then an action is
drawn for each item that explores, in their order; the other samples stay. Without a schedule, or where exploration is
switched off, all samples stay and no word is taken. -/
theorem pick_replaces {config : ExplorationConfig} {actions : Space} {graph made : Graph} {exploration : Exploration}
    (created : (create config actions).run graph = (.ok exploration, made)) :
    (∀ decider n, exploration.mode = .epsilon decider → exploration.actions.asBox?.bind Box.categories = some n →
      IsSigned n → ∀ stream : WordStream, stream.Unfailing n → ∀ time samples,
      ∃ decisions values picked rest,
        decider.decide time samples.length stream = (decisions, stream.skip samples.length) ∧
        (∀ i, i < samples.length → decisions[i]? = some (decider.explores time stream (stream.taken + i))) ∧
        (stream.skip samples.length).Draws n values rest ∧ (∀ value ∈ values, value < n) ∧
        Replaces decisions samples values picked ∧
        ((∀ sample ∈ samples, IsSigned sample) → ∀ action ∈ picked, IsSigned action) ∧
        (∃ enough, ∀ fuel, enough ≤ fuel → exploration.pick fuel stream time samples true = some (picked, rest)) ∧
        ∀ fuel answer, exploration.pick fuel stream time samples true = some answer → answer = (picked, rest)) ∧
    ∀ useExploration, (useExploration = false ∨ ∀ decider, exploration.mode ≠ .epsilon decider) →
      ∀ fuel stream time samples,
        exploration.pick fuel stream time samples useExploration = some (samples, stream) := by
  refine ⟨fun decider n mode counted signed stream unfailing time samples => ?_,
    fun useExploration plain => pick_of_not_epsilon plain⟩
  rcases categories_of_create created mode with ⟨_, countedToo, positive⟩
  obtain rfl := Option.some.inj (counted.symm.trans countedToo)
  have bound : exploration.categories = n := by rw [categories, counted, Option.getD_some]
  rcases decider.exists_decisions time samples.length stream with ⟨decisions, decided, same, each⟩
  rcases exists_replaces (unfailing.skip samples.length) same with
    ⟨values, picked, rest, draws, replaces, enough, answered⟩
  have picks (fuel : Nat) : exploration.pick fuel stream time samples true =
      replaceExplored n fuel (decisions.zip samples) (stream.skip samples.length) := by
    rw [pick_epsilon mode, decided, bound]
  have below := draws.lt positive
  refine ⟨decisions, values, picked, rest, decided, each, draws, below, replaces, ?_, ⟨enough, fun fuel more => ?_⟩, ?_⟩
  · refine replaces.isSigned same fun value drawn => ?_
    have least : Int64.minValue.toInt ≤ 0 := by decide
    have smaller : (value : Int) < n := Int.ofNat_lt.mpr (below value drawn)
    exact ⟨least.trans (Int.natCast_nonneg value), smaller.le.trans signed.2⟩
  · rw [picks]
    exact replaceExplored_of_le more answered
  · intro fuel answer answeredToo
    rw [picks] at answeredToo
    have first := replaceExplored_of_le (Nat.le_max_left enough fuel) answered
    have second := replaceExplored_of_le (Nat.le_max_right enough fuel) answeredToo
    exact Option.some.inj (second.symm.trans first)

/-- Words whose upper three bits count up, over and over, of which two are taken. -/
def counting : WordStream where
  word := fun position => (position % 8).toUInt64 <<< 61
  normalAt := fun position => (0.0, position + 1)
  taken := 2

theorem unfailing_counting : counting.Unfailing 4 := by
  intro position
  refine ⟨8 * position, by omega, ?_⟩
  show WordStream.Accepts 4 ((8 * position % 8).toUInt64 <<< 61)
  rw [Nat.mul_mod_right]
  decide +kernel

/-- Of seven samples the first two and the last are replaced; the words behind the decisions are rejected and accepted
in turn. -/
theorem pick_replaces_counting : ∃ exploration decider made decisions values rest,
    (create { epsilon := some { decay := .constant 0.5 } } (.intBox 4 [])).run (after Graph.doubled {}) =
      (.ok exploration, made) ∧
    exploration.mode = .epsilon decider ∧ exploration.actions.asBox?.bind Box.categories = some 4 ∧
    IsSigned (4 : Nat) ∧ counting.Unfailing 4 ∧
    decider.decide 0 7 counting = (decisions, counting.skip 7) ∧ (counting.skip 7).Draws 4 values rest ∧
    Replaces decisions [0, 0, 1, 3, 2, 0, 0] values [1, 2, 1, 3, 2, 0, 3] ∧
    (∃ enough, ∀ fuel, enough ≤ fuel →
      exploration.pick fuel counting 0 [0, 0, 1, 3, 2, 0, 0] true = some ([1, 2, 1, 3, 2, 0, 3], rest)) ∧
    exploration.pick 0 counting 0 [0, 0, 1, 3, 2, 0, 0] false = some ([0, 0, 1, 3, 2, 0, 0], counting) := by
  have allowed : isScope "exploration" = true := by decide +kernel
  have accepted : checkConfig { epsilon := some { decay := .constant 0.5 } } (.intBox 4 []) = .ok ⟨⟩ := rfl
  rcases run_create accepted allowed (fun none => nomatch none) (after Graph.doubled {}) with ⟨exploration, made⟩
  have created := run_of_outcome made
  have found : (outcome (create { epsilon := some { decay := .constant 0.5 } } (.intBox 4 []))
      (after Graph.doubled {})).toOption.map (fun exploration =>
        (exploration.mode.strategy, exploration.actions.asBox?.bind Box.categories,
          (exploration.pick 2 counting 0 [0, 0, 1, 3, 2, 0, 0] true).map fun answer => (answer.1, answer.2.taken))) =
        some (.epsilon, some 4, some ([1, 2, 1, 3, 2, 0, 3], 15)) := by
    decide +kernel
  rw [made] at found
  obtain ⟨chosen, found⟩ := Prod.mk.inj (Option.some.inj found)
  obtain ⟨counted, found⟩ := Prod.mk.inj found
  rcases Option.map_eq_some_iff.mp found with ⟨⟨picked, left⟩, answered, same⟩
  obtain rfl : picked = [1, 2, 1, 3, 2, 0, 3] := congrArg Prod.fst same
  obtain ⟨decider, mode⟩ : ∃ decider, exploration.mode = .epsilon decider := by
    cases mode : exploration.mode with
    | epsilon decider => exact ⟨decider, rfl⟩
    | _ => rw [mode] at chosen; cases chosen
  have signed : IsSigned (4 : Nat) := ⟨by decide, by decide⟩
  rcases (pick_replaces created).1 decider 4 mode counted signed counting unfailing_counting 0
      [0, 0, 1, 3, 2, 0, 0] with
    ⟨decisions, values, _, rest, decided, -, draws, -, replaces, -, answers, only⟩
  obtain ⟨rfl, -⟩ := Prod.mk.inj (only 2 _ answered)
  exact ⟨exploration, decider, _, decisions, values, rest, created, mode, counted, signed, unfailing_counting, decided,
    draws, replaces, answers, (pick_replaces created).2 false (.inl rfl) 0 counting 0 _⟩

end Exploration

end Wiring
