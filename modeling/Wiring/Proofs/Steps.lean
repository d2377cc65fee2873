import Mathlib.Data.List.Forall2
import Mathlib.Logic.Relation
import Wiring.Graph.Basic

/-!
Contract: reading steps that edit a state and may fail.

Owns: the two halves of a run, `outcome` and `after`; how they pass through the constructions of a step; and
`Keeps`, a relation between the states before and after a step whatever its outcome. A reflexive and
transitive relation that all parts of a step keep is kept by the step. Likewise `Answers`, for what a step
answers where it succeeds.

Does not own: anything about graphs beyond queries.
-/

namespace Wiring

variable {σ ε α β : Type}

/-- What a step answers. -/
def outcome (step : ExceptT ε (StateM σ) α) (state : σ) : Except ε α :=
  (step.run state).1

/-- The state that a step leaves, also where it fails. -/
def after (step : ExceptT ε (StateM σ) α) (state : σ) : σ :=
  (step.run state).2

theorem run_eq (step : ExceptT ε (StateM σ) α) (state : σ) :
    step.run state = (outcome step state, after step state) := rfl

theorem outcome_of_run {step : ExceptT ε (StateM σ) α} {state final : σ} {answer : Except ε α}
    (ran : step.run state = (answer, final)) : outcome step state = answer :=
  congrArg Prod.fst ran

theorem after_of_run {step : ExceptT ε (StateM σ) α} {state final : σ} {answer : Except ε α}
    (ran : step.run state = (answer, final)) : after step state = final :=
  congrArg Prod.snd ran

/-! ### Runs of the constructions -/

theorem run_bind (step : ExceptT ε (StateM σ) α) (next : α → ExceptT ε (StateM σ) β) (state : σ) :
    (step >>= next).run state = match outcome step state with
      | .ok value => (next value).run (after step state)
      | .error error => (.error error, after step state) := by
  rw [ExceptT.run_bind]
  simp only [outcome, after, bind, StateT.bind]
  split
  next pair _ =>
    split
    · simp_all
    · simp_all
      rfl

theorem run_bind_ok {step : ExceptT ε (StateM σ) α} {state middle : σ} {value : α}
    (ran : step.run state = (.ok value, middle)) (next : α → ExceptT ε (StateM σ) β) :
    (step >>= next).run state = (next value).run middle := by
  rw [run_bind, outcome_of_run ran, after_of_run ran]

theorem run_bind_error {step : ExceptT ε (StateM σ) α} {state middle : σ} {error : ε}
    (ran : step.run state = (.error error, middle)) (next : α → ExceptT ε (StateM σ) β) :
    (step >>= next).run state = (.error error, middle) := by
  rw [run_bind, outcome_of_run ran, after_of_run ran]

/-- What holds of the state after the first part, and after what follows where that succeeds, holds of the last state. -/
theorem after_bind_of (holds : σ → Prop) {step : ExceptT ε (StateM σ) α} {next : α → ExceptT ε (StateM σ) β}
    {state : σ} (first : holds (after step state))
    (second : ∀ value, outcome step state = .ok value → holds (after (next value) (after step state))) :
    holds (after (step >>= next) state) := by
  unfold after
  rw [run_bind]
  cases answered : outcome step state with
  | error error => exact first
  | ok value => exact second value answered

/-- Sequences with the same first part lead to related states where what follows does. -/
theorem after_bind_related (related : σ → σ → Prop) [Std.Refl related] {step : ExceptT ε (StateM σ) α}
    {left right : α → ExceptT ε (StateM σ) β} {state : σ}
    (next : ∀ value, outcome step state = .ok value →
      related (after (left value) (after step state)) (after (right value) (after step state))) :
    related (after (step >>= left) state) (after (step >>= right) state) := by
  unfold after
  rw [run_bind, run_bind]
  cases answered : outcome step state with
  | error error => exact Std.Refl.refl (after step state)
  | ok value => exact next value answered

/-- Sequences run alike where their first parts do, and what follows on the answers. -/
theorem run_bind_congr {left right : ExceptT ε (StateM σ) α} {leftNext rightNext : α → ExceptT ε (StateM σ) β}
    {state : σ} (same : left.run state = right.run state)
    (next : ∀ value, outcome right state = .ok value →
      (leftNext value).run (after right state) = (rightNext value).run (after right state)) :
    (left >>= leftNext).run state = (right >>= rightNext).run state := by
  have outcomes : outcome left state = outcome right state := congrArg Prod.fst same
  have states : after left state = after right state := congrArg Prod.snd same
  rw [run_bind, run_bind, outcomes, states]
  cases answered : outcome right state with
  | ok value => exact next value answered
  | error error => rfl

/-- A sequence that succeeds has a first part that succeeds. -/
theorem of_run_bind_ok {step : ExceptT ε (StateM σ) α} {next : α → ExceptT ε (StateM σ) β}
    {state final : σ} {answer : β} (ran : (step >>= next).run state = (.ok answer, final)) :
    ∃ value middle, step.run state = (.ok value, middle) ∧ (next value).run middle = (.ok answer, final) := by
  rw [run_bind] at ran
  cases answered : outcome step state with
  | error error =>
      rw [answered] at ran
      exact absurd (congrArg Prod.fst ran) (by simp)
  | ok value =>
      rw [answered] at ran
      exact ⟨value, after step state, by rw [run_eq, answered], ran⟩

theorem run_pure (value : α) (state : σ) :
    (pure value : ExceptT ε (StateM σ) α).run state = (.ok value, state) := rfl

theorem of_run_pure {value answer : α} {state final : σ}
    (ran : (pure value : ExceptT ε (StateM σ) α).run state = (.ok answer, final)) :
    value = answer ∧ state = final :=
  ⟨Except.ok.inj (congrArg Prod.fst ran), congrArg Prod.snd ran⟩

theorem run_get (state : σ) : (get : ExceptT ε (StateM σ) σ).run state = (.ok state, state) := rfl

theorem run_set (state given : σ) :
    (set given : ExceptT ε (StateM σ) PUnit).run state = (.ok ⟨⟩, given) := rfl

theorem run_modify (change : σ → σ) (state : σ) :
    (modify change : ExceptT ε (StateM σ) PUnit).run state = (.ok ⟨⟩, change state) := rfl

theorem run_map (wrap : α → β) (step : ExceptT ε (StateM σ) α) (state : σ) :
    (wrap <$> step).run state = (wrap <$> outcome step state, after step state) := by
  rw [map_eq_pure_bind, run_bind]
  cases outcome step state <;> rfl

theorem run_map_congr {left right : ExceptT ε (StateM σ) α} {state : σ} (same : left.run state = right.run state)
    (wrap : α → β) : (wrap <$> left).run state = (wrap <$> right).run state := by
  have outcomes : outcome left state = outcome right state := congrArg Prod.fst same
  have states : after left state = after right state := congrArg Prod.snd same
  rw [run_map, run_map, outcomes, states]

theorem run_query (question : Graph → Except Error α) (graph : Graph) :
    (query question).run graph = (question graph, graph) := rfl

theorem run_query_bind {question : Graph → Except Error α} {graph : Graph} {value : α}
    (answered : question graph = .ok value) (next : α → GraphM β) :
    (query question >>= next).run graph = (next value).run graph :=
  run_bind_ok (show (query question).run graph = (.ok value, graph) by rw [run_query, answered]) next

theorem run_query_bind_error {question : Graph → Except Error α} {graph : Graph} {error : Error}
    (answered : question graph = .error error) (next : α → GraphM β) :
    (query question >>= next).run graph = (.error error, graph) :=
  run_bind_error (show (query question).run graph = (.error error, graph) by rw [run_query, answered]) next

theorem forM_cons (visit : α → ExceptT ε (StateM σ) PUnit) (first : α) (rest : List α) :
    (first :: rest).forM visit = (visit first >>= fun _ => rest.forM visit) := rfl

/-! ### Relations that steps keep -/

/-- Every run leads to a related state, whatever its outcome. -/
def Keeps (related : σ → σ → Prop) (step : ExceptT ε (StateM σ) α) : Prop :=
  ∀ state, related state (after step state)

namespace Keeps

variable {related : σ → σ → Prop} [IsPreorder σ related]

theorem pure (value : α) : Keeps related (Pure.pure value : ExceptT ε (StateM σ) α) :=
  fun state => Std.Refl.refl state

theorem throw (error : ε) : Keeps related (MonadExcept.throw error : ExceptT ε (StateM σ) α) :=
  fun state => Std.Refl.refl state

theorem get : Keeps related (MonadState.get : ExceptT ε (StateM σ) σ) :=
  fun state => Std.Refl.refl state

/-- The second part may rely on the answer of the first. -/
theorem bind_of {step : ExceptT ε (StateM σ) α} {next : α → ExceptT ε (StateM σ) β} {state : σ}
    (first : related state (after step state))
    (second : ∀ value, outcome step state = .ok value →
      related (after step state) (after (next value) (after step state))) :
    related state (after (step >>= next) state) :=
  after_bind_of (related state) first fun value answered => IsTrans.trans _ _ _ first (second value answered)

/-- Nothing happens before a step has looked at its state. -/
theorem get_bind_of {next : σ → ExceptT ε (StateM σ) β} {state : σ}
    (keeps : related state (after (next state) state)) : related state (after (MonadState.get >>= next) state) := by
  refine bind_of (get state) fun known answered => ?_
  obtain rfl : state = known := Except.ok.inj answered
  exact keeps

theorem bind {step : ExceptT ε (StateM σ) α} {next : α → ExceptT ε (StateM σ) β}
    (first : Keeps related step) (second : ∀ value, Keeps related (next value)) :
    Keeps related (step >>= next) :=
  fun state => bind_of (first state) fun value _ => second value _

omit [IsPreorder σ related] in
theorem map (wrap : α → β) {step : ExceptT ε (StateM σ) α} (keeps : Keeps related step) :
    Keeps related (wrap <$> step) := by
  intro state
  rw [show after (wrap <$> step) state = after step state from after_of_run (run_map wrap step state)]
  exact keeps state

theorem forM {visit : α → ExceptT ε (StateM σ) PUnit} (keeps : ∀ item, Keeps related (visit item)) :
    ∀ items : List α, Keeps related (items.forM visit)
  | [] => pure _
  | first :: rest => bind (keeps first) fun _ => forM keeps rest

theorem forM_of_mem {visit : α → ExceptT ε (StateM σ) PUnit} {items : List α}
    (keeps : ∀ item ∈ items, Keeps related (visit item)) : Keeps related (items.forM visit) := by
  induction items with
  | nil => exact pure _
  | cons first rest inductionHypothesis =>
      refine bind (keeps first List.mem_cons_self) fun _ => inductionHypothesis fun item member => ?_
      exact keeps item (List.mem_cons_of_mem first member)

theorem mapM {visit : α → ExceptT ε (StateM σ) β} (keeps : ∀ item, Keeps related (visit item)) :
    ∀ items : List α, Keeps related (items.mapM visit)
  | [] => pure _
  | first :: rest => by
      rw [List.mapM_cons]
      exact bind (keeps first) fun _ => bind (mapM keeps rest) fun _ => pure _

end Keeps

theorem Keeps.query {related : Graph → Graph → Prop} [IsPreorder Graph related]
    (question : Graph → Except Error α) : Keeps related (Wiring.query question) :=
  fun graph => Std.Refl.refl graph

/-- After a query the graph is the same, and the query has succeeded. -/
theorem Keeps.query_bind_of {related : Graph → Graph → Prop} [IsPreorder Graph related]
    {question : Graph → Except Error α} {next : α → GraphM β} {graph : Graph}
    (second : ∀ value, question graph = .ok value → related graph (after (next value) graph)) :
    related graph (after (Wiring.query question >>= next) graph) := by
  cases answered : question graph with
  | error error =>
      rw [after_of_run (run_query_bind_error answered next)]
      exact IsPreorder.toRefl.refl graph
  | ok value =>
      rw [show after (Wiring.query question >>= next) graph = after (next value) graph from
        congrArg Prod.snd (run_query_bind answered next)]
      exact second value answered

/-! ### What steps answer -/

/-- Every answer of the step is as it should be. -/
def Answers (accepts : α → Prop) (step : ExceptT ε (StateM σ) α) : Prop :=
  ∀ state value, outcome step state = .ok value → accepts value

namespace Answers

variable {accepts : α → Prop}

theorem pure {value : α} (accepted : accepts value) :
    Answers accepts (Pure.pure value : ExceptT ε (StateM σ) α) := by
  intro state other answered
  obtain rfl := Except.ok.inj answered
  exact accepted

theorem throw (error : ε) : Answers accepts (MonadExcept.throw error : ExceptT ε (StateM σ) α) := by
  intro state value answered
  cases answered

theorem bind {step : ExceptT ε (StateM σ) β} {next : β → ExceptT ε (StateM σ) α}
    (second : ∀ value, Answers accepts (next value)) : Answers accepts (step >>= next) := by
  intro state value answered
  rcases of_run_bind_ok (show (step >>= next).run state = (.ok value, after (step >>= next) state) by
    rw [run_eq, answered]) with ⟨first, middle, -, ran⟩
  exact second first middle value (outcome_of_run ran)

end Answers

/-! ### Answers without a state -/

theorem except_cases (answer : Except ε α) : (∃ error, answer = .error error) ∨ ∃ value, answer = .ok value := by
  cases answer with
  | error error => exact .inl ⟨error, rfl⟩
  | ok value => exact .inr ⟨value, rfl⟩

theorem except_bind_eq_ok {answer : Except ε α} {next : α → Except ε β} {value : β} :
    (answer >>= next) = .ok value ↔ ∃ first, answer = .ok first ∧ next first = .ok value := by
  cases answer with
  | error error => simp [bind, Except.bind]
  | ok first => simp [bind, Except.bind]

theorem except_bind_eq_error {answer : Except ε α} {next : α → Except ε β} {error : ε} :
    (answer >>= next) = .error error ↔
      answer = .error error ∨ ∃ first, answer = .ok first ∧ next first = .error error := by
  cases answer with
  | error other => simp [bind, Except.bind]
  | ok first => simp [bind, Except.bind]

theorem except_map_eq_ok {wrap : α → β} {answer : Except ε α} {value : β} :
    (wrap <$> answer) = .ok value ↔ ∃ first, answer = .ok first ∧ wrap first = value := by
  cases answer with
  | error error => simp [Functor.map, Except.map]
  | ok first => simp [Functor.map, Except.map]

theorem except_toOption_eq_some {answer : Except ε α} {value : α} :
    answer.toOption = some value ↔ answer = .ok value := by
  cases answer with
  | error error => simp [Except.toOption]
  | ok first => simp [Except.toOption]

/-- A list of answers succeeds if each of them does. -/
theorem mapM_eq_ok {ask : α → Except ε β} {items : List α} {values : List β} :
    items.mapM ask = .ok values ↔ List.Forall₂ (fun item value => ask item = .ok value) items values := by
  induction items generalizing values with
  | nil =>
      constructor
      · intro answered
        obtain rfl : [] = values := Except.ok.inj answered
        exact .nil
      · intro answered
        cases answered
        rfl
  | cons first rest inductionHypothesis =>
      rw [List.mapM_cons, except_bind_eq_ok]
      constructor
      · rintro ⟨value, answered, others⟩
        obtain ⟨restValues, restAnswered, same⟩ := except_bind_eq_ok.mp others
        obtain rfl : value :: restValues = values := Except.ok.inj same
        exact .cons answered (inductionHypothesis.mp restAnswered)
      · intro answered
        cases answered with
        | cons head tail =>
            exact ⟨_, head, except_bind_eq_ok.mpr ⟨_, inductionHypothesis.mpr tail, rfl⟩⟩

theorem option_mapM_eq_some {ask : α → Option β} {items : List α} {values : List β} :
    items.mapM ask = some values ↔ List.Forall₂ (fun item value => ask item = some value) items values := by
  induction items generalizing values with
  | nil =>
      rw [List.mapM_nil, List.forall₂_nil_left_iff]
      exact ⟨fun same => (Option.some.inj same).symm, fun same => same ▸ rfl⟩
  | cons first rest inductionHypothesis =>
      rw [List.mapM_cons]
      constructor
      · intro answered
        rcases Option.bind_eq_some_iff.mp answered with ⟨value, here, answered⟩
        rcases Option.bind_eq_some_iff.mp answered with ⟨others, there, same⟩
        obtain rfl := Option.some.inj same
        exact .cons here (inductionHypothesis.mp there)
      · intro answered
        cases answered with
        | cons here there => simp [here, inductionHypothesis.mpr there]

theorem forall₂_of_mem_left {relates : α → β → Prop} {items : List α} {values : List β}
    (all : List.Forall₂ relates items values) {item : α} (member : item ∈ items) :
    ∃ value ∈ values, relates item value := by
  induction all with
  | nil => cases member
  | cons head _ inductionHypothesis =>
      rcases List.mem_cons.mp member with rfl | later
      · exact ⟨_, List.mem_cons_self, head⟩
      · obtain ⟨value, valueMember, related⟩ := inductionHypothesis later
        exact ⟨value, List.mem_cons_of_mem _ valueMember, related⟩

theorem forall₂_of_mem_right {relates : α → β → Prop} {items : List α} {values : List β}
    (all : List.Forall₂ relates items values) {value : β} (member : value ∈ values) :
    ∃ item ∈ items, relates item value :=
  forall₂_of_mem_left all.flip member

theorem exists_forall₂ {relates : α → β → Prop} {items : List α}
    (each : ∀ item ∈ items, ∃ value, relates item value) : ∃ values, List.Forall₂ relates items values := by
  induction items with
  | nil => exact ⟨[], .nil⟩
  | cons first rest inductionHypothesis =>
      rcases each first List.mem_cons_self with ⟨value, related⟩
      rcases inductionHypothesis fun item member => each item (List.mem_cons_of_mem first member) with
        ⟨values, others⟩
      exact ⟨value :: values, .cons related others⟩

/-- Lists in step with the same one, joined through what is known of their pairs. -/
theorem forall₂_through_zip {γ : Type} {relates : α → β → Prop} {pairs : γ → β → Prop} {items : List α}
    {values : List β} (related : List.Forall₂ relates items values) {others : List γ}
    (length : others.length = items.length) (paired : ∀ pair ∈ others.zip values, pairs pair.1 pair.2) :
    List.Forall₂ (fun item other => ∃ value, pairs other value ∧ relates item value) items others := by
  induction related generalizing others with
  | nil =>
      obtain rfl := List.length_eq_zero_iff.mp length
      exact .nil
  | cons here _ inductionHypothesis =>
      cases others with
      | nil => cases length
      | cons other others =>
          rw [List.zip_cons_cons, List.forall_mem_cons] at paired
          exact .cons ⟨_, paired.1, here⟩ (inductionHypothesis (Nat.succ.inj length) paired.2)

/-- Entries at one position of lists in step. -/
theorem forall₂_getElem? {relates : α → β → Prop} {items : List α} {values : List β}
    (all : List.Forall₂ relates items values) {position : Nat} {item : α} {value : β}
    (held : items[position]? = some item) (heldToo : values[position]? = some value) : relates item value := by
  induction all generalizing position with
  | nil => simp at held
  | cons head _ inductionHypothesis =>
      cases position with
      | zero =>
          obtain rfl := Option.some.inj held
          obtain rfl := Option.some.inj heldToo
          exact head
      | succ position => exact inductionHypothesis held heldToo

end Wiring
