import Mathlib.Data.List.GetD
import Mathlib.Logic.Relation
import Wiring.Proofs.Methods

/-!
Contract: logs that are put together op by op, each from ops that are known.

Owns: `Made`, by which a log grows by ops that were created from given ones and from each other; `Ordered`, by which
every op of a log has its position as its identifier and stands behind the ops that it was made from, and that logs
that grow so stay ordered and have no cycles; and that the firings of methods that pass on nothing but their inputs and
what they create make logs grow so, split or not.

Does not own: builds.
-/

namespace Wiring

namespace OpLog

/-! ### Growth from known ops -/

theorem append_subset {given more : List DataOp} (sub : given ⊆ more) {made : List DataOp} :
    given ++ made ⊆ more ++ made :=
  List.append_subset.mpr ⟨List.Subset.trans sub (List.subset_append_left _ _), List.subset_append_right _ _⟩

/-- The ops are created one after the other, each from ops that were given or created before. -/
inductive Made (given : List DataOp) (before : OpLog) : List DataOp → OpLog → Prop where
  | none : Made given before [] before
  | create {made : List DataOp} {log : OpLog} (earlier : Made given before made log) (record : OpRecord)
      (known : ∀ input ∈ record.inputs, ∃ op ∈ given ++ made, op.id = input) :
      Made given before (made ++ [(log.push record).1]) (log.push record).2

namespace Made

variable {given more made : List DataOp} {before log : OpLog}

theorem mono (is : Made given before made log) (sub : given ⊆ more) : Made more before made log := by
  induction is with
  | none => exact .none
  | create _ record known inductionHypothesis =>
      refine .create inductionHypothesis record fun input listed => ?_
      rcases known input listed with ⟨op, member, same⟩
      exact ⟨op, append_subset sub member, same⟩

theorem trans {first second : List DataOp} {middle : OpLog} (left : Made given before first middle)
    (right : Made (given ++ first) middle second log) : Made given before (first ++ second) log := by
  induction right with
  | none => rwa [List.append_nil]
  | create _ record known inductionHypothesis =>
      rw [← List.append_assoc]
      refine .create inductionHypothesis record fun input listed => ?_
      rw [← List.append_assoc]
      exact known input listed

theorem grows (is : Made given before made log) : before.Grows log := by
  induction is with
  | none => exact .refl _
  | create _ record _ inductionHypothesis => exact inductionHypothesis.trans (grows_push _ record)

/-- What was given is still there, and what was created is there. -/
theorem has (is : Made given before made log) (had : ∀ op ∈ given, before.Has op) :
    ∀ op ∈ given ++ made, log.Has op := by
  induction is with
  | none =>
      intro op member
      rw [List.append_nil] at member
      exact had op member
  | create _ record _ inductionHypothesis =>
      intro op member
      rw [← List.append_assoc] at member
      rcases List.mem_append.mp member with old | new
      · exact (inductionHypothesis op old).grows (grows_push _ record)
      · rw [List.mem_singleton.mp new]
        exact has_push _ record

end Made

/-! ### Order -/

/-- Every op has its position as its identifier, and its inputs come before it. -/
structure Ordered (log : OpLog) : Prop where
  ids : ∀ (i : Nat) entry, log.entries[i]? = some entry → entry.id = ⟨i⟩
  inputs : ∀ (i : Nat) entry, log.entries[i]? = some entry → ∀ input ∈ entry.inputs, input.index < i

/-- The first op was made from the second one. -/
def Uses (log : OpLog) (id input : OpId) : Prop :=
  ∃ record, log.get? id = some record ∧ input ∈ record.inputs

namespace Ordered

variable {log : OpLog}

theorem empty : Ordered {} where
  ids i entry found := by cases found
  inputs i entry found := by cases found

theorem push (ordered : log.Ordered) {record : OpRecord} (known : ∀ input ∈ record.inputs, input.index < log.size) :
    (log.push record).2.Ordered := by
  have found {i : Nat} {entry : OpEntry} (found : (log.push record).2.entries[i]? = some entry) :
      log.entries[i]? = some entry ∨ i = log.size ∧ entry = { record with id := ⟨log.size⟩ } := by
    change (log.entries.push _)[i]? = some entry at found
    rw [Array.getElem?_push] at found
    split at found
    next last => exact .inr ⟨last, (Option.some.inj found).symm⟩
    next => exact .inl found
  constructor
  case ids =>
    intro i entry held
    rcases found held with old | ⟨rfl, rfl⟩
    · exact ordered.ids i entry old
    · rfl
  case inputs =>
    intro i entry held
    rcases found held with old | ⟨rfl, rfl⟩
    · exact ordered.inputs i entry old
    · exact known

/-- Known ops are in the log, so their identifiers are smaller than the next one. -/
theorem made {given made : List DataOp} {before : OpLog} (ordered : before.Ordered)
    (is : Made given before made log) (had : ∀ op ∈ given, before.Has op) : log.Ordered := by
  induction is with
  | none => exact ordered
  | create earlier record known inductionHypothesis =>
      refine inductionHypothesis.push fun input listed => ?_
      rcases known input listed with ⟨op, member, rfl⟩
      rcases earlier.has had op member with ⟨_, held, -⟩
      exact lt_size_of_get? held

theorem lt_of_uses (ordered : log.Ordered) {id input : OpId} (uses : log.Uses id input) : input.index < id.index := by
  rcases uses with ⟨record, held, listed⟩
  rcases Option.map_eq_some_iff.mp held with ⟨entry, found, rfl⟩
  exact ordered.inputs id.index entry found input listed

/-- An input of an op is an op of the log itself. -/
theorem get?_of_uses (ordered : log.Ordered) {id input : OpId} (uses : log.Uses id input) :
    ∃ record, log.get? input = some record := by
  rcases uses with ⟨record, held, listed⟩
  have within : input.index < log.entries.size :=
    Nat.lt_trans (ordered.lt_of_uses ⟨record, held, listed⟩) (lt_size_of_get? held)
  exact ⟨_, congrArg (Option.map OpEntry.toOpRecord) (Array.getElem?_eq_getElem within)⟩

theorem lt_of_transGen (ordered : log.Ordered) {id origin : OpId} (path : Relation.TransGen log.Uses id origin) :
    origin.index < id.index := by
  induction path with
  | single uses => exact ordered.lt_of_uses uses
  | tail _ uses inductionHypothesis => exact Nat.lt_trans (ordered.lt_of_uses uses) inductionHypothesis

theorem acyclic (ordered : log.Ordered) (id : OpId) : ¬Relation.TransGen log.Uses id id :=
  fun cycle => Nat.lt_irrefl _ (ordered.lt_of_transGen cycle)

end Ordered
end OpLog

/-! ### Recordings that pass on known ops -/

/-- The run creates ops from the given ones only, and what it returns fits the ops that are known then. -/
def Recording.Passes {α : Type} (given : List DataOp) (returns : List DataOp → α → Prop) (recording : Recording α) :
    Prop :=
  ∀ recorder value final, recording recorder = .ok (value, final) →
    ∃ made, OpLog.Made given recorder.log made final.log ∧ returns (given ++ made) value

/-- A method that makes its ops from its inputs and from each other, and returns such ops and inputs only. -/
def Method.PassesOn (method : Method) : Prop :=
  ∀ context inputs, Recording.Passes inputs (fun known returned => returned ⊆ known) (method.run context inputs)

namespace Recording.Passes

variable {α β : Type} {given : List DataOp} {returns : List DataOp → α → Prop} {others : List DataOp → β → Prop}

theorem pure {value : α} (fits : returns given value) : Passes given returns (Pure.pure value : Recording α) := by
  intro recorder other final ran
  cases ran
  exact ⟨[], .none, by rwa [List.append_nil]⟩

theorem throw (error : Error) : Passes given returns (MonadExcept.throw error : Recording α) := by
  intro recorder value final ran
  cases ran

theorem record (context : MethodContext) (label : String) {inputs : List OpId} (space : Space)
    (known : ∀ input ∈ inputs, ∃ op ∈ given, op.id = input) :
    Passes given (fun known op => op ∈ known) (context.record label inputs space) := by
  intro recorder value final ran
  cases ran
  refine ⟨_, .create .none { label, component := some context.component, inputs, space } ?_, ?_⟩
  · rwa [List.append_nil]
  · exact List.mem_append_right _ List.mem_cons_self

/-- The second part may use all ops that are known after the first. -/
theorem bind {first : Recording α} {next : α → Recording β} (passes : Passes given returns first)
    (nextPasses : ∀ known value, given ⊆ known → returns known value → Passes known others (next value)) :
    Passes given others (first >>= next) := by
  intro recorder value final ran
  rcases except_bind_eq_ok.mp ran with ⟨⟨between, middle⟩, firstRan, nextRan⟩
  rcases passes recorder between middle firstRan with ⟨made, madeFirst, fits⟩
  rcases nextPasses _ between (List.subset_append_left _ _) fits middle value final nextRan with ⟨more, madeNext, done⟩
  exact ⟨made ++ more, madeFirst.trans madeNext, by rwa [← List.append_assoc]⟩

theorem imp {weaker : List DataOp → α → Prop} {recording : Recording α} (passes : Passes given returns recording)
    (implies : ∀ known value, given ⊆ known → returns known value → weaker known value) :
    Passes given weaker recording := by
  intro recorder value final ran
  rcases passes recorder value final ran with ⟨made, is, fits⟩
  exact ⟨made, is, implies _ value (List.subset_append_left _ _) fits⟩

/-- More known ops do no harm. -/
theorem mono {more : List DataOp} {recording : Recording α} (passes : Passes given returns recording)
    (sub : given ⊆ more)
    (upward : ∀ known larger value, known ⊆ larger → returns known value → returns larger value) :
    Passes more returns recording := by
  intro recorder value final ran
  rcases passes recorder value final ran with ⟨made, is, fits⟩
  exact ⟨made, is.mono sub, upward _ _ value (OpLog.append_subset sub) fits⟩

/-- Every visit may use what the visits before it have created. -/
theorem mapM {visit : β → Recording α} {items : List β}
    (passes : ∀ item ∈ items, ∀ known, given ⊆ known → Passes known returns (visit item))
    (upward : ∀ known larger value, known ⊆ larger → returns known value → returns larger value) :
    Passes given (fun known values => ∀ value ∈ values, returns known value) (items.mapM visit) := by
  induction items generalizing given with
  | nil => exact pure fun value member => absurd member List.not_mem_nil
  | cons first rest inductionHypothesis =>
      rw [List.mapM_cons]
      refine (passes first List.mem_cons_self given (List.Subset.refl _)).bind fun known value sub fits => ?_
      have visited := inductionHypothesis fun item member larger subToo =>
        passes item (List.mem_cons_of_mem first member) larger (List.Subset.trans sub subToo)
      refine visited.bind fun larger values subToo each => pure ?_
      rw [List.forall_mem_cons]
      exact ⟨upward _ _ value subToo fits, each⟩

end Recording.Passes

/-! ### Firings -/

namespace Method

variable {method : Method} {context : MethodContext} {inputs known : List DataOp}

/-- Members of a larger list are members of it still. -/
theorem mem_upward (known larger : List DataOp) (op : DataOp) (sub : known ⊆ larger) (member : op ∈ known) :
    op ∈ larger :=
  sub member

/-- A call returns as many known ops as the method has outputs. -/
theorem passes_call (passes : method.PassesOn) (context : MethodContext) (sub : inputs ⊆ known) :
    Recording.Passes known (fun known outputs => outputs ⊆ known ∧ outputs.length = method.outputs)
      (method.call context inputs) := by
  have ran := (passes context inputs).mono sub fun _ _ _ larger fits => List.Subset.trans fits larger
  refine ran.bind fun known returned _ fits => ?_
  split
  next many => exact .pure ⟨fits, many⟩
  next => exact .throw _

theorem passes_splitInput (context : MethodContext) (key : String) {input : DataOp} (member : input ∈ known) :
    Recording.Passes known (fun known op => op ∈ known) (splitInput context key input) := by
  unfold splitInput
  split
  · cases Keyed.get? input.space.flatten key with
    | some part =>
        refine .record context _ _ fun id listed => ⟨input, member, ?_⟩
        exact (List.mem_singleton.mp listed).symm
    | none => exact .throw _
  · exact .pure member

theorem passes_callForKey (passes : method.PassesOn) (settings : Settings) (context : MethodContext) (key : String)
    (sub : inputs ⊆ known) :
    Recording.Passes known (fun known call => call.2 ⊆ known ∧ call.2.length = method.outputs)
      (method.callForKey settings context inputs key) := by
  have parts : Recording.Passes known (fun known parts => ∀ part ∈ parts, part ∈ known)
      (inputs.mapM (splitInput context key)) :=
    .mapM (fun input member larger subToo => passes_splitInput context key (subToo (sub member))) mem_upward
  refine parts.bind fun known parts _ each => ?_
  refine (passes_call passes { context with key := if settings.passKey then some key else none } each).bind
    fun known outputs _ fits => .pure fits

/-- Every call has an output of the number that is put together. -/
theorem passes_merge (settings : Settings) (context : MethodContext) {calls : List (String × List DataOp)} {count j : Nat}
    (each : ∀ call ∈ calls, call.2 ⊆ known ∧ call.2.length = count) (within : j < count) :
    Recording.Passes known (fun known op => op ∈ known) (merge settings context calls j) := by
  have sources : ∀ id ∈ (calls.map fun call => (call.1, call.2.getD j default)).map (fun output => output.2.id),
      ∃ op ∈ known, op.id = id := by
    intro id listed
    rw [List.map_map] at listed
    rcases List.mem_map.mp listed with ⟨call, isCall, rfl⟩
    rcases each call isCall with ⟨sub, length⟩
    have bound : j < call.2.length := length ▸ within
    refine ⟨call.2[j], sub (List.getElem_mem bound), ?_⟩
    show call.2[j].id = (call.2.getD j default).id
    rw [List.getD_eq_getElem _ _ bound]
  unfold merge
  dsimp only
  split
  · split
    · exact .record context _ _ sources
    · exact .throw _
  · exact .record context _ _ sources

/-- A firing makes its ops from its inputs and from each other, also where it is split and put together. -/
theorem passes_apply (passes : method.PassesOn) (settings : Settings) (context : MethodContext)
    (inputs : List DataOp) :
    Recording.Passes inputs (fun known outputs => outputs ⊆ known) (method.apply settings context inputs) := by
  unfold apply
  split
  · have calls : Recording.Passes inputs
        (fun known calls => ∀ call ∈ calls, call.2 ⊆ known ∧ call.2.length = method.outputs)
        ((splitKeys inputs).mapM (method.callForKey settings context inputs)) :=
      .mapM (fun key _ known sub => passes_callForKey passes settings context key sub)
        fun _ _ _ sub fits => ⟨List.Subset.trans fits.1 sub, fits.2⟩
    refine calls.bind fun known calls _ each => ?_
    refine Recording.Passes.mapM (fun j listed larger sub => ?_) mem_upward
    refine passes_merge settings context (fun call isCall => ?_) (List.mem_range.mp listed)
    exact ⟨List.Subset.trans (each call isCall).1 sub, (each call isCall).2⟩
  · exact (passes_call passes _ (List.Subset.refl _)).imp fun _ _ _ fits => fits.1

end Method

end Wiring
