import Wiring.Proofs.Build.Placed
import Wiring.Proofs.Exploration.Construction
import Wiring.Proofs.Graph.Binding

/-!
Contract: what the build of an exploration comes to.

Owns: for every graph, configuration and spaces, when an exploration can be built and what it then hands out. The build
takes the course that it takes for the exploration on its own, with a box in the place of each space, and there are few
such courses.

Does not own: explorations below other components, or in-sockets that get their ops over links.
-/

namespace Wiring

open Build Execution

/-! ### Boxes in the place of spaces -/

/-- What hooks can see of a space: whether it is a box of truth values, and whether it has a batch rank. -/
def Space.look (space : Space) : Bool × Bool :=
  (space.isBoxOf .bool, space.hasBatchRank)

namespace Exploration

/-- The in-sockets that there are in some mode. -/
def labels : List String :=
  ["actions", "time_step", "use_exploration"]

/-- A box that looks as asked for, in the place of a space for the named in-socket. -/
def token (looks : String → Bool × Bool) (name : String) : Space :=
  .box {
    element := if (looks name).1 then .bool else .int
    shape := [labels.idxOf name]
    batchRank := (looks name).2 }

theorem look_token (looks : String → Bool × Bool) (name : String) : (token looks name).look = looks name := by
  unfold token Space.look
  refine Prod.ext ?_ ?_
  · cases (looks name).1 <;> simp [Space.isBoxOf, Space.asBox?]
  · unfold Space.hasBatchRank Space.flatten Space.leavesUnder
    exact Bool.and_true _

/-- The space that a box stands for. A box that does not look like the space stands for itself. -/
def meant (spaceOf : String → Space) : Space → Space
  | .box box =>
      match box.shape with
      | [position] =>
          match labels[position]? with
          | some name => if (spaceOf name).look = (Space.box box).look then spaceOf name else .box box
          | none => .box box
      | _ => .box box
  | given => given

theorem look_meant (spaceOf : String → Space) (given : Space) : (meant spaceOf given).look = given.look := by
  unfold meant
  split
  · split
    · split
      · split
        · assumption
        · rfl
      · rfl
    · rfl
  · rfl

theorem meant_token {spaceOf : String → Space} {looks : String → Bool × Bool} {name : String} (listed : name ∈ labels)
    (same : looks name = (spaceOf name).look) : meant spaceOf (token looks name) = spaceOf name := by
  have look := look_token looks name
  unfold token at look ⊢
  unfold meant
  dsimp only
  rw [List.getElem?_idxOf listed]
  dsimp only
  rw [if_pos (same.symm.trans look.symm)]

/-- The exploration behind a graph, with the spaces that its boxes stand for. -/
def standing (graph : Graph) (spaceOf : String → Space) : Placement where
  base := graph
  space := meant spaceOf
  scalar box flat := by
    unfold meant
    dsimp only
    rw [flat]
  isBoxOf given := congrArg Prod.fst (look_meant spaceOf given)
  hasBatchRank given := congrArg Prod.snd (look_meant spaceOf given)

/-! ### The exploration on its own -/

/-- An exploration with this strategy in an empty graph. -/
def wired (strategy : Strategy) : Graph :=
  after (wireFirst strategy) outlined

theorem holds_of_create {config : ExplorationConfig} {actions : Space} {place : Placement} {exploration : Exploration}
    {made : Graph} (created : (create config actions).run place.base = (.ok exploration, made)) :
    exploration.id = place.component ⟨0⟩ ∧ place.Holds (wired exploration.mode.strategy) made := by
  rcases accepted_of_create created with ⟨accepted, allowed, sound⟩
  rcases run_outline allowed place with ⟨outlines, holds⟩
  have follows := follows_wire holds sound
  rcases follows.of_isOk (wire_strategy _) with ⟨_, mode, -, wires, chosen⟩
  rw [create_eq, run_query_bind accepted, run_bind_ok (run_of_outcome outlines),
    run_bind_ok (run_of_outcome wires)] at created
  obtain rfl := Except.ok.inj (congrArg Prod.fst created)
  obtain rfl : after (wire (place.component ⟨0⟩) config) (after (outline config.scope) place.base) = made :=
    congrArg Prod.snd created
  refine ⟨rfl, ?_⟩
  rw [chosen]
  exact follows.leaves

/-- The in-sockets that there are with a strategy. -/
def inputNames : Strategy → List String
  | .epsilon => labels
  | .noise => ["actions", "use_exploration"]
  | .passThrough => ["actions"]

/-- The exploration and the component below it, if there is one. -/
def memberIds : Strategy → List ComponentId
  | .passThrough => [⟨0⟩]
  | _ => [⟨0⟩, ⟨1⟩]

theorem inputNames_subset (strategy : Strategy) : ∀ name ∈ inputNames strategy, name ∈ labels := by
  cases strategy <;> decide

/-- The in-socket of a name. -/
def inputOf (strategy : Strategy) (name : String) : SocketId :=
  ((wired strategy).resolve ⟨0⟩ (.named name) none).toOption.getD ⟨0⟩

/-- What three evaluations tell: which components and in-sockets there are, that actions pass through the first two
sockets, and that every in-socket is found under its name. -/
theorem evaluate_wired (strategy : Strategy) :
    (((wired strategy).component ⟨0⟩ >>= fun node => (wired strategy).socketNames node.inputs).toOption =
        some (inputNames strategy) ∧
      ((wired strategy).subtree ⟨0⟩).toOption = some (memberIds strategy)) ∧
    (((wired strategy).resolve ⟨0⟩ (.named "actions") (some .input)).toOption = some ⟨0⟩ ∧
      ((wired strategy).resolve ⟨0⟩ (.named "action") (some .output)).toOption = some ⟨1⟩) ∧
    (∀ name ∈ inputNames strategy, ((wired strategy).resolve ⟨0⟩ (.named name) none).isOk = true ∧
      ((wired strategy).socket? (inputOf strategy name)).map Socket.side = some .input) ∧
    ∀ one ∈ inputNames strategy, ∀ other ∈ inputNames strategy,
      inputOf strategy one = inputOf strategy other → one = other := by
  cases strategy <;> decide +kernel

theorem inputNames_wired (strategy : Strategy) : ((wired strategy).component ⟨0⟩ >>= fun node =>
    (wired strategy).socketNames node.inputs).toOption = some (inputNames strategy) :=
  (evaluate_wired strategy).1.1

theorem subtree_wired (strategy : Strategy) : ((wired strategy).subtree ⟨0⟩).toOption = some (memberIds strategy) :=
  (evaluate_wired strategy).1.2

/-- The first two sockets are the ends through which actions pass. -/
theorem ends_wired (strategy : Strategy) :
    ((wired strategy).resolve ⟨0⟩ (.named "actions") (some .input)).toOption = some ⟨0⟩ ∧
      ((wired strategy).resolve ⟨0⟩ (.named "action") (some .output)).toOption = some ⟨1⟩ :=
  (evaluate_wired strategy).2.1

theorem inputOf_injective (strategy : Strategy) : ∀ one ∈ inputNames strategy, ∀ other ∈ inputNames strategy,
    inputOf strategy one = inputOf strategy other → one = other :=
  (evaluate_wired strategy).2.2.2

theorem input_wired {strategy : Strategy} {name : String} (listed : name ∈ inputNames strategy) :
    (wired strategy).Input ⟨0⟩ name (inputOf strategy name) := by
  rcases (evaluate_wired strategy).2.2.1 name listed with ⟨found, input⟩
  refine ⟨?_, ?_⟩
  · unfold inputOf
    cases resolved : (wired strategy).resolve ⟨0⟩ (.named name) none with
    | ok id => rfl
    | error error =>
        rw [resolved] at found
        cases found
  · exact Option.map_eq_some_iff.mp input

/-! ### Trials -/

/-- Boxes that look as given. -/
def seen (actions time switch : Bool × Bool) (name : String) : Bool × Bool :=
  if name = "actions" then actions else if name = "time_step" then time else switch

theorem seen_look {spaceOf : String → Space} {name : String} (listed : name ∈ labels) :
    seen (spaceOf "actions").look (spaceOf "time_step").look (spaceOf "use_exploration").look name =
      (spaceOf name).look := by
  rcases List.mem_cons.mp listed with rfl | listed
  · rfl
  rcases List.mem_cons.mp listed with rfl | listed
  · rfl
  rw [List.mem_singleton.mp listed]
  rfl

/-- The exploration on its own, with a box at each in-socket. -/
def bound (strategy : Strategy) (looks : String → Bool × Bool) : Graph :=
  after (Graph.bindEach ⟨0⟩ (token looks) (inputNames strategy)) (wired strategy)

/-- A build whose hooks need nothing else. -/
def trial (config : BuildConfig) : SessionM Report :=
  run (hooksOf fun _ _ => throw .exhausted) 100 ⟨0⟩ config

/-- The space is the box for the actions. -/
def isActions (looks : String → Bool × Bool) : Space → Bool
  | .box box => box.shape = [0] && (Space.box box).look = looks "actions"
  | _ => false

/-- The op is the placeholder of the actions. -/
def isPlaceholder (looks : String → Bool × Bool) (report : Report) (op : DataOp) : Bool :=
  match report.opsAt ⟨0⟩ with
  | [given] => given.id = op.id && isActions looks given.space &&
      (report.log.get? op.id).any fun record => record.label = "placeholder"
  | _ => false

/-- There is one op at the out-socket, with the box for the actions. -/
def handsOut (strategy : Strategy) (looks : String → Bool × Bool) (report : Report) : Bool :=
  match report.opsAt ⟨1⟩ with
  | [op] => isActions looks op.space && (strategy ≠ .passThrough || isPlaceholder looks report op)
  | _ => false

/-- Whether the build of the exploration succeeds as it should, or fails for its configuration; nothing else
happens. -/
def verdict (strategy : Strategy) (looks : String → Bool × Bool) (config : BuildConfig) : Option Bool :=
  let session : Session := { graph := bound strategy looks }
  match outcome (trial config) session with
  | .ok report =>
      if report.incomplete.isEmpty && (memberIds strategy).all (after (trial config) session).graph.isComplete &&
        handsOut strategy looks report then some true else none
  | .error (.failed error) => if error.kind = .configuration then some false else none
  | .error .exhausted => none

/-- Marks can be cleared. The actions must come in batches, and an exploration that explores needs a switch. -/
theorem evaluate_bound (strategy : Strategy) (actions time switch : Bool × Bool) (config : BuildConfig) :
    (outcome ((memberIds strategy).forM reset) (bound strategy (seen actions time switch))).isOk = true ∧
    verdict strategy (seen actions time switch) config =
      some (actions.2 && (strategy = .passThrough || switch.1)) := by
  obtain ⟨allow⟩ := config
  obtain ⟨truth, batch⟩ := actions
  obtain ⟨truthToo, batchToo⟩ := time
  obtain ⟨truthSwitch, batchSwitch⟩ := switch
  revert allow truth batch truthToo batchToo truthSwitch batchSwitch
  cases strategy <;> decide +kernel

/-! ### Builds -/

/-- Actions come in batches, and an exploration that explores can be switched off. -/
def Fits (strategy : Strategy) (spaceOf : String → Space) : Prop :=
  (spaceOf "actions").hasBatchRank = true ∧
    (strategy ≠ .passThrough → (spaceOf "use_exploration").isBoxOf .bool = true)

theorem fits_iff {strategy : Strategy} {spaceOf : String → Space} : Fits strategy spaceOf ↔
    ((spaceOf "actions").look.2 && (strategy = .passThrough || (spaceOf "use_exploration").look.1)) = true := by
  unfold Fits Space.look
  rw [Bool.and_eq_true, Bool.or_eq_true, decide_eq_true_iff]
  exact and_congr_right' (Decidable.or_iff_not_imp_left).symm

/-- The op is the one that stands for the input of the actions. -/
structure IsPlaceholder (exploration : Exploration) (made : Graph) (report : Report) (op : DataOp) : Prop where
  arrives : ∃ source, made.resolve exploration.id (.named "actions") (some .input) = .ok source ∧
    report.opsAt source = [op]
  placed : (report.log.get? op.id).map OpRecord.label = some "placeholder"

/-- The exploration was made in a graph and then built with success. -/
structure Built (exploration : Exploration) (made : Graph) (actions : Space) (report : Report) (later : Graph) :
    Prop where
  incomplete : report.incomplete = []
  complete : ∃ members, made.subtree exploration.id = .ok members ∧
    ∀ member ∈ members, later.isComplete member = true
  handsOut : ∃ socket op, made.resolve exploration.id (.named "action") (some .output) = .ok socket ∧
    report.opsAt socket = [op] ∧ op.space = actions ∧
      (exploration.mode.strategy = .passThrough → IsPlaceholder exploration made report op)

section

variable {graph made : Graph} {exploration : Exploration} {spaceOf : String → Space} {looks : String → Bool × Bool}
  {report : Report}

theorem meant_of_isActions (same : looks "actions" = (spaceOf "actions").look) {space : Space}
    (given : isActions looks space = true) : meant spaceOf space = spaceOf "actions" := by
  cases space with
  | dict entries => cases given
  | tuple parts => cases given
  | box box =>
      obtain ⟨shape, look⟩ := (Bool.and_eq_true _ _).mp given
      have shape : box.shape = [0] := of_decide_eq_true shape
      have look : (Space.box box).look = looks "actions" := of_decide_eq_true look
      unfold meant
      dsimp only
      rw [shape]
      exact if_pos (same.symm.trans look.symm)

theorem resolve_of_toOption {place : Placement} (holds : place.Holds (wired exploration.mode.strategy) made)
    (named : exploration.id = place.component ⟨0⟩) {name : String} {side : Side} {id : SocketId}
    (found : ((wired exploration.mode.strategy).resolve ⟨0⟩ (.named name) (some side)).toOption = some id) :
    made.resolve exploration.id (.named name) (some side) = .ok (place.socket id) := by
  have resolved := except_toOption_eq_some.mp found
  rcases (Placement.echo_resolve holds ⟨0⟩ (.named name) (some side)).of_ok resolved with ⟨_, resolvedToo, rfl⟩
  rw [named]
  exact resolvedToo

theorem isPlaceholder_place (holds : (standing graph spaceOf).Holds (wired exploration.mode.strategy) made)
    (named : exploration.id = (standing graph spaceOf).component ⟨0⟩)
    (same : looks "actions" = (spaceOf "actions").look) {op : DataOp} (actions : isActions looks op.space = true)
    (is : isPlaceholder looks report op = true) :
    IsPlaceholder exploration made ((standing graph spaceOf).report report) ((standing graph spaceOf).op op) := by
  unfold isPlaceholder at is
  split at is
  case h_2 => cases is
  case h_1 given arrived =>
      obtain ⟨is, placed⟩ := (Bool.and_eq_true _ _).mp is
      obtain ⟨ids, spaces⟩ := (Bool.and_eq_true _ _).mp is
      have ids : given.id = op.id := of_decide_eq_true ids
      constructor
      case arrives =>
        refine ⟨_, resolve_of_toOption holds named (ends_wired _).1, ?_⟩
        rw [Placement.opsAt_report, arrived]
        show [(⟨given.id, meant spaceOf given.space⟩ : DataOp)] = [⟨op.id, meant spaceOf op.space⟩]
        rw [ids, meant_of_isActions same spaces, meant_of_isActions same actions]
      case placed =>
        obtain ⟨record, found, label⟩ := (Option.any_eq_true _ _).mp placed
        show (((standing graph spaceOf).log report.log).get? op.id).map OpRecord.label = some "placeholder"
        rw [Placement.get?_log, found]
        exact congrArg some (of_decide_eq_true label)

theorem isComplete_place {place : Placement} {part whole : Graph} (holds : place.Holds part whole) {id : ComponentId}
    (complete : part.isComplete id = true) : whole.isComplete (place.component id) = true := by
  unfold Graph.isComplete at complete ⊢
  cases found : part.component? id with
  | none =>
      rw [found] at complete
      cases complete
  | some node =>
      rcases Placement.node_of_found holds found with ⟨other, foundToo, stands⟩
      rw [found] at complete
      rw [foundToo]
      exact stands.complete.trans complete

theorem built_place (holds : (standing graph spaceOf).Holds (wired exploration.mode.strategy) made)
    (named : exploration.id = (standing graph spaceOf).component ⟨0⟩)
    (same : looks "actions" = (spaceOf "actions").look) {part whole : Graph}
    (holdsAfter : (standing graph spaceOf).Holds part whole)
    (succeeds : (report.incomplete.isEmpty && (memberIds exploration.mode.strategy).all part.isComplete &&
      handsOut exploration.mode.strategy looks report) = true) :
    Built exploration made (spaceOf "actions") ((standing graph spaceOf).report report) whole := by
  obtain ⟨succeeds, hands⟩ := (Bool.and_eq_true _ _).mp succeeds
  obtain ⟨empty, complete⟩ := (Bool.and_eq_true _ _).mp succeeds
  constructor
  case incomplete =>
    show report.incomplete.map _ = []
    rw [List.isEmpty_iff.mp empty]
    rfl
  case complete =>
    have listed := Placement.subtree_place holds (except_toOption_eq_some.mp (subtree_wired exploration.mode.strategy))
    rw [← named] at listed
    refine ⟨_, listed, fun member isMember => ?_⟩
    rcases List.mem_map.mp isMember with ⟨id, isId, rfl⟩
    exact isComplete_place holdsAfter (List.all_eq_true.mp complete id isId)
  case handsOut =>
    unfold handsOut at hands
    split at hands
    case h_2 => cases hands
    case h_1 op arrived =>
      obtain ⟨actions, placeholder⟩ := (Bool.and_eq_true _ _).mp hands
      refine ⟨_, (standing graph spaceOf).op op, resolve_of_toOption holds named (ends_wired _).2, ?_, ?_, ?_⟩
      · rw [Placement.opsAt_report, arrived]
        rfl
      · exact meant_of_isActions same actions
      · intro passes
        refine isPlaceholder_place holds named same actions ?_
        rcases (Bool.or_eq_true _ _).mp placeholder with explores | is
        · exact absurd passes (of_decide_eq_true explores)
        · exact is

end

theorem of_verdict_true {strategy : Strategy} {looks : String → Bool × Bool} {config : BuildConfig}
    (succeeds : verdict strategy looks config = some true) :
    ∃ report, outcome (trial config) { graph := bound strategy looks } = .ok report ∧
      (report.incomplete.isEmpty &&
        (memberIds strategy).all (after (trial config) { graph := bound strategy looks }).graph.isComplete &&
        handsOut strategy looks report) = true := by
  unfold verdict at succeeds
  dsimp only at succeeds
  split at succeeds
  case h_1 report answered =>
    split at succeeds
    case isTrue is => exact ⟨report, answered, is⟩
    case isFalse => cases succeeds
  case h_2 => split at succeeds <;> cases succeeds
  case h_3 => cases succeeds

theorem of_verdict_false {strategy : Strategy} {looks : String → Bool × Bool} {config : BuildConfig}
    (fails : verdict strategy looks config = some false) :
    ∃ error, outcome (trial config) { graph := bound strategy looks } = .error (.failed error) ∧
      error.kind = .configuration := by
  unfold verdict at fails
  dsimp only at fails
  split at fails
  case h_1 => split at fails <;> cases fails
  case h_2 error answered =>
    split at fails
    case isTrue is => exact ⟨error, answered, is⟩
    case isFalse => cases fails
  case h_3 => cases fails

section

variable {place : Placement} {strategy : Strategy} {made : Graph} (holds : place.Holds (wired strategy) made)
include holds

theorem inputNames_place : ∃ node, made.component? (place.component ⟨0⟩) = some node ∧
    made.socketNames node.inputs = .ok (inputNames strategy) := by
  rcases except_bind_eq_ok.mp (except_toOption_eq_some.mp (inputNames_wired strategy)) with ⟨node, found, names⟩
  rcases (Placement.echo_component holds ⟨0⟩).of_ok found with ⟨other, foundToo, stands⟩
  rcases (Placement.echo_socketNames holds node.inputs).of_ok names with ⟨_, namesToo, rfl⟩
  refine ⟨other, Graph.component_eq_ok.mp foundToo, ?_⟩
  rw [stands.inputs]
  exact namesToo

/-- The order in which the spaces are bound makes no difference. -/
theorem holds_bound {looks : String → Bool × Bool} {spaceOf : String → Space}
    (stands : ∀ name ∈ inputNames strategy, place.space (token looks name) = spaceOf name) {order : List String}
    (each : order.Perm (inputNames strategy)) : ∃ ready,
      (Graph.bindEach (place.component ⟨0⟩) spaceOf order).run made = (.ok ⟨⟩, ready) ∧
        place.Holds (bound strategy looks) ready := by
  have inputs : ∀ name ∈ inputNames strategy, (wired strategy).Input ⟨0⟩ name (inputOf strategy name) :=
    fun name listed => input_wired listed
  have ordered := Graph.run_bindEach_perm each inputs (inputOf_injective strategy) (token looks)
  have ran : outcome (Graph.bindEach ⟨0⟩ (token looks) order) (wired strategy) = .ok ⟨⟩ := by
    rw [outcome, ordered, Graph.run_bindEach inputs]
  have same : after (Graph.bindEach ⟨0⟩ (token looks) order) (wired strategy) = bound strategy looks :=
    congrArg Prod.snd ordered
  have follows := Placement.follows_bindEach holds ⟨0⟩ fun name listed => stands name (each.mem_iff.mp listed)
  rcases follows.answers.of_ok ran with ⟨_, ranToo, -⟩
  refine ⟨_, run_of_outcome ranToo, ?_⟩
  rw [← same]
  exact follows.leaves

end

/-- The trial tells how the build goes in its place. -/
theorem follows_trial {place : Placement} {strategy : Strategy} {actions time switch : Bool × Bool} {session : Session}
    (holds : place.Holds (bound strategy (seen actions time switch)) session.graph)
    (execute : ComponentId → Operation → SessionM Answer) {fuel : Nat} (enough : 100 ≤ fuel) (config : BuildConfig) :
    Follows place.Meets (fun report same => same = place.report report) (trial config)
      (run (hooksOf execute) fuel (place.component ⟨0⟩) config)
      { graph := bound strategy (seen actions time switch) } session := by
  have listed : (bound strategy (seen actions time switch)).subtree ⟨0⟩ = .ok (memberIds strategy) := by
    have same : Graph.SameFaces (bound strategy (seen actions time switch)) (wired strategy) :=
      Graph.sameFaces_bindEach (fun name listed => input_wired listed) _
    rw [same.subtree_eq]
    exact except_toOption_eq_some.mp (subtree_wired strategy)
  have ⟨cleared, told⟩ := evaluate_bound strategy actions time switch config
  have returned : outcome (trial config) { graph := bound strategy (seen actions time switch) } ≠
      .error .exhausted := by
    intro cut
    unfold verdict at told
    dsimp only at told
    rw [cut] at told
    cases told
  exact Placement.follows_run _ execute enough holds listed cleared returned

/-- For every graph, every exploration that was made in it and all spaces, bound in any order one each to the in-sockets
that it has: its build succeeds if the actions have a batch rank and the switch, where there is one, is a box of truth
values, and otherwise fails for its configuration. After a success every component of the exploration is complete, and
one op has reached the out-socket, with the space of the actions; if the exploration passes actions through, that is
the placeholder of the actions itself. -/
theorem build_of_create {graph made : Graph} {config : ExplorationConfig} {actions : Space} {exploration : Exploration}
    (created : (create config actions).run graph = (.ok exploration, made)) {order : List String}
    (each : order.Perm (inputNames exploration.mode.strategy)) (spaceOf : String → Space) :
    (∃ node, made.component? exploration.id = some node ∧
      made.socketNames node.inputs = .ok (inputNames exploration.mode.strategy)) ∧
    ∃ ready, (Graph.bindEach exploration.id spaceOf order).run made = (.ok ⟨⟩, ready) ∧
      ∀ (session : Session) (execute : ComponentId → Operation → SessionM Answer) (fuel : Nat) (config : BuildConfig),
        session.graph = ready → 100 ≤ fuel →
        (Fits exploration.mode.strategy spaceOf → ∃ report,
          outcome (run (hooksOf execute) fuel exploration.id config) session = .ok report ∧
            Built exploration made (spaceOf "actions") report
              (after (run (hooksOf execute) fuel exploration.id config) session).graph) ∧
        (¬Fits exploration.mode.strategy spaceOf → ∃ error,
          outcome (run (hooksOf execute) fuel exploration.id config) session = .error (.failed error) ∧
            error.kind = .configuration) := by
  have behind : (create config actions).run (standing graph spaceOf).base = (.ok exploration, made) := created
  rcases holds_of_create behind with ⟨named, holds⟩
  rw [named]
  refine ⟨inputNames_place holds, ?_⟩
  have same : seen (spaceOf "actions").look (spaceOf "time_step").look (spaceOf "use_exploration").look "actions" =
      (spaceOf "actions").look := rfl
  have stands : ∀ name ∈ inputNames exploration.mode.strategy,
      (standing graph spaceOf).space (token _ name) = spaceOf name :=
    fun name listed => meant_token (inputNames_subset _ name listed) (seen_look (inputNames_subset _ name listed))
  rcases holds_bound holds stands each with ⟨ready, binds, holdsReady⟩
  refine ⟨ready, binds, fun session execute fuel config is enough => ?_⟩
  subst is
  have follows := follows_trial holdsReady execute enough config
  have told := (evaluate_bound exploration.mode.strategy (spaceOf "actions").look (spaceOf "time_step").look
    (spaceOf "use_exploration").look config).2
  constructor
  · intro fits
    rw [fits_iff.mp fits] at told
    rcases of_verdict_true told with ⟨report, answered, succeeds⟩
    rcases follows.answers.of_ok answered with ⟨_, answeredToo, rfl⟩
    exact ⟨_, answeredToo, built_place holds named same follows.leaves succeeds⟩
  · intro unfit
    rw [Bool.eq_false_iff.mpr (mt fits_iff.mpr unfit)] at told
    rcases of_verdict_false told with ⟨error, answered, kind⟩
    rcases follows.answers.of_error answered with ⟨stop, answeredToo, sameKind⟩
    cases stop with
    | exhausted => cases sameKind
    | failed errorToo => exact ⟨errorToo, answeredToo, (Option.some.inj sameKind).symm.trans kind⟩

/-- Batches of two actions under keys, a step number and a switch. -/
def keyedActions : String → Space
  | "actions" => Space.withBatchRank (.dict [("left", .intBox 2 []), ("right", .floatBox [3])])
  | "use_exploration" => .boolBox []
  | _ => .intBox 10 []

/-- An exploration with a schedule, in a graph that has components already, hands out the container of its actions; it
fails if the switch is exchanged for a number. -/
theorem build_of_create_keyed : ∃ exploration made ready other report error,
    (create { epsilon := some {} } (.intBox 2 [])).run (after Graph.doubled {}) = (.ok exploration, made) ∧
    (Graph.bindEach exploration.id keyedActions ["use_exploration", "actions", "time_step"]).run made =
      (.ok ⟨⟩, ready) ∧
    (Graph.bindEach exploration.id (fun _ => keyedActions "actions") ["time_step", "actions", "use_exploration"]).run
      made = (.ok ⟨⟩, other) ∧
    outcome (run (hooksOf fun _ _ => throw .exhausted) 100 exploration.id {}) { graph := ready } = .ok report ∧
    Built exploration made (keyedActions "actions") report
      (after (run (hooksOf fun _ _ => throw .exhausted) 100 exploration.id {}) { graph := ready }).graph ∧
    outcome (run (hooksOf fun _ _ => throw .exhausted) 100 exploration.id {}) { graph := other } =
      .error (.failed error) ∧ error.kind = .configuration := by
  have allowed : isScope "exploration" = true := by decide +kernel
  have accepted : checkConfig { epsilon := some {} } (.intBox 2 []) = .ok ⟨⟩ := rfl
  rcases run_create accepted allowed (fun none => nomatch none) (after Graph.doubled {}) with ⟨exploration, made⟩
  have chosen : exploration.mode.strategy = .epsilon := by
    have strategies : (outcome (create { epsilon := some {} } (.intBox 2 [])) (after Graph.doubled {})).toOption.map
        (fun exploration => exploration.mode.strategy) = some .epsilon := by
      decide +kernel
    rw [made] at strategies
    exact Option.some.inj strategies
  have created := run_of_outcome made
  have fits : Fits exploration.mode.strategy keyedActions := by
    rw [chosen]
    exact ⟨by decide +kernel, fun _ => by decide +kernel⟩
  have unfit : ¬Fits exploration.mode.strategy fun _ => keyedActions "actions" := by
    rw [chosen]
    exact fun fits => absurd (fits.2 (by decide)) (by decide +kernel)
  have firstOrder : ["use_exploration", "actions", "time_step"].Perm (inputNames exploration.mode.strategy) := by
    rw [chosen]
    decide
  have secondOrder : ["time_step", "actions", "use_exploration"].Perm (inputNames exploration.mode.strategy) := by
    rw [chosen]
    decide
  rcases (build_of_create created firstOrder keyedActions).2 with ⟨ready, binds, builds⟩
  rcases (build_of_create created secondOrder fun _ => keyedActions "actions").2 with ⟨other, bindsToo, buildsToo⟩
  rcases (builds { graph := ready } (fun _ _ => throw .exhausted) 100 {} rfl (Nat.le_refl _)).1 fits with
    ⟨report, answered, built⟩
  rcases (buildsToo { graph := other } (fun _ _ => throw .exhausted) 100 {} rfl (Nat.le_refl _)).2 unfit with
    ⟨error, failed, kind⟩
  exact ⟨exploration, _, ready, other, report, error, created, binds, bindsToo, answered, built, failed, kind⟩

end Exploration

end Wiring
