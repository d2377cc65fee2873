import Wiring.Proofs.Blueprint.Restored

/-!
Contract: a blueprint and what is made from it describe each other.

Owns: the two outcomes of `instantiate` on the blueprint of a sound graph; and the round trip through a
blueprint between reachable graphs.
-/

namespace Wiring.Graph

/-! ### The configuration of the new root -/

theorem scope_rootConfig (config : ComponentConfig) (name scope : Option String) :
    (rootConfig config name scope).scope = scope.getD config.scope := by
  cases name <;> cases scope <;> rfl

/-- A new scope also names the root, unless a name is given; the rest of the configuration stays. -/
theorem explicit_rootConfig (config : ComponentConfig) (name scope : Option String) :
    (rootConfig config name scope).explicit = { config with
      scope := scope.getD config.scope
      name := some ((name.or scope).getD config.resolvedName) } := by
  cases name <;> cases scope <;> rfl

/-! ### The two outcomes -/

theorem run_create_error {config : ComponentConfig} (scope : isScope config.scope = false) (graph : Graph) :
    (create config).run graph = (.error (.scopeFormat config.scope), graph) := by
  unfold create
  rw [if_neg (by simp [scope])]
  rfl

/-- A malformed scope is noticed before anything is made. -/
theorem instantiate_error (blueprint : Blueprint) (name : Option String) {scope : String}
    (malformed : isScope scope = false) (graph : Graph) :
    (instantiate blueprint name (some scope)).run graph = (.error (.scopeFormat scope), graph) := by
  have given : (rootConfig blueprint.root.config name (some scope)).scope = scope :=
    scope_rootConfig blueprint.root.config name (some scope)
  have failed : (create (rootConfig blueprint.root.config name (some scope))).run graph =
      (.error (.scopeFormat scope), graph) := by
    rw [run_create_error (by rw [given, malformed]), given]
  have planFailed : (instantiatePlan (rootConfig blueprint.root.config name (some scope)) blueprint.root).run graph =
      (.error (.scopeFormat scope), graph) := by
    cases plan : blueprint.root with
    | node config sockets methods computations hook children =>
        rw [plan] at failed
        rw [instantiatePlan]
        exact run_bind_error failed _
  rw [instantiate_eq]
  exact run_bind_error planFailed _

/-- The blueprint of a component of a sound graph can be made in any sound graph, for any proper scope. What is
made is not connected with anything else, and its connections are in the order in which blueprints are made. -/
theorem Sound.instantiate_ok {source base : Graph} (sound : Sound source) (begun : Sound base) {id : ComponentId}
    {node : Component} (found : source.component? id = some node) :
    ∃ blueprint, source.blueprint id = .ok blueprint ∧ blueprint.root.config = node.toConfig ∧
      ∀ name scope : Option String, isScope (scope.getD node.scope) = true →
        ∃ root final, (instantiate blueprint name scope).run base = (.ok root, final) ∧
          Sound final ∧ Extends base final ∧ base.component? root = none ∧
          (∃ new, final.component? root = some new ∧ new.parent = none) ∧
          final.blueprint root = .ok { blueprint with
            root := blueprint.root.withConfig (rootConfig node.toConfig name scope).explicit } ∧
          final.Enclosed root ∧ final.Phased root ∧ final.Unfed root := by
  rcases blueprint_ok sound found with ⟨plan, members, planned, listed, answered⟩
  have config : plan.config = node.toConfig := (planned.drawn_of_found found).config
  refine ⟨_, answered, config, fun name scope proper => ?_⟩
  have properRoot : isScope (rootConfig node.toConfig name scope).scope = true := by
    rw [scope_rootConfig]
    exact proper
  rcases instantiatePlan_ok sound plan ⟨id, planned⟩ _ properRoot base begun with ⟨root, made, ran, raised⟩
  rcases restore_ok sound planned listed begun raised with
    ⟨final, restored, soundFinal, extended, same, blueprint, order⟩
  refine ⟨root, final, ?_, soundFinal, extended, raised.fresh, ?_, blueprint, order⟩
  · rw [instantiate_eq, config, run_bind_ok ran]
    exact restored
  · rcases raised.top with ⟨new, newFound, top⟩
    exact ⟨new, (same root).trans newFound, top⟩

/-! ### The round trip -/

/-- Every component of a reachable graph has a blueprint. Made in a reachable graph it fails only for a
malformed scope, and then leaves the graph as it was. Otherwise there is a new component without parent whose
blueprint is the same but for scope and name of the root; everything older is unchanged; and no entry of a
connection list joins something new with something old. -/
theorem Reachable.instantiate_blueprint {source target : Graph} (sourceReachable : source.Reachable)
    (targetReachable : target.Reachable) {id : ComponentId} {node : Component}
    (found : source.component? id = some node) :
    ∃ blueprint, source.blueprint id = .ok blueprint ∧ ∀ name scope : Option String,
      (∀ given, scope = some given → isScope given = false →
        (instantiate blueprint name scope).run target = (.error (.scopeFormat given), target)) ∧
      ((∀ given, scope = some given → isScope given = true) →
        ∃ root final, (instantiate blueprint name scope).run target = (.ok root, final) ∧
          target.component? root = none ∧ (∃ new, final.component? root = some new ∧ new.parent = none) ∧
          final.blueprint root = .ok { blueprint with
            root := blueprint.root.withConfig { blueprint.root.config with
              scope := scope.getD node.scope
              name := some ((name.or scope).getD node.name) } } ∧
          Extends target final ∧
          ∀ socket held, final.socket? socket = some held →
            (∀ other ∈ socketEntries held.incoming ++ socketEntries held.outgoing,
              (target.socket? other).isSome = (target.socket? socket).isSome) ∧
            ∀ computation ∈ computationEntries held.incoming ++ computationEntries held.outgoing,
              (target.computation? computation).isSome = (target.socket? socket).isSome) := by
  have sound := sourceReachable.sound
  have begun := targetReachable.sound
  rcases sound.instantiate_ok begun found with ⟨blueprint, answered, config, made⟩
  refine ⟨blueprint, answered, fun name scope => ⟨?_, fun proper => ?_⟩⟩
  · rintro given rfl malformed
    exact instantiate_error blueprint name malformed target
  · have properScope : isScope (scope.getD node.scope) = true := by
      cases scope with
      | none => exact sound.tree.scope id node found
      | some given => exact proper given rfl
    rcases made name scope properScope with ⟨root, final, ran, soundFinal, extended, fresh, top, again, -⟩
    refine ⟨root, final, ran, fresh, top, ?_, extended, fun socket held => extended.apart begun soundFinal⟩
    rw [again, explicit_rootConfig, config]
    rfl

/-- A component that shows the sockets of the one below it, where a computation reads one and a space is bound. -/
def nested : GraphM Unit := do
  let inner ← create { scope := "inner" }
  let _ ← addSockets inner ["in"] (some .input) false
  let _ ← addSockets inner ["out"] (some .output) false
  register inner { name := "pass", inputs := 1, outputs := 1, run := fun _ given => return given }
  let _ ← compute inner ["in"] ["out"] none {}
  connect inner (.space (.box {})) (.socket (.named "in"))
  let outer ← create { scope := "outer" }
  add outer inner .all

theorem keeps_nested : Keeps Reaches nested := by
  refine Keeps.bind (Reaches.create _) fun inner => ?_
  refine Keeps.bind (Reaches.addSockets inner _ _ _) fun _ => ?_
  refine Keeps.bind (Reaches.addSockets inner _ _ _) fun _ => ?_
  refine Keeps.bind (Reaches.register inner _) fun _ => ?_
  refine Keeps.bind (Reaches.compute inner _ _ _ _) fun _ => ?_
  refine Keeps.bind (Reaches.connect inner _ _) fun _ => ?_
  refine Keeps.bind (Reaches.create _) fun outer => ?_
  exact Reaches.add outer inner .all

theorem reachable_nested : (after nested {}).Reachable :=
  (reachable_empty {}).reaches (keeps_nested {})

theorem instantiate_blueprint_nested :
    ∃ blueprint root final, (after nested {}).blueprint ⟨1⟩ = .ok blueprint ∧
      (instantiate blueprint none (some "copy")).run (after nested {}) = (.ok root, final) ∧
      ∃ again, final.blueprint root = .ok again ∧ again.links = blueprint.links ∧ again.links.length = 2 ∧
        again.bindings.length = 1 ∧ again.root.config.name = some "copy" := by
  have general (graph : Graph) (reachable : graph.Reachable) (made : (graph.component? ⟨1⟩).isSome = true)
      (sizes : (graph.blueprint ⟨1⟩).toOption.map (fun blueprint =>
        (blueprint.links.length, blueprint.bindings.length)) = some (2, 1)) :
      ∃ blueprint root final, graph.blueprint ⟨1⟩ = .ok blueprint ∧
        (instantiate blueprint none (some "copy")).run graph = (.ok root, final) ∧
        ∃ again, final.blueprint root = .ok again ∧ again.links = blueprint.links ∧ again.links.length = 2 ∧
          again.bindings.length = 1 ∧ again.root.config.name = some "copy" := by
    rcases Option.isSome_iff_exists.mp made with ⟨node, found⟩
    rcases Reachable.instantiate_blueprint reachable reachable found with ⟨blueprint, answered, outcomes⟩
    have proper : ∀ given, some "copy" = some given → isScope given = true := by
      intro given same
      rw [← Option.some.inj same]
      decide +kernel
    rcases (outcomes none (some "copy")).2 proper with ⟨root, final, ran, -, -, again, -⟩
    rw [answered] at sizes
    have lengths := Prod.mk.inj (Option.some.inj sizes)
    refine ⟨blueprint, root, final, answered, ran, _, again, rfl, lengths.1, lengths.2, ?_⟩
    rw [ComponentPlan.config_withConfig]
    rfl
  exact general (after nested {}) reachable_nested (by decide +kernel) (by decide +kernel)

end Wiring.Graph
