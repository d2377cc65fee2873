import Wiring.Proofs.Graph.Operations.Composition
import Wiring.Blueprint

/-!
Contract: making copies, as changes.

Owns: that making a component from a plan, following a blueprint and copying are sequences of changes whatever
their outcome.
-/

namespace Wiring.Graph

mutual

theorem keeps_instantiatePlan (config : ComponentConfig) :
    ∀ plan, Keeps Changes (instantiatePlan config plan)
  | .node _ sockets methods computations hook children => by
      rw [instantiatePlan]
      refine Keeps.bind (keeps_create config) fun id => ?_
      refine Keeps.bind (Keeps.forM (fun socket => ?_) sockets) fun _ => ?_
      · exact Keeps.bind (keeps_addSockets id _ _ _) fun _ => Keeps.pure _
      refine Keeps.bind (Keeps.forM (keeps_register id) methods) fun _ => ?_
      refine Keeps.bind (Keeps.forM (fun computation => ?_) computations) fun _ => ?_
      · exact Keeps.bind (keeps_compute id _ _ _ _) fun _ => Keeps.pure _
      have below : Keeps Changes (do
          instantiateChildren id children
          return id) :=
        Keeps.bind (keeps_instantiateChildren id children) fun _ => Keeps.pure _
      cases hook with
      | some hook => exact Keeps.bind (keeps_setHook id hook) fun _ => below
      | none => exact below

theorem keeps_instantiateChildren (parent : ComponentId) :
    ∀ children, Keeps Changes (instantiateChildren parent children)
  | [] => by
      rw [instantiateChildren]
      exact Keeps.pure _
  | child :: rest => by
      rw [instantiateChildren]
      refine Keeps.bind (keeps_instantiatePlan child.config child) fun id => ?_
      exact Keeps.bind (keeps_add parent id .nothing) fun _ => keeps_instantiateChildren parent rest

end

theorem keeps_restoreLink (root : ComponentId) (link : SocketPath × SocketPath) :
    Keeps Changes (restoreLink root link) :=
  Keeps.bind (Keeps.query _) fun _ => Keeps.bind (Keeps.query _) fun _ => keeps_connect root _ _

theorem keeps_restoreBinding (root : ComponentId) (binding : SpaceBinding) :
    Keeps Changes (restoreBinding root binding) := by
  refine Keeps.bind (Keeps.query _) fun socket => ?_
  split
  · exact keeps_connect root _ _
  · exact keeps_connect root _ _

/-- The configuration of the root of an instance: a new scope also names it, unless a name is given. -/
def rootConfig (config : ComponentConfig) (name scope : Option String) : ComponentConfig :=
  let config := match scope with
    | some scope => { config with scope, name := some scope }
    | none => config
  match name with
  | some name => { config with name := some name }
  | none => config

theorem instantiate_eq (blueprint : Blueprint) (name scope : Option String) :
    instantiate blueprint name scope = (do
      let root ← instantiatePlan (rootConfig blueprint.root.config name scope) blueprint.root
      blueprint.links.forM (restoreLink root)
      blueprint.bindings.forM (restoreBinding root)
      return root) := rfl

theorem keeps_instantiate (blueprint : Blueprint) (name scope : Option String) :
    Keeps Changes (instantiate blueprint name scope) := by
  rw [instantiate_eq]
  refine Keeps.bind (keeps_instantiatePlan _ blueprint.root) fun root => ?_
  refine Keeps.bind (Keeps.forM (keeps_restoreLink root) blueprint.links) fun _ => ?_
  exact Keeps.bind (Keeps.forM (keeps_restoreBinding root) blueprint.bindings) fun _ => Keeps.pure _

theorem keeps_copy (id : ComponentId) (name scope : Option String) : Keeps Changes (copy id name scope) :=
  Keeps.bind (Keeps.query _) fun blueprint => keeps_instantiate blueprint name _

end Wiring.Graph
