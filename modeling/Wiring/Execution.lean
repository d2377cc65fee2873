import Wiring.Blueprint
import Wiring.Build
import Wiring.Exploration.Component
import Wiring.Transposition

/-!
Contract: what operations do, and the answers that they give.

Operations act on a session. A hook script is a list of operations itself and may build in turn, so execution
takes fuel: one unit for every level of hooks, and as much for the tasks of each build. Running out of fuel is
no answer and no error.
-/

namespace Wiring

inductive Answer where
  | done
  | component (id : ComponentId)
  | computation (id : ComputationId)
  | socket (id : SocketId)
  | optionalSocket (id : Option SocketId)
  | sockets (ids : List SocketId)
  | members (ids : List ComponentId)
  | text (text : String)
  | names (names : List String)
  | value (value : VariableValue)
  | values (values : Keyed VariableValue)
  | tensor (tensor : Tensor Float32)
  | exploration (exploration : Exploration)
  | report (report : Build.Report)
  | componentState (component : Component)
  | socketState (socket : Option Socket)
  | computationState (computation : Option Computation)
  | graph (graph : Graph)

namespace Execution

def ask (question : Graph → Except Error α) : SessionM α :=
  Session.ofGraph (query question)

def answering (wrap : α → Answer) (step : GraphM α) : SessionM Answer :=
  wrap <$> Session.ofGraph step

def done (step : GraphM Unit) : SessionM Answer :=
  answering (fun _ => .done) step

/-- A configuration from its text. -/
def readConfig (config : Option α) : SessionM α :=
  match config with
  | some config => return config
  | none => Session.fail .malformedText

/-- What an action does to its component, given how to build. -/
def act (build : ComponentId → BuildConfig → SessionM Build.Report) (id : ComponentId) :
    Action → SessionM Answer
  | .addSockets names side internal => answering .sockets (Graph.addSockets id names side internal)
  | .defineInputs names space => answering .sockets (Graph.defineInputs id names space)
  | .defineOutputs names => answering .sockets (Graph.defineOutputs id names)
  | .resolve ref side => .socket <$> ask (·.resolve id ref side)
  | .socketNamed name side => .optionalSocket <$> ask (·.socketNamed? id name side)
  | .ensureInternal name => answering .socket (Graph.ensureInternal id name)
  | .connect source target => done (Graph.connect id source target)
  | .disconnect source target => done (Graph.disconnect id source target)
  | .register method => done (Graph.register id method)
  | .compute inputs outputs method options =>
      answering .computation (Graph.compute id inputs outputs method options)
  | .setHook script => done (Graph.setHook id (.script script))
  | .add child exposure => done (Graph.add id child exposure)
  | .addMany children exposures => done (Graph.addMany id children exposures)
  | .getVariable name spec => answering .value (Graph.getVariable id name spec)
  | .registered names collection => .values <$> ask (·.registered id names collection)
  | .assign name value => done (Graph.assignVariable id name value)
  | .scatter name rows updates => done (Graph.scatterVariable id name rows updates)
  | .read name rows => .tensor <$> ask (·.readVariable id name rows)
  | .copy name scope => answering .component (Graph.copy id name scope)
  | .build config => .report <$> build id config
  | .subtree => .members <$> ask (·.subtree id)
  | .fullScope => .text <$> ask (·.fullScope id)
  | .describe => .text <$> ask (·.describe id)
  | .inspect => .componentState <$> ask (·.component id)

/-- One step of the script of a hook. -/
def followScript (execute : Operation → SessionM Answer) (spaces : Keyed Space) : HookStep → SessionM Unit
  | .perform operation => do
      let _ ← execute operation
      return ()
  | .fail kind text => Session.fail (.raised kind text)
  | .needBatchRank socket =>
      if (Keyed.get? spaces socket).any Space.hasBatchRank then return ()
      else Session.fail (.raised .configuration "needs a batch rank")

/-- Runs a hook for a component whose in-sockets have the given spaces. -/
def runHook (execute : Operation → SessionM Answer) (spaces : Keyed Space) : Hook → SessionM Unit
  | .script steps => steps.forM (followScript execute spaces)
  | .explorationInputs => ask fun _ => Exploration.checkInputs spaces

/-- Does an operation; `own` is the component whose hook is running. -/
def execute : Nat → Option ComponentId → Operation → SessionM Answer
  | 0, _, _ => throw .exhausted
  | fuel + 1, own, operation =>
      match operation with
      | .create config => answering .component (Graph.create config)
      | .createFromText text => do
          let config ← readConfig (ComponentConfig.parse? text)
          answering .component (Graph.create config)
      | .exploration text actions => do
          let config ← readConfig (ExplorationConfig.parse? text)
          answering .exploration (Exploration.create config actions)
      | .epsilon text => do
          let config ← readConfig ((Json.parse? text).bind (EpsilonConfig.ofJson? 0))
          answering (fun decider => .component decider.id) (EpsilonDecider.create config)
      | .noise text => do
          let config ← readConfig ((Json.parse? text).bind (readInside 0 NoiseConfig.ofJson?))
          answering (fun source => .component source.id) (NoiseSource.create config)
      | .transpose scope => answering .component (Transposition.create scope)
      | .socket id => .socketState <$> ask fun graph => .ok (graph.socket? id)
      | .computation id => .computationState <$> ask fun graph => .ok (graph.computation? id)
      | .collection name => .names <$> ask fun graph => graph.backend.collection name
      | .snapshot => .graph <$> ask .ok
      | .within ref action => do
          let id ← match ref, own with
            | .id id, _ => pure id
            | .own, some own => pure own
            | .own, none => Session.fail (.dangling "the component of a hook")
          let hooks : HookRunner := fun hook component spaces =>
            runHook (execute fuel (some component)) spaces hook
          act (Build.run hooks fuel) id action

end Execution

/-! ### Dumps -/

namespace Component

def toTerm (id : ComponentId) (component : Component) : Term :=
  let socketIds (ids : List SocketId) : Term :=
    .list (ids.map fun socket => .apply "SocketId" [.nat socket.index])
  let componentId (id : ComponentId) : Term := .apply "ComponentId" [.nat id.index]
  .record "Component"
    [("id", componentId id),
      ("scope", .quoted component.scope),
      ("name", .quoted component.name),
      ("sub_components", .map (component.children.map fun child => (child.1, componentId child.2))),
      ("input_sockets", socketIds component.inputs),
      ("output_sockets", socketIds component.outputs),
      ("internal_sockets", socketIds component.internals),
      ("methods", .list (component.methods.map fun method => .quoted method.name)),
      ("input_complete", .bool component.complete)]
    true

end Component

def Graph.toTerm (graph : Graph) : Term :=
  .record "ComponentGraph"
    [("backend", .atom graph.backend.kind.label),
      ("components", .nat graph.components.size),
      ("sockets", .nat graph.sockets.size),
      ("computations", .nat graph.computations.size)]
    false

end Wiring
