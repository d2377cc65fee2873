import Wiring.Proofs.Graph.Change
import Wiring.Graph.Variables

/-!
Contract: what the operations on variables may change.

Owns: `Registers`, by which only the values in the store and the registry of one component differ; that every
operation on variables keeps it; and that it leaves the wiring alone.
-/

namespace Wiring.Graph

/-- The component with its registry changed. -/
def withRegistry (change : Keyed VariableValue → Keyed VariableValue) (node : Component) : Component :=
  { node with registry := change node.registry }

/-- Only the store and the registry of the component differ. -/
def Registers (own : ComponentId) (before later : Graph) : Prop :=
  ∃ store change, later = { before with backend := { before.backend with store } }.changeComponent own
    (withRegistry change)

theorem modify_id (nodes : Array Component) (index : Nat) : nodes.modify index (withRegistry id) = nodes := by
  apply Array.ext_getElem?
  intro position
  rw [Array.getElem?_modify]
  split
  · cases nodes[position]? <;> rfl
  · rfl

theorem modify_modify (nodes : Array Component) (index : Nat)
    (first second : Keyed VariableValue → Keyed VariableValue) :
    (nodes.modify index (withRegistry first)).modify index (withRegistry second) =
      nodes.modify index (withRegistry (second ∘ first)) := by
  apply Array.ext_getElem?
  intro position
  simp only [Array.getElem?_modify]
  split
  · cases nodes[position]? <;> rfl
  · rfl

instance (own : ComponentId) : IsPreorder Graph (Registers own) where
  refl graph := ⟨graph.backend.store, id, by simp only [changeComponent, modify_id]⟩
  trans := by
    rintro first _ _ ⟨store, change, rfl⟩ ⟨later, more, rfl⟩
    exact ⟨later, more ∘ change, by simp only [changeComponent, modify_modify]⟩

/-- Variables are no part of the wiring. -/
theorem Registers.wiring {own : ComponentId} {before later : Graph} (registers : Registers own before later) :
    later.wiring = before.wiring := by
  obtain ⟨store, change, rfl⟩ := registers
  have same : (before.components.modify own.index (withRegistry change)).map Component.wiring =
      before.components.map Component.wiring := by
    apply Array.ext_getElem?
    intro position
    rw [Array.getElem?_map, Array.getElem?_modify, Array.getElem?_map]
    split
    · cases before.components[position]? <;> rfl
    · rfl
  simp only [Graph.wiring, changeComponent, same]

/-- Registering variables leaves no marks. -/
theorem Registers.marks {own : ComponentId} {graph later : Graph} (registers : Registers own graph later) :
    later.spaceOf = graph.spaceOf ∧ later.isComplete = graph.isComplete ∧ later.deferredOf = graph.deferredOf := by
  obtain ⟨store, change, rfl⟩ := registers
  refine ⟨rfl, ?_, ?_⟩
  · funext id
    unfold isComplete
    exact congrArg (Option.getD · false)
      (componentView_changeComponent { graph with backend := { graph.backend with store } } own
        (withRegistry change) (fun _ => rfl) id)
  · funext id
    unfold deferredOf
    exact congrArg (Option.getD · [])
      (componentView_changeComponent { graph with backend := { graph.backend with store } } own
        (withRegistry change) (fun _ => rfl) id)

/-! ### The store -/

/-- Actions of the backend that leave its kind and what it offers alone. -/
theorem keeps_useBackend {α : Type} (own : ComponentId) (action : Backend → Except Error (α × Backend))
    (onlyStore : ∀ backend answer, action backend = .ok answer →
      ∃ store, answer.2 = { backend with store }) :
    Keeps (Registers own) (useBackend action) := by
  intro graph
  refine Keeps.query_bind_of fun answer acted => ?_
  obtain ⟨store, same⟩ := onlyStore graph.backend answer acted
  refine ⟨store, id, ?_⟩
  simp only [changeComponent, modify_id]
  rw [← same]
  rfl

theorem keeps_create_backend (own : ComponentId) (request : VariableRequest) :
    Keeps (Registers own) (useBackend fun backend => backend.create request) := by
  refine keeps_useBackend own _ fun backend answer created => ?_
  obtain ⟨_, -, created⟩ := except_bind_eq_ok.mp created
  obtain ⟨⟨handle, store⟩, -, same⟩ := except_bind_eq_ok.mp created
  exact ⟨store, congrArg Prod.snd (Except.ok.inj same).symm⟩

theorem keeps_createLeaf (own : ComponentId) (request : LeafRequest) (name : String) (leaf : Box) :
    Keeps (Registers own) (createLeaf request name leaf) :=
  keeps_create_backend own _

mutual

theorem keeps_createNested (own : ComponentId) (request : LeafRequest) (name : String) :
    ∀ space, Keeps (Registers own) (createNested request name space)
  | .box leaf => by
      rw [createNested]
      exact Keeps.bind (keeps_createLeaf own request name leaf) fun _ => Keeps.pure _
  | .dict entries => by
      rw [createNested]
      exact Keeps.bind (keeps_createEntries own request name entries) fun _ => Keeps.pure _
  | .tuple parts => by
      rw [createNested]
      exact Keeps.bind (keeps_createParts own request name 0 parts) fun _ => Keeps.pure _

theorem keeps_createEntries (own : ComponentId) (request : LeafRequest) (name : String) :
    ∀ entries, Keeps (Registers own) (createEntries request name entries)
  | [] => by
      rw [createEntries]
      exact Keeps.pure _
  | (key, space) :: rest => by
      rw [createEntries]
      exact Keeps.bind (keeps_createNested own request (FlatKey.entry name key) space) fun _ =>
        Keeps.bind (keeps_createEntries own request name rest) fun _ => Keeps.pure _

theorem keeps_createParts (own : ComponentId) (request : LeafRequest) (name : String) (index : Nat) :
    ∀ parts, Keeps (Registers own) (createParts request name index parts)
  | [] => by
      rw [createParts]
      exact Keeps.pure _
  | space :: rest => by
      rw [createParts]
      exact Keeps.bind (keeps_createNested own request (FlatKey.part name index) space) fun _ =>
        Keeps.bind (keeps_createParts own request name (index + 1) rest) fun _ => Keeps.pure _

end

theorem keeps_createFlat (own : ComponentId) (request : LeafRequest) (full name : String)
    (leaves : Keyed Box) : Keeps (Registers own) (createFlat request full name leaves) := by
  unfold createFlat
  refine Keeps.bind (Keeps.mapM (fun leaf => ?_) leaves) fun _ => Keeps.pure _
  exact Keeps.bind (keeps_createLeaf own request (full ++ leaf.1) leaf.2) fun _ => Keeps.pure _

theorem keeps_checkLeafNames (own : ComponentId) (full : String) (leaves : Keyed Box) :
    Keeps (Registers own) (checkLeafNames full leaves) := by
  refine Keeps.bind (Keeps.query _) fun taken => ?_
  split
  · exact Keeps.throw _
  · exact Keeps.pure _

theorem keeps_createVariable (own : ComponentId) (name : String) (spec : VariableSpec) :
    Keeps (Registers own) (createVariable own name spec) := by
  refine Keeps.bind (Keeps.query _) fun scope => ?_
  cases spec.source with
  | some source =>
      refine Keeps.bind (Keeps.query _) fun space => ?_
      refine Keeps.bind (keeps_checkLeafNames own _ _) fun _ => ?_
      by_cases flat : spec.flatten = true
      · rw [if_pos flat]
        exact keeps_createFlat own _ _ name _
      · rw [if_neg flat]
        exact keeps_createNested own _ _ space
  | none =>
      refine Keeps.bind (Keeps.query _) fun shape => ?_
      exact Keeps.bind (keeps_create_backend own _) fun _ => Keeps.pure _

/-! ### Registries -/

theorem keeps_editRegistry (own : ComponentId) (change : Keyed VariableValue → Keyed VariableValue) :
    Keeps (Registers own) (editComponent own (withRegistry change)) := by
  intro graph
  refine Keeps.query_bind_of fun node found => ?_
  exact ⟨graph.backend.store, change, rfl⟩

theorem keeps_getVariable (own : ComponentId) (name : String) (spec : VariableSpec) :
    Keeps (Registers own) (getVariable own name spec) := by
  refine Keeps.bind (Keeps.query _) fun node => ?_
  have created : Keeps (Registers own) (do
      let value ← createVariable own name spec
      editComponent own (withRegistry (Keyed.insert name value))
      return value) :=
    Keeps.bind (keeps_createVariable own name spec) fun value =>
      Keeps.bind (keeps_editRegistry own (Keyed.insert name value)) fun _ => Keeps.pure _
  by_cases lookup : spec.isLookup = true
  · simp only [if_pos lookup]
    cases Keyed.get? node.registry name with
    | some value => exact Keeps.pure _
    | none => exact Keeps.bind (Keeps.throw _) fun _ => created
  · simp only [if_neg lookup]
    exact created

theorem keeps_scatterVariable (own : ComponentId) (name : String) (rows : List Nat)
    (updates : Tensor Float32) : Keeps (Registers own) (scatterVariable own name rows updates) := by
  refine Keeps.bind (Keeps.query _) fun handle => ?_
  refine keeps_useBackend own _ fun backend answer scattered => ?_
  have scattered : ((), ·) <$> backend.scatter handle rows updates = .ok answer := scattered
  obtain ⟨final, written, rfl⟩ := except_map_eq_ok.mp scattered
  obtain ⟨_, -, written⟩ := except_bind_eq_ok.mp written
  obtain ⟨store, -, same⟩ := except_bind_eq_ok.mp written
  exact ⟨store, (Except.ok.inj same).symm⟩

theorem keeps_assignVariable (own : ComponentId) (name : String) (value : Tensor Float32) :
    Keeps (Registers own) (assignVariable own name value) := by
  refine Keeps.bind (Keeps.query _) fun handle => ?_
  refine keeps_useBackend own _ fun backend answer assigned => ?_
  have assigned : ((), ·) <$> backend.assign handle value = .ok answer := assigned
  obtain ⟨final, written, rfl⟩ := except_map_eq_ok.mp assigned
  obtain ⟨_, -, written⟩ := except_bind_eq_ok.mp written
  obtain ⟨store, -, same⟩ := except_bind_eq_ok.mp written
  exact ⟨store, (Except.ok.inj same).symm⟩

/-- A step that only registers variables is at most one change. -/
theorem changes_of_registers {own : ComponentId} {before later : Graph}
    (registers : Registers own before later) : Changes before later :=
  .single (.state later registers.wiring fun _ _ waits => .inl (registers.marks.2.2 ▸ waits))

end Wiring.Graph
