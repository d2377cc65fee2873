import Mathlib.Data.List.Nodup
import Mathlib.Data.List.Pairwise
import Wiring.Proofs.Graph.Creating
import Wiring.Proofs.Histories

/-!
Contract: what components have registered is stored, each leaf under a name of its own.

Owns: `VariablesSound`, by which no registered leaf is missing from the store and no two have one name; that every
graph that is reached has it; and what follows for writing through a component: the variable is known, and no other
one is written.

Does not own: which names variables get.
-/

namespace Wiring.Graph

open Order (Preimage)

/-- The names under which the leaves of what a component has registered are stored. -/
def heldNames (graph : Graph) (id : ComponentId) : List String :=
  (graph.registryOf id).flatMap fun entry => entry.2.leaves.map Variable.name

/-- No registered leaf is missing from the store, and no two are stored under one name. -/
structure VariablesSound (graph : Graph) : Prop where
  stored : ∀ id, ∀ name ∈ graph.heldNames id, name ∈ Keyed.keys graph.backend.store.slots
  once : ∀ id, (graph.heldNames id).Nodup
  apart : ∀ id other, id ≠ other → (graph.heldNames id).Disjoint (graph.heldNames other)

variable {graph later : Graph} {owner other : ComponentId} {name otherName : String}

namespace VariablesSound

theorem empty (backend : Backend) : VariablesSound { backend } where
  stored _ _ held := by cases held
  once _ := List.nodup_nil
  apart _ _ _ _ held := by cases held

theorem same (sound : graph.VariablesSound) (same : graph.SameVariables later) : later.VariablesSound := by
  have names : later.heldNames = graph.heldNames := by
    unfold heldNames
    rw [same.registries]
  constructor
  · rw [names, same.backend]
    exact sound.stored
  · rw [names]
    exact sound.once
  · rw [names]
    exact sound.apart

/-- Nothing is lost from the store. -/
theorem store (sound : graph.VariablesSound) {store : Store}
    (kept : Keyed.keys graph.backend.store.slots ⊆ Keyed.keys store.slots) :
    (graph.withStore store).VariablesSound where
  stored id _ held := kept (sound.stored id _ held)
  once := sound.once
  apart := sound.apart

/-- A stored value is registered whose leaves have names of their own. -/
theorem insert (sound : graph.VariablesSound) {node : Component} (found : graph.component? owner = some node)
    {value : VariableValue} (stored : value.leaves.map Variable.name ⊆ Keyed.keys graph.backend.store.slots)
    (distinct : (value.leaves.map Variable.name).Nodup)
    (fresh : ∀ id, (graph.heldNames id).Disjoint (value.leaves.map Variable.name)) :
    (graph.changeComponent owner (withRegistry (Keyed.insert name value))).VariablesSound := by
  have others (id : ComponentId) (differ : id ≠ owner) :
      (graph.changeComponent owner (withRegistry (Keyed.insert name value))).heldNames id = graph.heldNames id := by
    unfold heldNames
    rw [registryOf_changeComponent found, Function.update_of_ne differ]
  -- What is registered may replace an earlier value, whose leaves are held no longer.
  have own : ((graph.changeComponent owner (withRegistry (Keyed.insert name value))).heldNames owner).Subperm
      (graph.heldNames owner ++ value.leaves.map Variable.name) := by
    unfold heldNames
    rw [registryOf_changeComponent found, Function.update_self, registryOf_eq found]
    exact Keyed.flatMap_insert_subperm (fun value => value.leaves.map Variable.name) name value node.registry
  have ownApart (id : ComponentId) (differ : id ≠ owner) :
      (graph.heldNames id).Disjoint
        ((graph.changeComponent owner (withRegistry (Keyed.insert name value))).heldNames owner) := by
    intro asked held heldToo
    rcases List.mem_append.mp (own.subset heldToo) with old | new
    · exact sound.apart id owner differ held old
    · exact fresh id held new
  constructor
  · intro id asked held
    by_cases here : id = owner
    · subst here
      rcases List.mem_append.mp (own.subset held) with old | new
      · exact sound.stored id asked old
      · exact stored new
    · rw [others id here] at held
      exact sound.stored id asked held
  · intro id
    by_cases here : id = owner
    · subst here
      rcases own with ⟨middle, permuted, sublist⟩
      have all := List.nodup_append.mpr
        ⟨sound.once id, distinct, fun _ old _ new same => fresh id old (same ▸ new)⟩
      exact permuted.nodup_iff.mp (all.sublist sublist)
    · rw [others id here]
      exact sound.once id
  · intro id another differ
    by_cases here : id = owner
    · subst here
      rw [others another differ.symm]
      exact fun asked held heldToo => ownApart another differ.symm heldToo held
    · rw [others id here]
      by_cases there : another = owner
      · subst there
        exact ownApart id here
      · rw [others another there]
        exact sound.apart id another differ

/-! ### Variables that are created -/

theorem getVariable (sound : graph.VariablesSound) (owner : ComponentId) (name : String) (spec : VariableSpec) :
    (after (Graph.getVariable owner name spec) graph).VariablesSound := by
  rcases createVariable_stores graph owner name spec with ⟨_, handles, store, stored, meets, answers⟩
  have kept : (graph.withStore store).VariablesSound := by
    refine sound.store ?_
    rw [meets.keys]
    exact List.subset_append_left _ _
  rcases getVariable_cases graph owner name spec with
    ⟨unchanged, -⟩ | ⟨error, -, ran⟩ | ⟨value, created, ⟨node, found⟩, ran⟩
  · rwa [unchanged]
  · rwa [after_of_run ran, stored]
  · rw [after_of_run ran, stored]
    obtain rfl := answers value created
    refine kept.insert found ?_ meets.distinct fun id asked held new => ?_
    · show _ ⊆ Keyed.keys store.slots
      rw [meets.keys]
      exact List.subset_append_right _ _
    · rcases List.mem_map.mp new with ⟨handle, listed, rfl⟩
      exact meets.fresh handle listed (sound.stored id _ held)

end VariablesSound

/-! ### Operations -/

/-- Variables stay sound. -/
def Sustains (before later : Graph) : Prop :=
  before.VariablesSound → later.VariablesSound

instance : IsPreorder Graph Sustains where
  refl _ := id
  trans _ _ _ left right := right ∘ left

theorem sustains_structural : Structural Sustains where
  changeComponent graph id _ plain := (.same · (.changeComponent graph id plain.registry))
  changeSocket _ _ _ _ := (.same · ⟨rfl, rfl⟩)
  pushComponent graph config := by
    refine (.same · ⟨rfl, funext fun id => ?_⟩)
    unfold registryOf
    rw [component?_pushComponent]
    split
    next new =>
      rw [new, component?_nextComponent]
      rfl
    next => rfl
  pushSocket _ _ := (.same · ⟨rfl, rfl⟩)
  pushComputation _ _ := (.same · ⟨rfl, rfl⟩)

/-! ### Writing -/

/-- The edit of a variable that is looked up. -/
def writeVariable (owner : ComponentId) (name : String) (act : Variable → Backend → Except Error Backend) :
    GraphM Unit := do
  let handle ← query (·.singleVariable owner name)
  useBackend fun backend => ((), ·) <$> act handle backend

theorem scatterVariable_eq (owner : ComponentId) (name : String) (rows : List Nat) (updates : Tensor Float32) :
    scatterVariable owner name rows updates =
      writeVariable owner name fun handle backend => backend.scatter handle rows updates := rfl

theorem assignVariable_eq (owner : ComponentId) (name : String) (value : Tensor Float32) :
    assignVariable owner name value = writeVariable owner name fun handle backend => backend.assign handle value := rfl

theorem mem_of_singleVariable {handle : Variable} (held : graph.singleVariable owner name = .ok handle) :
    (name, .single handle) ∈ graph.registryOf owner := by
  rcases except_bind_eq_ok.mp held with ⟨node, found, held⟩
  rw [registryOf_eq (component_eq_ok.mp found)]
  split at held
  next other registered =>
    obtain rfl := Except.ok.inj held
    exact Keyed.mem_of_get? registered
  next => cases held
  next => cases held

theorem singleVariable_ne_unknown {unknown : String} :
    graph.singleVariable owner name ≠ .error (.unknownVariable unknown) := by
  intro refused
  rcases except_bind_eq_error.mp refused with missing | ⟨node, -, refused⟩
  · unfold component at missing
    split at missing <;> cases missing
  · split at refused <;> cases refused

section

variable {act : Variable → Backend → Except Error Backend} (isWrite : Backend.IsWrite act)

include isWrite

/-- It fails without a change, for its own reasons or for those of the backend, or it writes the variable. -/
theorem writeVariable_cases (graph : Graph) (owner : ComponentId) (name : String) :
    (∃ error, (writeVariable owner name act).run graph = (.error error, graph) ∧
      (graph.singleVariable owner name = .error error ∨ ∃ handle,
        graph.singleVariable owner name = .ok handle ∧ act handle graph.backend = .error error)) ∨
    ∃ handle store, graph.singleVariable owner name = .ok handle ∧ graph.backend.store.Writes handle store ∧
      (writeVariable owner name act).run graph = (.ok ⟨⟩, graph.withStore store) := by
  unfold writeVariable
  rcases except_cases (graph.singleVariable owner name) with ⟨error, missing⟩ | ⟨handle, held⟩
  · exact .inl ⟨error, run_query_bind_error missing _, .inl missing⟩
  rw [run_query_bind held]
  unfold useBackend
  rcases except_cases (act handle graph.backend) with ⟨error, refused⟩ | ⟨written, done⟩
  · have answered : (((), ·) <$> act handle graph.backend : Except Error (Unit × Backend)) = .error error := by
      rw [refused]
      rfl
    exact .inl ⟨error, run_query_bind_error answered _, .inr ⟨handle, held, refused⟩⟩
  · have answered : (((), ·) <$> act handle graph.backend : Except Error (Unit × Backend)) = .ok ((), written) := by
      rw [done]
      rfl
    rcases isWrite.writes handle graph.backend written done with ⟨store, writes, rfl⟩
    refine .inr ⟨handle, store, held, writes, ?_⟩
    rw [run_query_bind answered]
    rfl

theorem sustains_writeVariable (owner : ComponentId) (name : String) :
    Keeps Sustains (writeVariable owner name act) := by
  intro graph sound
  rcases writeVariable_cases isWrite graph owner name with ⟨error, ran, -⟩ | ⟨handle, store, -, writes, ran⟩
  · rwa [after_of_run ran]
  · rw [after_of_run ran]
    exact sound.store (writes.keys ▸ List.Subset.refl _)

end

/-! ### What is reached -/

theorem sustains_of_isOperation {α : Type} {step : GraphM α} (isOperation : IsOperation step) :
    Keeps Sustains step :=
  isOperation.keeps sustains_structural (fun owner name spec _ sound => sound.getVariable owner name spec)
    (fun owner name rows updates => sustains_writeVariable (Backend.isWrite_scatter rows updates) owner name)
    (fun owner name value => sustains_writeVariable (Backend.isWrite_assign value) owner name)

/-- A build by itself touches no variables, and its hooks do what operations do. -/
theorem sustains_of_reaches {before later : Graph} (reaches : Reaches before later) : Sustains before later := by
  -- Builds rely on the changes of their hooks, which leave readers in place, so both are carried along.
  let related (before later : Graph) : Prop := Changes before later ∧ Sustains before later
  have : IsPreorder Graph related :=
    { refl := fun _ => ⟨.refl, id⟩, trans := fun _ _ _ left right => ⟨left.1.trans right.1, right.2 ∘ left.2⟩ }
  have both : related before later := by
    refine Reaches.of_keeps (fun isOperation graph => ?_) ?_ reaches
    · exact ⟨(isOperation.reaches graph).changes, sustains_of_isOperation isOperation graph⟩
    · intro hooks fuel root config session hooksReach
      have keeps : Keeps (Preimage Session.graph related) (Build.run hooks fuel root config) := by
        refine Build.keeps_run (fun before later same sameVariables waiting => ?_)
          (fun _ _ keeps _ _ => keeps.1.feeds) (fun hook id spaces given => ?_) fuel root config
        · exact ⟨.single (.state later same waiting), fun sound => sound.same sameVariables⟩
        · exact (hooksReach hook id spaces given).2
      exact keeps session
  exact both.2

theorem Reachable.variablesSound (reachable : graph.Reachable) : graph.VariablesSound := by
  rcases reachable with ⟨backend, reaches⟩
  exact sustains_of_reaches reaches (.empty backend)

/-! ### What writing leaves alone -/

theorem mem_heldNames {value : VariableValue} (registered : (name, value) ∈ graph.registryOf owner)
    {leaf : Variable} (listed : leaf ∈ value.leaves) : leaf.name ∈ graph.heldNames owner :=
  List.mem_flatMap.mpr ⟨_, registered, List.mem_map_of_mem listed⟩

/-- Leaves that are registered elsewhere or under another name are stored under other names. -/
theorem VariablesSound.differ (sound : graph.VariablesSound) {value otherValue : VariableValue}
    (registered : (name, value) ∈ graph.registryOf owner)
    (otherRegistered : (otherName, otherValue) ∈ graph.registryOf other)
    (elsewhere : (other, otherName) ≠ (owner, name)) {leaf otherLeaf : Variable} (listed : leaf ∈ value.leaves)
    (otherListed : otherLeaf ∈ otherValue.leaves) : otherLeaf.name ≠ leaf.name := by
  intro same
  by_cases here : other = owner
  · subst here
    let names (entry : String × VariableValue) := entry.2.leaves.map Variable.name
    have : Std.Symm (Function.onFun List.Disjoint names) := ⟨fun _ _ apart => List.disjoint_symm apart⟩
    have apart : (graph.registryOf other).Pairwise (Function.onFun List.Disjoint names) :=
      (List.nodup_flatMap.mp (sound.once other)).2
    have differ : (otherName, otherValue) ≠ (name, value) := fun same =>
      elsewhere (Prod.ext rfl (congrArg Prod.fst same))
    refine apart.forall otherRegistered registered differ (List.mem_map_of_mem otherListed) ?_
    rw [same]
    exact List.mem_map_of_mem listed
  · refine sound.apart other owner here (mem_heldNames otherRegistered otherListed) ?_
    rw [same]
    exact mem_heldNames registered listed

/-- However the step ends, it does not fail for a variable that is missing from the store; what is registered stays
as it is; and at most the array of the variable that the component has registered under the name is another one. -/
structure WritesOnly (graph : Graph) (owner : ComponentId) (name : String) (step : GraphM Unit) : Prop where
  known : ∀ unknown, outcome step graph ≠ .error (.unknownVariable unknown)
  store : ∃ store, after step graph = graph.withStore store ∧
    Keyed.keys store.slots = Keyed.keys graph.backend.store.slots
  leaves : ∀ other otherName value, (otherName, value) ∈ graph.registryOf other → (other, otherName) ≠ (owner, name) →
    ∀ leaf ∈ value.leaves, ∀ rows, (after step graph).backend.read leaf rows = graph.backend.read leaf rows
  readings : ∀ other otherName, (other, otherName) ≠ (owner, name) → ∀ rows,
    (after step graph).readVariable other otherName rows = graph.readVariable other otherName rows

theorem VariablesSound.writesOnly (sound : graph.VariablesSound) {act : Variable → Backend → Except Error Backend}
    (isWrite : Backend.IsWrite act) (owner : ComponentId) (name : String) :
    graph.WritesOnly owner name (writeVariable owner name act) := by
  rcases writeVariable_cases isWrite graph owner name with
    ⟨error, ran, reason⟩ | ⟨handle, store, held, writes, ran⟩
  · constructor
    · rw [outcome_of_run ran]
      rintro unknown same
      obtain rfl := Except.error.inj same
      rcases reason with missing | ⟨handle, held, refused⟩
      · exact singleVariable_ne_unknown missing
      · refine isWrite.known handle graph.backend ?_ unknown refused
        exact sound.stored owner _ (mem_heldNames (mem_of_singleVariable held) (List.mem_singleton_self handle))
    · exact ⟨graph.backend.store, after_of_run ran, rfl⟩
    · rw [after_of_run ran]
      exact fun _ _ _ _ _ _ _ _ => rfl
    · rw [after_of_run ran]
      exact fun _ _ _ _ => rfl
  · have registered := mem_of_singleVariable held
    have leaves : ∀ other otherName value, (otherName, value) ∈ graph.registryOf other →
        (other, otherName) ≠ (owner, name) → ∀ leaf ∈ value.leaves, ∀ rows,
        (graph.withStore store).backend.read leaf rows = graph.backend.read leaf rows := by
      intro other otherName value otherRegistered elsewhere leaf listed rows
      have differ := sound.differ registered otherRegistered elsewhere (List.mem_singleton_self handle) listed
      exact congrArg (graph.backend.require .read >>= fun _ => ·) (writes.read differ rows)
    constructor
    · rw [outcome_of_run ran]
      exact fun _ refused => by cases refused
    · exact ⟨store, after_of_run ran, writes.keys⟩
    · rwa [after_of_run ran]
    · rw [after_of_run ran]
      intro other otherName elsewhere rows
      show (graph.singleVariable other otherName >>= fun handle => (graph.withStore store).backend.read handle rows) =
        graph.singleVariable other otherName >>= fun handle => graph.backend.read handle rows
      rcases except_cases (graph.singleVariable other otherName) with ⟨error, missing⟩ | ⟨otherHandle, otherHeld⟩
      · rw [missing]
        rfl
      · rw [otherHeld]
        exact leaves other otherName _ (mem_of_singleVariable otherHeld) elsewhere otherHandle
          (List.mem_singleton_self otherHandle) rows

/-- In every graph that operations lead to, what components have registered is stored, each leaf under a name of its
own. So variables are written only through the component and the name under which they are registered. -/
theorem Reachable.variables_apart (reachable : graph.Reachable) :
    graph.VariablesSound ∧ ∀ owner name,
      (∀ rows updates, graph.WritesOnly owner name (scatterVariable owner name rows updates)) ∧
        ∀ value, graph.WritesOnly owner name (assignVariable owner name value) := by
  have sound := reachable.variablesSound
  refine ⟨sound, fun owner name => ⟨fun rows updates => ?_, fun value => ?_⟩⟩
  · rw [scatterVariable_eq]
    exact sound.writesOnly (Backend.isWrite_scatter rows updates) owner name
  · rw [assignVariable_eq]
    exact sound.writesOnly (Backend.isWrite_assign value) owner name

def sampleBias : VariableSpec :=
  { shape := some [some 2], initializer := some (.constant 0.0) }

/-- A variable that is registered anew after its component was added to another one, which registers a variable of
its own under the same name. -/
def reparented : GraphM Unit := do
  let top ← create { scope := "top" }
  let low ← create { scope := "low" }
  let _ ← getVariable low "bias" sampleBias
  add top low .nothing
  let _ ← getVariable low "bias" sampleBias
  let _ ← getVariable top "bias" sampleBias

theorem keeps_reparented : Keeps Reaches reparented := by
  refine Keeps.bind (Reaches.create _) fun top => ?_
  refine Keeps.bind (Reaches.create _) fun low => ?_
  refine Keeps.bind (Reaches.getVariable low _ _) fun _ => ?_
  refine Keeps.bind (Reaches.add top low _) fun _ => ?_
  refine Keeps.bind (Reaches.getVariable low _ _) fun _ => ?_
  exact Keeps.bind (Reaches.getVariable top _ _) fun _ => Keeps.pure _

theorem reachable_reparented : (after reparented {}).Reachable :=
  (reachable_empty {}).reaches (keeps_reparented {})

theorem variables_apart_reparented :
    Keyed.keys (after reparented {}).backend.store.slots = ["low/bias", "top/low/bias", "top/bias"] ∧
      (after reparented {}).heldNames ⟨0⟩ = ["top/bias"] ∧ (after reparented {}).heldNames ⟨1⟩ = ["top/low/bias"] ∧
      (after reparented {}).VariablesSound ∧
      outcome (assignVariable ⟨0⟩ "bias" (Tensor.replicate [2] 1.0)) (after reparented {}) = .ok ⟨⟩ ∧
      ∀ rows, (after (assignVariable ⟨0⟩ "bias" (Tensor.replicate [2] 1.0)) (after reparented {})).readVariable
        ⟨1⟩ "bias" rows = (after reparented {}).readVariable ⟨1⟩ "bias" rows := by
  rcases reachable_reparented.variables_apart with ⟨sound, writes⟩
  exact ⟨rfl, rfl, rfl, sound, rfl,
    fun rows => ((writes ⟨0⟩ "bias").2 (Tensor.replicate [2] 1.0)).readings ⟨1⟩ "bias" (by simp) rows⟩

end Wiring.Graph
