import Wiring.Proofs.Graph.Creating

/-!
Contract: the two forms of a variable that follows a space.

Owns: that a request which is met nested is met flat from the same graph; that both forms store the same variables,
under the same names and in the same order; and which leaf of the one value is which leaf of the other.

Does not own: when a request is met.
-/

namespace Wiring

/-- The request with its leaves in one flat collection, or nested as in the space. -/
def VariableSpec.inForm (spec : VariableSpec) (flatten : Bool) : VariableSpec :=
  { spec with flatten }

namespace Graph

variable {graph later : Graph} {owner : ComponentId} {name : String} {spec : VariableSpec} {source : SpaceSource}

/-! ### Leaves with different keys -/

/-- Requests under different names come from leaves with different keys. -/
theorem nodup_keys_of_requests {request : LeafRequest} {full : String} {leaves : List (String × Box)}
    (distinct : ((leaves.map fun leaf => request.at (full ++ leaf.1, leaf.2)).map VariableRequest.name).Nodup) :
    (leaves.map Prod.fst).Nodup := by
  have names : (leaves.map fun leaf => request.at (full ++ leaf.1, leaf.2)).map VariableRequest.name =
      (leaves.map Prod.fst).map (full ++ ·) := by
    rw [List.map_map, List.map_map]
    rfl
  rw [names] at distinct
  exact distinct.of_map _

/-- Where the keys of the leaves differ, the flat form lists them in depth-first order. -/
theorem flatten_eq_leavesUnder {space : Space} (distinct : ((space.leavesUnder "").map Prod.fst).Nodup) :
    space.flatten = space.leavesUnder "" :=
  Keyed.ofList_of_distinctKeys distinct

/-! ### Creation -/

/-- What is created nested is created flat, with the same variables for the leaves in depth-first order. -/
theorem createVariable_flat (given : spec.source = some source) {nested : VariableValue}
    (ran : (createVariable owner name (spec.inForm false)).run graph = (.ok nested, later)) :
    ∃ space, graph.spaceOfSource owner source = .ok space ∧ nested.leaves.length = space.flatten.length ∧
      (createVariable owner name (spec.inForm true)).run graph =
        (.ok (.flat (flatValue name space.flatten nested.leaves)), later) := by
  rcases createVariable_cases graph owner name (spec.inForm false) with ⟨error, failed⟩ | ⟨requests, asks⟩
  · cases (outcome_of_run failed).symm.trans (outcome_of_run ran)
  have met := asks.run
  rw [run_map, outcome_of_run ran, after_of_run ran] at met
  cases asks with
  | single scope shape told shaped => cases given.symm.trans shaped
  | leaves scope other space told asked known listed free =>
      obtain rfl := Option.some.inj (given.symm.trans asked)
      -- All requests have been met, so no two leaves have one key: the flat form has them all.
      rcases createAll_cases _ graph with ⟨handles, store, meets, -, ⟨length, all⟩ | ⟨error, _, stopped, -⟩⟩
      · have same := met.trans all
        obtain rfl : nested.leaves = handles := Except.ok.inj (congrArg Prod.fst same)
        have flat : space.flatten = space.leavesUnder "" :=
          flatten_eq_leavesUnder (nodup_keys_of_requests (meets.all length).1)
        have requests : (spec.inForm false).leavesOf space = space.flatten := flat.symm
        rw [requests, List.length_map] at length
        rw [requests] at met
        have givenFlat : (spec.inForm true).source = some source := given
        have found := run_createVariable_leaves told givenFlat known listed
          (free_flatten_iff.mp (free_flatten_iff.mpr free))
        exact ⟨space, known, length, found.trans (run_createFlat_ok (Keyed.distinctKeys_ofList _) length met.symm)⟩
      · cases met.trans stopped

/-! ### Requests of components -/

/-- A request for a space is no lookup, so it succeeds exactly if the creation does, and registers what was created. -/
theorem getVariable_ok_iff (given : spec.source = some source) {value : VariableValue} :
    (getVariable owner name spec).run graph = (.ok value, later) ↔ (∃ node, graph.component? owner = some node) ∧
      ∃ stored, (createVariable owner name spec).run graph = (.ok value, stored) ∧
        later = stored.changeComponent owner (withRegistry (Keyed.insert name value)) := by
  have plain : spec.isLookup = false := by rw [VariableSpec.isLookup, given, Option.isNone_some, Bool.and_false]
  rcases getVariable_cases graph owner name spec with
    ⟨-, lookup | missing⟩ | ⟨error, creation, ran⟩ | ⟨made, creation, found, ran⟩
  · cases plain.symm.trans lookup
  · constructor
    · intro ran
      rcases of_run_bind_ok ran with ⟨node, _, held, -⟩
      cases missing.symm.trans (component_eq_ok.mp (congrArg Prod.fst held))
    · rintro ⟨⟨node, found⟩, -⟩
      cases missing.symm.trans found
  · constructor
    · intro succeeds
      cases (outcome_of_run ran).symm.trans (outcome_of_run succeeds)
    · rintro ⟨-, stored, created, -⟩
      cases creation.symm.trans (outcome_of_run created)
  · constructor
    · intro succeeds
      have same := ran.symm.trans succeeds
      obtain rfl := Except.ok.inj (congrArg Prod.fst same)
      exact ⟨found, _, by rw [run_eq, creation], (congrArg Prod.snd same).symm⟩
    · rintro ⟨-, stored, created, rfl⟩
      obtain rfl := Except.ok.inj (creation.symm.trans (outcome_of_run created))
      rw [ran, after_of_run created]

/-- Of two values that are registered under one name, the second one counts. -/
theorem withRegistry_insert_insert (graph : Graph) (owner : ComponentId) (name : String)
    (first second : VariableValue) :
    (graph.changeComponent owner (withRegistry (Keyed.insert name first))).changeComponent owner
        (withRegistry (Keyed.insert name second)) =
      graph.changeComponent owner (withRegistry (Keyed.insert name second)) := by
  have same : Keyed.insert name second ∘ Keyed.insert name first = Keyed.insert name second :=
    funext fun entries => Keyed.insert_insert name first second entries
  simp only [changeComponent, modify_modify, same]

/-- A request for a space that is met nested is met flat as well. The backend is the same afterwards, and the graphs
differ only in the registered value: a flat collection of the same variables in the same order, under the name of the
variable followed by the flat keys of the space. -/
theorem getVariable_flat (graph : Graph) (owner : ComponentId) (name : String) (spec : VariableSpec)
    (source : SpaceSource) (given : spec.source = some source) (nested : VariableValue) (later : Graph)
    (ran : (getVariable owner name (spec.inForm false)).run graph = (.ok nested, later)) :
    ∃ space leaves final, graph.spaceOfSource owner source = .ok space ∧
      (getVariable owner name (spec.inForm true)).run graph = (.ok (.flat leaves), final) ∧
      final.backend = later.backend ∧
      nested.leaves = Keyed.values leaves ∧
      Keyed.keys leaves = (Keyed.keys space.flatten).map (name ++ ·) ∧
      final = later.changeComponent owner (withRegistry (Keyed.insert name (.flat leaves))) := by
  have givenNested : (spec.inForm false).source = some source := given
  have givenFlat : (spec.inForm true).source = some source := given
  rcases (getVariable_ok_iff givenNested).mp ran with ⟨found, stored, created, rfl⟩
  rcases createVariable_flat given created with ⟨space, known, length, flat⟩
  exact ⟨space, flatValue name space.flatten nested.leaves, _, known,
    (getVariable_ok_iff givenFlat).mpr ⟨found, stored, flat, rfl⟩, rfl,
    (values_flatValue length).symm, keys_flatValue length,
    (withRegistry_insert_insert stored owner name nested _).symm⟩

/-- A dict with a tuple inside, and a box after it. -/
def sampleRecord : VariableSpec :=
  { initializer := some (.constant 1.0), batchRank := .fixed 2,
    source := some (.space (.dict [("b", .tuple [.floatBox [3], .boolBox []]), ("a", .floatBox [])])) }

/-- The nested record and the flat one are made of the same three variables. -/
theorem getVariable_flat_record :
    ∃ nested later leaves final,
      (getVariable ⟨0⟩ "record" (sampleRecord.inForm false)).run (after solitary {}) = (.ok nested, later) ∧
      (getVariable ⟨0⟩ "record" (sampleRecord.inForm true)).run (after solitary {}) = (.ok (.flat leaves), final) ∧
      final.backend = later.backend ∧ nested.leaves = Keyed.values leaves ∧
      Keyed.keys leaves = ["record/b/[0]", "record/b/[1]", "record/a"] := by
  have ran : ∃ nested later,
      (getVariable ⟨0⟩ "record" (sampleRecord.inForm false)).run (after solitary {}) = (.ok nested, later) :=
    ⟨_, _, rfl⟩
  rcases ran with ⟨nested, later, ran⟩
  rcases getVariable_flat (after solitary {}) ⟨0⟩ "record" sampleRecord _ rfl nested later ran with
    ⟨space, leaves, final, known, flat, backend, values, keys, -⟩
  obtain rfl := Except.ok.inj known
  exact ⟨nested, later, leaves, final, ran, flat, backend, values, keys.trans (by decide)⟩

end Graph

end Wiring
