import Wiring.Proofs.Build.Runs
import Wiring.Proofs.Calls
import Wiring.Proofs.Space.Substitution
import Wiring.Proofs.Transposition

/-!
Contract: what a firing does that is split by flat key.

Owns: `Split`, a firing that has called its method once for every flat key of its first container, with the parts of
all containers there, and has put the outputs together; `Stuck`, the reasons why it does not get there; that every
split firing ends in one of these ways; and that the transposition turns every space that comes back from its flat
form.

Does not own: which computations fire, and on which ops.
-/

namespace Wiring.Method

open Recording (Chain mapM_ok_iff of_mapM_error)

/-! ### Split firings -/

section

variable (method : Method) (settings : Settings) (context : MethodContext) (inputs : List DataOp)

/-- What the call for a key gets for an input: of a container a new op for the box at the key, which records where it
comes from, and anything else as it is. -/
inductive Parted (key : String) (input : DataOp) (recorder : Recorder) : DataOp → Recorder → Prop where
  | kept (plain : input.space.isContainer = false) : Parted key input recorder input recorder
  | part {leaf : Box} {op : DataOp} {final : Recorder} (container : input.space.isContainer = true)
      (held : Keyed.get? input.space.flatten key = some leaf)
      (recorded : context.record ("split" ++ key) [input.id] (.box leaf) recorder = .ok (op, final)) :
      Parted key input recorder op final

/-- What a call for a key can see: the key only if the settings ask for it. -/
def keyed (key : String) : MethodContext :=
  { context with key := if settings.passKey then some key else none }

/-- The method was called for a key, with a part of every input. -/
inductive CalledFor (key : String) (recorder : Recorder) : String × List DataOp → Recorder → Prop where
  | call {parts outputs : List DataOp} {middle final : Recorder}
      (parted : Chain (Parted context key) inputs recorder parts middle)
      (called : method.call (keyed settings context key) parts middle = .ok (outputs, final)) :
      CalledFor key recorder (key, outputs) final

/-- The space of the op that the call for a key has returned at a position. -/
def returned (calls : Keyed (List DataOp)) (j : Nat) (key : String) : Space :=
  (((Keyed.get? calls key).getD []).getD j default).space

/-- The space that is made of the spaces for all keys. -/
def joined (parts : Keyed Space) : Except FlatKey.Fault Space :=
  if settings.unflattenOps then Space.unflatten parts else .ok (.dict parts)

/-- The ops that all calls have returned at a position were put together to one op. -/
structure MergedAt (calls : Keyed (List DataOp)) (j : Nat) (recorder : Recorder) (op : DataOp) (final : Recorder) :
    Prop where
  space : joined settings ((Keyed.keys calls).map fun key => (key, returned calls j key)) = .ok op.space
  recorded : context.record (if settings.unflattenOps then "unflatten" else "flat")
    (calls.map fun call => (call.2.getD j default).id) op.space recorder = .ok (op, final)

/-- A firing that was split over the flat keys of a space. -/
structure Split (space : Space) (recorder : Recorder) (calls : Keyed (List DataOp)) (outputs : List DataOp)
    (final : Recorder) : Prop where
  /-- There was one call for every flat key, in order, and afterwards outputs were only put together. -/
  chain : ∃ middle, Chain (CalledFor method settings context inputs) (Keyed.keys space.flatten) recorder calls middle ∧
    Chain (MergedAt settings context calls) (List.range method.outputs) middle outputs final
  counted : ∀ call ∈ calls, call.2.length = method.outputs
  flat : settings.unflattenOps = false → outputs.map DataOp.space = (List.range method.outputs).map fun j =>
    .dict ((Keyed.keys space.flatten).map fun key => (key, returned calls j key))
  whole : settings.unflattenOps = true → Space.unflatten space.flatSpaces = .ok space →
    outputs.map DataOp.space = (List.range method.outputs).map fun j => space.substitute (returned calls j) ""

/-- Why a firing fails that is split over the flat keys of a space. -/
inductive Stuck (space : Space) (recorder : Recorder) : Error → Prop where
  /-- The method has failed, called for one of the keys after those before it. -/
  | call {done rest : List String} {key : String} {calls : Keyed (List DataOp)} {parts : List DataOp}
      {middle given : Recorder} {error : Error} (keys : Keyed.keys space.flatten = done ++ key :: rest)
      (chain : Chain (CalledFor method settings context inputs) done recorder calls middle)
      (parted : Chain (Parted context key) inputs middle parts given)
      (failed : method.call (keyed settings context key) parts given = .error error) : Stuck space recorder error
  /-- All calls have returned, but the space does not come back from its flat form. -/
  | keys {calls : Keyed (List DataOp)} {middle : Recorder} (fault : FlatKey.Fault)
      (chain : Chain (CalledFor method settings context inputs) (Keyed.keys space.flatten) recorder calls middle)
      (joins : settings.unflattenOps = true) (lost : Space.unflatten space.flatSpaces ≠ .ok space) :
      Stuck space recorder (.flatKeys fault)

end

/-- Every container among the inputs has all flat keys of the space. -/
def Covers (inputs : List DataOp) (space : Space) : Prop :=
  ∀ input ∈ inputs, input.space.isContainer = true → Keyed.keys space.flatten ⊆ Keyed.keys input.space.flatten

/-- The first container among the inputs that lacks the key has the space. -/
def Lacks (inputs : List DataOp) (key : String) (space : Space) : Prop :=
  ∃ front input back, inputs = front ++ input :: back ∧ input.space = space ∧ space.isContainer = true ∧
    key ∉ Keyed.keys space.flatten ∧
    ∀ other ∈ front, other.space.isContainer = true → key ∈ Keyed.keys other.space.flatten

section

variable {method : Method} {settings : Settings} {context : MethodContext} {inputs : List DataOp}
  {recorder final : Recorder} {space : Space}

/-! ### Calls -/

/-- A container that has the key is parted there, anything else is kept. -/
theorem parted_of_splitInput {key : String} {input op : DataOp}
    (ran : splitInput context key input recorder = .ok (op, final)) : Parted context key input recorder op final := by
  unfold splitInput at ran
  cases container : input.space.isContainer with
  | false =>
      rw [container] at ran
      cases ran
      exact .kept container
  | true =>
      rw [container] at ran
      cases held : Keyed.get? input.space.flatten key with
      | none =>
          rw [held] at ran
          cases ran
      | some leaf =>
          rw [held] at ran
          exact .part container held ran

/-- An input cannot be parted only where it is a container that lacks the key. -/
theorem of_splitInput_error {key : String} {input : DataOp} {error : Error}
    (failed : splitInput context key input recorder = .error error) :
    input.space.isContainer = true ∧ key ∉ Keyed.keys input.space.flatten ∧
      error = .splitKeyMissing input.space key := by
  unfold splitInput at failed
  cases container : input.space.isContainer with
  | false =>
      rw [container] at failed
      cases failed
  | true =>
      rw [container] at failed
      cases held : Keyed.get? input.space.flatten key with
      | some leaf =>
          rw [held] at failed
          cases failed
      | none =>
          rw [held] at failed
          refine ⟨rfl, fun known => ?_, (Except.error.inj failed).symm⟩
          rcases Keyed.exists_get? known with ⟨leaf, found⟩
          rw [held] at found
          cases found

/-- A container that was parted at a key has it. -/
theorem Parted.known {key : String} {input op : DataOp} (parted : Parted context key input recorder op final)
    (container : input.space.isContainer = true) : key ∈ Keyed.keys input.space.flatten := by
  cases parted with
  | kept plain =>
      rw [plain] at container
      cases container
  | part _ held _ => exact List.mem_map.mpr ⟨_, Keyed.mem_of_get? held, rfl⟩

theorem calledFor_of_callForKey {key : String} {call : String × List DataOp}
    (ran : method.callForKey settings context inputs key recorder = .ok (call, final)) :
    CalledFor method settings context inputs key recorder call final := by
  rcases except_bind_eq_ok.mp ran with ⟨⟨parts, middle⟩, parted, ran⟩
  rcases except_bind_eq_ok.mp ran with ⟨⟨outputs, last⟩, called, ran⟩
  cases ran
  exact .call ((mapM_ok_iff.mp parted).imp fun _ _ _ _ => parted_of_splitInput) called

/-- A call for a key fails where the method does, called with a part of every input, or where a container lacks the
key. -/
theorem of_callForKey_error {key : String} {error : Error}
    (failed : method.callForKey settings context inputs key recorder = .error error) :
    (∃ parts given, Chain (Parted context key) inputs recorder parts given ∧
      method.call (keyed settings context key) parts given = .error error) ∨
    ∃ space, Lacks inputs key space ∧ error = .splitKeyMissing space key := by
  rcases except_bind_eq_error.mp failed with here | ⟨⟨parts, given⟩, parted, failed⟩
  · rcases of_mapM_error here with ⟨front, input, back, _, middle, listed, parted, failed⟩
    rcases of_splitInput_error failed with ⟨container, lacking, rfl⟩
    have held := parted.of_mem fun other _ _ _ _ ran => (parted_of_splitInput ran).known
    exact .inr ⟨input.space, ⟨front, input, back, listed, rfl, container, lacking, held⟩, rfl⟩
  · refine .inl ⟨parts, given, (mapM_ok_iff.mp parted).imp fun _ _ _ _ => parted_of_splitInput, ?_⟩
    rcases except_bind_eq_error.mp failed with called | ⟨_, -, done⟩
    · exact called
    · cases done

theorem keys_of_chain {keys : List String} {calls : Keyed (List DataOp)}
    (chain : Chain (CalledFor method settings context inputs) keys recorder calls final) : Keyed.keys calls = keys := by
  have named := chain.map_eq Prod.fst id fun key _ _ call _ called => by cases called; rfl
  exact named.trans (List.map_id keys)

theorem distinctKeys_of_chain {calls : Keyed (List DataOp)}
    (chain : Chain (CalledFor method settings context inputs) (Keyed.keys space.flatten) recorder calls final) :
    Keyed.DistinctKeys calls := by
  rw [Keyed.DistinctKeys, keys_of_chain chain]
  exact Keyed.distinctKeys_ofList _

theorem length_of_chain {keys : List String} {calls : Keyed (List DataOp)}
    (chain : Chain (CalledFor method settings context inputs) keys recorder calls final) :
    ∀ call ∈ calls, call.2.length = method.outputs := by
  have counts := chain.map_eq (fun call => call.2.length) (fun _ => method.outputs) fun key _ _ call _ called => by
    cases called with
    | call _ called => exact length_call called
  intro call listed
  have member : call.2.length ∈ calls.map fun call => call.2.length := List.mem_map.mpr ⟨call, listed, rfl⟩
  rw [counts] at member
  rcases List.mem_map.mp member with ⟨_, -, same⟩
  exact same.symm

/-- If every call returns the space that is told for its key, these are the spaces for all keys. -/
theorem returned_of_chain {keys : List String} {calls : Keyed (List DataOp)}
    (chain : Chain (CalledFor method settings context inputs) keys recorder calls final) (distinct : keys.Nodup)
    (j : Nat) (told : String → Space)
    (each : ∀ key ∈ keys, ∀ recorder outputs final, CalledFor method settings context inputs key recorder
      (key, outputs) final → (outputs.getD j default).space = told key) :
    ∀ key ∈ keys, returned calls j key = told key := by
  intro key listed
  have shown := chain.map_eq (fun call => (call.1, (call.2.getD j default).space)) (fun key => (key, told key))
    fun key member recorder call final called => by
      cases called with
      | call parted called => exact congrArg (Prod.mk key) (each key member _ _ _ (.call parted called))
  have member : (key, told key) ∈ calls.map fun call => (call.1, (call.2.getD j default).space) :=
    shown ▸ List.mem_map.mpr ⟨key, listed, rfl⟩
  rcases List.mem_map.mp member with ⟨call, callListed, same⟩
  obtain ⟨rfl, same⟩ := Prod.mk.inj same
  rw [← keys_of_chain chain] at distinct
  rw [returned, Keyed.get?_of_mem distinct callListed, ← same]
  rfl

/-! ### Merges -/

theorem space_of_record {label : String} {ids : List OpId} {op : DataOp}
    (recorded : context.record label ids space recorder = .ok (op, final)) : op.space = space := by
  cases recorded
  rfl

theorem merge_eq {calls : Keyed (List DataOp)} (distinct : Keyed.DistinctKeys calls) (j : Nat) :
    merge settings context calls j =
      match joined settings ((Keyed.keys calls).map fun key => (key, returned calls j key)) with
      | .ok space => context.record (if settings.unflattenOps then "unflatten" else "flat")
          (calls.map fun call => (call.2.getD j default).id) space
      | .error fault => throw (.flatKeys fault) := by
  have parts : (calls.map fun call => (call.1, (call.2.getD j default).space)) =
      (Keyed.keys calls).map fun key => (key, returned calls j key) := by
    rw [Keyed.keys, List.map_map]
    refine List.map_congr_left fun call listed => ?_
    rw [Function.comp_apply, returned, Keyed.get?_of_mem distinct listed]
    rfl
  unfold merge joined
  rw [← parts]
  dsimp only
  rw [List.map_map, List.map_map]
  cases settings.unflattenOps <;> rfl

theorem of_merge_ok {calls : Keyed (List DataOp)} (distinct : Keyed.DistinctKeys calls) {j : Nat} {op : DataOp}
    (ran : merge settings context calls j recorder = .ok (op, final)) :
    MergedAt settings context calls j recorder op final := by
  rw [merge_eq distinct] at ran
  split at ran
  next space made =>
    have same := space_of_record ran
    exact ⟨same ▸ made, same ▸ ran⟩
  next => cases ran

theorem of_merge_error {calls : Keyed (List DataOp)} (distinct : Keyed.DistinctKeys calls) {j : Nat} {error : Error}
    (failed : merge settings context calls j recorder = .error error) :
    ∃ fault, error = .flatKeys fault ∧
      joined settings ((Keyed.keys calls).map fun key => (key, returned calls j key)) = .error fault := by
  rw [merge_eq distinct] at failed
  split at failed
  next => cases failed
  next fault lost =>
    cases failed
    exact ⟨fault, rfl, lost⟩

/-! ### Firings -/

/-- A firing that looks into containers and splits them, on ops of which the first container has the space. -/
structure SplitsOver (settings : Settings) (inputs : List DataOp) (space : Space) : Prop where
  looks : settings.flattenOps = true
  splits : settings.splitOps = true
  found : ∃ input, inputs.find? (fun input => input.space.isContainer) = some input ∧ input.space = space

theorem SplitsOver.apply_eq (spread : SplitsOver settings inputs space) (method : Method) (context : MethodContext) :
    method.apply settings context inputs =
      ((Keyed.keys space.flatten).mapM (method.callForKey settings context inputs) >>= fun calls =>
        (List.range method.outputs).mapM (merge settings context calls)) := by
  rcases spread.found with ⟨input, found, rfl⟩
  have container : input.space.isContainer = true := by
    simpa using List.find?_some found
  have present : inputs.any (fun input => input.space.isContainer) = true :=
    List.any_eq_true.mpr ⟨input, List.mem_of_find?_eq_some found, container⟩
  have does : Method.splits settings inputs = true := by
    rw [Method.splits, spread.looks, spread.splits, present]
    rfl
  rw [apply, if_pos does, splitKeys, found]

theorem SplitsOver.split (spread : SplitsOver settings inputs space) {outputs : List DataOp}
    (ran : method.apply settings context inputs recorder = .ok (outputs, final)) :
    ∃ calls, Split method settings context inputs space recorder calls outputs final := by
  rw [spread.apply_eq] at ran
  rcases except_bind_eq_ok.mp ran with ⟨⟨calls, middle⟩, called, ran⟩
  have chain := (mapM_ok_iff.mp called).imp fun _ _ _ _ => calledFor_of_callForKey
  have keys := keys_of_chain chain
  have merged := (mapM_ok_iff.mp ran).imp fun _ _ _ _ => of_merge_ok (distinctKeys_of_chain chain)
  refine ⟨calls, ⟨middle, chain, merged⟩, length_of_chain chain, fun keeps => ?_, fun joins back => ?_⟩
  · refine merged.map_eq DataOp.space _ fun j _ _ op _ merge => ?_
    have made := merge.space
    rw [joined, keeps, keys] at made
    exact (Except.ok.inj made).symm
  · refine merged.map_eq DataOp.space _ fun j _ _ op _ merge => ?_
    have made := merge.space
    rw [joined, joins, if_pos rfl, keys, Space.unflatten_substitute _ back] at made
    exact (Except.ok.inj made).symm

theorem SplitsOver.stuck (spread : SplitsOver settings inputs space) (covers : Covers inputs space) {error : Error}
    (failed : method.apply settings context inputs recorder = .error error) :
    Stuck method settings context inputs space recorder error := by
  rw [spread.apply_eq] at failed
  rcases except_bind_eq_error.mp failed with here | ⟨⟨calls, middle⟩, called, failed⟩
  -- One of the calls has failed; the inputs of it could be parted, so it was the method.
  · rcases of_mapM_error here with ⟨done, key, rest, calls, middle, keys, called, failed⟩
    rcases of_callForKey_error failed with ⟨parts, given, parted, failed⟩ | ⟨space, lacks, -⟩
    · exact .call keys (called.imp fun _ _ _ _ => calledFor_of_callForKey) parted failed
    · rcases lacks with ⟨front, input, back, rfl, rfl, container, lacking, -⟩
      exact absurd (covers input (by simp) container (keys ▸ by simp)) lacking
  -- All calls have returned, and one of the outputs could not be put together.
  · have chain := (mapM_ok_iff.mp called).imp fun _ _ _ _ => calledFor_of_callForKey
    rcases of_mapM_error failed with ⟨_, j, _, _, _, -, -, failed⟩
    rcases of_merge_error (distinctKeys_of_chain chain) failed with ⟨fault, rfl, lost⟩
    rw [joined, keys_of_chain chain] at lost
    cases joins : settings.unflattenOps with
    | false =>
        rw [joins] at lost
        cases lost
    | true =>
        refine .keys fault chain joins fun back => ?_
        rw [joins, if_pos rfl, Space.unflatten_substitute _ back] at lost
        cases lost

end

end Wiring.Method

/-! ### The transposition -/

namespace Wiring.Transposition

open Method
open Recording (Chain)

variable {context : MethodContext} {recorder : Recorder}

theorem call_eq (context : MethodContext) (op : DataOp) (recorder : Recorder) :
    ∃ turned final, method.call context [op] recorder = .ok ([turned], final) ∧
      turned.space = op.space.flipTimeMajor :=
  ⟨_, _, rfl, rfl⟩

theorem splitsOver {input : DataOp} (container : input.space.isContainer = true) :
    SplitsOver settings [input] input.space where
  looks := rfl
  splits := rfl
  found := ⟨input, by simp [container], rfl⟩

/-- The call for a key returns the turned box of the container. -/
theorem call_part {input : DataOp} (container : input.space.isContainer = true) {key : String} {parts : List DataOp}
    {given : Recorder} (parted : Chain (Parted context key) [input] recorder parts given) (seen : MethodContext) :
    ∃ leaf turned final, Keyed.get? input.space.flatten key = some leaf ∧
      method.call seen parts given = .ok ([turned], final) ∧ turned.space = (Space.box leaf).flipTimeMajor := by
  cases parted with
  | @cons _ _ op _ _ _ _ first rest =>
      cases rest
      cases first with
      | kept plain =>
          rw [plain] at container
          cases container
      | @part leaf _ _ _ held recorded =>
          rcases call_eq seen op given with ⟨turned, final, answered, space⟩
          rw [space_of_record recorded] at space
          exact ⟨leaf, turned, final, held, answered, space⟩

/-- A firing answers one op, with the turned space of the one it is given. -/
theorem apply_flips (context : MethodContext) (recorder : Recorder) {input : DataOp}
    (back : input.space.isContainer = true → Space.unflatten input.space.flatSpaces = .ok input.space) :
    ∃ turned final, method.apply settings context [input] recorder = .ok ([turned], final) ∧
      turned.space = input.space.flipTimeMajor := by
  cases container : input.space.isContainer with
  | false =>
      have whole : splits settings [input] = false := by simp [splits, container]
      rw [Method.apply, if_neg (by rw [whole]; decide)]
      exact call_eq _ input recorder
  | true =>
      have spread := splitsOver container
      have back := back container
      rcases except_cases (method.apply settings context [input] recorder) with
        ⟨error, failed⟩ | ⟨⟨outputs, final⟩, ran⟩
      · have covers : Covers [input] input.space := List.forall_mem_singleton.mpr fun _ => List.Subset.refl _
        cases spread.stuck covers failed with
        | call _ _ parted refused =>
            rcases call_part container parted _ with ⟨_, _, _, -, answered, -⟩
            rw [answered] at refused
            cases refused
        | keys fault chain joins lost => exact absurd back lost
      · rcases spread.split ran with ⟨calls, split⟩
        rcases split.chain with ⟨middle, chain, -⟩
        have distinct : (Keyed.keys input.space.flatten).Nodup := Keyed.distinctKeys_ofList _
        have each := returned_of_chain chain distinct 0
          (fun key => .flipTimeMajor (.box ((Keyed.get? input.space.flatten key).getD default)))
          fun key _ recorder outputs final called => by
            cases called with
            | call parted called =>
                rcases call_part container parted _ with ⟨leaf, turned, last, held, answered, space⟩
                rw [answered] at called
                cases called
                rw [held]
                exact space
        -- Every box has its turned form put in its place, so the boxes were turned where they stand.
        have turned : input.space.substitute (returned calls 0) "" = input.space.flipTimeMajor := by
          refine Space.substitute_eq_mapBoxes _ _ _ _ fun leaf listed => ?_
          have held := Space.get?_flatten_of_unflatten back listed
          have known : leaf.1 ∈ Keyed.keys input.space.flatten :=
            List.mem_map.mpr ⟨_, Keyed.mem_of_get? held, rfl⟩
          rw [each leaf.1 known, held]
          rfl
        have spaces := split.whole rfl back
        rw [show List.range method.outputs = [0] from rfl, List.map_singleton, turned] at spaces
        rcases List.map_eq_singleton_iff.mp spaces with ⟨op, rfl, same⟩
        exact ⟨op, final, ran, same⟩

/-- Where a transposition stands, an op that is new to its computation goes on turned. -/
theorem Stands.fires {state : BuildState} {id : ComponentId} {computation : ComputationId} {input output : SocketId}
    (stands : Stands state.graph id computation input output) {op : DataOp}
    (fresh : (computation, [op.id]) ∉ state.fired)
    (back : op.space.isContainer = true → Space.unflatten op.space.flatSpaces = .ok op.space) :
    ∃ turned final, (Build.fireWith computation [op]).run state = (.ok [.deliver output turned], final) ∧
      turned.space = op.space.flipTimeMajor := by
  rcases stands.registered with ⟨node, found, registered⟩
  rcases apply_flips (Build.contextOf state.graph id node) { log := state.log, calls := state.session.calls } back with
    ⟨turned, recorder, applied, space⟩
  have fired := Build.FiredWith.returns _ node method [turned] recorder fresh stands.bound found registered applied
  exact ⟨turned, _, Build.run_fireWith_ok.mpr fired, space⟩

end Wiring.Transposition

/-! ### Split computations -/

namespace Wiring.Method

/-- A firing that is split over a space calls its method once for every flat key, in order: with the part of every
container at the key, with all other inputs as they are, and with the key only if the settings ask for it. It returns,
for every output of the method, the space with the boxes replaced by what was returned for their keys, if the space
comes back from its flat form, or else the dict of these; and with all keys in all containers it fails only where a
call does, or where that space does not come back. So what a created transposition passes on is the turned space. -/
theorem split_firings :
    (∀ (method : Method) (settings : Settings) (context : MethodContext) (inputs : List DataOp) (space : Space)
        (recorder : Recorder), SplitsOver settings inputs space →
      (∀ outputs final, method.apply settings context inputs recorder = .ok (outputs, final) →
        ∃ calls, Split method settings context inputs space recorder calls outputs final) ∧
      (Covers inputs space → ∀ error, method.apply settings context inputs recorder = .error error →
        Stuck method settings context inputs space recorder error)) ∧
    (∀ scope graph id final, (Transposition.create scope).run graph = (.ok id, final) →
      ∃ computation input output, Transposition.Stands final id computation input output) ∧
    ∀ (state : BuildState) (id : ComponentId) (computation : ComputationId) (input output : SocketId) (op : DataOp),
      Transposition.Stands state.graph id computation input output → (computation, [op.id]) ∉ state.fired →
      (op.space.isContainer = true → Space.unflatten op.space.flatSpaces = .ok op.space) →
      ∃ turned later, (Build.fireWith computation [op]).run state = (.ok [.deliver output turned], later) ∧
        turned.space = op.space.flipTimeMajor := by
  refine ⟨fun method settings context inputs space recorder spread => ⟨?_, ?_⟩, ?_, ?_⟩
  · exact fun outputs final ran => spread.split ran
  · exact fun covers error failed => spread.stuck covers failed
  · exact fun scope graph id final ran => Transposition.create_stands ran
  · exact fun state id computation input output op stands fresh back => stands.fires fresh back

/-- Returns the first input, after an op that pairs both. -/
def samplePairing : Method where
  name := "pair"
  inputs := 2
  outputs := 2
  run := fun context inputs => do
    let pair ← context.record "pair" (inputs.map DataOp.id) (.tuple (inputs.map DataOp.space))
    return [pair, inputs.getD 0 default]

/-- What a component without variables can see. -/
def sampleContext : MethodContext where
  component := ⟨0⟩
  componentName := "pairing"
  registry := []
  key := none
  backend := .ndArray

/-- A box, and a dict with a tuple inside. -/
def sampleInputs : List DataOp :=
  [⟨⟨0⟩, .boolBox []⟩, ⟨⟨1⟩, .sampleNested⟩]

/-- A graph with nothing but a transposition. -/
def sampleTurning : Graph :=
  (Transposition.equipped none {}).withComputation (Transposition.binding {})

theorem split_firings_samples :
    (SplitsOver { splitOps := true } sampleInputs .sampleNested ∧ Covers sampleInputs .sampleNested ∧
      ∃ calls outputs final,
        samplePairing.apply { splitOps := true } sampleContext sampleInputs {} = .ok (outputs, final) ∧
        Split samplePairing { splitOps := true } sampleContext sampleInputs .sampleNested {} calls outputs final ∧
        outputs.map DataOp.space = (List.range 2).map fun j =>
          .dict [("[7]", returned calls j "/[7]"), ("b", .tuple [returned calls j "/b/[0]"])]) ∧
    (Transposition.create none).run {} = (.ok ⟨0⟩, sampleTurning) ∧
    ∃ computation output turned later,
      (Build.fireWith computation [⟨⟨0⟩, .sampleNested⟩]).run { session := { graph := sampleTurning } } =
        (.ok [.deliver output turned], later) ∧ turned.space = Space.sampleNested.flipTimeMajor := by
  have spread : SplitsOver { splitOps := true } sampleInputs .sampleNested := ⟨rfl, rfl, _, rfl, rfl⟩
  have covers : Covers sampleInputs .sampleNested := by
    refine List.forall_mem_cons.mpr ⟨fun container => ?_, List.forall_mem_singleton.mpr fun _ => ?_⟩
    · cases container
    · exact List.Subset.refl _
  have back := Space.fit_sampleNested.unflatten_flatSpaces
  have created : (Transposition.create none).run {} = (.ok ⟨0⟩, sampleTurning) :=
    Transposition.run_create (by decide +kernel)
  refine ⟨⟨spread, covers, ?_⟩, created, ?_⟩
  · rcases split_firings.1 samplePairing _ sampleContext _ _ {} spread with ⟨returns, fails⟩
    rcases except_cases (samplePairing.apply { splitOps := true } sampleContext sampleInputs {}) with
      ⟨error, failed⟩ | ⟨⟨outputs, final⟩, ran⟩
    · cases fails covers error failed with
      | call _ _ _ refused => cases refused
      | keys _ _ _ lost => exact absurd back lost
    · rcases returns outputs final ran with ⟨calls, split⟩
      exact ⟨calls, outputs, final, ran, split, split.whole rfl back⟩
  · rcases split_firings.2.1 none {} ⟨0⟩ sampleTurning created with ⟨computation, input, output, stands⟩
    rcases split_firings.2.2 { session := { graph := sampleTurning } } ⟨0⟩ computation input output
      ⟨⟨0⟩, .sampleNested⟩ stands List.not_mem_nil fun _ => back with ⟨turned, later, fired, space⟩
    exact ⟨computation, output, turned, later, fired, space⟩

end Wiring.Method
