import Wiring.Proofs.Splitting

/-!
Contract: what a split firing makes of containers with different flat keys.

Owns: `Denied`, how a firing ends in which a container lacks a flat key of the first one, and that it ends so at every
recorder; `Trimmed`, by which an input holds the same parts at the flat keys of a space, whatever else it holds; and
that a firing in which no key is lacking does not see what else the containers hold.

Does not own: what a firing returns in which all containers have the same flat keys.
-/

namespace Wiring.Method

open Recording (Chain mapM_ok_iff of_mapM_error)

section

variable (method : Method) (settings : Settings) (context : MethodContext) (inputs : List DataOp)

/-- Why a firing fails that is split over the flat keys of a space, one of which some container lacks. -/
inductive Denied (space : Space) (recorder : Recorder) : Error → Prop where
  /-- The method has failed, called for a key before those that are lacking. -/
  | call {done rest : List String} {key : String} {calls : Keyed (List DataOp)} {parts : List DataOp}
      {middle given : Recorder} {error : Error} (keys : Keyed.keys space.flatten = done ++ key :: rest)
      (chain : Chain (CalledFor method settings context inputs) done recorder calls middle)
      (parted : Chain (Parted context key) inputs middle parts given)
      (failed : method.call (keyed settings context key) parts given = .error error) : Denied space recorder error
  /-- After calls for the keys before it, a key is lacking. -/
  | key {done rest : List String} {key : String} {calls : Keyed (List DataOp)} {middle : Recorder} {other : Space}
      (keys : Keyed.keys space.flatten = done ++ key :: rest)
      (chain : Chain (CalledFor method settings context inputs) done recorder calls middle)
      (lacks : Lacks inputs key other) : Denied space recorder (.splitKeyMissing other key)

end

/-- The input is the same, or another container with the same parts at the flat keys of the space. -/
inductive Trimmed (space : Space) (input : DataOp) : DataOp → Prop where
  | same : Trimmed space input input
  | container {other : Space} (container : input.space.isContainer = true) (otherContainer : other.isContainer = true)
      (parts : ∀ key ∈ Keyed.keys space.flatten,
        Keyed.get? other.flatten key = Keyed.get? input.space.flatten key) :
      Trimmed space input { input with space := other }

section

variable {method : Method} {settings : Settings} {context : MethodContext} {inputs others : List DataOp}
  {recorder final : Recorder} {space : Space}

/-! ### Lacking keys -/

/-- Calls for all keys have parted every container at each of them. -/
theorem covers_of_chain {calls : Keyed (List DataOp)}
    (chain : Chain (CalledFor method settings context inputs) (Keyed.keys space.flatten) recorder calls final) :
    Covers inputs space := by
  have known := chain.of_mem fun key _ _ call _ called => show ∀ input ∈ inputs, input.space.isContainer = true →
      key ∈ Keyed.keys input.space.flatten by
    cases called with
    | call parted => exact parted.of_mem fun input _ _ _ _ parted => parted.known
  exact fun input listed container key member => known key member input listed container

theorem SplitsOver.denied (spread : SplitsOver settings inputs space) (lacking : ¬ Covers inputs space)
    (method : Method) (context : MethodContext) (recorder : Recorder) :
    ∃ error, method.apply settings context inputs recorder = .error error ∧
      Denied method settings context inputs space recorder error := by
  rw [spread.apply_eq]
  -- The calls cannot all succeed, as they part every container at every key.
  rcases except_cases ((Keyed.keys space.flatten).mapM (method.callForKey settings context inputs) recorder) with
    ⟨error, failed⟩ | ⟨⟨calls, middle⟩, called⟩
  · refine ⟨error, except_bind_eq_error.mpr (.inl failed), ?_⟩
    rcases of_mapM_error failed with ⟨done, key, rest, calls, middle, keys, called, failed⟩
    have chain := called.imp fun _ _ _ _ => calledFor_of_callForKey
    rcases of_callForKey_error failed with ⟨parts, given, parted, failed⟩ | ⟨other, lacks, rfl⟩
    · exact .call keys chain parted failed
    · exact .key keys chain lacks
  · exact absurd (covers_of_chain ((mapM_ok_iff.mp called).imp fun _ _ _ _ => calledFor_of_callForKey)) lacking

/-! ### Keys too many -/

theorem splitInput_trimmed {key : String} {input other : DataOp} (trimmed : Trimmed space input other)
    (listed : key ∈ Keyed.keys space.flatten)
    (known : input.space.isContainer = true → key ∈ Keyed.keys input.space.flatten) :
    splitInput context key other = splitInput context key input := by
  cases trimmed with
  | same => rfl
  | container container otherContainer parts =>
      rcases Keyed.exists_get? (known container) with ⟨leaf, held⟩
      unfold splitInput
      rw [if_pos container, if_pos otherContainer, parts key listed, held]

theorem mapM_splitInput_trimmed {key : String} (trimmed : List.Forall₂ (Trimmed space) inputs others)
    (listed : key ∈ Keyed.keys space.flatten)
    (known : ∀ input ∈ inputs, input.space.isContainer = true → key ∈ Keyed.keys input.space.flatten) :
    others.mapM (splitInput context key) = inputs.mapM (splitInput context key) := by
  induction trimmed with
  | nil => rfl
  | cons first _ inductionHypothesis =>
      rw [List.forall_mem_cons] at known
      rw [List.mapM_cons, List.mapM_cons, splitInput_trimmed first listed known.1, inductionHypothesis known.2]

theorem SplitsOver.apply_trimmed (spread : SplitsOver settings inputs space)
    (spreadToo : SplitsOver settings others space) (covers : Covers inputs space)
    (trimmed : List.Forall₂ (Trimmed space) inputs others) (method : Method) (context : MethodContext) :
    method.apply settings context others = method.apply settings context inputs := by
  rw [spread.apply_eq, spreadToo.apply_eq]
  refine congrArg (· >>= _) (mapM_congr fun key listed => ?_)
  unfold callForKey
  rw [mapM_splitInput_trimmed trimmed listed fun input member container => covers input member container listed]

/-! ### Different keys -/

/-- A method that always returns fires exactly if all containers have the keys of the first one. -/
theorem SplitsOver.fires_iff (spread : SplitsOver settings inputs space)
    (returns : ∀ context parts given error, method.call context parts given ≠ .error error)
    (back : settings.unflattenOps = true → Space.unflatten space.flatSpaces = .ok space) (context : MethodContext)
    (recorder : Recorder) :
    (∃ answer, method.apply settings context inputs recorder = .ok answer) ↔ Covers inputs space := by
  constructor
  · rintro ⟨answer, ran⟩
    by_contra lacking
    rcases spread.denied lacking method context recorder with ⟨error, failed, -⟩
    rw [ran] at failed
    cases failed
  · intro covers
    rcases except_cases (method.apply settings context inputs recorder) with ⟨error, failed⟩ | answered
    · cases spread.stuck covers failed with
      | call _ _ _ refused => exact absurd refused (returns _ _ _ _)
      | keys _ _ joins lost => exact absurd (back joins) lost
    · exact answered

/-- A split firing takes the flat keys of its first container. If another container lacks one of them, it fails with
that key, or before with an error of the method. What the containers hold beyond these keys is not seen: the firing
runs alike on any other containers with the same parts there, and a method that always returns fires. -/
theorem split_keys (method : Method) (settings : Settings) (context : MethodContext) (inputs : List DataOp)
    (space : Space) (spread : SplitsOver settings inputs space) :
    (¬ Covers inputs space → ∀ recorder, ∃ error, method.apply settings context inputs recorder = .error error ∧
      Denied method settings context inputs space recorder error) ∧
    (Covers inputs space → ∀ others, SplitsOver settings others space → List.Forall₂ (Trimmed space) inputs others →
      method.apply settings context others = method.apply settings context inputs) ∧
    ((∀ context parts given error, method.call context parts given ≠ .error error) →
      (settings.unflattenOps = true → Space.unflatten space.flatSpaces = .ok space) → ∀ recorder,
        (∃ answer, method.apply settings context inputs recorder = .ok answer) ↔ Covers inputs space) :=
  ⟨fun lacking recorder => spread.denied lacking method context recorder,
    fun covers _ spreadToo trimmed => spread.apply_trimmed spreadToo covers trimmed method context,
    fun returns back recorder => spread.fires_iff returns back context recorder⟩

end

/-- A container with one key. -/
def sampleNarrow : DataOp :=
  ⟨⟨0⟩, .dict [("a", .floatBox [])]⟩

/-- A container with that key and another one. -/
def sampleWide : DataOp :=
  ⟨⟨1⟩, .dict [("a", .floatBox []), ("b", .boolBox [])]⟩

/-- With the wide container first the firing fails; with the narrow one first it runs as if both were narrow. -/
theorem split_keys_samples :
    (∃ error, samplePairing.apply { splitOps := true } sampleContext [sampleWide, sampleNarrow] {} = .error error ∧
      Denied samplePairing { splitOps := true } sampleContext [sampleWide, sampleNarrow] sampleWide.space {} error) ∧
    samplePairing.apply { splitOps := true } sampleContext
        [sampleNarrow, { sampleWide with space := sampleNarrow.space }] =
      samplePairing.apply { splitOps := true } sampleContext [sampleNarrow, sampleWide] ∧
    ∃ answer, samplePairing.apply { splitOps := true } sampleContext [sampleNarrow, sampleWide] {} = .ok answer := by
  have wideFirst : SplitsOver { splitOps := true } [sampleWide, sampleNarrow] sampleWide.space :=
    ⟨rfl, rfl, _, rfl, rfl⟩
  have narrowFirst (other : DataOp) : SplitsOver { splitOps := true } [sampleNarrow, other] sampleNarrow.space :=
    ⟨rfl, rfl, _, rfl, rfl⟩
  have lacking : ¬ Covers [sampleWide, sampleNarrow] sampleWide.space := fun covers =>
    absurd (covers sampleNarrow (by simp) rfl (show "/b" ∈ Keyed.keys sampleWide.space.flatten by decide)) (by decide)
  have covers : Covers [sampleNarrow, sampleWide] sampleNarrow.space :=
    List.forall_mem_cons.mpr ⟨fun _ => List.Subset.refl _, List.forall_mem_singleton.mpr fun _ => by decide⟩
  have trimmed : List.Forall₂ (Trimmed sampleNarrow.space) [sampleNarrow, sampleWide]
      [sampleNarrow, { sampleWide with space := sampleNarrow.space }] :=
    .cons .same (.cons (.container rfl rfl fun key listed => by
      obtain rfl : key = "/a" := List.mem_singleton.mp listed
      rfl) .nil)
  refine ⟨(split_keys samplePairing _ sampleContext _ _ wideFirst).1 lacking {}, ?_⟩
  rcases split_keys samplePairing _ sampleContext _ _ (narrowFirst sampleWide) with ⟨-, alike, fires⟩
  exact ⟨alike covers _ (narrowFirst _) trimmed, (fires (fun _ _ _ _ => nofun) (fun _ => rfl) {}).mpr covers⟩

/-- Containers with different keys whose firing does not fail. -/
theorem fires_with_keys_too_many :
    ¬ ∀ (method : Method) (settings : Settings) (context : MethodContext) (inputs : List DataOp) (recorder : Recorder),
      settings.flattenOps = true → settings.splitOps = true →
      (∃ left ∈ inputs, ∃ right ∈ inputs, left.space.isContainer = true ∧ right.space.isContainer = true ∧
        ∃ key, key ∈ Keyed.keys left.space.flatten ∧ key ∉ Keyed.keys right.space.flatten) →
      ∃ error, method.apply settings context inputs recorder = .error error ∧ error.kind = .computation := by
  intro fails
  have ran : ∃ answer,
      samplePairing.apply { splitOps := true } sampleContext [sampleNarrow, sampleWide] {} = .ok answer := ⟨_, rfl⟩
  rcases ran with ⟨answer, ran⟩
  rcases fails samplePairing { splitOps := true } sampleContext [sampleNarrow, sampleWide] {} rfl rfl
    ⟨sampleWide, by simp, sampleNarrow, by simp, rfl, rfl, "/b", by decide, by decide⟩ with ⟨error, failed, -⟩
  rw [ran] at failed
  cases failed

end Wiring.Method
