import Wiring.Proofs.Steps
import Wiring.Method

/-!
Contract: methods that only create ops.

Owns: logs that grow; `Creates`, by which what a method runs only adds to the log and returns ops that are in
it; `Chain`, visits one after the other, and that a traversal is one; that firings with such a method create ops too,
split or not; and how many ops a firing returns.
-/

namespace Wiring

/-! ### Logs -/

/-- No record is lost or changed. -/
def OpLog.Grows (before later : OpLog) : Prop :=
  ∀ id record, before.get? id = some record → later.get? id = some record

/-- The log holds the op with its space. -/
def OpLog.Has (log : OpLog) (op : DataOp) : Prop :=
  ∃ record, log.get? op.id = some record ∧ record.space = op.space

namespace OpLog

instance : IsPreorder OpLog Grows where
  refl _ _ _ held := held
  trans _ _ _ first second id record held := second id record (first id record held)

theorem Grows.refl (log : OpLog) : Grows log log := fun _ _ held => held

theorem Grows.trans {first second third : OpLog} (left : Grows first second) (right : Grows second third) :
    Grows first third :=
  fun id record held => right id record (left id record held)

theorem Has.grows {before later : OpLog} {op : DataOp} (has : before.Has op) (grows : Grows before later) :
    later.Has op := by
  rcases has with ⟨record, held, space⟩
  exact ⟨record, grows _ _ held, space⟩

/-- An identifier determines its op. -/
theorem Has.eq_of_id {log : OpLog} {first second : DataOp} (hasFirst : log.Has first) (hasSecond : log.Has second)
    (same : first.id = second.id) : first = second := by
  rcases hasFirst with ⟨record, held, space⟩
  rcases hasSecond with ⟨other, otherHeld, otherSpace⟩
  rw [same, otherHeld] at held
  obtain rfl := Option.some.inj held
  cases first
  cases second
  simp_all

theorem lt_size_of_get? {log : OpLog} {id : OpId} {record : OpRecord} (held : log.get? id = some record) :
    id.index < log.size := by
  rcases Option.map_eq_some_iff.mp held with ⟨entry, found, -⟩
  exact (Array.getElem?_eq_some_iff.mp found).1

theorem grows_push (log : OpLog) (record : OpRecord) : Grows log (log.push record).2 :=
  fun _ _ held => (get?_push_of_lt log record (lt_size_of_get? held)).trans held

theorem has_push (log : OpLog) (record : OpRecord) : (log.push record).2.Has (log.push record).1 :=
  ⟨record, get?_push_self log record, rfl⟩

end OpLog

/-! ### Recordings -/

/-- The run only adds records; if the log has the needed ops, it has the returned ones afterwards. -/
def Recording.Creates {α : Type} (needs : List DataOp) (returned : α → List DataOp) (recording : Recording α) :
    Prop :=
  ∀ recorder value final, recording recorder = .ok (value, final) →
    recorder.log.Grows final.log ∧
      ((∀ op ∈ needs, recorder.log.Has op) → ∀ op ∈ returned value, final.log.Has op)

/-- A method that only creates ops, whatever it is run on. -/
def Method.CreatesOps (method : Method) : Prop :=
  ∀ context inputs, Recording.Creates inputs id (method.run context inputs)

namespace Recording.Creates

variable {α β : Type} {needs : List DataOp} {returned : β → List DataOp}

theorem pure {value : β} (known : ∀ op ∈ returned value, op ∈ needs) :
    Creates needs returned (Pure.pure value : Recording β) := by
  intro recorder other final ran
  cases ran
  exact ⟨.refl _, fun has op member => has op (known op member)⟩

theorem throw (error : Error) : Creates needs returned (MonadExcept.throw error : Recording β) := by
  intro recorder value final ran
  cases ran

/-- The second part may rely on what the first one returns. -/
theorem bind {first : Recording α} {next : α → Recording β} {between : α → List DataOp}
    (creates : Creates needs between first)
    (nextCreates : ∀ value, Creates (between value ++ needs) returned (next value)) :
    Creates needs returned (first >>= next) := by
  intro recorder value final ran
  rcases except_bind_eq_ok.mp ran with ⟨⟨middleValue, middle⟩, firstRan, nextRan⟩
  rcases creates recorder middleValue middle firstRan with ⟨grows, has⟩
  rcases nextCreates middleValue middle value final nextRan with ⟨growsOn, hasOn⟩
  refine ⟨grows.trans growsOn, fun hasNeeds => hasOn fun op member => ?_⟩
  rcases List.mem_append.mp member with new | old
  · exact has hasNeeds op new
  · exact (hasNeeds op old).grows grows

theorem record (context : MethodContext) (label : String) (inputs : List OpId) (space : Space) :
    Creates needs (fun op => [op]) (context.record label inputs space) := by
  intro recorder value final ran
  cases ran
  refine ⟨OpLog.grows_push _ _, fun _ op member => ?_⟩
  rw [List.mem_singleton.mp member]
  exact OpLog.has_push _ _

theorem mono {more : List DataOp} {recording : Recording β} (creates : Creates needs returned recording)
    (sub : ∀ op ∈ needs, op ∈ more) : Creates more returned recording := by
  intro recorder value final ran
  rcases creates recorder value final ran with ⟨grows, has⟩
  exact ⟨grows, fun hasMore => has fun op member => hasMore op (sub op member)⟩

theorem mapM {visit : α → Recording β} {items : List α}
    (creates : ∀ item ∈ items, Creates needs returned (visit item)) :
    Creates needs (List.flatMap returned) (items.mapM visit) := by
  induction items with
  | nil => exact pure (by simp)
  | cons first rest inductionHypothesis =>
      have others := inductionHypothesis fun item member => creates item (List.mem_cons_of_mem first member)
      rw [List.mapM_cons]
      refine bind (creates first List.mem_cons_self) fun value => ?_
      refine bind (others.mono fun op member => List.mem_append_right _ member) fun values => ?_
      refine pure fun op member => ?_
      rw [List.flatMap_cons] at member
      rcases List.mem_append.mp member with one | another
      · exact List.mem_append_right _ (List.mem_append_left _ one)
      · exact List.mem_append_left _ another

end Recording.Creates

/-! ### Chains -/

namespace Recording

/-- Items are visited one after the other; each visit makes a value and hands a recorder on. -/
inductive Chain {α β : Type} (step : α → Recorder → β → Recorder → Prop) :
    List α → Recorder → List β → Recorder → Prop where
  | nil (recorder : Recorder) : Chain step [] recorder [] recorder
  | cons {item : α} {items : List α} {value : β} {values : List β} {recorder middle final : Recorder}
      (first : step item recorder value middle) (rest : Chain step items middle values final) :
      Chain step (item :: items) recorder (value :: values) final

section

variable {α β γ : Type} {visit : α → Recording β} {step other : α → Recorder → β → Recorder → Prop}
  {items : List α} {values : List β} {recorder final : Recorder}

theorem Chain.imp (chain : Chain step items recorder values final)
    (implies : ∀ item recorder value final, step item recorder value final → other item recorder value final) :
    Chain other items recorder values final := by
  induction chain with
  | nil recorder => exact .nil recorder
  | cons first _ inductionHypothesis => exact .cons (implies _ _ _ _ first) inductionHypothesis

/-- What the item of every visit says about its value. -/
theorem Chain.map_eq (chain : Chain step items recorder values final) (shown : β → γ) (told : α → γ)
    (each : ∀ item ∈ items, ∀ recorder value final, step item recorder value final → shown value = told item) :
    values.map shown = items.map told := by
  induction chain with
  | nil recorder => rfl
  | cons first _ inductionHypothesis =>
      rw [List.map_cons, List.map_cons, each _ List.mem_cons_self _ _ _ first,
        inductionHypothesis fun item member => each item (List.mem_cons_of_mem _ member)]

/-- What every visit shows of its item. -/
theorem Chain.of_mem {shows : α → Prop} (chain : Chain step items recorder values final)
    (each : ∀ item ∈ items, ∀ recorder value final, step item recorder value final → shows item) :
    ∀ item ∈ items, shows item := by
  induction chain with
  | nil recorder => exact fun item listed => absurd listed List.not_mem_nil
  | cons first _ inductionHypothesis =>
      rw [List.forall_mem_cons]
      exact ⟨each _ List.mem_cons_self _ _ _ first,
        inductionHypothesis fun item member => each item (List.mem_cons_of_mem _ member)⟩

theorem Chain.length_eq (chain : Chain step items recorder values final) : values.length = items.length := by
  simpa using congrArg List.length (chain.map_eq (fun _ => ()) (fun _ => ()) fun _ _ _ _ _ _ => rfl)

theorem mapM_ok_iff : items.mapM visit recorder = .ok (values, final) ↔
    Chain (fun item recorder value final => visit item recorder = .ok (value, final)) items recorder values final := by
  induction items generalizing recorder values with
  | nil =>
      constructor
      · intro ran
        cases ran
        exact .nil _
      · intro chain
        cases chain
        rfl
  | cons item rest inductionHypothesis =>
      rw [List.mapM_cons]
      constructor
      · intro ran
        rcases except_bind_eq_ok.mp ran with ⟨⟨value, middle⟩, first, ran⟩
        rcases except_bind_eq_ok.mp ran with ⟨⟨others, last⟩, restRan, ran⟩
        cases ran
        exact .cons first (inductionHypothesis.mp restRan)
      · intro chain
        cases chain with
        | cons first others =>
            refine except_bind_eq_ok.mpr ⟨_, first, ?_⟩
            exact except_bind_eq_ok.mpr ⟨_, inductionHypothesis.mpr others, rfl⟩

/-- The visits up to one that fails. -/
theorem of_mapM_error {error : Error} (failed : items.mapM visit recorder = .error error) :
    ∃ done next rest values middle, items = done ++ next :: rest ∧
      Chain (fun item recorder value final => visit item recorder = .ok (value, final)) done recorder values middle ∧
      visit next middle = .error error := by
  induction items generalizing recorder with
  | nil => cases failed
  | cons item rest inductionHypothesis =>
      rw [List.mapM_cons] at failed
      rcases except_bind_eq_error.mp failed with here | ⟨⟨value, middle⟩, first, later⟩
      · exact ⟨[], item, rest, [], recorder, rfl, .nil recorder, here⟩
      · rcases except_bind_eq_error.mp later with there | ⟨_, -, done⟩
        · rcases inductionHypothesis there with ⟨done, next, others, values, last, rfl, chain, failed⟩
          exact ⟨item :: done, next, others, value :: values, last, rfl, .cons first chain, failed⟩
        · cases done

end

end Recording

/-! ### Firings -/

namespace Method

variable {method : Method} {settings : Settings} {context : MethodContext} {inputs : List DataOp}

theorem creates_call (creates : method.CreatesOps) (context : MethodContext) (inputs : List DataOp) :
    Recording.Creates inputs id (method.call context inputs) := by
  refine Recording.Creates.bind (creates context inputs) fun returned => ?_
  split
  · exact .pure fun op member => List.mem_append_left _ member
  · exact .throw _

theorem creates_splitInput (context : MethodContext) (key : String) {needs : List DataOp} {input : DataOp}
    (known : input ∈ needs) : Recording.Creates needs (fun op => [op]) (splitInput context key input) := by
  unfold splitInput
  split
  · cases Keyed.get? input.space.flatten key with
    | some part => exact .record context _ _ _
    | none => exact .throw _
  · exact .pure fun op member => List.mem_singleton.mp member ▸ known

/-- The call for one flat key needs only the inputs of the firing. -/
theorem creates_callForKey (creates : method.CreatesOps) (settings : Settings) (context : MethodContext)
    (inputs : List DataOp) (key : String) :
    Recording.Creates inputs (fun _ => []) (method.callForKey settings context inputs key) := by
  have parts : Recording.Creates inputs (List.flatMap fun op => [op]) (inputs.mapM (splitInput context key)) :=
    .mapM fun input member => creates_splitInput context key member
  refine parts.bind fun parts => ?_
  have called := creates_call creates { context with key := if settings.passKey then some key else none } parts
  have known : ∀ op ∈ parts, op ∈ (parts.flatMap fun op => [op]) ++ inputs :=
    fun op member => List.mem_append_left _ (by simpa using member)
  exact (called.mono known).bind fun outputs => .pure fun _ member => absurd member List.not_mem_nil

theorem creates_merge (settings : Settings) (context : MethodContext) (calls : List (String × List DataOp))
    (needs : List DataOp) (j : Nat) : Recording.Creates needs (fun op => [op]) (merge settings context calls j) := by
  unfold merge
  dsimp only
  split
  · split
    · exact .record context _ _ _
    · exact .throw _
  · exact .record context _ _ _

/-- A firing with a method that only creates ops only creates ops. -/
theorem creates_apply (creates : method.CreatesOps) (settings : Settings) (context : MethodContext)
    (inputs : List DataOp) : Recording.Creates inputs id (method.apply settings context inputs) := by
  unfold apply
  split
  · have calls : Recording.Creates inputs (List.flatMap fun _ => [])
        ((splitKeys inputs).mapM (method.callForKey settings context inputs)) :=
      .mapM fun key _ => creates_callForKey creates settings context inputs key
    refine calls.bind fun calls => ?_
    have merged (needs : List DataOp) : Recording.Creates needs (List.flatMap fun op => [op])
        ((List.range method.outputs).mapM (merge settings context calls)) :=
      .mapM fun j _ => creates_merge settings context calls needs j
    intro recorder value final ran
    rcases merged _ recorder value final ran with ⟨grows, has⟩
    exact ⟨grows, fun hasNeeds op member => has hasNeeds op (by simpa using member)⟩
  · exact creates_call creates _ inputs

theorem length_mapM {α β : Type} {visit : α → Recording β} {items : List α} {recorder final : Recorder}
    {values : List β} (ran : items.mapM visit recorder = .ok (values, final)) : values.length = items.length :=
  (Recording.mapM_ok_iff.mp ran).length_eq

theorem length_call {recorder final : Recorder} {outputs : List DataOp}
    (ran : method.call context inputs recorder = .ok (outputs, final)) : outputs.length = method.outputs := by
  rcases except_bind_eq_ok.mp ran with ⟨⟨returned, middle⟩, -, ran⟩
  dsimp only at ran
  split at ran
  next many =>
    cases ran
    exact many
  next => cases ran

/-- A firing returns as many ops as its method has outputs. -/
theorem length_apply {recorder final : Recorder} {outputs : List DataOp}
    (ran : method.apply settings context inputs recorder = .ok (outputs, final)) :
    outputs.length = method.outputs := by
  unfold apply at ran
  split at ran
  · rcases except_bind_eq_ok.mp ran with ⟨⟨calls, middle⟩, -, ran⟩
    rw [length_mapM ran, List.length_range]
  · exact length_call ran

end Method

end Wiring
