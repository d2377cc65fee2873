import Wiring.Proofs.Build.Book

/-!
Contract: the work of a build without the tasks that do nothing.

Owns: idle tasks, which pass an op on over a bound space; `Advance`, a move among the other tasks; and that the
moves of a build are advances once its idle tasks are left out.
-/

namespace Wiring

def Connection.isSpace : Connection → Bool
  | .space _ => true
  | _ => false

@[simp] theorem Connection.isSpace_space (space : Space) : (Connection.space space).isSpace = true := rfl

@[simp] theorem Connection.isSpace_socket (id : SocketId) : (Connection.socket id).isSpace = false := rfl

@[simp] theorem Connection.isSpace_computation (id : ComputationId) :
    (Connection.computation id).isSpace = false := rfl

/-- The connections over which ops are passed on. -/
def carrying (connections : List Connection) : List Connection :=
  connections.filter fun connection => !connection.isSpace

/-- The task does nothing. -/
def Task.idle : Task → Bool
  | .forward _ _ connection => connection.isSpace
  | _ => false

namespace Build

def busy (tasks : List Task) : List Task :=
  tasks.filter fun task => !task.idle

theorem busy_map {α : Type} {make : α → Task} (works : ∀ item, (make item).idle = false) (items : List α) :
    busy (items.map make) = items.map make := by
  refine List.filter_eq_self.mpr fun task member => ?_
  rcases List.mem_map.mp member with ⟨item, -, rfl⟩
  simp [works]

theorem busy_append (left right : List Task) : busy (left ++ right) = busy left ++ busy right :=
  List.filter_append left right

/-- Ops are passed on over the connections that carry them. -/
theorem busy_forward (socket : SocketId) (op : DataOp) (connections : List Connection) :
    busy (connections.map (.forward socket op)) = (carrying connections).map (.forward socket op) :=
  List.filter_map

variable {graph : Graph} {task : Task} {tasks more : List Task} {book final : Book}

/-- No step gives rise to an idle task. -/
theorem Step.busy (step : Step graph task book more final) : busy more = more := by
  cases step with
  | seed id node book found => exact busy_map (fun _ => rfl) node.sockets
  | seedSocket id socket held book found => exact busy_map (fun _ => rfl) (spaceEntries held.incoming)
  | place id socket space book => rfl
  | known => rfl
  | further => rfl
  | first socket op held book fresh found unresolved =>
      split
      · rfl
      · rfl
  | checked => rfl
  | unready => rfl
  | completes id node book found incomplete resolved =>
      rw [busy_append, busy_map fun _ => rfl]
      rfl
  | link => rfl
  | bound => rfl
  | ready => rfl
  | waiting => rfl
  | defer => rfl
  | wake socket held book found => exact busy_map (fun _ => rfl) (computationEntries held.outgoing)
  | fireSources id node book found => exact busy_map (fun _ => rfl) node.sources
  | fire id computation book found =>
      exact busy_map (fun _ => rfl) (combinations (computation.inputs.map book.opsAt))
  | repeated => rfl
  | fires firing computation book log fresh found ran =>
      exact busy_map (fun _ => rfl) (computation.outputs.zip firing.outputs)

theorem Step.of_idle (idle : task.idle = true) (step : Step graph task book more final) :
    more = [] ∧ final = book := by
  cases step with
  | bound => exact ⟨rfl, rfl⟩
  | _ => cases idle

/-- A move in which no idle task takes part. -/
inductive Advance (graph : Graph) : List Task × Book → List Task × Book → Prop where
  | task (task : Task) (waiting more : List Task) (book final : Book) (step : Step graph task book more final) :
      Advance graph (task :: waiting, book) (more ++ waiting, final)
  | serve (arrival : Arrival) (held : Socket) (book : Book)
      (next : book.arrivals[book.served]? = some arrival) (found : graph.socket? arrival.socket = some held) :
      Advance graph ([], book) ((carrying held.outgoing).map (.forward arrival.socket arrival.op),
        { book with served := book.served + 1 })

theorem Move.advances {before later : List Task × Book} (move : Move graph before later) :
    Relation.ReflTransGen (Advance graph) (busy before.1, before.2) (busy later.1, later.2) := by
  cases move with
  | task task waiting more book final step =>
      by_cases idle : task.idle = true
      · rcases step.of_idle idle with ⟨rfl, rfl⟩
        have skipped : busy (task :: waiting) = busy waiting := List.filter_cons_of_neg (by simp [idle])
        rw [List.nil_append, skipped]
      · have kept : busy (task :: waiting) = task :: busy waiting := List.filter_cons_of_pos (by simp [idle])
        rw [busy_append, step.busy, kept]
        exact .single (.task task (busy waiting) more book final step)
  | serve arrival held book next found =>
      rw [busy_forward]
      exact .single (.serve arrival held book next found)

/-- The work of a build that finishes, without idle tasks. -/
theorem Finishes.advances (finishes : Finishes graph tasks book final) :
    Relation.ReflTransGen (Advance graph) (Build.busy tasks, book) ([], final) := by
  have all {before later : List Task × Book} (moves : Relation.ReflTransGen (Move graph) before later) :
      Relation.ReflTransGen (Advance graph) (Build.busy before.1, before.2) (Build.busy later.1, later.2) := by
    induction moves with
    | refl => exact .refl
    | tail _ last inductionHypothesis => exact inductionHypothesis.trans last.advances
  exact all finishes.1

end Build

end Wiring
