import Mathlib.Logic.Equiv.Basic
import Wiring.Proofs.Build.Spread
import Wiring.Proofs.Graph.Reordered

/-!
Contract: which components become complete does not depend on any order.

Owns: that the rules by which a build spreads are the same for graphs that differ in the order of their parts, and
with them the components that stay incomplete; and that this does not hold for hooks that bind spaces.
-/

namespace Wiring.Build

open Wiring.Graph

variable {names : Renaming} {left right : Graph} {members others : List ComponentId}

/-! ### The rules for reordered graphs -/

/-- What other names stand for. -/
def named (names : Renaming) (reach : Set SocketId × Set ComponentId) : Set SocketId × Set ComponentId :=
  ({socket | names.socket socket ∈ reach.1}, {id | names.component id ∈ reach.2})

theorem Inside.reordered (reordered : left.Reordered names right)
    (listed : ∀ id, names.component id ∈ others ↔ id ∈ members) {socket : SocketId}
    (inside : Inside left members socket) : Inside right others (names.socket socket) := by
  rcases inside with ⟨held, found, member⟩
  rcases reordered.socket found with ⟨other, otherFound, same⟩
  exact ⟨other, otherFound, same.owner ▸ (listed _).mpr member⟩

/-- A solution for one of the graphs is one for the other. -/
theorem Spreads.reordered {reach : Set SocketId × Set ComponentId} (reordered : left.Reordered names right)
    (listed : ∀ id, names.component id ∈ others ↔ id ∈ members) (spreads : Spreads right others reach) :
    Spreads left members (named names reach) where
  bound socket held space found member entered := by
    rcases reordered.socket found with ⟨other, otherFound, same⟩
    have some_space : spaceEntries other.incoming ≠ [] := by
      rw [← List.length_pos_iff, ← same.bound]
      exact List.length_pos_of_mem (mem_spaceEntries.mpr entered)
    rcases List.exists_mem_of_ne_nil _ some_space with ⟨space, otherEntered⟩
    exact spreads.bound _ other space otherFound (same.owner ▸ (listed _).mpr member)
      (mem_spaceEntries.mp otherEntered)
  linked source target held found member fed entered inside := by
    rcases reordered.socket found with ⟨other, otherFound, same⟩
    have target_entered := same.targets.mem (mem_socketEntries.mpr entered)
    exact spreads.linked _ _ other otherFound (same.owner ▸ (listed _).mpr member) fed
      (mem_socketEntries.mp target_entered) (inside.reordered reordered listed)
  computed id computation found member complete fed output isOutput := by
    rcases reordered.computation found with ⟨other, otherFound, same⟩
    refine spreads.computed _ other otherFound (same.owner ▸ (listed _).mpr member) (same.owner ▸ complete) ?_ _
      (same.outputs.mem isOutput)
    intro input isInput
    rcases same.inputs.exists_of_mem isInput with ⟨source, isSource, rfl⟩
    exact fed source isSource
  complete id node found member fed := by
    rcases reordered.component found with ⟨other, otherFound, same⟩
    refine spreads.complete _ other otherFound ((listed id).mpr member) fun input isInput => ?_
    rcases same.inputs.exists_of_mem isInput with ⟨source, isSource, rfl⟩
    exact fed source isSource

/-- The least solutions are the same. -/
theorem mem_least_reordered {leftReach rightReach : Set SocketId × Set ComponentId}
    (reordered : left.Reordered names right) (listed : ∀ id, names.component id ∈ others ↔ id ∈ members)
    (leftLeast : IsLeast {reach | Spreads left members reach} leftReach)
    (rightLeast : IsLeast {reach | Spreads right others reach} rightReach) (id : ComponentId) :
    names.component id ∈ rightReach.2 ↔ id ∈ leftReach.2 := by
  constructor
  · intro complete
    have back : ∀ id, names.symm.component id ∈ members ↔ id ∈ others := by
      intro id
      rw [← listed]
      exact Eq.to_iff (congrArg (· ∈ others) (names.component.apply_symm_apply id))
    have within := (rightLeast.2 (leftLeast.1.reordered reordered.symm back)).2 complete
    exact names.component.symm_apply_apply id ▸ within
  · exact fun complete => (leftLeast.2 (rightLeast.1.reordered reordered listed)).2 complete

/-- For reachable graphs that differ in the order of their parts, a subtree that no link leaves, hooks that only register
variables and any methods: if both builds return a report, the same components stay incomplete, namely those that are not
complete in the least solution of the rules. -/
theorem run_reordered {hooks otherHooks : HookRunner} {fuel otherFuel : Nat} {root : ComponentId}
    {config otherConfig : BuildConfig} {session otherSession last otherLast : Session} {report other : Report}
    (reachable : session.graph.Reachable) (otherReachable : otherSession.graph.Reachable)
    (reordered : session.graph.Reordered names otherSession.graph) (enclosed : session.graph.Enclosed root)
    (registers : hooks.Registers session.graph) (otherRegisters : otherHooks.Registers otherSession.graph)
    (ran : (run hooks fuel root config).run session = (.ok report, last))
    (otherRan : (run otherHooks otherFuel (names.component root) otherConfig).run otherSession =
      (.ok other, otherLast)) :
    report.Least session.graph root ∧ other.Least otherSession.graph (names.component root) ∧
      ∀ id, names.component id ∈ other.incomplete ↔ id ∈ report.incomplete := by
  have sound := reachable.sound
  have otherSound := otherReachable.sound
  have least := run_least sound enclosed registers ran
  have otherLeast := run_least otherSound (reordered.enclosed sound.tree otherSound.tree enclosed) otherRegisters otherRan
  refine ⟨least, otherLeast, fun id => ?_⟩
  rcases least with ⟨members, reach, listed, isLeast, -, incomplete⟩
  rcases otherLeast with ⟨others, otherReach, otherListed, otherIsLeast, -, otherIncomplete⟩
  have same := reordered.mem_subtree sound.tree otherSound.tree listed otherListed
  rw [incomplete, otherIncomplete, same, mem_least_reordered reordered same isLeast otherIsLeast]

/-! ### Parts in two orders -/

/-- A component with three parts: one with a space for each of its inputs, which it passes on to the second one, and one
that gets nothing. Turned round, all lists are the other way. -/
def branching (turned : Bool) : GraphM Unit := do
  let whole ← create { scope := "whole" }
  let source ← create { scope := "source" }
  let names := if turned then ["second", "first"] else ["first", "second"]
  let _ ← defineInputs source names (some (.box {}))
  setHook source (.script [])
  let sink ← create { scope := "sink" }
  let _ ← addSockets sink ["start"] (some .input) false
  let idle ← create { scope := "idle" }
  let _ ← addSockets idle ["start"] (some .input) false
  (if turned then [idle, sink, source] else [source, sink, idle]).forM fun part => add whole part .nothing
  names.forM fun name => connect source (.socket (.named name)) (.component sink)

/-- The two inputs under each other's identifiers. -/
def turning : Renaming :=
  { Renaming.refl with socket := Equiv.swap ⟨0⟩ ⟨1⟩ }

theorem reordered_branching : (after (branching false) {}).Reordered turning (after (branching true) {}) :=
  reordered_of_reorders (by decide +kernel)

theorem reachable_branching (turned : Bool) : (after (branching turned) {}).Reachable := by
  refine (reachable_empty {}).reaches ((?_ : Keeps Reaches (branching turned)) {})
  refine Keeps.bind (Reaches.create _) fun whole => ?_
  refine Keeps.bind (Reaches.create _) fun source => ?_
  refine Keeps.bind (Reaches.defineInputs source _ _) fun _ => ?_
  refine Keeps.bind (Reaches.setHook source _) fun _ => ?_
  refine Keeps.bind (Reaches.create _) fun sink => ?_
  refine Keeps.bind (Reaches.addSockets sink _ _ _) fun _ => ?_
  refine Keeps.bind (Reaches.create _) fun idle => ?_
  refine Keeps.bind (Reaches.addSockets idle _ _ _) fun _ => ?_
  refine Keeps.bind (Keeps.forM (fun part => Reaches.add whole part _) _) fun _ => ?_
  exact Keeps.forM (fun name => Reaches.connect source _ _) _

theorem enclosed_branching (turned : Bool) : (after (branching turned) {}).Enclosed ⟨0⟩ := by
  have general (graph : Graph) (reachable : graph.Reachable) (holds : (graph.sockets.toList.all fun socket =>
      ((graph.subtree ⟨0⟩).toOption.getD []).contains socket.owner) = true) : graph.Enclosed ⟨0⟩ :=
    enclosed_of_holds fun id socket held => above_of_listed reachable.sound (check_socket holds held)
  refine general _ (reachable_branching turned) ?_
  cases turned with
  | false => decide +kernel
  | true => decide +kernel

/-- A build of which the incomplete components are known. -/
theorem exists_report (hooks : HookRunner) (graph : Graph) (root : ComponentId) (incomplete : List ComponentId)
    (told : (outcome (run hooks 60 root { allowIncomplete := true }) { graph }).toOption.map Report.incomplete =
      some incomplete) : ∃ report last,
        (run hooks 60 root { allowIncomplete := true }).run { graph } = (.ok report, last) ∧
        report.incomplete = incomplete := by
  cases answered : outcome (run hooks 60 root { allowIncomplete := true }) { graph } with
  | error stop =>
      rw [answered] at told
      cases told
  | ok report =>
      rw [answered] at told
      exact ⟨report, _, Prod.ext answered rfl, Option.some.inj told⟩

/-- In both orders, the part that gets nothing stays incomplete. -/
theorem run_reordered_branching : ∃ report other last otherLast,
    (run biased 60 ⟨0⟩ { allowIncomplete := true }).run { graph := after (branching false) {} } = (.ok report, last) ∧
    (run biased 60 (turning.component ⟨0⟩) { allowIncomplete := true }).run { graph := after (branching true) {} } =
      (.ok other, otherLast) ∧
    report.incomplete = [⟨3⟩] ∧ report.Least (after (branching false) {}) ⟨0⟩ ∧
    other.Least (after (branching true) {}) (turning.component ⟨0⟩) ∧
    ∀ id, turning.component id ∈ other.incomplete ↔ id ∈ report.incomplete := by
  have general (names : Renaming) (left right : Graph) (reachable : left.Reachable) (otherReachable : right.Reachable)
      (reordered : left.Reordered names right) (enclosed : left.Enclosed ⟨0⟩)
      (told : (outcome (run biased 60 ⟨0⟩ { allowIncomplete := true }) { graph := left }).toOption.map
        Report.incomplete = some [⟨3⟩])
      (otherTold : (outcome (run biased 60 (names.component ⟨0⟩) { allowIncomplete := true })
        { graph := right }).toOption.map Report.incomplete = some [⟨3⟩]) : ∃ report other last otherLast,
          (run biased 60 ⟨0⟩ { allowIncomplete := true }).run { graph := left } = (.ok report, last) ∧
          (run biased 60 (names.component ⟨0⟩) { allowIncomplete := true }).run { graph := right } =
            (.ok other, otherLast) ∧
          report.incomplete = [⟨3⟩] ∧ report.Least left ⟨0⟩ ∧ other.Least right (names.component ⟨0⟩) ∧
          ∀ id, names.component id ∈ other.incomplete ↔ id ∈ report.incomplete := by
    rcases exists_report biased left _ [⟨3⟩] told with ⟨report, last, ran, incomplete⟩
    rcases exists_report biased right _ [⟨3⟩] otherTold with ⟨other, otherLast, otherRan, -⟩
    exact ⟨report, other, last, otherLast, ran, otherRan, incomplete, run_reordered reachable otherReachable reordered
      enclosed (biased_registers left) (biased_registers right) ran otherRan⟩
  exact general turning _ _ (reachable_branching false) (reachable_branching true) reordered_branching
    (enclosed_branching false) (by decide +kernel) (by decide +kernel)

/-- Hooks that bind a space to the socket of the idle part. -/
def rebinding : HookRunner := fun _ _ _ =>
  Session.ofGraph (connect ⟨3⟩ (.space (.box {})) (.socket (.named "start")))

/-- If hooks bind spaces, it depends on the order of the parts which of them stay incomplete, and a part is complete that
is not so in the least solution. -/
theorem incomplete_differs_branching : (after (branching false) {}).Reachable ∧ (after (branching true) {}).Reachable ∧
    (after (branching false) {}).Reordered turning (after (branching true) {}) ∧
    (after (branching false) {}).Enclosed ⟨0⟩ ∧ (after (branching true) {}).Enclosed ⟨0⟩ ∧
    ∃ report other last otherLast,
      (run rebinding 60 ⟨0⟩ { allowIncomplete := true }).run { graph := after (branching false) {} } =
        (.ok report, last) ∧
      (run rebinding 60 ⟨0⟩ { allowIncomplete := true }).run { graph := after (branching true) {} } =
        (.ok other, otherLast) ∧
      report.incomplete = [] ∧ other.incomplete = [⟨3⟩] ∧ ¬ report.Least (after (branching false) {}) ⟨0⟩ := by
  rcases exists_report rebinding (after (branching false) {}) ⟨0⟩ [] (by decide +kernel) with
    ⟨report, last, ran, incomplete⟩
  rcases exists_report rebinding (after (branching true) {}) ⟨0⟩ [⟨3⟩] (by decide +kernel) with
    ⟨other, otherLast, otherRan, otherIncomplete⟩
  refine ⟨reachable_branching false, reachable_branching true, reordered_branching, enclosed_branching false,
    enclosed_branching true, report, other, last, otherLast, ran, otherRan, incomplete, otherIncomplete, fun least => ?_⟩
  -- A build with other hooks tells what the least solution is.
  have general (graph : Graph) (reachable : graph.Reachable) (enclosed : graph.Enclosed ⟨0⟩)
      (told : (outcome (run biased 60 ⟨0⟩ { allowIncomplete := true }) { graph }).toOption.map Report.incomplete =
        some [⟨3⟩]) (least : report.Least graph ⟨0⟩) : False := by
    rcases exists_report biased graph ⟨0⟩ [⟨3⟩] told with ⟨plain, plainLast, plainRan, plainIncomplete⟩
    have plainLeast := run_least reachable.sound enclosed (biased_registers graph) plainRan
    have idle := (least.incomplete_iff plainLeast ⟨3⟩).mpr (plainIncomplete ▸ List.mem_cons_self)
    rw [incomplete] at idle
    cases idle
  exact general _ (reachable_branching false) (enclosed_branching false) (by decide +kernel) least

end Wiring.Build
