import Mathlib.Data.Finset.Card
import Mathlib.Logic.Relation
import Wiring.Proofs.Graph.Sound

/-!
Contract: the ways that ops can take through a graph.

Owns: `Linked`, `Computed` and `Flows`, the steps from one socket to another over a link or through a computation;
`Feedforward`, by which no computation lies on a cycle; and the rank of a socket, which never falls along a way
and rises through computations.
-/

namespace Wiring.Graph

open Relation (ReflTransGen)

def Linked (graph : Graph) (source target : SocketId) : Prop :=
  ∃ held, graph.socket? source = some held ∧ .socket target ∈ held.outgoing

def Computed (graph : Graph) (source target : SocketId) : Prop :=
  ∃ id computation, graph.computation? id = some computation ∧
    source ∈ computation.inputs ∧ target ∈ computation.outputs

def Flows (graph : Graph) (source target : SocketId) : Prop :=
  graph.Linked source target ∨ graph.Computed source target

/-- No cycle passes through a computation; cycles of links there may be. -/
def Feedforward (graph : Graph) : Prop :=
  ∀ source target, graph.Computed source target → ¬ ReflTransGen graph.Flows target source

/-- The levels of sockets never fall along links and rise through computations. -/
def rises (graph : Graph) (level : SocketId → Nat) : Bool :=
  (graph.sockets.toList.zipIdx.all fun held =>
    (socketEntries held.1.outgoing).all fun target => level ⟨held.2⟩ ≤ level target) &&
  graph.computations.toList.all fun computation =>
    computation.inputs.all fun input => computation.outputs.all fun output => level input < level output

/-- Such levels show that no computation lies on a cycle. -/
theorem feedforward_of_rises {graph : Graph} {level : SocketId → Nat} (rising : graph.rises level = true) :
    graph.Feedforward := by
  rcases Bool.and_eq_true_iff.mp rising with ⟨links, computations⟩
  have rises (source target : SocketId) (computed : graph.Computed source target) : level source < level target := by
    rcases computed with ⟨id, computation, found, read, written⟩
    have listed : computation ∈ graph.computations.toList := Array.mem_toList_iff.mpr (Array.mem_of_getElem? found)
    have inputs := List.all_eq_true.mp (List.all_eq_true.mp computations computation listed) source read
    exact of_decide_eq_true (List.all_eq_true.mp inputs target written)
  have stays {source target : SocketId} (way : ReflTransGen graph.Flows source target) :
      level source ≤ level target := by
    induction way with
    | refl => exact Nat.le_refl _
    | tail _ last inductionHypothesis =>
        rcases last with ⟨held, found, linked⟩ | computed
        · have listed : graph.sockets.toList[_]? = some held := (Array.getElem?_toList ..).trans found
          have entries := List.all_eq_true.mp links (held, _) (List.mem_zipIdx_iff_getElem?.mpr listed)
          have link := List.all_eq_true.mp entries _ (mem_socketEntries.mpr linked)
          exact inductionHypothesis.trans (of_decide_eq_true link)
        · exact inductionHypothesis.trans (Nat.le_of_lt (rises _ _ computed))
  exact fun source target computed way => Nat.not_le_of_lt (rises source target computed) (stays way)

open Classical in
/-- The positions of the sockets from which a way leads to the socket. -/
noncomputable def upstream (graph : Graph) (socket : SocketId) : Finset Nat :=
  (Finset.range graph.sockets.size).filter fun index => ReflTransGen graph.Flows ⟨index⟩ socket

noncomputable def rank (graph : Graph) (socket : SocketId) : Nat :=
  (graph.upstream socket).card

variable {graph : Graph} {source target : SocketId}

theorem mem_upstream {index : Nat} :
    index ∈ graph.upstream target ↔ index < graph.sockets.size ∧ ReflTransGen graph.Flows ⟨index⟩ target := by
  simp [upstream]

theorem rank_le_size (graph : Graph) (socket : SocketId) : graph.rank socket ≤ graph.sockets.size := by
  refine (Finset.card_le_card fun index member => ?_).trans_eq (Finset.card_range _)
  exact Finset.mem_range.mpr (mem_upstream.mp member).1

theorem upstream_subset (way : ReflTransGen graph.Flows source target) :
    graph.upstream source ⊆ graph.upstream target := by
  intro index member
  rcases mem_upstream.mp member with ⟨inRange, reaches⟩
  exact mem_upstream.mpr ⟨inRange, reaches.trans way⟩

theorem rank_mono (way : ReflTransGen graph.Linked source target) : graph.rank source ≤ graph.rank target := by
  have way : ReflTransGen graph.Flows source target := ReflTransGen.mono (fun _ _ => Or.inl) _ _ way
  exact Finset.card_le_card (upstream_subset way)

theorem rank_lt (sound : Sound graph) (feedforward : graph.Feedforward) (computed : graph.Computed source target) :
    graph.rank source < graph.rank target := by
  have exist : target.index < graph.sockets.size := by
    rcases computed with ⟨id, computation, found, -, written⟩
    rcases (sound.computations.bound id computation found).outputs target written with ⟨held, targetFound, -⟩
    exact (Array.getElem?_eq_some_iff.mp targetFound).1
  refine Finset.card_lt_card ⟨upstream_subset (ReflTransGen.single (.inr computed)), fun all => ?_⟩
  have own : target.index ∈ graph.upstream target := mem_upstream.mpr ⟨exist, ReflTransGen.refl⟩
  exact feedforward source target computed (mem_upstream.mp (all own)).2

end Wiring.Graph
