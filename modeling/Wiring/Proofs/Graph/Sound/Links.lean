import Wiring.Proofs.Graph.Change

/-!
Contract: the two entries of every link.

Owns: `LinksSound`, by which a link is entered as often at its source as at its target, links join sockets of
different components, and spaces are bound on the side that they fit; and that every change preserves it.
-/

namespace Wiring

/-- What the links and bindings of a socket consist of. -/
structure Ends where
  owner : ComponentId
  side : Side
  sources : List SocketId
  targets : List SocketId
  spacesIn : List Space
  spacesOut : List Space

def Socket.ends (socket : Socket) : Ends where
  owner := socket.owner
  side := socket.side
  sources := socketEntries socket.incoming
  targets := socketEntries socket.outgoing
  spacesIn := spaceEntries socket.incoming
  spacesOut := spaceEntries socket.outgoing

namespace Graph

structure LinksSound (graph : Graph) : Prop where
  /-- A link has as many entries at its target as at its source. -/
  counted : ∀ source target (first second : Socket), graph.socket? source = some first →
    graph.socket? target = some second →
    first.ends.targets.count target = second.ends.sources.count source
  targets : ∀ id socket, graph.socket? id = some socket → ∀ target ∈ socket.ends.targets,
    ∃ other, graph.socket? target = some other ∧ other.owner ≠ socket.owner
  sources : ∀ id socket, graph.socket? id = some socket → ∀ source ∈ socket.ends.sources,
    ∃ other, graph.socket? source = some other ∧ other.owner ≠ socket.owner
  /-- Only in-sockets are fed by spaces. -/
  fed : ∀ id socket, graph.socket? id = some socket → ∀ space ∈ socket.ends.spacesIn, socket.side = .input
  /-- Only out-sockets feed spaces. -/
  feeding : ∀ id socket, graph.socket? id = some socket → ∀ space ∈ socket.ends.spacesOut,
    socket.side = .output

namespace LinksSound

variable {graph : Graph}

theorem empty (backend : Backend) : LinksSound { backend } := by
  constructor <;> simp [socket?]

/-- Only the links and bindings of sockets matter. -/
theorem frame {later : Graph} (sound : LinksSound graph)
    (ends : ∀ id, (later.socket? id).map Socket.ends = (graph.socket? id).map Socket.ends) :
    LinksSound later := by
  have back {id : SocketId} {socket : Socket} (held : later.socket? id = some socket) :=
    exists_of_map_eq (ends id) held
  have forth {id : SocketId} {socket : Socket} (held : graph.socket? id = some socket) :=
    exists_of_map_eq (ends id).symm held
  have owner_of_ends {left right : Socket} (same : left.ends = right.ends) : left.owner = right.owner := by
    show left.ends.owner = right.ends.owner
    rw [same]
  have side_of_ends {left right : Socket} (same : left.ends = right.ends) : left.side = right.side := by
    show left.ends.side = right.ends.side
    rw [same]
  refine ⟨?_, ?_, ?_, ?_, ?_⟩
  · intro source target first second firstHeld secondHeld
    obtain ⟨oldFirst, oldFirstHeld, firstSame⟩ := back firstHeld
    obtain ⟨oldSecond, oldSecondHeld, secondSame⟩ := back secondHeld
    rw [firstSame, secondSame]
    exact sound.counted source target oldFirst oldSecond oldFirstHeld oldSecondHeld
  · intro id socket held target member
    obtain ⟨old, oldHeld, same⟩ := back held
    obtain ⟨other, otherHeld, apart⟩ := sound.targets id old oldHeld target (same ▸ member)
    obtain ⟨new, newHeld, otherSame⟩ := forth otherHeld
    exact ⟨new, newHeld, by rw [← owner_of_ends otherSame, owner_of_ends same]; exact apart⟩
  · intro id socket held source member
    obtain ⟨old, oldHeld, same⟩ := back held
    obtain ⟨other, otherHeld, apart⟩ := sound.sources id old oldHeld source (same ▸ member)
    obtain ⟨new, newHeld, otherSame⟩ := forth otherHeld
    exact ⟨new, newHeld, by rw [← owner_of_ends otherSame, owner_of_ends same]; exact apart⟩
  · intro id socket held space member
    obtain ⟨old, oldHeld, same⟩ := back held
    rw [side_of_ends same]
    exact sound.fed id old oldHeld space (same ▸ member)
  · intro id socket held space member
    obtain ⟨old, oldHeld, same⟩ := back held
    rw [side_of_ends same]
    exact sound.feeding id old oldHeld space (same ▸ member)

/-- A new socket has no links, and none lead to it. -/
theorem socket (sound : LinksSound graph) (owner : ComponentId) (internal : Bool) (name : String)
    (side : Side) : LinksSound (graph.withSocket owner internal name side) := by
  have notTarget {id : SocketId} {socket : Socket} (held : graph.socket? id = some socket) :
      graph.nextSocket ∉ socket.ends.targets := by
    intro member
    obtain ⟨other, otherHeld, -⟩ := sound.targets id socket held _ member
    exact ne_nextSocket otherHeld rfl
  have notSource {id : SocketId} {socket : Socket} (held : graph.socket? id = some socket) :
      graph.nextSocket ∉ socket.ends.sources := by
    intro member
    obtain ⟨other, otherHeld, -⟩ := sound.sources id socket held _ member
    exact ne_nextSocket otherHeld rfl
  refine ⟨?_, ?_, ?_, ?_, ?_⟩
  · intro source target first second firstHeld secondHeld
    rcases socket?_withSocket_eq_some.mp firstHeld with ⟨rfl, rfl⟩ | firstKnown <;>
      rcases socket?_withSocket_eq_some.mp secondHeld with ⟨rfl, rfl⟩ | secondKnown
    · rfl
    · exact (List.count_eq_zero_of_not_mem (notSource secondKnown)).symm
    · exact List.count_eq_zero_of_not_mem (notTarget firstKnown)
    · exact sound.counted source target first second firstKnown secondKnown
  · intro id socket held target member
    rcases socket?_withSocket_eq_some.mp held with ⟨-, rfl⟩ | known
    · cases member
    · obtain ⟨other, otherHeld, apart⟩ := sound.targets id socket known target member
      exact ⟨other, socket?_withSocket_of_some otherHeld owner internal name side, apart⟩
  · intro id socket held source member
    rcases socket?_withSocket_eq_some.mp held with ⟨-, rfl⟩ | known
    · cases member
    · obtain ⟨other, otherHeld, apart⟩ := sound.sources id socket known source member
      exact ⟨other, socket?_withSocket_of_some otherHeld owner internal name side, apart⟩
  · intro id socket held space member
    rcases socket?_withSocket_eq_some.mp held with ⟨-, rfl⟩ | known
    · cases member
    · exact sound.fed id socket known space member
  · intro id socket held space member
    rcases socket?_withSocket_eq_some.mp held with ⟨-, rfl⟩ | known
    · cases member
    · exact sound.feeding id socket known space member

/-! ### New and removed entries -/

/-- A socket that keeps its owner and its side, with entries that were there before or fit. -/
structure Rewired (graph : Graph) (old new : Socket) : Prop where
  owner : new.owner = old.owner
  side : new.side = old.side
  targets : ∀ target ∈ new.ends.targets, target ∈ old.ends.targets ∨
    ∃ other, graph.socket? target = some other ∧ other.owner ≠ old.owner
  sources : ∀ source ∈ new.ends.sources, source ∈ old.ends.sources ∨
    ∃ other, graph.socket? source = some other ∧ other.owner ≠ old.owner
  spacesIn : ∀ space ∈ new.ends.spacesIn, space ∈ old.ends.spacesIn ∨ old.side = .input
  spacesOut : ∀ space ∈ new.ends.spacesOut, space ∈ old.ends.spacesOut ∨ old.side = .output

/-- What remains to be shown of a change that only rewires sockets are the numbers of entries. -/
theorem rewire {later : Graph} (sound : LinksSound graph)
    (kept : ∀ id old, graph.socket? id = some old → ∃ new, later.socket? id = some new ∧ new.owner = old.owner)
    (rewired : ∀ id new, later.socket? id = some new → ∃ old, graph.socket? id = some old ∧ Rewired graph old new)
    (counted : ∀ source target (first second : Socket), later.socket? source = some first →
      later.socket? target = some second →
      first.ends.targets.count target = second.ends.sources.count source) : LinksSound later := by
  refine ⟨counted, ?_, ?_, ?_, ?_⟩
  · intro id socket held target member
    obtain ⟨old, oldHeld, change⟩ := rewired id socket held
    have known : ∃ other, graph.socket? target = some other ∧ other.owner ≠ old.owner := by
      rcases change.targets target member with before | new
      · exact sound.targets id old oldHeld target before
      · exact new
    obtain ⟨other, otherHeld, apart⟩ := known
    obtain ⟨new, newHeld, same⟩ := kept target other otherHeld
    exact ⟨new, newHeld, by rw [same, change.owner]; exact apart⟩
  · intro id socket held source member
    obtain ⟨old, oldHeld, change⟩ := rewired id socket held
    have known : ∃ other, graph.socket? source = some other ∧ other.owner ≠ old.owner := by
      rcases change.sources source member with before | new
      · exact sound.sources id old oldHeld source before
      · exact new
    obtain ⟨other, otherHeld, apart⟩ := known
    obtain ⟨new, newHeld, same⟩ := kept source other otherHeld
    exact ⟨new, newHeld, by rw [same, change.owner]; exact apart⟩
  · intro id socket held space member
    obtain ⟨old, oldHeld, change⟩ := rewired id socket held
    rw [change.side]
    rcases change.spacesIn space member with before | fits
    · exact sound.fed id old oldHeld space before
    · exact fits
  · intro id socket held space member
    obtain ⟨old, oldHeld, change⟩ := rewired id socket held
    rw [change.side]
    rcases change.spacesOut space member with before | fits
    · exact sound.feeding id old oldHeld space before
    · exact fits

/-- The entries of a link are added on both sides. -/
theorem link (sound : LinksSound graph) {source target : SocketId} {first second : Socket}
    (sourceFound : graph.socket? source = some first) (targetFound : graph.socket? target = some second)
    (apart : first.owner ≠ second.owner) : LinksSound (graph.withLink source target) := by
  refine sound.rewire ?_ ?_ ?_
  · intro id old held
    rw [socket?_withLink, held]
    exact ⟨_, rfl, rfl⟩
  · intro id new held
    rw [socket?_withLink] at held
    obtain ⟨old, oldHeld, rfl⟩ := Option.map_eq_some_iff.mp held
    refine ⟨old, oldHeld, rfl, rfl, ?_, ?_, ?_, ?_⟩
    · intro other member
      simp only [Socket.ends, socketEntries_append, List.mem_append] at member
      refine member.imp_right fun new => ?_
      by_cases isSource : source = id
      · subst isSource
        obtain rfl := Option.some.inj (oldHeld.symm.trans sourceFound)
        rw [if_pos rfl] at new
        obtain rfl := List.mem_singleton.mp new
        exact ⟨second, targetFound, apart.symm⟩
      · rw [if_neg isSource] at new
        cases new
    · intro other member
      simp only [Socket.ends, socketEntries_append, List.mem_append] at member
      refine member.imp_right fun new => ?_
      by_cases isTarget : target = id
      · subst isTarget
        obtain rfl := Option.some.inj (oldHeld.symm.trans targetFound)
        rw [if_pos rfl] at new
        obtain rfl := List.mem_singleton.mp new
        exact ⟨first, sourceFound, apart⟩
      · rw [if_neg isTarget] at new
        cases new
    · intro space member
      simp only [Socket.ends, spaceEntries_append, List.mem_append] at member
      refine member.imp_right fun new => ?_
      split at new <;> cases new
    · intro space member
      simp only [Socket.ends, spaceEntries_append, List.mem_append] at member
      refine member.imp_right fun new => ?_
      split at new <;> cases new
  · intro start finish left right leftHeld rightHeld
    rw [socket?_withLink] at leftHeld rightHeld
    obtain ⟨oldLeft, oldLeftHeld, rfl⟩ := Option.map_eq_some_iff.mp leftHeld
    obtain ⟨oldRight, oldRightHeld, rfl⟩ := Option.map_eq_some_iff.mp rightHeld
    have before := sound.counted start finish oldLeft oldRight oldLeftHeld oldRightHeld
    simp only [Socket.ends, socketEntries_append, List.count_append] at before ⊢
    rw [before]
    by_cases isSource : source = start <;> by_cases isTarget : target = finish <;>
      simp [isSource, isTarget, socketEntries]

/-- An entry that is left was there before. -/
theorem mem_of_withoutFirst {α : Type} {view : Connection → Option α} {removed : Prop} [Decidable removed]
    {connection : Connection} {connections : List Connection} {entry : α}
    (member : entry ∈ (if removed then eraseFirst connection connections else connections).filterMap view) :
    entry ∈ connections.filterMap view := by
  split at member
  · exact ((eraseFirst_sublist connection connections).filterMap view).subset member
  · exact member

/-- The entries of a link are removed on both sides. -/
theorem unlink (sound : LinksSound graph) (source target : SocketId) :
    LinksSound (graph.withoutLink source target) := by
  refine sound.rewire ?_ ?_ ?_
  · intro id old held
    rw [socket?_withoutLink, held]
    exact ⟨_, rfl, rfl⟩
  · intro id new held
    rw [socket?_withoutLink] at held
    obtain ⟨old, oldHeld, rfl⟩ := Option.map_eq_some_iff.mp held
    exact ⟨old, oldHeld, rfl, rfl, fun _ member => .inl (mem_of_withoutFirst member),
      fun _ member => .inl (mem_of_withoutFirst member), fun _ member => .inl (mem_of_withoutFirst member),
      fun _ member => .inl (mem_of_withoutFirst member)⟩
  · intro start finish left right leftHeld rightHeld
    rw [socket?_withoutLink] at leftHeld rightHeld
    obtain ⟨oldLeft, oldLeftHeld, rfl⟩ := Option.map_eq_some_iff.mp leftHeld
    obtain ⟨oldRight, oldRightHeld, rfl⟩ := Option.map_eq_some_iff.mp rightHeld
    have before := sound.counted start finish oldLeft oldRight oldLeftHeld oldRightHeld
    simp only [Socket.ends] at before ⊢
    by_cases isSource : source = start <;> by_cases isTarget : target = finish <;>
      simp [isSource, isTarget, socketEntries_eraseFirst_socket, List.count_erase, before]

/-! ### Bindings -/

/-- A socket that keeps its owner, its side and its links, with spaces that were bound before or fit. -/
structure Rebound (old new : Socket) : Prop where
  owner : new.owner = old.owner
  side : new.side = old.side
  targets : new.ends.targets = old.ends.targets
  sources : new.ends.sources = old.ends.sources
  spacesIn : ∀ bound ∈ new.ends.spacesIn, bound ∈ old.ends.spacesIn ∨ old.side = .input
  spacesOut : ∀ bound ∈ new.ends.spacesOut, bound ∈ old.ends.spacesOut ∨ old.side = .output

theorem Rebound.refl (socket : Socket) : Rebound socket socket :=
  ⟨rfl, rfl, rfl, rfl, fun _ member => .inl member, fun _ member => .inl member⟩

/-- Changes that leave all links alone keep the numbers of entries too. -/
theorem rebind {later : Graph} (sound : LinksSound graph)
    (kept : ∀ id old, graph.socket? id = some old → ∃ new, later.socket? id = some new)
    (rebound : ∀ id new, later.socket? id = some new → ∃ old, graph.socket? id = some old ∧ Rebound old new) :
    LinksSound later := by
  refine sound.rewire ?_ ?_ ?_
  · intro id old held
    obtain ⟨new, newHeld⟩ := kept id old held
    obtain ⟨again, againHeld, same⟩ := rebound id new newHeld
    obtain rfl := Option.some.inj (held.symm.trans againHeld)
    exact ⟨new, newHeld, same.owner⟩
  · intro id new held
    obtain ⟨old, oldHeld, same⟩ := rebound id new held
    exact ⟨old, oldHeld, same.owner, same.side, fun _ member => .inl (same.targets ▸ member),
      fun _ member => .inl (same.sources ▸ member), same.spacesIn, same.spacesOut⟩
  · intro source target first second firstHeld secondHeld
    obtain ⟨oldFirst, oldFirstHeld, firstSame⟩ := rebound source first firstHeld
    obtain ⟨oldSecond, oldSecondHeld, secondSame⟩ := rebound target second secondHeld
    rw [firstSame.targets, secondSame.sources]
    exact sound.counted source target oldFirst oldSecond oldFirstHeld oldSecondHeld

theorem bind (sound : LinksSound graph) {id : SocketId} {incoming : Bool} (space : Space) {socket : Socket}
    (found : graph.socket? id = some socket) (side : socket.side = if incoming then .input else .output) :
    LinksSound (graph.withEntry ⟨id, incoming, .space space⟩) := by
  refine sound.rebind (fun other old held => ?_) fun other new held => ?_
  · rw [socket?_withEntry, held]
    split
    · exact ⟨_, rfl⟩
    · exact ⟨old, rfl⟩
  · rw [socket?_withEntry] at held
    by_cases isBound : id = other
    · subst isBound
      rw [if_pos rfl, found] at held
      obtain rfl := Option.some.inj held
      refine ⟨socket, found, ?_⟩
      cases incoming with
      | true =>
          refine ⟨rfl, rfl, rfl, ?_, fun _ _ => .inr side, fun _ member => .inl member⟩
          simp [Socket.ends, LinkEntry.setList, LinkEntry.listOf, socketEntries]
      | false =>
          refine ⟨rfl, rfl, ?_, rfl, fun _ member => .inl member, fun _ _ => .inr side⟩
          simp [Socket.ends, LinkEntry.setList, LinkEntry.listOf, socketEntries]
    · rw [if_neg isBound] at held
      exact ⟨new, held, .refl new⟩

theorem unbind (sound : LinksSound graph) (id : SocketId) (incoming : Bool) (space : Space) :
    LinksSound (graph.withoutEntry ⟨id, incoming, .space space⟩) := by
  refine sound.rebind (fun other old held => ?_) fun other new held => ?_
  · rw [socket?_withoutEntry, held]
    split
    · exact ⟨_, rfl⟩
    · exact ⟨old, rfl⟩
  · rw [socket?_withoutEntry] at held
    by_cases isBound : id = other
    · rw [if_pos isBound] at held
      obtain ⟨old, oldHeld, rfl⟩ := Option.map_eq_some_iff.mp held
      refine ⟨old, oldHeld, ?_⟩
      cases incoming with
      | true =>
          refine ⟨rfl, rfl, rfl, ?_, fun _ member => .inl ?_, fun _ member => .inl member⟩
          · exact socketEntries_eraseFirst_space space old.incoming
          · exact ((eraseFirst_sublist _ _).filterMap _).subset member
      | false =>
          refine ⟨rfl, rfl, ?_, rfl, fun _ member => .inl member, fun _ member => .inl ?_⟩
          · exact socketEntries_eraseFirst_space space old.outgoing
          · exact ((eraseFirst_sublist _ _).filterMap _).subset member
    · rw [if_neg isBound] at held
      exact ⟨new, held, .refl new⟩

/-- Every change preserves the agreement of both ends. -/
theorem change {later : Graph} (change : Change graph later) (sound : LinksSound graph) : LinksSound later := by
  cases change with
  | create => exact sound.frame fun _ => rfl
  | socket owner internal name side => exact sound.socket owner internal name side
  | link source target first second sourceFound targetFound apart => exact sound.link sourceFound targetFound apart
  | unlink source target => exact sound.unlink source target
  | bind id incoming space socket found side => exact sound.bind space found side
  | unbind id incoming space => exact sound.unbind id incoming space
  | method => exact sound.frame fun _ => rfl
  | computation computation =>
      refine sound.frame fun id => ?_
      rw [socket?_withComputation]
      cases graph.socket? id with
      | none => rfl
      | some socket =>
          simp [Socket.ends, socketEntries_append, spaceEntries_append, socketEntries_replicate,
            spaceEntries_replicate]
  | child => exact sound.frame fun _ => rfl
  | hook => exact sound.frame fun _ => rfl
  | state final same => exact sound.frame (view_of_wiring (fun _ => rfl) same)

end LinksSound

end Graph

end Wiring
