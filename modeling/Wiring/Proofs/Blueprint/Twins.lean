import Wiring.Proofs.Blueprint.Content

/-!
Contract: components with the same plan have the same subtree.

Owns: `Twins` and `Mates`, components and sockets at the same place below two roots that are shown alike; that
the traversals below two roots with one plan visit twins in step, so that their sockets are mates in step; and
that what a socket contributes to a blueprint can be read off the blueprint.
-/

namespace Wiring.Graph

/-- Two lists related to a third one in step. -/
theorem forall₂_join {α β γ : Type} {relates : α → γ → Prop} {other : β → γ → Prop} {lefts : List α}
    {rights : List β} {between : List γ} (first : List.Forall₂ relates lefts between)
    (second : List.Forall₂ other rights between) :
    List.Forall₂ (fun left right => ∃ middle, relates left middle ∧ other right middle) lefts rights := by
  induction first generalizing rights with
  | nil =>
      cases second
      exact .nil
  | cons head _ inductionHypothesis =>
      cases second with
      | cons otherHead otherTail => exact .cons ⟨_, head, otherHead⟩ (inductionHypothesis otherTail)

/-- Components at the same path below two roots, shown by plans that differ at most in the configuration. -/
structure Twins (left right : Graph) (first second a b : ComponentId) : Prop where
  path : ∃ path, left.Descends first path a ∧ right.Descends second path b
  plan : ∃ plan config, left.Planned a plan ∧ right.Planned b (plan.withConfig config)

/-- Sockets at the same place below two roots, shown by the same plan. -/
structure Mates (left right : Graph) (first second : ComponentId) (a b : SocketId) : Prop where
  place : ∃ place, left.Stands first a place ∧ right.Stands second b place
  plan : ∃ plan, left.planSocket a = .ok plan ∧ right.planSocket b = .ok plan

/-- Two roots in sound graphs, shown by plans that differ at most in the configuration. -/
structure Alike (left right : Graph) (first second : ComponentId) : Prop where
  leftSound : Sound left
  rightSound : Sound right
  plan : ∃ plan config, left.Planned first plan ∧ right.Planned second (plan.withConfig config)

/-- Both twins are what the one plan shows, but for the configuration. -/
theorem Twins.drawn {left right : Graph} {first second a b : ComponentId} (twins : Twins left right first second a b)
    {node other : Component} (found : left.component? a = some node) (otherFound : right.component? b = some other) :
    ∃ plan config, Drawn left left.Planned node plan ∧ Drawn right right.Planned other (plan.withConfig config) := by
  rcases twins.plan with ⟨plan, config, planned, plannedToo⟩
  exact ⟨plan, config, planned.drawn_of_found found, plannedToo.drawn_of_found otherFound⟩

namespace Alike

variable {left right : Graph} {first second : ComponentId} (alike : Alike left right first second)
include alike

theorem roots : Twins left right first second first second := by
  rcases alike.plan with ⟨plan, config, planned, plannedToo⟩
  rcases planned.drawn with ⟨node, found, -⟩
  rcases plannedToo.drawn with ⟨other, otherFound, -⟩
  exact ⟨⟨[], .here node found, .here other otherFound⟩, plan, config, planned, plannedToo⟩

/-- Twins have twins as children. -/
theorem children {a b : ComponentId} (twins : Twins left right first second a b) {node other : Component}
    (found : left.component? a = some node) (otherFound : right.component? b = some other) :
    List.Forall₂ (Twins left right first second) (Keyed.values node.children)
      (Keyed.values other.children) := by
  rcases twins.path with ⟨path, descends, descendsToo⟩
  rcases twins.drawn found otherFound with ⟨plan, config, drawn, drawnToo⟩
  have shown := drawnToo.children
  rw [ComponentPlan.children_withConfig] at shown
  have below := (List.forall₂_and_left _ _).mpr ⟨fun _ member => member, drawn.children⟩
  have belowToo := (List.forall₂_and_left _ _).mpr ⟨fun _ member => member, shown⟩
  refine (forall₂_join below belowToo).imp fun x y related => ?_
  rcases related with ⟨child, ⟨member, childPlanned⟩, memberToo, childPlannedToo⟩
  rcases List.mem_map.mp member with ⟨entry, entryMember, rfl⟩
  rcases List.mem_map.mp memberToo with ⟨entryToo, entryMemberToo, rfl⟩
  refine ⟨⟨path ++ [entry.1], .child path a node _ _ descends found entryMember, ?_⟩,
    child, child.config, childPlanned, by cases child; exact childPlannedToo⟩
  -- Both children are named as the plan says.
  have names : entryToo.1 = entry.1 := by
    rcases alike.leftSound.tree.child a node found entry entryMember with ⟨below, belowFound, -, named⟩
    rcases alike.rightSound.tree.child b other otherFound entryToo entryMemberToo with
      ⟨belowToo, belowFoundToo, -, namedToo⟩
    have configs : below.toConfig = belowToo.toConfig :=
      (childPlanned.drawn_of_found belowFound).config.symm.trans
        (childPlannedToo.drawn_of_found belowFoundToo).config
    have resolved := congrArg ComponentConfig.name configs
    rw [← named, ← namedToo]
    exact (Option.some.inj resolved).symm
  rw [← names]
  exact .child path b other _ _ descendsToo otherFound entryMemberToo

/-- The traversals visit twins in step. -/
theorem visits {waiting waitingToo visited visitedToo : List ComponentId}
    (twins : List.Forall₂ (Twins left right first second) waiting waitingToo) (visits : left.Visits waiting visited)
    (visitsToo : right.Visits waitingToo visitedToo) :
    List.Forall₂ (Twins left right first second) visited visitedToo := by
  induction visits generalizing waitingToo visitedToo with
  | done =>
      cases twins
      cases visitsToo
      exact .nil
  | visit found later inductionHypothesis =>
      cases twins with
      | cons head tail =>
          cases visitsToo with
          | visit foundToo laterToo =>
              have below := alike.children head found foundToo
              exact .cons head (inductionHypothesis (List.rel_append tail below) laterToo)

theorem members {members membersToo : List ComponentId} (listed : left.subtree first = .ok members)
    (listedToo : right.subtree second = .ok membersToo) :
    List.Forall₂ (Twins left right first second) members membersToo :=
  alike.visits (.cons alike.roots .nil) (subtree_visits listed) (subtree_visits listedToo)

/-- The sockets of twins are mates. -/
theorem sockets {a b : ComponentId} (twins : Twins left right first second a b) {node other : Component}
    (found : left.component? a = some node) (otherFound : right.component? b = some other) :
    List.Forall₂ (Mates left right first second) node.sockets other.sockets := by
  rcases twins.path with ⟨path, descends, descendsToo⟩
  rcases twins.drawn found otherFound with ⟨plan, config, drawn, drawnToo⟩
  have shown := drawnToo.sockets
  rw [ComponentPlan.sockets_withConfig] at shown
  have listed := (List.forall₂_and_left _ _).mpr ⟨fun _ member => member, drawn.sockets⟩
  have listedToo := (List.forall₂_and_left _ _).mpr ⟨fun _ member => member, shown⟩
  refine (forall₂_join listed listedToo).imp fun x y related => ?_
  rcases related with ⟨socket, ⟨member, socketPlanned⟩, memberToo, socketPlannedToo⟩
  refine ⟨⟨⟨path, socket.name⟩, ?_, ?_⟩, socket, socketPlanned, socketPlannedToo⟩
  · rcases (alike.leftSound.sockets.mem_sockets found).mp member with ⟨held, socketHeld, owned⟩
    rcases planSocket_eq_ok.mp socketPlanned with ⟨_, same, rfl⟩
    obtain rfl := Option.some.inj (socketHeld.symm.trans same)
    exact ⟨held, socketHeld, owned ▸ descends, rfl⟩
  · rcases (alike.rightSound.sockets.mem_sockets otherFound).mp memberToo with ⟨held, socketHeld, owned⟩
    rcases planSocket_eq_ok.mp socketPlannedToo with ⟨_, same, rfl⟩
    obtain rfl := Option.some.inj (socketHeld.symm.trans same)
    exact ⟨held, socketHeld, owned ▸ descendsToo, rfl⟩

theorem ports {members membersToo : List ComponentId} (listed : left.subtree first = .ok members)
    (listedToo : right.subtree second = .ok membersToo) :
    List.Forall₂ (Mates left right first second) (left.portsOf members) (right.portsOf membersToo) := by
  refine List.rel_flatMap (alike.members listed listedToo) fun {a b} twins => ?_
  rcases twins.plan with ⟨plan, config, planned, plannedToo⟩
  rcases planned.drawn with ⟨node, found, -⟩
  rcases plannedToo.drawn with ⟨other, otherFound, -⟩
  rw [found, otherFound]
  exact alike.sockets twins found otherFound

end Alike

namespace Mates

variable {left right : Graph} {first second : ComponentId} {a b : SocketId}

theorem siteOf (alike : Alike left right first second) (mates : Mates left right first second a b) :
    left.siteOf first a = right.siteOf second b := by
  rcases mates.place with ⟨place, stands, standsToo⟩
  rw [stands.siteOf alike.leftSound.tree, standsToo.siteOf alike.rightSound.tree]

/-- A socket has one mate. -/
theorem right_unique (alike : Alike left right first second) {other : SocketId}
    (mates : Mates left right first second a b) (again : Mates left right first second a other) : b = other := by
  rcases mates.place with ⟨place, stands, standsToo⟩
  rcases again.place with ⟨same, standsAgain, standsTooAgain⟩
  obtain rfl := stands.place_unique alike.leftSound standsAgain
  exact standsToo.id_unique alike.rightSound standsTooAgain

theorem left_unique (alike : Alike left right first second) {other : SocketId}
    (mates : Mates left right first second a b) (again : Mates left right first second other b) : a = other := by
  rcases mates.place with ⟨place, stands, standsToo⟩
  rcases again.place with ⟨same, standsAgain, standsTooAgain⟩
  obtain rfl := standsToo.place_unique alike.rightSound standsTooAgain
  exact stands.id_unique alike.leftSound standsAgain

/-- Mates have the same name and side, and both or neither are internal. -/
theorem faces (mates : Mates left right first second a b) : ∃ socket other, left.socket? a = some socket ∧
    right.socket? b = some other ∧ socket.name = other.name ∧ socket.side = other.side ∧
    socket.internal = other.internal := by
  rcases mates.plan with ⟨plan, planned, plannedToo⟩
  rcases planSocket_eq_ok.mp planned with ⟨socket, held, rfl⟩
  rcases planSocket_eq_ok.mp plannedToo with ⟨other, otherHeld, same⟩
  rcases SocketPlan.mk.inj same with ⟨name, side, internal⟩
  exact ⟨socket, other, held, otherHeld, name, side, internal⟩

end Mates

/-! ### Reading contributions off a blueprint -/

/-- Of lists put together, each marked by the item it belongs to, one list can be filtered out. -/
theorem filter_flatMap_key {α β κ : Type} [DecidableEq κ] {items : List α} (once : items.Nodup)
    {content : α → List β} {key : α → κ} {keyOf : β → κ}
    (marked : ∀ item ∈ items, ∀ value ∈ content item, keyOf value = key item)
    (distinct : ∀ item ∈ items, ∀ other ∈ items, key item = key other → item = other) {item : α}
    (member : item ∈ items) :
    (items.flatMap content).filter (fun value => keyOf value = key item) = content item := by
  induction items with
  | nil => cases member
  | cons first rest inductionHypothesis =>
      rcases List.nodup_cons.mp once with ⟨notRepeated, once⟩
      rw [List.flatMap_cons, List.filter_append]
      have others : ∀ other ∈ rest, ∀ value ∈ content other, keyOf value = key other :=
        fun other otherMember => marked other (List.mem_cons_of_mem first otherMember)
      rcases List.mem_cons.mp member with rfl | later
      · have whole : (content item).filter (fun value => keyOf value = key item) = content item :=
          List.filter_eq_self.mpr fun value valueMember => by
            simpa using marked item List.mem_cons_self value valueMember
        have none : (rest.flatMap content).filter (fun value => keyOf value = key item) = [] := by
          refine List.filter_eq_nil_iff.mpr fun value valueMember same => ?_
          rcases List.mem_flatMap.mp valueMember with ⟨other, otherMember, held⟩
          have keys : key item = key other := by
            rw [← others other otherMember value held]
            exact (of_decide_eq_true same).symm
          have equal := distinct item List.mem_cons_self other (List.mem_cons_of_mem item otherMember) keys
          exact notRepeated (equal ▸ otherMember)
        rw [whole, none, List.append_nil]
      · have none : (content first).filter (fun value => keyOf value = key item) = [] := by
          refine List.filter_eq_nil_iff.mpr fun value valueMember same => ?_
          have keys : key first = key item := by
            rw [← marked first List.mem_cons_self value valueMember]
            exact of_decide_eq_true same
          have equal := distinct first List.mem_cons_self item (List.mem_cons_of_mem first later) keys
          exact notRepeated (equal ▸ later)
        rw [none, List.nil_append]
        refine inductionHypothesis once others (fun left leftMember right rightMember => ?_) later
        exact distinct left (List.mem_cons_of_mem first leftMember) right (List.mem_cons_of_mem first rightMember)

section Reading

variable {graph : Graph} {root : ComponentId} {members : List ComponentId}

/-- Every socket of a subtree has a place. -/
theorem stands_of_mem_portsOf (sound : Sound graph) (listed : graph.subtree root = .ok members) {id : SocketId}
    (member : id ∈ graph.portsOf members) : graph.Stands root id (graph.siteOf root id) := by
  rcases (mem_portsOf sound.sockets).mp member with ⟨socket, held, owned⟩
  exact sound.stands held ((mem_subtree sound.tree listed).mp owned)

theorem siteOf_injective (sound : Sound graph) (listed : graph.subtree root = .ok members) {id other : SocketId}
    (member : id ∈ graph.portsOf members) (otherMember : other ∈ graph.portsOf members)
    (same : graph.siteOf root id = graph.siteOf root other) : id = other := by
  have stands := stands_of_mem_portsOf sound listed member
  rw [same] at stands
  exact stands.id_unique sound (stands_of_mem_portsOf sound listed otherMember)

/-- The links that leave a socket are those of the blueprint that begin at its place. -/
theorem linksAt_eq_filter (sound : Sound graph) (listed : graph.subtree root = .ok members) {id : SocketId}
    (member : id ∈ graph.portsOf members) :
    ((graph.portsOf members).flatMap (graph.linksAt root members)).filter
      (fun link => link.1 = graph.siteOf root id) = graph.linksAt root members id := by
  refine filter_flatMap_key (portsOf_nodup sound.sockets (subtree_nodup sound.tree listed)) ?_ ?_ member
  · intro item _ link linkMember
    rcases List.mem_map.mp linkMember with ⟨target, -, rfl⟩
    rfl
  · exact fun item itemMember other otherMember => siteOf_injective sound listed itemMember otherMember

theorem place_of_mem_boundAt {place : SocketPath} {socket : Socket} {binding : SpaceBinding}
    (member : binding ∈ boundAt place socket) : binding.socket = place := by
  rcases List.mem_append.mp member with outgoing | incoming
  · rcases List.mem_map.mp outgoing with ⟨space, -, rfl⟩
    rfl
  · rcases List.mem_map.mp incoming with ⟨space, -, rfl⟩
    rfl

theorem place_of_mem_bindingsAt {id : SocketId} {binding : SpaceBinding}
    (member : binding ∈ graph.bindingsAt root id) : binding.socket = graph.siteOf root id := by
  unfold bindingsAt at member
  cases held : graph.socket? id with
  | none => simp [held] at member
  | some socket =>
      simp only [held, Option.map_some, Option.getD_some] at member
      split at member
      · cases member
      · exact place_of_mem_boundAt member

/-- The spaces bound to a socket are those of the blueprint at its place. -/
theorem bindingsAt_eq_filter (sound : Sound graph) (listed : graph.subtree root = .ok members) {id : SocketId}
    (member : id ∈ graph.portsOf members) :
    ((graph.portsOf members).flatMap (graph.bindingsAt root)).filter
      (fun binding => binding.socket = graph.siteOf root id) = graph.bindingsAt root id := by
  refine filter_flatMap_key (portsOf_nodup sound.sockets (subtree_nodup sound.tree listed)) ?_ ?_ member
  · exact fun item _ binding => place_of_mem_bindingsAt
  · exact fun item itemMember other otherMember => siteOf_injective sound listed itemMember otherMember

end Reading

end Wiring.Graph
