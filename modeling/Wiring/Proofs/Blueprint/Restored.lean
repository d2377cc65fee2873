import Wiring.Proofs.Blueprint.Restoring

/-!
Contract: what is restored from a blueprint is what the blueprint says.

Owns: that the links and bound spaces of a blueprint join and fit sockets below any root with the same plan;
what the sockets of the restored subtree contribute to its own blueprint, and in which order they are connected;
that new and old sockets are not connected; and `restore_ok`, by which the restored subtree has the same
blueprint again.

Does not own: the making of the subtree.
-/

namespace Wiring

/-- No link comes before a computation. -/
def ComputationsFirst (connections : List Connection) : Prop :=
  connections.Pairwise fun first second => first.asSocket? = none ∨ second.asComputation? = none

theorem ComputationsFirst.append {connections more : List Connection} (noLinks : socketEntries connections = [])
    (noComputations : computationEntries more = []) : ComputationsFirst (connections ++ more) := by
  have left := List.filterMap_eq_nil_iff.mp noLinks
  have right := List.filterMap_eq_nil_iff.mp noComputations
  refine List.pairwise_append.mpr ⟨?_, ?_, fun first member _ _ => .inl (left first member)⟩
  · exact List.pairwise_of_forall_mem_list fun first member _ _ => .inl (left first member)
  · exact List.pairwise_of_forall_mem_list fun _ _ second member => .inr (right second member)

namespace Graph

/-- No socket below the root is linked to a socket elsewhere. -/
def Enclosed (graph : Graph) (root : ComponentId) : Prop :=
  ∀ id socket, graph.socket? id = some socket → graph.Above root socket.owner →
    ∀ target ∈ socketEntries socket.outgoing, ∀ other, graph.socket? target = some other →
      graph.Above root other.owner

theorem check_socket {graph : Graph} {check : Socket → Bool} (all : graph.sockets.toList.all check = true) {id : SocketId}
    {socket : Socket} (held : graph.socket? id = some socket) : check socket = true :=
  List.all_eq_true.mp all socket (Array.mem_toList_iff.mpr (Array.mem_of_getElem? held))

theorem above_of_listed {graph : Graph} (sound : Sound graph) {root id : ComponentId}
    (listed : ((graph.subtree root).toOption.getD []).contains id = true) : graph.Above root id := by
  cases answered : graph.subtree root with
  | error error =>
      rw [answered] at listed
      cases listed
  | ok members =>
      rw [answered] at listed
      exact (mem_subtree sound.tree answered).mp (List.contains_iff_mem.mp listed)

/-- A component that holds all sockets of its graph. -/
theorem enclosed_of_holds {graph : Graph} {root : ComponentId}
    (holds : ∀ id socket, graph.socket? id = some socket → graph.Above root socket.owner) : graph.Enclosed root :=
  fun _ _ _ _ _ _ other held => holds _ other held

/-- Below the root, the computations that read a socket come before the sockets that it is linked to. -/
def Phased (graph : Graph) (root : ComponentId) : Prop :=
  ∀ id socket, graph.socket? id = some socket → graph.Above root socket.owner → ComputationsFirst socket.outgoing

/-- No spaces are bound to the in-sockets of the component itself. -/
def Unfed (graph : Graph) (root : ComponentId) : Prop :=
  ∀ id socket, graph.socket? id = some socket → socket.owner = root → spaceEntries socket.incoming = []

/-! ### What has to be restored -/

namespace Alike

variable {left right : Graph} {first second : ComponentId} {members membersToo : List ComponentId}

/-- Every link of a blueprint joins two sockets below the other root. -/
theorem joins (alike : Alike left right first second) (listed : left.subtree first = .ok members)
    (listedToo : right.subtree second = .ok membersToo) {link : SocketPath × SocketPath}
    (member : link ∈ (left.portsOf members).flatMap (left.linksAt first members)) :
    ∃ ids, right.Joins second link ids := by
  have ports := alike.ports listed listedToo
  have sound := alike.leftSound
  rcases List.mem_flatMap.mp member with ⟨source, sourceMember, linked⟩
  rcases List.mem_map.mp linked with ⟨target, inner, rfl⟩
  rcases (mem_portsOf sound.sockets).mp sourceMember with ⟨socket, held, owned⟩
  rcases (mem_innerTargets held).mp inner with ⟨entry, other, otherHeld, otherOwned⟩
  have targetMember := (mem_portsOf sound.sockets).mpr ⟨other, otherHeld, otherOwned⟩
  rcases forall₂_of_mem_left ports sourceMember with ⟨a, -, mates⟩
  rcases forall₂_of_mem_left ports targetMember with ⟨b, -, otherMates⟩
  rcases mates.place with ⟨place, stands, standsToo⟩
  rcases otherMates.place with ⟨otherPlace, otherStands, otherStandsToo⟩
  refine ⟨(a, b), ?_⟩
  rw [stands.siteOf sound.tree, otherStands.siteOf sound.tree]
  refine ⟨standsToo, otherStandsToo, fun same => ?_⟩
  -- Equal paths would make it a link within one component.
  rcases stands with ⟨_, again, descends, -⟩
  obtain rfl := Option.some.inj (held.symm.trans again)
  rcases otherStands with ⟨_, otherAgain, otherDescends, -⟩
  obtain rfl := Option.some.inj (otherHeld.symm.trans otherAgain)
  have together : socket.owner = other.owner := descends.id_unique sound.tree (same ▸ otherDescends)
  rcases sound.links.targets source socket held target entry with ⟨_, once, apart⟩
  obtain rfl := Option.some.inj (otherHeld.symm.trans once)
  exact apart together.symm

/-- Every bound space of a blueprint fits a socket below the other root. -/
theorem enters (alike : Alike left right first second) (listed : left.subtree first = .ok members)
    (listedToo : right.subtree second = .ok membersToo) {binding : SpaceBinding}
    (member : binding ∈ (left.portsOf members).flatMap (left.bindingsAt first)) :
    ∃ entry, right.Enters second binding entry := by
  have ports := alike.ports listed listedToo
  have sound := alike.leftSound
  rcases List.mem_flatMap.mp member with ⟨id, idMember, bound⟩
  rcases forall₂_of_mem_left ports idMember with ⟨a, -, mates⟩
  rcases mates.faces with ⟨socket, other, held, otherHeld, -, side, -⟩
  rcases mates.place with ⟨place, stands, standsToo⟩
  have placed : binding.socket = place := by
    rw [place_of_mem_bindingsAt bound, stands.siteOf sound.tree]
  rw [bindingsAt_eq held] at bound
  split at bound
  · cases bound
  · refine ⟨⟨a, binding.incoming, .space binding.space⟩, placed ▸ standsToo, rfl, rfl, other, otherHeld, ?_⟩
    rw [← side]
    rcases List.mem_append.mp bound with outgoing | incoming
    · rcases List.mem_map.mp outgoing with ⟨space, entry, rfl⟩
      exact sound.links.feeding id socket held space entry
    · rcases List.mem_map.mp incoming with ⟨space, entry, rfl⟩
      exact sound.links.fed id socket held space entry

end Alike

/-! ### What has been restored -/

section Restored

variable {graph : Graph} {root : ComponentId}

/-- The links restored at a socket are those that begin at its place. -/
theorem links_of_joins (sound : Sound graph) {links : List (SocketPath × SocketPath)}
    {ids : List (SocketId × SocketId)} (joined : List.Forall₂ (graph.Joins root) links ids) {id : SocketId}
    (stands : graph.Stands root id (graph.siteOf root id)) :
    (ids.filter fun pair => pair.1 = id).map (fun pair => (graph.siteOf root id, graph.siteOf root pair.2)) =
      links.filter fun link => link.1 = graph.siteOf root id := by
  induction joined with
  | nil => rfl
  | @cons link pair links ids head _ inductionHypothesis =>
      rcases head with ⟨first, second, -⟩
      have target := second.siteOf sound.tree
      by_cases same : pair.1 = id
      · have source : link.1 = graph.siteOf root id := by
          rw [← same, first.siteOf sound.tree]
        rw [List.filter_cons_of_pos (by simpa using same), List.filter_cons_of_pos (by simpa using source),
          List.map_cons, inductionHypothesis, target, ← source]
      · have differ : link.1 ≠ graph.siteOf root id := by
          intro source
          rw [source] at first
          exact same (first.id_unique sound stands)
        rw [List.filter_cons_of_neg (by simpa using same), List.filter_cons_of_neg (by simpa using differ),
          inductionHypothesis]

/-- The spaces restored on one side of a socket are those of its place. -/
theorem spaces_of_enters (sound : Sound graph) {bindings : List SpaceBinding} {entries : List LinkEntry}
    (entered : List.Forall₂ (graph.Enters root) bindings entries) {id : SocketId}
    (stands : graph.Stands root id (graph.siteOf root id)) (incoming : Bool) :
    (spaceEntries ((entries.filter fun entry => entry.socket = id ∧ entry.incoming = incoming).map
        LinkEntry.connection)).map (fun space => (⟨graph.siteOf root id, space, incoming⟩ : SpaceBinding)) =
      bindings.filter fun binding => binding.socket = graph.siteOf root id ∧ binding.incoming = incoming := by
  induction entered with
  | nil => rfl
  | @cons binding entry bindings entries head _ inductionHypothesis =>
      rcases head with ⟨first, side, connection, -⟩
      have agree : (entry.socket = id ∧ entry.incoming = incoming) ↔
          (binding.socket = graph.siteOf root id ∧ binding.incoming = incoming) := by
        rw [side]
        refine and_congr_left' ⟨?_, fun place => ?_⟩
        · rintro rfl
          exact (first.siteOf sound.tree).symm
        · exact (place ▸ first).id_unique sound stands
      by_cases here : entry.socket = id ∧ entry.incoming = incoming
      · have there := agree.mp here
        rw [List.filter_cons_of_pos (by simpa using here), List.filter_cons_of_pos (by simpa using there),
          List.map_cons, connection, ← inductionHypothesis, ← there.1, ← there.2]
        rfl
      · have notThere := mt agree.mpr here
        rw [List.filter_cons_of_neg (by simpa using here), List.filter_cons_of_neg (by simpa using notThere),
          inductionHypothesis]

theorem connection_of_enters {bindings : List SpaceBinding} {entries : List LinkEntry}
    (entered : List.Forall₂ (graph.Enters root) bindings entries) {kind : LinkEntry → Bool} {connection : Connection}
    (member : connection ∈ (entries.filter kind).map LinkEntry.connection) : ∃ space, connection = .space space := by
  rcases List.mem_map.mp member with ⟨entry, entryMember, rfl⟩
  rcases forall₂_of_mem_right entered (List.mem_of_mem_filter entryMember) with ⟨binding, -, -, -, same, -⟩
  exact ⟨binding.space, same⟩

/-- Entries of spaces are no links. -/
theorem socketEntries_spaces {bindings : List SpaceBinding} {entries : List LinkEntry}
    (entered : List.Forall₂ (graph.Enters root) bindings entries) (kind : LinkEntry → Bool) :
    socketEntries ((entries.filter kind).map LinkEntry.connection) = [] := by
  refine List.filterMap_eq_nil_iff.mpr fun connection member => ?_
  rcases connection_of_enters entered member with ⟨space, rfl⟩
  rfl

/-- Nor are they computations. -/
theorem computationEntries_spaces {bindings : List SpaceBinding} {entries : List LinkEntry}
    (entered : List.Forall₂ (graph.Enters root) bindings entries) (kind : LinkEntry → Bool) :
    computationEntries ((entries.filter kind).map LinkEntry.connection) = [] := by
  refine List.filterMap_eq_nil_iff.mpr fun connection member => ?_
  rcases connection_of_enters entered member with ⟨space, rfl⟩
  rfl

/-- The entries of a socket that was bare before links and spaces were restored. -/
structure Rewired (links : List (SocketId × SocketId)) (entries : List LinkEntry) (id : SocketId)
    (socket : Socket) : Prop where
  targets : socketEntries socket.outgoing = (links.filter fun pair => pair.1 = id).map Prod.snd
  feeding : spaceEntries socket.outgoing =
    spaceEntries ((entries.filter fun entry => entry.socket = id ∧ entry.incoming = false).map LinkEntry.connection)
  fed : spaceEntries socket.incoming =
    spaceEntries ((entries.filter fun entry => entry.socket = id ∧ entry.incoming = true).map LinkEntry.connection)
  order : ComputationsFirst socket.outgoing

theorem rewired {made : Graph} (ids : List (SocketId × SocketId)) {bindings : List SpaceBinding}
    {entries : List LinkEntry} (entered : List.Forall₂ (graph.Enters root) bindings entries) {id : SocketId}
    {old : Socket} (held : made.socket? id = some old) (bare : old.Bare) :
    ∃ socket, ((made.linkAll ids).bindAll entries).socket? id = some socket ∧ socket.owner = old.owner ∧
      Rewired ids entries id socket := by
  have links (pairs : List (SocketId × SocketId)) (pick : SocketId × SocketId → SocketId) :
      (pairs.map fun pair => Connection.socket (pick pair)) = (pairs.map pick).map .socket := by
    rw [List.map_map]
    rfl
  rw [socket?_bindAll, socket?_linkAll, held]
  refine ⟨_, rfl, rfl, ?_, ?_, ?_, ?_⟩
  · simp only [socketEntries_append, bare.targets, links, socketEntries_links, socketEntries_spaces entered,
      List.nil_append, List.append_nil]
  · simp only [spaceEntries_append, bare.feeding, links, spaceEntries_links, List.nil_append]
  · simp only [spaceEntries_append, bare.fed, links, spaceEntries_links, List.nil_append]
  · simp only [List.append_assoc]
    refine .append bare.targets ?_
    simp only [computationEntries_append, links, computationEntries_links, computationEntries_spaces entered,
      List.nil_append]

theorem linksAt_of_rewired (sound : Sound graph) {links : List (SocketPath × SocketPath)}
    {ids : List (SocketId × SocketId)} {entries : List LinkEntry}
    (joined : List.Forall₂ (graph.Joins root) links ids) {members : List ComponentId}
    (within : ∀ pair ∈ ids, graph.isWithin members pair.2 = true) {id : SocketId} {socket : Socket}
    (held : graph.socket? id = some socket) (rewired : Rewired ids entries id socket)
    (stands : graph.Stands root id (graph.siteOf root id)) :
    graph.linksAt root members id = links.filter fun link => link.1 = graph.siteOf root id := by
  have inner : graph.innerTargets members id = (ids.filter fun pair => pair.1 = id).map Prod.snd := by
    rw [innerTargets_eq held, rewired.targets]
    refine List.filter_eq_self.mpr fun target member => ?_
    rcases List.mem_map.mp member with ⟨pair, pairMember, rfl⟩
    exact within pair (List.mem_of_mem_filter pairMember)
  rw [linksAt, inner, List.map_map, ← links_of_joins sound joined stands]
  rfl

/-- Bindings of one place, those of out-sockets first, as a blueprint lists them. -/
theorem boundAt_split (place : SocketPath) (socket : Socket) :
    ((boundAt place socket).filter fun binding => binding.incoming = false) ++
      ((boundAt place socket).filter fun binding => binding.incoming = true) = boundAt place socket := by
  unfold boundAt
  simp [List.filter_append, List.filter_map, Function.comp_def]

theorem bindingsAt_of_rewired (sound : Sound graph) {bindings : List SpaceBinding}
    {ids : List (SocketId × SocketId)} {entries : List LinkEntry}
    (entered : List.Forall₂ (graph.Enters root) bindings entries) {id : SocketId} {socket : Socket}
    (held : graph.socket? id = some socket) (rewired : Rewired ids entries id socket)
    (stands : graph.Stands root id (graph.siteOf root id)) (below : socket.owner ≠ root) :
    graph.bindingsAt root id =
      (bindings.filter fun binding => binding.socket = graph.siteOf root id ∧ binding.incoming = false) ++
        bindings.filter fun binding => binding.socket = graph.siteOf root id ∧ binding.incoming = true := by
  rw [bindingsAt_eq held, if_neg below, boundAt, rewired.feeding, rewired.fed,
    spaces_of_enters sound entered stands, spaces_of_enters sound entered stands]

end Restored

/-! ### New and old sockets -/

/-- A link has an entry at both of its ends. -/
theorem Sound.linked_back {graph : Graph} (sound : Sound graph) {id other : SocketId} {socket : Socket}
    (held : graph.socket? id = some socket)
    (linked : other ∈ socketEntries socket.incoming ++ socketEntries socket.outgoing) :
    ∃ second, graph.socket? other = some second ∧
      id ∈ socketEntries second.incoming ++ socketEntries second.outgoing := by
  rcases List.mem_append.mp linked with source | target
  · rcases sound.links.sources id socket held other source with ⟨second, secondHeld, -⟩
    have counted := sound.links.counted other id second socket secondHeld held
    refine ⟨second, secondHeld, List.mem_append_right _ (List.count_pos_iff.mp ?_)⟩
    exact counted.symm ▸ List.count_pos_iff.mpr source
  · rcases sound.links.targets id socket held other target with ⟨second, secondHeld, -⟩
    have counted := sound.links.counted id other socket second held secondHeld
    refine ⟨second, secondHeld, List.mem_append_left _ (List.count_pos_iff.mp ?_)⟩
    exact counted ▸ List.count_pos_iff.mpr target

/-- A computation entered at a socket reads or writes it. -/
theorem Sound.bound_back {graph : Graph} (sound : Sound graph) {id : SocketId} {socket : Socket}
    (held : graph.socket? id = some socket) {computation : ComputationId}
    (entered : computation ∈ computationEntries socket.incoming ++ computationEntries socket.outgoing) :
    ∃ bound, graph.computation? computation = some bound ∧ id ∈ bound.inputs ++ bound.outputs := by
  rcases List.mem_append.mp entered with written | read
  · have member : id ∈ graph.outputsOf computation :=
      List.count_pos_iff.mp (sound.count_writers held computation ▸ List.count_pos_iff.mpr written)
    cases known : graph.computation? computation with
    | none => simp [outputsOf, known] at member
    | some bound =>
        rw [ComputationsSound.outputsOf_eq known] at member
        exact ⟨bound, rfl, List.mem_append_right _ member⟩
  · have member : id ∈ graph.inputsOf computation :=
      List.count_pos_iff.mp (sound.count_readers held computation ▸ List.count_pos_iff.mpr read)
    cases known : graph.computation? computation with
    | none => simp [inputsOf, known] at member
    | some bound =>
        rw [ComputationsSound.inputsOf_eq known] at member
        exact ⟨bound, rfl, List.mem_append_left _ member⟩

/-- Whatever is new in a sound graph is connected with what is new only. -/
theorem Extends.apart {base later : Graph} (extended : Extends base later) (begun : Sound base)
    (sound : Sound later) {id : SocketId} {socket : Socket} (held : later.socket? id = some socket) :
    (∀ other ∈ socketEntries socket.incoming ++ socketEntries socket.outgoing,
      (base.socket? other).isSome = (base.socket? id).isSome) ∧
    ∀ computation ∈ computationEntries socket.incoming ++ computationEntries socket.outgoing,
      (base.computation? computation).isSome = (base.socket? id).isSome := by
  cases known : base.socket? id with
  | some old =>
      obtain rfl := Option.some.inj ((extended.socket id old known).symm.trans held)
      constructor
      · intro other linked
        rcases begun.linked_back known linked with ⟨second, secondHeld, -⟩
        rw [secondHeld]
        rfl
      · intro computation entered
        rcases begun.bound_back known entered with ⟨bound, found, -⟩
        rw [found]
        rfl
  | none =>
      constructor
      · intro other linked
        cases otherKnown : base.socket? other with
        | none => rfl
        | some second =>
            rcases sound.linked_back held linked with ⟨_, again, linkedBack⟩
            obtain rfl := Option.some.inj ((extended.socket other second otherKnown).symm.trans again)
            rcases begun.linked_back otherKnown linkedBack with ⟨old, oldHeld, -⟩
            rw [known] at oldHeld
            contradiction
      · intro computation entered
        cases computationKnown : base.computation? computation with
        | none => rfl
        | some bound =>
            rcases sound.bound_back held entered with ⟨_, again, isEnd⟩
            obtain rfl := Option.some.inj ((extended.computation _ bound computationKnown).symm.trans again)
            have ends := begun.computations.bound computation bound computationKnown
            have old : ∃ old, base.socket? id = some old ∧ old.owner = bound.owner :=
              (List.mem_append.mp isEnd).elim (ends.inputs id) (ends.outputs id)
            rcases old with ⟨old, oldHeld, -⟩
            rw [known] at oldHeld
            contradiction

/-- Everything below a new component is new. -/
theorem Extends.below_fresh {base later : Graph} (extended : Extends base later) (begun : Sound base)
    {root : ComponentId} (fresh : base.component? root = none) {id : ComponentId} (above : later.Above root id) :
    base.component? id = none := by
  cases known : base.component? id with
  | none => rfl
  | some node =>
      rcases begun.tree.rooted id node known with ⟨chain, ancestry⟩
      rcases above with ⟨longer, longerAncestry, member⟩
      have carried : later.Ancestry id chain :=
        ancestry.mono fun other _ node found => ⟨node, extended.component other node found, rfl⟩
      rw [longerAncestry.unique carried] at member
      rcases ancestry.exists_of_mem member with ⟨old, oldFound⟩
      rw [fresh] at oldFound
      contradiction

/-- So is every socket below it, which therefore has neither links nor spaces. -/
theorem Raised.bare_of_stands {base later : Graph} {root : ComponentId} {plan : ComponentPlan}
    (raised : Raised base later root plan) (begun : Sound base) {id : SocketId} {place : SocketPath}
    (stands : later.Stands root id place) :
    base.socket? id = none ∧ ∃ socket, later.socket? id = some socket ∧ socket.Bare := by
  rcases stands with ⟨socket, held, descends, -⟩
  have fresh : base.socket? id = none := by
    cases known : base.socket? id with
    | none => rfl
    | some old =>
        obtain rfl := Option.some.inj ((raised.extended.socket id old known).symm.trans held)
        rcases begun.sockets.owner id old known with ⟨owner, ownerFound⟩
        rw [raised.extended.below_fresh begun raised.fresh (descends.above raised.sound.tree)] at ownerFound
        contradiction
  exact ⟨fresh, socket, held, raised.bare id socket fresh held⟩

/-! ### Restoring a whole blueprint -/

/-- Nothing but sockets below the new root is touched. -/
theorem Raised.extends_restored {base made : Graph} {root : ComponentId} {plan : ComponentPlan}
    (raised : Raised base made root plan) (begun : Sound base) {links : List (SocketPath × SocketPath)}
    {ids : List (SocketId × SocketId)} (joined : List.Forall₂ (made.Joins root) links ids)
    {bindings : List SpaceBinding} {entries : List LinkEntry}
    (entered : List.Forall₂ (made.Enters root) bindings entries) :
    Extends base ((made.linkAll ids).bindAll entries) where
  component id node found := by
    rw [component?_bindAll, component?_linkAll, raised.extended.component id node found]
  socket id socket held := by
    have old {place : SocketPath} : ¬made.Stands root id place := by
      intro stands
      rw [(raised.bare_of_stands begun stands).1] at held
      contradiction
    have notSource : ids.filter (fun pair => pair.1 = id) = [] := by
      refine List.filter_eq_nil_iff.mpr fun pair member same => ?_
      rcases forall₂_of_mem_right joined member with ⟨link, -, stands, -⟩
      exact old (of_decide_eq_true same ▸ stands)
    have notTarget : ids.filter (fun pair => pair.2 = id) = [] := by
      refine List.filter_eq_nil_iff.mpr fun pair member same => ?_
      rcases forall₂_of_mem_right joined member with ⟨link, -, -, stands, -⟩
      exact old (of_decide_eq_true same ▸ stands)
    have notBound (incoming : Bool) :
        entries.filter (fun entry => entry.socket = id ∧ entry.incoming = incoming) = [] := by
      refine List.filter_eq_nil_iff.mpr fun entry member same => ?_
      rcases forall₂_of_mem_right entered member with ⟨binding, -, stands, -⟩
      exact old ((of_decide_eq_true same).1 ▸ stands)
    rw [socket?_bindAll, socket?_linkAll, raised.extended.socket id socket held]
    simp only [notSource, notTarget, notBound, List.map_nil, List.append_nil, Option.map_some]
  computation id computation found := by
    rw [computation?_bindAll, computation?_linkAll, raised.extended.computation id computation found]

/-- Functions that agree on two lists in step. -/
theorem flatMap_congr_forall₂ {α β γ : Type} {left : List α} {right : List β} {first : α → List γ}
    {second : β → List γ} (agree : List.Forall₂ (fun a b => first a = second b) left right) :
    left.flatMap first = right.flatMap second := by
  induction agree with
  | nil => rfl
  | cons head _ inductionHypothesis => rw [List.flatMap_cons, List.flatMap_cons, head, inductionHypothesis]

section Whole

/-- A socket of the restored subtree contributes what its mate in the source contributes. -/
theorem contributions_restored {source final : Graph} {id root : ComponentId} {members finalMembers : List ComponentId}
    (alike : Alike source final id root) (listed : source.subtree id = .ok members)
    (listedToo : final.subtree root = .ok finalMembers) {ids : List (SocketId × SocketId)} {entries : List LinkEntry}
    (joined : List.Forall₂ (final.Joins root) ((source.portsOf members).flatMap (source.linksAt id members)) ids)
    (entered : List.Forall₂ (final.Enters root) ((source.portsOf members).flatMap (source.bindingsAt id)) entries)
    {s a : SocketId} (member : s ∈ source.portsOf members) (mates : Mates source final id root s a) {socket : Socket}
    (held : final.socket? a = some socket) (rewired : Rewired ids entries a socket) :
    source.linksAt id members s = final.linksAt root finalMembers a ∧
      source.bindingsAt id s = final.bindingsAt root a := by
  have sound := alike.rightSound
  have sites := mates.siteOf alike
  rcases mates.place with ⟨place, stands, standsToo⟩
  have here : final.Stands root a (final.siteOf root a) := by
    rwa [standsToo.siteOf sound.tree]
  have within : ∀ pair ∈ ids, final.isWithin finalMembers pair.2 = true := by
    intro pair pairMember
    rcases forall₂_of_mem_right joined pairMember with ⟨link, -, -, ⟨target, targetHeld, descends, -⟩, -⟩
    have isMember := (mem_subtree sound.tree listedToo).mpr (descends.above sound.tree)
    exact isWithin_eq_true.mpr ⟨target, targetHeld, isMember⟩
  constructor
  · rw [linksAt_of_rewired sound joined within held rewired here, ← sites]
    exact (linksAt_eq_filter alike.leftSound listed member).symm
  · have known := bindingsAt_eq_filter alike.leftSound listed member
    rcases stands with ⟨first, firstHeld, descends, -⟩
    rcases standsToo with ⟨_, again, descendsToo, -⟩
    obtain rfl := Option.some.inj (held.symm.trans again)
    -- The roots are mates of each other, and their sockets contribute no spaces.
    have owners : first.owner = id ↔ socket.owner = root := by
      rcases alike.roots.path with ⟨path, top, topToo⟩
      constructor
      · rintro rfl
        have same := descends.path_unique alike.leftSound.tree top
        exact descendsToo.id_unique sound.tree (same ▸ topToo)
      · rintro rfl
        have same := descendsToo.path_unique sound.tree topToo
        exact descends.id_unique alike.leftSound.tree (same ▸ top)
    by_cases below : socket.owner = root
    · rw [bindingsAt_eq held, if_pos below, bindingsAt_eq firstHeld, if_pos (owners.mpr below)]
    · have split := bindingsAt_of_rewired sound entered held rewired here below
      rw [← sites] at split
      have both (incoming : Bool) : ((source.portsOf members).flatMap (source.bindingsAt id)).filter
          (fun binding => binding.socket = source.siteOf id s ∧ binding.incoming = incoming) =
            (source.bindingsAt id s).filter fun binding => binding.incoming = incoming := by
        rw [← known, List.filter_filter]
        refine List.filter_congr fun binding _ => ?_
        rw [Bool.decide_and, Bool.and_comm]
      rw [split, both, both, bindingsAt_eq firstHeld, if_neg (mt owners.mp below)]
      exact (boundAt_split _ first).symm

variable {source base made final : Graph} {id root : ComponentId} {plan : ComponentPlan} {config : ComponentConfig}
  {members : List ComponentId} {links : List (SocketPath × SocketPath)} {ids : List (SocketId × SocketId)}
  {bindings : List SpaceBinding} {entries : List LinkEntry}

/-- Restoring does not move sockets. -/
theorem stands_made {a : SocketId} {place : SocketPath}
    (stands : ((made.linkAll ids).bindAll entries).Stands root a place) : made.Stands root a place := by
  rcases stands with ⟨socket, held, descends, named⟩
  rw [socket?_bindAll, socket?_linkAll] at held
  cases known : made.socket? a with
  | none => simp [known] at held
  | some old =>
      rw [known] at held
      obtain rfl := Option.some.inj held
      refine ⟨old, known, descends.mono fun other node found => ⟨node, ?_, fun _ member => member⟩, named⟩
      rwa [component?_bindAll, component?_linkAll] at found

/-- No space of a blueprint is bound to its root. -/
theorem not_root_of_mem_bindings (sound : Sound source) (listed : source.subtree id = .ok members)
    {binding : SpaceBinding} (member : binding ∈ (source.portsOf members).flatMap (source.bindingsAt id)) :
    binding.socket.path ≠ [] := by
  rcases List.mem_flatMap.mp member with ⟨s, port, bound⟩
  have place := place_of_mem_bindingsAt bound
  rcases stands_of_mem_portsOf sound listed port with ⟨socket, held, descends, -⟩
  rw [bindingsAt_eq held] at bound
  intro top
  rw [← place, top] at descends
  rw [if_pos descends.eq_root] at bound
  cases bound

/-- What is restored below a bare component is in order. -/
theorem order_of_rewired (sound : Sound final) (joined : List.Forall₂ (final.Joins root) links ids)
    (entered : List.Forall₂ (final.Enters root) bindings entries) (below : ∀ binding ∈ bindings, binding.socket.path ≠ [])
    (wired : ∀ a socket, final.socket? a = some socket → final.Above root socket.owner → Rewired ids entries a socket) :
    final.Enclosed root ∧ final.Phased root ∧ final.Unfed root := by
  refine ⟨?_, fun a socket held above => (wired a socket held above).order, ?_⟩
  · intro a socket held above target linked other otherHeld
    rw [(wired a socket held above).targets] at linked
    rcases List.mem_map.mp linked with ⟨pair, pairMember, rfl⟩
    rcases forall₂_of_mem_right joined (List.mem_of_mem_filter pairMember) with ⟨link, -, -, stands, -⟩
    rcases stands with ⟨_, again, descends, -⟩
    obtain rfl := Option.some.inj (otherHeld.symm.trans again)
    exact descends.above sound.tree
  · rintro a socket held rfl
    rcases sound.sockets.owner a socket held with ⟨node, found⟩
    have descends : final.Descends socket.owner [] socket.owner := .here node found
    have stands : final.Stands socket.owner a ⟨[], socket.name⟩ := ⟨socket, held, descends, rfl⟩
    have site := stands.siteOf sound.tree
    have spaces := spaces_of_enters sound entered (site.symm ▸ stands) true
    have none : bindings.filter (fun binding => binding.socket = final.siteOf socket.owner a ∧ binding.incoming = true) =
        [] := by
      refine List.filter_eq_nil_iff.mpr fun binding member same => below binding member ?_
      rw [(of_decide_eq_true same).1, site]
    rw [none] at spaces
    rw [(wired a socket held (descends.above sound.tree)).fed]
    exact List.map_eq_nil_iff.mp spaces

/-- The links and spaces of a blueprint can be restored below a component made from its plan, and then have the
same blueprint again. -/
theorem restore_ok (sound : Sound source) (planned : source.Planned id plan)
    (listed : source.subtree id = .ok members) (begun : Sound base)
    (raised : Raised base made root (plan.withConfig config)) :
    ∃ final, (do
        ((source.portsOf members).flatMap (source.linksAt id members)).forM (restoreLink root)
        ((source.portsOf members).flatMap (source.bindingsAt id)).forM (restoreBinding root)
        return root : GraphM ComponentId).run made = (.ok root, final) ∧
      Sound final ∧ Extends base final ∧ (∀ other, final.component? other = made.component? other) ∧
      final.blueprint root = .ok {
        root := plan.withConfig config
        links := (source.portsOf members).flatMap (source.linksAt id members)
        bindings := (source.portsOf members).flatMap (source.bindingsAt id) } ∧
      final.Enclosed root ∧ final.Phased root ∧ final.Unfed root := by
  have alike : Alike source made id root := ⟨sound, raised.sound, plan, config, planned, raised.planned⟩
  rcases raised.top with ⟨node, found, -⟩
  rcases subtree_succeeds raised.sound.tree found with ⟨madeMembers, madeListed⟩
  rcases exists_forall₂ fun link => alike.joins listed madeListed with ⟨ids, joined⟩
  rcases exists_forall₂ fun binding => alike.enters listed madeListed with ⟨entries, entered⟩
  rcases run_restoreLinks raised.sound found joined with ⟨ranLinks, soundLinked⟩
  have enteredLinked := entered.imp fun _ _ enters =>
    enters.carry (carries_linkAll made ids) (component?_linkAll made ids)
  have foundLinked : (made.linkAll ids).component? root = some node := by
    rw [component?_linkAll, found]
  rcases run_restoreBindings soundLinked foundLinked enteredLinked with ⟨ranBindings, soundFinal⟩
  let final := (made.linkAll ids).bindAll entries
  have same : ∀ other, final.component? other = made.component? other := by
    intro other
    rw [component?_bindAll, component?_linkAll]
  have carries : Carries made final := (carries_linkAll made ids).trans (carries_bindAll _ entries)
  have plannedFinal := carries.planned_of_components same raised.planned
  have joinedFinal := joined.imp fun _ _ joins => joins.carry carries same
  have enteredFinal := entered.imp fun _ _ enters => enters.carry carries same
  have alikeFinal : Alike source final id root := ⟨sound, soundFinal, plan, config, planned, plannedFinal⟩
  rcases blueprint_ok soundFinal ((same root).trans found) with
    ⟨shown, finalMembers, shownPlanned, finalListed, answered⟩
  obtain rfl := shownPlanned.unique plannedFinal
  have wired : ∀ a socket, final.socket? a = some socket → final.Above root socket.owner →
      Rewired ids entries a socket := by
    intro a socket held above
    rcases raised.bare_of_stands begun (stands_made (soundFinal.stands held above)) with ⟨-, old, oldHeld, bare⟩
    rcases rewired ids enteredFinal oldHeld bare with ⟨_, again, -, entriesKnown⟩
    obtain rfl := Option.some.inj (held.symm.trans again)
    exact entriesKnown
  have contributions : List.Forall₂ (fun s a => source.linksAt id members s = final.linksAt root finalMembers a ∧
      source.bindingsAt id s = final.bindingsAt root a) (source.portsOf members) (final.portsOf finalMembers) := by
    have ports := (List.forall₂_and_left _ _).mpr ⟨fun _ member => member, alikeFinal.ports listed finalListed⟩
    refine ports.imp fun s a related => ?_
    rcases related with ⟨member, mates⟩
    rcases mates.place with ⟨place, -, socket, held, descends, -⟩
    exact contributions_restored alikeFinal listed finalListed joinedFinal enteredFinal member mates held
      (wired a socket held (descends.above soundFinal.tree))
  refine ⟨final, ?_, soundFinal, raised.extends_restored begun joined entered, same, ?_,
    order_of_rewired soundFinal joinedFinal enteredFinal (fun _ => not_root_of_mem_bindings sound listed) wired⟩
  · rw [run_bind_ok ranLinks, run_bind_ok ranBindings]
    rfl
  · rw [answered, flatMap_congr_forall₂ (contributions.imp fun _ _ agree => agree.1),
      flatMap_congr_forall₂ (contributions.imp fun _ _ agree => agree.2)]

end Whole

end Graph

end Wiring
