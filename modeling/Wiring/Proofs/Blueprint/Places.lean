import Wiring.Proofs.Blueprint.Plans
import Wiring.Proofs.Keyed

/-!
Contract: where components and sockets are, seen from a component above them.

Owns: `Descends`, the path of names from a component down to another one, and `Stands`, the place of a socket;
that `relativePath` and `follow` read and follow such a path, and `socketAt` finds the socket of a place; and
that a place has one socket and a socket one place.
-/

namespace Wiring

namespace Graph

variable {graph : Graph}

/-! ### Components -/

/-- One step down. -/
theorem follow_cons (whole : List String) {id child : ComponentId} {node : Component} {name : String}
    (found : graph.component? id = some node) (entry : Keyed.get? node.children name = some child)
    (rest : List String) : graph.follow whole id (name :: rest) = graph.follow whole child rest := by
  rw [Graph.follow, heldComponent_eq_ok.mpr found]
  simp only [bind, Except.bind, entry]

theorem follow_append (whole : List String) {upper middle : ComponentId} {path : List String}
    (followed : graph.follow whole upper path = .ok middle) (more : List String) :
    graph.follow whole upper (path ++ more) = graph.follow whole middle more := by
  induction path generalizing upper with
  | nil =>
      obtain rfl := Except.ok.inj followed
      rfl
  | cons name rest inductionHypothesis =>
      rcases except_bind_eq_ok.mp followed with ⟨node, held, entered⟩
      have found := heldComponent_eq_ok.mp held
      cases known : Keyed.get? node.children name with
      | none =>
          rw [known] at entered
          cases entered
      | some child =>
          rw [follow_cons whole found known] at followed
          rw [List.cons_append, follow_cons whole found known]
          exact inductionHypothesis followed

/-- The names lead from the root down to the component. -/
inductive Descends (graph : Graph) (root : ComponentId) : List String → ComponentId → Prop where
  | here (node : Component) (found : graph.component? root = some node) : Descends graph root [] root
  | child (path : List String) (id : ComponentId) (node : Component) (name : String) (child : ComponentId)
      (above : Descends graph root path id) (found : graph.component? id = some node)
      (entry : (name, child) ∈ node.children) : Descends graph root (path ++ [name]) child

namespace Descends

variable {root : ComponentId}

/-- The empty path stays at the root. -/
theorem eq_root {id : ComponentId} (descends : graph.Descends root [] id) : id = root := by
  generalize empty : ([] : List String) = path at descends
  cases descends with
  | here => rfl
  | child => simp at empty

theorem above (sound : TreeSound graph) {path : List String} {id : ComponentId}
    (descends : graph.Descends root path id) : graph.Above root id := by
  induction descends with
  | here node found =>
      rcases sound.rooted root node found with ⟨chain, ancestry⟩
      exact .refl ancestry
  | child path id node name child _ found entry inductionHypothesis =>
      exact inductionHypothesis.trans (sound.above_child found (List.mem_map.mpr ⟨_, entry, rfl⟩))

theorem names (sound : TreeSound graph) {path : List String} {id : ComponentId}
    (descends : graph.Descends root path id) {chain : List ComponentId} (ancestry : graph.Ancestry id chain) :
    List.Forall₂ (fun id name => Component.name <$> graph.heldComponent id = .ok name)
      (chain.takeWhile fun id => id ≠ root).reverse path := by
  induction descends generalizing chain with
  | here node found =>
      rcases ancestry.head with ⟨rest, rfl⟩
      rw [List.takeWhile_cons_of_neg (by simp)]
      exact .nil
  | child path id node name child descends found entry inductionHypothesis =>
      rcases sound.child id node found _ entry with ⟨below, belowFound, under, named⟩
      rcases sound.rooted id node found with ⟨rest, above⟩
      obtain rfl := ancestry.unique (.child child id below rest belowFound under above)
      -- The root is further up the chain, in which nothing is repeated.
      have notRoot : child ≠ root := by
        rintro rfl
        exact Above.not_parent belowFound under (descends.above sound)
      rw [List.takeWhile_cons_of_pos (by simpa using notRoot), List.reverse_cons]
      refine List.rel_append (inductionHypothesis above) (.cons ?_ .nil)
      exact except_map_eq_ok.mpr ⟨below, heldComponent_eq_ok.mpr belowFound, named⟩

theorem relativePath (sound : TreeSound graph) {path : List String} {id : ComponentId}
    (descends : graph.Descends root path id) : graph.relativePath root id = .ok path := by
  rcases descends.above sound with ⟨chain, ancestry, -⟩
  exact except_bind_eq_ok.mpr ⟨chain, ancestry.lineage, mapM_eq_ok.mpr (descends.names sound ancestry)⟩

/-- A component has one path. -/
theorem path_unique (sound : TreeSound graph) {left right : List String} {id : ComponentId}
    (first : graph.Descends root left id) (second : graph.Descends root right id) : left = right :=
  Except.ok.inj ((first.relativePath sound).symm.trans (second.relativePath sound))

theorem follow (sound : TreeSound graph) (whole : List String) {path : List String} {id : ComponentId}
    (descends : graph.Descends root path id) : graph.follow whole root path = .ok id := by
  induction descends with
  | here node found => rfl
  | child path id node name child _ found entry inductionHypothesis =>
      rw [follow_append whole inductionHypothesis,
        follow_cons whole found (Keyed.get?_of_mem (sound.distinct id node found) entry)]
      rfl

/-- A path leads to one component. -/
theorem id_unique (sound : TreeSound graph) {path : List String} {left right : ComponentId}
    (first : graph.Descends root path left) (second : graph.Descends root path right) : left = right :=
  Except.ok.inj ((first.follow sound []).symm.trans (second.follow sound []))

theorem of_above (sound : TreeSound graph) {id : ComponentId} (above : graph.Above root id) :
    ∃ path, graph.Descends root path id := by
  rcases above with ⟨chain, ancestry, member⟩
  induction ancestry with
  | root id node found top =>
      obtain rfl := List.mem_singleton.mp member
      exact ⟨[], .here node found⟩
  | child id parent node chain found under higher inductionHypothesis =>
      rcases List.mem_cons.mp member with rfl | later
      · exact ⟨[], .here node found⟩
      · rcases inductionHypothesis later with ⟨path, descends⟩
        rcases sound.parent id node parent found under with ⟨upper, upperFound, entry⟩
        exact ⟨path ++ [node.name], .child path parent upper node.name id descends upperFound entry⟩

/-- Paths do not depend on anything but the children of components. -/
theorem mono {later : Graph} (kept : ∀ id node, graph.component? id = some node →
      ∃ new, later.component? id = some new ∧ node.children ⊆ new.children)
    {path : List String} {id : ComponentId} (descends : graph.Descends root path id) :
    later.Descends root path id := by
  induction descends with
  | here node found =>
      rcases kept root node found with ⟨new, newFound, -⟩
      exact .here new newFound
  | child path id node name child _ found entry inductionHypothesis =>
      rcases kept id node found with ⟨new, newFound, children⟩
      exact .child path id new name child inductionHypothesis newFound (children entry)

end Descends

/-! ### Sockets -/

theorem findNamed_of_mem {name : String} {ids : List SocketId} {id : SocketId} (member : id ∈ ids)
    (held : ∀ other ∈ ids, ∃ socket, graph.socket? other = some socket ∧ (socket.name = name ↔ other = id)) :
    graph.findNamed name ids = .ok (some id) := by
  induction ids with
  | nil => cases member
  | cons first rest inductionHypothesis =>
      rcases held first List.mem_cons_self with ⟨socket, socketHeld, named⟩
      refine except_bind_eq_ok.mpr ⟨socket, heldSocket_eq_ok.mpr socketHeld, ?_⟩
      by_cases same : first = id
      · rw [if_pos (named.mpr same), same]
        rfl
      · rw [if_neg (same ∘ named.mp)]
        refine inductionHypothesis ?_ fun other otherMember => held other (List.mem_cons_of_mem first otherMember)
        exact (List.mem_cons.mp member).resolve_left (Ne.symm same)

/-- A socket is found by its name. -/
theorem SocketsSound.socketNamed (sound : SocketsSound graph) {id : SocketId} {socket : Socket}
    (held : graph.socket? id = some socket) :
    graph.socketNamed? socket.owner socket.name none = .ok (some id) := by
  rcases sound.owner id socket held with ⟨node, found⟩
  refine except_bind_eq_ok.mpr ⟨node, component_eq_ok.mpr found, findNamed_of_mem ?_ fun other member => ?_⟩
  · have listed := (sound.mem_sockets found).mpr ⟨socket, held, rfl⟩
    unfold Component.sockets at listed
    simp only [searched, List.mem_append] at listed ⊢
    tauto
  · rcases (sound.mem_sockets found).mp (mem_searched member) with ⟨known, knownHeld, owned⟩
    refine ⟨known, knownHeld, fun named => sound.named other id known socket knownHeld held owned named, ?_⟩
    rintro rfl
    rw [Option.some.inj (knownHeld.symm.trans held)]

/-- The place of a socket, seen from a component above it. -/
def Stands (graph : Graph) (root : ComponentId) (id : SocketId) (place : SocketPath) : Prop :=
  ∃ socket, graph.socket? id = some socket ∧ graph.Descends root place.path socket.owner ∧
    socket.name = place.name

/-- The place of a socket, for sockets below the root. -/
def siteOf (graph : Graph) (root : ComponentId) (id : SocketId) : SocketPath :=
  match graph.socket? id with
  | some socket => ⟨(graph.relativePath root socket.owner).toOption.getD [], socket.name⟩
  | none => default

namespace Stands

variable {root : ComponentId}

theorem siteOf (sound : TreeSound graph) {id : SocketId} {place : SocketPath}
    (stands : graph.Stands root id place) : graph.siteOf root id = place := by
  rcases stands with ⟨socket, held, descends, named⟩
  unfold Graph.siteOf
  rw [held]
  show SocketPath.mk ((graph.relativePath root socket.owner).toOption.getD []) socket.name = place
  rw [descends.relativePath sound, named]
  rfl

theorem socketAt (sound : Sound graph) {id : SocketId} {place : SocketPath}
    (stands : graph.Stands root id place) : graph.socketAt root place = .ok id := by
  rcases stands with ⟨socket, held, descends, named⟩
  rcases sound.sockets.owner id socket held with ⟨node, found⟩
  refine except_bind_eq_ok.mpr ⟨socket.owner, descends.follow sound.tree place.path, ?_⟩
  refine except_bind_eq_ok.mpr ⟨node, component_eq_ok.mpr found, ?_⟩
  refine except_bind_eq_ok.mpr ⟨some id, ?_, rfl⟩
  rw [← named]
  exact sound.sockets.socketNamed held

/-- A place has one socket. -/
theorem id_unique (sound : Sound graph) {left right : SocketId} {place : SocketPath}
    (first : graph.Stands root left place) (second : graph.Stands root right place) : left = right :=
  Except.ok.inj ((first.socketAt sound).symm.trans (second.socketAt sound))

/-- A socket has one place. -/
theorem place_unique (sound : Sound graph) {id : SocketId} {left right : SocketPath}
    (first : graph.Stands root id left) (second : graph.Stands root id right) : left = right :=
  (first.siteOf sound.tree).symm.trans (second.siteOf sound.tree)

theorem mono {later : Graph} (carries : Carries graph later)
    (kept : ∀ id node, graph.component? id = some node →
      ∃ new, later.component? id = some new ∧ node.children ⊆ new.children)
    {id : SocketId} {place : SocketPath} (stands : graph.Stands root id place) : later.Stands root id place := by
  rcases stands with ⟨socket, held, descends, named⟩
  rcases carries.socket id socket held with ⟨new, newHeld, same⟩
  refine ⟨new, newHeld, ?_, (Socket.name_of_face same).trans named⟩
  rw [Socket.owner_of_face same]
  exact descends.mono kept

end Stands

/-- Every socket of a component below the root has a place. -/
theorem Sound.stands (sound : Sound graph) {root : ComponentId} {id : SocketId} {socket : Socket}
    (held : graph.socket? id = some socket) (above : graph.Above root socket.owner) :
    graph.Stands root id (graph.siteOf root id) := by
  rcases Descends.of_above sound.tree above with ⟨path, descends⟩
  have stands : graph.Stands root id ⟨path, socket.name⟩ := ⟨socket, held, descends, rfl⟩
  rwa [stands.siteOf sound.tree]

end Graph

end Wiring
