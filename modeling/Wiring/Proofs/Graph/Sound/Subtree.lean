import Wiring.Proofs.Graph.Sound.Tree

/-!
Contract: what the traversal of a subtree visits.

Owns: `Visits`, the traversal without its fuel; that `subtree` succeeds on every component of a graph whose
components form trees; that it visits the component and its descendants, each once and after its parent; and
that it is closed under children.
-/

namespace Wiring.Graph

variable {graph : Graph}

/-- The first component is the second one or above it. -/
def Above (graph : Graph) (upper lower : ComponentId) : Prop :=
  ∃ chain, graph.Ancestry lower chain ∧ upper ∈ chain

/-- None of the components in the list is above another one. -/
def Apart (graph : Graph) (ids : List ComponentId) : Prop :=
  ids.Pairwise fun first second => ¬graph.Above first second ∧ ¬graph.Above second first

namespace Above

theorem refl {id : ComponentId} {chain : List ComponentId} (ancestry : graph.Ancestry id chain) :
    graph.Above id id := by
  rcases ancestry.head with ⟨rest, rfl⟩
  exact ⟨_, ancestry, List.mem_cons_self⟩

theorem trans {first second third : ComponentId} (upper : graph.Above first second)
    (lower : graph.Above second third) : graph.Above first third := by
  rcases upper with ⟨chain, ancestry, member⟩
  rcases lower with ⟨longer, longerAncestry, longerMember⟩
  rcases longerAncestry.of_mem longerMember with ⟨below, rest, rfl, again⟩
  rw [again.unique ancestry] at longerAncestry
  exact ⟨_, longerAncestry, List.mem_append_right below member⟩

/-- What is above a child is the child itself or above its parent. -/
theorem of_parent {upper id parent : ComponentId} {node : Component} (above : graph.Above upper id)
    (found : graph.component? id = some node) (under : node.parent = some parent) :
    upper = id ∨ graph.Above upper parent := by
  rcases above with ⟨chain, ancestry, member⟩
  cases ancestry with
  | root _ other otherFound top =>
      obtain rfl := Option.some.inj (found.symm.trans otherFound)
      rw [top] at under
      contradiction
  | child _ otherParent other rest otherFound otherUnder higher =>
      obtain rfl := Option.some.inj (found.symm.trans otherFound)
      obtain rfl := Option.some.inj (under.symm.trans otherUnder)
      rcases List.mem_cons.mp member with rfl | later
      · exact .inl rfl
      · exact .inr ⟨rest, higher, later⟩

/-- Nothing is above its own parent. -/
theorem not_parent {id parent : ComponentId} {node : Component} (found : graph.component? id = some node)
    (under : node.parent = some parent) : ¬graph.Above id parent := by
  rintro ⟨chain, ancestry, member⟩
  have whole : graph.Ancestry id (id :: chain) := .child id parent node chain found under ancestry
  exact (List.nodup_cons.mp whole.nodup).1 member

end Above

namespace TreeSound

theorem child_found (sound : TreeSound graph) {id child : ComponentId} {node : Component}
    (found : graph.component? id = some node) (member : child ∈ Keyed.values node.children) :
    ∃ below, graph.component? child = some below ∧ below.parent = some id := by
  rcases List.mem_map.mp member with ⟨entry, entryMember, rfl⟩
  rcases sound.child id node found entry entryMember with ⟨below, belowFound, under, -⟩
  exact ⟨below, belowFound, under⟩

/-- The children of a component differ from each other, since their names do. -/
theorem values_nodup (sound : TreeSound graph) {id : ComponentId} {node : Component}
    (found : graph.component? id = some node) : (Keyed.values node.children).Nodup := by
  have distinct : (node.children.map Prod.fst).Nodup := sound.distinct id node found
  have named : ∀ entry ∈ node.children, ∃ below, graph.component? entry.2 = some below ∧
      below.name = entry.1 := by
    intro entry member
    rcases sound.child id node found entry member with ⟨below, belowFound, -, name⟩
    exact ⟨below, belowFound, name⟩
  unfold Keyed.values
  rw [List.nodup_iff_pairwise_ne, List.pairwise_map] at distinct ⊢
  refine distinct.imp_of_mem fun {first second} firstMember secondMember differ same => differ ?_
  rcases named first firstMember with ⟨left, leftFound, leftName⟩
  rcases named second secondMember with ⟨right, rightFound, rightName⟩
  rw [same] at leftFound
  rw [← leftName, ← rightName, Option.some.inj (leftFound.symm.trans rightFound)]

theorem above_child (sound : TreeSound graph) {id child : ComponentId} {node : Component}
    (found : graph.component? id = some node) (member : child ∈ Keyed.values node.children) :
    graph.Above id child := by
  rcases sound.child_found found member with ⟨below, belowFound, under⟩
  rcases sound.rooted id node found with ⟨chain, ancestry⟩
  rcases ancestry.head with ⟨rest, rfl⟩
  exact ⟨_, .child child id below _ belowFound under ancestry, by simp⟩

/-- A component in a list that is apart may give way to its children. -/
theorem apart_children (sound : TreeSound graph) {id : ComponentId} {waiting : List ComponentId}
    {node : Component} (found : graph.component? id = some node) (apart : graph.Apart (id :: waiting)) :
    graph.Apart (waiting ++ Keyed.values node.children) := by
  rcases List.pairwise_cons.mp apart with ⟨others, rest⟩
  refine List.pairwise_append.mpr ⟨rest, ?_, ?_⟩
  · refine (List.nodup_iff_pairwise_ne.mp (sound.values_nodup found)).imp_of_mem ?_
    intro first second firstMember secondMember differ
    rcases sound.child_found found firstMember with ⟨left, leftFound, leftUnder⟩
    rcases sound.child_found found secondMember with ⟨right, rightFound, rightUnder⟩
    constructor
    · intro above
      rcases above.of_parent rightFound rightUnder with same | higher
      · exact differ same
      · exact Above.not_parent leftFound leftUnder higher
    · intro above
      rcases above.of_parent leftFound leftUnder with same | higher
      · exact differ same.symm
      · exact Above.not_parent rightFound rightUnder higher
  · intro other otherMember child childMember
    rcases sound.child_found found childMember with ⟨below, belowFound, under⟩
    have idAbove := sound.above_child found childMember
    constructor
    · intro above
      rcases above.of_parent belowFound under with same | higher
      · exact (others other otherMember).1 (same ▸ idAbove)
      · exact (others other otherMember).2 higher
    · intro above
      exact (others other otherMember).1 (idAbove.trans above)

end TreeSound

/-! ### The traversal -/

/-- What a traversal visits after what waits: a visited component gives way to its children, which wait at the end. -/
inductive Visits (graph : Graph) : List ComponentId → List ComponentId → Prop where
  | done : Visits graph [] []
  | visit {first : ComponentId} {rest others : List ComponentId} {node : Component}
      (found : graph.component? first = some node)
      (later : Visits graph (rest ++ Keyed.values node.children) others) :
      Visits graph (first :: rest) (first :: others)

/-- Fuel decides only whether the traversal comes to its end. -/
theorem descend_eq_ok {fuel : Nat} {waiting visited : List ComponentId} :
    graph.descend fuel waiting = .ok visited ↔ graph.Visits waiting visited ∧ visited.length ≤ fuel := by
  constructor
  · intro descended
    induction fuel generalizing waiting visited with
    | zero =>
        cases waiting with
        | nil =>
            obtain rfl := Except.ok.inj descended
            exact ⟨.done, Nat.le_refl 0⟩
        | cons first rest => cases descended
    | succ fuel inductionHypothesis =>
        cases waiting with
        | nil =>
            obtain rfl := Except.ok.inj descended
            exact ⟨.done, Nat.zero_le _⟩
        | cons first rest =>
            rcases except_bind_eq_ok.mp descended with ⟨node, held, descended⟩
            rcases except_map_eq_ok.mp descended with ⟨others, othersDescended, rfl⟩
            rcases inductionHypothesis othersDescended with ⟨later, bounded⟩
            exact ⟨.visit (heldComponent_eq_ok.mp held) later, Nat.succ_le_succ bounded⟩
  · rintro ⟨visits, bounded⟩
    induction visits generalizing fuel with
    | done => cases fuel <;> rfl
    | visit found later inductionHypothesis =>
        obtain ⟨fuel, rfl⟩ := Nat.exists_eq_add_of_le' bounded
        have descended := @inductionHypothesis (fuel + _) (Nat.le_add_left _ fuel)
        exact except_bind_eq_ok.mpr ⟨_, heldComponent_eq_ok.mpr found, except_map_eq_ok.mpr ⟨_, descended, rfl⟩⟩

namespace Visits

variable {waiting visited : List ComponentId}

theorem unique {again : List ComponentId} (visits : graph.Visits waiting visited) (other : graph.Visits waiting again) :
    visited = again := by
  induction visits generalizing again with
  | done =>
      cases other
      rfl
  | visit found later inductionHypothesis =>
      cases other with
      | visit foundAgain laterAgain =>
          obtain rfl := Option.some.inj (found.symm.trans foundAgain)
          rw [inductionHypothesis laterAgain]

/-- A traversal goes the same way in a graph that has the components with their children under other identifiers. -/
theorem map {later : Graph} (rename : ComponentId → ComponentId)
    (children : ∀ id node, graph.component? id = some node → ∃ new, later.component? (rename id) = some new ∧
      Keyed.values new.children = (Keyed.values node.children).map rename)
    (visits : graph.Visits waiting visited) : later.Visits (waiting.map rename) (visited.map rename) := by
  induction visits with
  | done => exact .done
  | @visit first rest others node found below inductionHypothesis =>
      rcases children first node found with ⟨new, newFound, same⟩
      rw [List.map_append, ← same] at inductionHypothesis
      exact .visit newFound inductionHypothesis

theorem of_children {later : Graph}
    (children : ∀ id node, graph.component? id = some node → ∃ new, later.component? id = some new ∧
      new.children = node.children) (visits : graph.Visits waiting visited) : later.Visits waiting visited := by
  have same : later.Visits (waiting.map id) (visited.map id) := visits.map id fun id node found => by
    rcases children id node found with ⟨new, newFound, same⟩
    exact ⟨new, newFound, by rw [same, List.map_id]⟩
  rwa [List.map_id, List.map_id] at same

/-- Everything visited exists and is below something that waited. -/
theorem exists_above (sound : TreeSound graph) (visits : graph.Visits waiting visited) {id : ComponentId}
    (member : id ∈ visited) : ∃ node, graph.component? id = some node ∧ ∃ upper ∈ waiting, graph.Above upper id := by
  induction visits with
  | done => cases member
  | @visit first rest others node found later inductionHypothesis =>
      rcases sound.rooted first node found with ⟨chain, ancestry⟩
      rcases List.mem_cons.mp member with rfl | later
      · exact ⟨node, found, _, List.mem_cons_self, .refl ancestry⟩
      · rcases inductionHypothesis later with ⟨below, belowFound, upper, upperMember, above⟩
        refine ⟨below, belowFound, ?_⟩
        rcases List.mem_append.mp upperMember with known | child
        · exact ⟨upper, List.mem_cons_of_mem first known, above⟩
        · exact ⟨first, List.mem_cons_self, (sound.above_child found child).trans above⟩

/-- Nothing is visited twice. -/
theorem nodup (sound : TreeSound graph) (visits : graph.Visits waiting visited) (apart : graph.Apart waiting) :
    visited.Nodup := by
  induction visits with
  | done => exact List.nodup_nil
  | visit found later inductionHypothesis =>
      refine List.nodup_cons.mpr ⟨fun again => ?_, inductionHypothesis (sound.apart_children found apart)⟩
      rcases later.exists_above sound again with ⟨_, -, upper, upperMember, above⟩
      rcases List.mem_append.mp upperMember with known | child
      · exact ((List.pairwise_cons.mp apart).1 upper known).2 above
      · rcases sound.child_found found child with ⟨childNode, childFound, under⟩
        exact Above.not_parent childFound under above

/-- What waits is visited, and so are the children of everything visited. -/
theorem closed (visits : graph.Visits waiting visited) :
    waiting ⊆ visited ∧ ∀ id ∈ visited, ∀ node, graph.component? id = some node →
      Keyed.values node.children ⊆ visited := by
  induction visits with
  | done => simp
  | @visit first rest others node found later inductionHypothesis =>
      rcases inductionHypothesis with ⟨waited, closed⟩
      constructor
      · intro id member
        rcases List.mem_cons.mp member with rfl | later
        · exact List.mem_cons_self
        · exact List.mem_cons_of_mem first (waited (List.mem_append_left _ later))
      · intro id member other otherFound child childMember
        refine List.mem_cons_of_mem first ?_
        rcases List.mem_cons.mp member with rfl | later
        · obtain rfl := Option.some.inj (found.symm.trans otherFound)
          exact waited (List.mem_append_right _ childMember)
        · exact closed id later other otherFound childMember

/-- Whatever did not wait is visited after its parent. -/
theorem ordered (sound : TreeSound graph) (visits : graph.Visits waiting visited) {id parent : ComponentId}
    {below : Component} (member : id ∈ visited) (found : graph.component? id = some below)
    (under : below.parent = some parent) (new : id ∉ waiting) : [parent, id].Sublist visited := by
  -- What does not wait now comes to wait when its parent is visited, and is visited later.
  induction visits with
  | done => cases member
  | @visit first rest others node firstFound _ inductionHypothesis =>
      rw [List.mem_cons, not_or] at new
      have later : id ∈ others := (List.mem_cons.mp member).resolve_left new.1
      by_cases child : id ∈ Keyed.values node.children
      · rcases sound.child_found firstFound child with ⟨other, otherFound, otherUnder⟩
        obtain rfl := Option.some.inj (found.symm.trans otherFound)
        obtain rfl := Option.some.inj (under.symm.trans otherUnder)
        exact (List.singleton_sublist.mpr later).cons_cons _
      · have elsewhere : id ∉ rest ++ Keyed.values node.children := by
          rw [List.mem_append, not_or]
          exact ⟨new.2, child⟩
        exact (inductionHypothesis later elsewhere).cons _

end Visits

/-- With fuel for every component that has not been visited the traversal succeeds. -/
theorem descend_succeeds (sound : TreeSound graph) {fuel : Nat} {waiting visited : List ComponentId}
    (exist : ∀ id ∈ waiting, ∃ node, graph.component? id = some node) (apart : graph.Apart waiting)
    (known : ∀ id ∈ visited, ∃ node, graph.component? id = some node) (once : visited.Nodup)
    (ahead : ∀ id ∈ visited, ∀ upper ∈ waiting, ¬graph.Above upper id)
    (enough : graph.components.size ≤ fuel + visited.length) :
    ∃ more, graph.descend fuel waiting = .ok more := by
  induction fuel generalizing waiting visited with
  | zero =>
      cases waiting with
      | nil => exact ⟨[], rfl⟩
      | cons first rest =>
          rcases exist first List.mem_cons_self with ⟨node, found⟩
          rcases sound.rooted first node found with ⟨chain, ancestry⟩
          have new : first ∉ visited := fun member => ahead first member first List.mem_cons_self (.refl ancestry)
          have bounded := Ancestry.length_le_of_nodup (List.nodup_cons.mpr ⟨new, once⟩)
            (List.forall_mem_cons.mpr ⟨⟨node, found⟩, known⟩)
          rw [List.length_cons] at bounded
          omega
  | succ fuel inductionHypothesis =>
      cases waiting with
      | nil => exact ⟨[], rfl⟩
      | cons first rest =>
          rcases exist first List.mem_cons_self with ⟨node, found⟩
          rcases sound.rooted first node found with ⟨chain, ancestry⟩
          have new : first ∉ visited := fun member => ahead first member first List.mem_cons_self (.refl ancestry)
          have next : ∃ more, graph.descend fuel (rest ++ Keyed.values node.children) = .ok more := by
            refine @inductionHypothesis _ (first :: visited) ?_ (sound.apart_children found apart)
              (List.forall_mem_cons.mpr ⟨⟨node, found⟩, known⟩) (List.nodup_cons.mpr ⟨new, once⟩) ?_ ?_
            · intro id member
              rcases List.mem_append.mp member with later | child
              · exact exist id (List.mem_cons_of_mem first later)
              · rcases sound.child_found found child with ⟨childNode, childFound, -⟩
                exact ⟨childNode, childFound⟩
            · intro id member upper upperMember above
              rcases List.mem_append.mp upperMember with later | child
              · rcases List.mem_cons.mp member with rfl | old
                · exact ((List.pairwise_cons.mp apart).1 upper later).2 above
                · exact ahead id old upper (List.mem_cons_of_mem first later) above
              · rcases sound.child_found found child with ⟨childNode, childFound, under⟩
                rcases List.mem_cons.mp member with rfl | old
                · exact Above.not_parent childFound under above
                · exact ahead id old first List.mem_cons_self ((sound.above_child found child).trans above)
            · rw [List.length_cons]
              omega
          rcases next with ⟨more, descended⟩
          refine ⟨first :: more, except_bind_eq_ok.mpr ⟨node, heldComponent_eq_ok.mpr found, ?_⟩⟩
          exact except_map_eq_ok.mpr ⟨more, descended, rfl⟩

/-! ### The subtree -/

theorem apart_singleton (id : ComponentId) : graph.Apart [id] :=
  List.pairwise_singleton _ id

/-- The subtree of a component can be listed. -/
theorem subtree_succeeds (sound : TreeSound graph) {id : ComponentId} {node : Component}
    (found : graph.component? id = some node) : ∃ members, graph.subtree id = .ok members := by
  have exist : ∀ member ∈ [id], ∃ node, graph.component? member = some node := by
    intro member isMember
    rw [List.mem_singleton.mp isMember]
    exact ⟨node, found⟩
  rcases @descend_succeeds _ sound graph.components.size [id] [] exist (apart_singleton id)
    (by simp) List.nodup_nil (by simp) (by simp) with ⟨members, descended⟩
  exact ⟨members, except_bind_eq_ok.mpr ⟨node, component_eq_ok.mpr found, descended⟩⟩

theorem subtree_visits {id : ComponentId} {members : List ComponentId} (listed : graph.subtree id = .ok members) :
    graph.Visits [id] members := by
  rcases except_bind_eq_ok.mp listed with ⟨_, -, descended⟩
  exact (descend_eq_ok.mp descended).1

theorem subtree_nodup (sound : TreeSound graph) {id : ComponentId} {members : List ComponentId}
    (listed : graph.subtree id = .ok members) : members.Nodup :=
  (subtree_visits listed).nodup sound (apart_singleton id)

/-- The members of a subtree are the component and everything below it. -/
theorem mem_subtree (sound : TreeSound graph) {id member : ComponentId} {members : List ComponentId}
    (listed : graph.subtree id = .ok members) :
    member ∈ members ↔ graph.Above id member := by
  have visits := subtree_visits listed
  constructor
  · intro isMember
    rcases visits.exists_above sound isMember with ⟨_, -, upper, upperMember, above⟩
    rwa [List.mem_singleton.mp upperMember] at above
  · rintro ⟨chain, ancestry, onChain⟩
    rcases visits.closed with ⟨waited, closed⟩
    induction ancestry with
    | root other node found top =>
        rw [← List.mem_singleton.mp onChain]
        exact waited List.mem_cons_self
    | child other parent node rest found under above inductionHypothesis =>
        rcases List.mem_cons.mp onChain with rfl | later
        · exact waited List.mem_cons_self
        · rcases sound.parent other node parent found under with ⟨higher, higherFound, entry⟩
          exact closed parent (inductionHypothesis later) higher higherFound (List.mem_map.mpr ⟨_, entry, rfl⟩)

/-- A member that is not the component itself comes after its parent. -/
theorem subtree_ordered (sound : TreeSound graph) {id member : ComponentId} {members : List ComponentId}
    (listed : graph.subtree id = .ok members) (isMember : member ∈ members) (differ : member ≠ id) :
    ∃ below parent, graph.component? member = some below ∧ below.parent = some parent ∧
      [parent, member].Sublist members := by
  rcases (mem_subtree sound listed).mp isMember with ⟨chain, ancestry, onChain⟩
  cases ancestry with
  | root => exact absurd (List.mem_singleton.mp onChain).symm differ
  | child _ parent below rest found under above =>
      refine ⟨below, parent, found, under, ?_⟩
      exact (subtree_visits listed).ordered sound isMember found under
        fun waiting => differ (List.mem_singleton.mp waiting)

theorem subtree_found (sound : TreeSound graph) {id member : ComponentId} {members : List ComponentId}
    (listed : graph.subtree id = .ok members) (isMember : member ∈ members) :
    ∃ node, graph.component? member = some node := by
  rcases (subtree_visits listed).exists_above sound isMember with ⟨node, found, -⟩
  exact ⟨node, found⟩

end Wiring.Graph
