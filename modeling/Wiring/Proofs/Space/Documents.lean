import Wiring.Proofs.Json.Objects
import Wiring.Proofs.Space.Equality
import Wiring.Proofs.Space.Rearranging

/-!
Contract: spaces are read back from their documents.

Owns: `Box.writable`, what of a box its document can hold; that a rearranged space is the same space; that the fields
of a box, and then whole spaces, are read back from their documents with the keys in order, by induction over the
parts of a space; and that so a space is restored up to its bounds that are not finite.

Does not own: which other documents describe a space.
-/

namespace Wiring

/-- What is finite is a number. -/
theorem isNaN_of_isFinite {value : Float} (finite : value.isFinite = true) : value.isNaN = false := by
  change value.toModel.unpack.isFinite = true at finite
  change value.toModel.unpack.isNaN = false
  cases unpacked : value.toModel.unpack with
  | notANumber =>
      rw [unpacked] at finite
      cases finite
  | infinity sign => rfl
  | zero sign => rfl
  | finite sign mantissa exponent positive => rfl

namespace Box

/-- The box without the bounds that have no written form. -/
def writable (leaf : Box) : Box :=
  { leaf with low := leaf.low.filter Float.isFinite, high := leaf.high.filter Float.isFinite }

/-- Every bound has a written form. -/
structure Finite (leaf : Box) : Prop where
  low : ∀ bound ∈ leaf.low, bound.isFinite = true
  high : ∀ bound ∈ leaf.high, bound.isFinite = true

theorem Finite.writable_eq {leaf : Box} (finite : leaf.Finite) : leaf.writable = leaf := by
  have low : leaf.low.filter Float.isFinite = leaf.low := by
    cases held : leaf.low with
    | none => rfl
    | some bound => simp [finite.low bound held]
  have high : leaf.high.filter Float.isFinite = leaf.high := by
    cases held : leaf.high with
    | none => rfl
    | some bound => simp [finite.high bound held]
  rw [writable, low, high]

theorem finite_writable (leaf : Box) : leaf.writable.Finite where
  low _ held := (Option.mem_filter_iff.mp held).2
  high _ held := (Option.mem_filter_iff.mp held).2

theorem Finite.numeric {leaf : Box} (finite : leaf.Finite) : leaf.Numeric where
  low bound held := isNaN_of_isFinite (finite.low bound held)
  high bound held := isNaN_of_isFinite (finite.high bound held)

end Box

namespace Space

/-- Every bound of every box has a written form. -/
def Finite (space : Space) : Prop :=
  ∀ leaf, Within (.box leaf) space → leaf.Finite

theorem Finite.numeric {space : Space} (finite : space.Finite) : space.Numeric :=
  fun leaf within => (finite leaf within).numeric

/-! ### Changed boxes -/

section Changed

variable (change : Box → Box)

theorem mapEntries_eq (entries : List (String × Space)) :
    mapEntries change entries = Keyed.mapValues (fun _ => mapBoxes change) entries := by
  induction entries with
  | nil => rfl
  | cons first rest inductionHypothesis =>
      rw [mapEntries, inductionHypothesis]
      rfl

theorem mapParts_eq (parts : List Space) : mapParts change parts = parts.map (mapBoxes change) := by
  induction parts with
  | nil => rfl
  | cons first rest inductionHypothesis => rw [mapParts, List.map_cons, inductionHypothesis]

theorem keys_mapEntries (entries : List (String × Space)) :
    Keyed.keys (mapEntries change entries) = Keyed.keys entries := by
  simp [mapEntries_eq, Keyed.keys, Keyed.mapValues]

/-- The dicts inside keep their keys. -/
theorem distinct_mapBoxes {space : Space} (distinct : space.Distinct) : (space.mapBoxes change).Distinct := by
  induction space using induct with
  | step space inductionHypothesis =>
      have below (inner : Space) (isPart : Part inner space) : (inner.mapBoxes change).Distinct :=
        inductionHypothesis inner isPart (distinct.part isPart)
      intro entries within
      cases space with
      | box leaf => cases within_box.mp within
      | dict others =>
          rcases within_dict.mp within with same | ⟨entry, listed, deeper⟩
          · rw [Space.dict.inj same, Keyed.DistinctKeys, keys_mapEntries]
            exact distinct others .refl
          · rw [mapEntries_eq] at listed
            rcases List.mem_map.mp listed with ⟨other, otherListed, rfl⟩
            exact below other.2 (.entry other.1 other.2 others otherListed) entries deeper
      | tuple parts =>
          rcases within_tuple.mp within with same | ⟨part, listed, deeper⟩
          · cases same
          · rw [mapParts_eq] at listed
            rcases List.mem_map.mp listed with ⟨other, otherListed, rfl⟩
            exact below other (.part other parts otherListed) entries deeper

/-- The boxes inside are changed ones. -/
theorem exists_of_within_mapBoxes {space : Space} {leaf : Box} (within : Within (.box leaf) (space.mapBoxes change)) :
    ∃ old, change old = leaf := by
  induction space using induct with
  | step space inductionHypothesis =>
      cases space with
      | box old => exact ⟨old, (Space.box.inj (within_box.mp within)).symm⟩
      | dict entries =>
          rcases within_dict.mp within with same | ⟨entry, listed, deeper⟩
          · cases same
          · rw [mapEntries_eq] at listed
            rcases List.mem_map.mp listed with ⟨other, otherListed, rfl⟩
            exact inductionHypothesis other.2 (.entry other.1 other.2 entries otherListed) deeper
      | tuple parts =>
          rcases within_tuple.mp within with same | ⟨part, listed, deeper⟩
          · cases same
          · rw [mapParts_eq] at listed
            rcases List.mem_map.mp listed with ⟨other, otherListed, rfl⟩
            exact inductionHypothesis other (.part other parts otherListed) deeper

/-- A change that leaves every box alone leaves the space alone. -/
theorem mapBoxes_eq_self {space : Space} (still : ∀ leaf, Within (.box leaf) space → change leaf = leaf) :
    space.mapBoxes change = space := by
  induction space using induct with
  | step space inductionHypothesis =>
      have below (inner : Space) (isPart : Part inner space) : inner.mapBoxes change = inner :=
        inductionHypothesis inner isPart fun leaf within => still leaf (within.tail isPart)
      cases space with
      | box leaf => rw [mapBoxes, still leaf .refl]
      | dict entries =>
          rw [mapBoxes, mapEntries_eq, Keyed.mapValues]
          congr 1
          apply (List.map_congr_left _).trans (List.map_id entries)
          exact fun entry listed => Prod.ext rfl (below entry.2 (.entry entry.1 entry.2 entries listed))
      | tuple parts =>
          rw [mapBoxes, mapParts_eq]
          congr 1
          apply (List.map_congr_left _).trans (List.map_id parts)
          exact fun part listed => below part (.part part parts listed)

end Changed

theorem finite_writable (space : Space) : (space.mapBoxes Box.writable).Finite := by
  intro leaf within
  rcases exists_of_within_mapBoxes Box.writable within with ⟨old, rfl⟩
  exact old.finite_writable

/-! ### Rearranged spaces are the same -/

theorem sameParts_of_each {parts others : List Space} (length : parts.length = others.length)
    (each : ∀ (index : Nat) (inner other : Space), parts[index]? = some inner → others[index]? = some other →
      inner.same other = true) : sameParts parts others = true := by
  induction parts generalizing others with
  | nil =>
      rw [List.length_eq_zero_iff.mp length.symm]
      rfl
  | cons first rest inductionHypothesis =>
      cases others with
      | nil => cases length
      | cons other more =>
          have later := inductionHypothesis (Nat.succ.inj length) fun index => each (index + 1)
          simp [sameParts, each 0 first other rfl rfl, later]

/-- The comparison of spaces does not see the order of entries. -/
theorem same_of_rearranged {space other : Space} (rearranged : Rearranged space other) (distinct : space.Distinct)
    (numeric : space.Numeric) : space.same other = true := by
  induction rearranged with
  | refl space => exact same_self distinct numeric
  | dict entries others keys each inductionHypothesis =>
      have otherDistinct : Keyed.DistinctKeys others := keys.nodup_iff.mp (distinct entries .refl)
      have lengths : entries.length = others.length := by simpa [Keyed.keys] using keys.length_eq
      have found : sameEntries entries others = true := by
        apply sameEntries_eq_true
        intro entry listed
        rcases Keyed.exists_get? (keys.mem_iff.mp (List.mem_map_of_mem listed)) with ⟨inner, held⟩
        have isPart : Part entry.2 (.dict entries) := .entry entry.1 entry.2 entries listed
        exact ⟨inner, held, inductionHypothesis entry.1 entry.2 inner listed (Keyed.mem_of_get? held)
          (distinct.part isPart) (numeric.part isPart)⟩
      simp [same, lengths, found]
  | tuple parts others length each inductionHypothesis =>
      apply sameParts_of_each length
      intro index inner other held otherHeld
      have isPart : Part inner (.tuple parts) := .part inner parts (List.mem_of_getElem? held)
      exact inductionHypothesis index inner other held otherHeld (distinct.part isPart) (numeric.part isPart)

/-! ### Fields of boxes -/

theorem asOption_ofOption_ofNat (count : Option Nat) :
    Json.asOption? Json.asNat? (.ofOption .ofNat count) = some count := by
  cases count with
  | none => rfl
  | some count => simp [Json.ofOption, Json.ofNat, Json.asOption?, Json.asNat?]

theorem asOption_boundJson (bound : Option Float) :
    Json.asOption? Json.asFloat? (boundJson bound) = some (bound.filter Float.isFinite) := by
  cases bound with
  | none => rfl
  | some bound =>
      rw [boundJson]
      split
      next finite => simp [Json.ofFloat, Json.asOption?, Json.asFloat?, Json.Number.toFloat, Option.filter, finite]
      next infinite => simp [Json.asOption?, Option.filter, infinite]

theorem asListOf_ofNat (shape : List Nat) :
    Json.asListOf? Json.asNat? (.array (shape.map .ofNat)) = some shape := by
  rw [Json.asListOf?, option_mapM_eq_some, List.forall₂_map_left_iff, List.forall₂_same]
  intro length _
  simp [Json.ofNat, Json.asNat?]

theorem choice_elementName (element : ElementType) :
    Json.choice? true ElementType.choices (.string element.name) = some element := by
  cases element <;> rfl

theorem boxOfJson_of_fields {leaf : Box} {json : Json}
    (has : Json.fields? boxNames json = some ((boxFields leaf).map fun field => some field.2)) :
    boxOfJson? json = some leaf.writable := by
  rw [boxOfJson?, has]
  simp [boxFields, Json.fieldOr, choice_elementName, asListOf_ofNat, asOption_ofOption_ofNat, asOption_boundJson,
    Json.asBool?, Box.writable]

/-- The fields of a box hold no objects, so putting keys in order does not change them. -/
theorem sortKeys_boxField {leaf : Box} {field : String × Json} (listed : field ∈ boxFields leaf) :
    field.2.sortKeys = field.2 := by
  have bounds (bound : Option Float) : (boundJson bound).sortKeys = boundJson bound := by
    cases bound with
    | none => rfl
    | some bound =>
        rw [boundJson]
        split <;> rfl
  have counts (count : Option Nat) : (Json.ofOption .ofNat count).sortKeys = .ofOption .ofNat count := by
    cases count <;> rfl
  have lengths (shape : List Nat) : Json.sortItems (shape.map .ofNat) = shape.map .ofNat := by
    rw [Json.sortItems_eq, List.map_map]
    rfl
  simp only [boxFields, List.mem_cons, List.not_mem_nil, or_false] at listed
  rcases listed with rfl | rfl | rfl | rfl | rfl | rfl | rfl | rfl <;> simp [bounds, counts, lengths, Json.sortKeys]

theorem distinctKeys_boxFields (leaf : Box) :
    Keyed.DistinctKeys (("type", Json.string "box") :: boxFields leaf) := by
  have keys : Keyed.keys (("type", Json.string "box") :: boxFields leaf) = "type" :: boxNames := rfl
  rw [Keyed.DistinctKeys, keys]
  decide

/-- The fields of a box are found under their names. -/
theorem fields_of_remains {leaf : Box} {others : List (String × Json)}
    (remains : Json.Remains (boxFields leaf) others) :
    Json.fields? boxNames (.object others) = some ((boxFields leaf).map fun field => some field.2) := by
  have names : boxNames = (boxFields leaf).map Prod.fst := rfl
  rw [remains.fields (by decide), names, List.map_map]
  congr 1
  apply List.map_congr_left
  intro field listed
  rw [Function.comp_apply, Keyed.get?_of_mem (List.nodup_cons.mp (distinctKeys_boxFields leaf)).2 listed,
    Option.map_some, sortKeys_boxField listed]

/-! ### Documents of spaces -/

theorem entriesJson_eq (entries : List (String × Space)) :
    entriesJson entries = Keyed.mapValues (fun _ => toJson) entries := by
  induction entries with
  | nil => rfl
  | cons first rest inductionHypothesis =>
      rw [entriesJson, inductionHypothesis]
      rfl

theorem partsJson_eq (parts : List Space) : partsJson parts = parts.map toJson := by
  induction parts with
  | nil => rfl
  | cons first rest inductionHypothesis => rw [partsJson, List.map_cons, inductionHypothesis]

/-- The space is read back from the document with its keys in order, if there is fuel for its depth. -/
def ReadsBack (space : Space) : Prop :=
  ∀ fuel nested, space.toJson.sortKeys.depth < fuel →
    ∃ read, ofJson? fuel nested space.toJson.sortKeys = some read ∧ Rearranged (space.mapBoxes Box.writable) read

theorem readsBack_box (leaf : Box) : ReadsBack (.box leaf) := by
  intro fuel nested enough
  rcases Nat.exists_eq_add_one_of_ne_zero (Nat.ne_zero_of_lt enough) with ⟨fuel, rfl⟩
  rcases Json.tagged_sortKeys (distinctKeys_boxFields leaf) nested kinds rfl with ⟨others, tagged, remains⟩
  refine ⟨.box leaf.writable, ?_, .refl _⟩
  rw [ofJson?, toJson, tagged]
  simp [boxOfJson_of_fields (fields_of_remains remains)]

/-- A container has its parts under `spaces`, and they are nested less deep. -/
theorem tagged_container (kind : String) {index : Nat} (known : kinds.findIdx? (· = kind) = some index)
    (nested : Bool) (spaces : Json) :
    ∃ rest, Json.tagged? nested kinds (Json.sortKeys (.object [("type", .string kind), ("spaces", spaces)])) =
        some (index, rest) ∧
      Json.fields? ["spaces"] rest = some [some spaces.sortKeys] ∧
      spaces.sortKeys.depth < (Json.sortKeys (.object [("type", .string kind), ("spaces", spaces)])).depth := by
  have distinct : Keyed.DistinctKeys [("type", .string kind), ("spaces", spaces)] := by
    simp [Keyed.DistinctKeys, Keyed.keys]
  rcases Json.tagged_sortKeys distinct nested kinds known with ⟨others, tagged, remains⟩
  refine ⟨.object others, tagged, ?_, ?_⟩
  · rw [remains.fields (by decide)]
    rfl
  · have held := Json.get?_sortEntries distinct "spaces"
    exact Json.depth_lt_of_entry (Keyed.mem_of_get? held)

/-- The entries of a dict as they stand in its document. -/
def documents (entries : List (String × Space)) : List (String × Json) :=
  Json.sortEntries (entriesJson entries)

theorem documents_perm {entries : List (String × Space)} (distinct : Keyed.DistinctKeys entries) :
    (documents entries).Perm (Keyed.mapValues (fun _ space => space.toJson.sortKeys) entries) := by
  have keys : Keyed.keys (entriesJson entries) = Keyed.keys entries := by
    simp [entriesJson_eq, Keyed.keys, Keyed.mapValues]
  apply (Json.sortEntries_perm (show Keyed.DistinctKeys _ by rwa [Keyed.DistinctKeys, keys])).trans
  simp [entriesJson_eq, Keyed.mapValues, Function.comp_def]

/-- What the document of a dict is read as: under each key the space of its entry. -/
structure EntryReadsBack (entries : List (String × Space)) (document : String × Json) (read : String × Space) :
    Prop where
  key : document.1 = read.1
  entry : ∃ space, (document.1, space) ∈ entries ∧ Rearranged (space.mapBoxes Box.writable) read.2

theorem distinctKeys_documents {entries : List (String × Space)} (distinct : Keyed.DistinctKeys entries) :
    Keyed.DistinctKeys (documents entries) := by
  apply Keyed.DistinctKeys.perm _ (documents_perm distinct).symm
  simpa [Keyed.DistinctKeys, Keyed.keys, Keyed.mapValues, Function.comp_def] using distinct

theorem rearranged_of_entries {entries read : List (String × Space)} (distinct : Keyed.DistinctKeys entries)
    (each : List.Forall₂ (EntryReadsBack entries) (documents entries) read) :
    Rearranged (mapBoxes Box.writable (.dict entries)) (dictOf read) := by
  have keys := Keyed.keys_eq_of_forall₂ (each.imp fun _ _ back => back.key)
  have readDistinct : Keyed.DistinctKeys read := by
    rw [Keyed.DistinctKeys, ← keys]
    exact distinctKeys_documents distinct
  rw [dictOf, Keyed.ofList_of_distinctKeys readDistinct]
  refine .dict _ _ ?_ fun key inner other listed otherListed => ?_
  · rw [keys_mapEntries, ← keys]
    simpa [Keyed.keys, Keyed.mapValues, Function.comp_def] using ((documents_perm distinct).map Prod.fst).symm
  · rw [mapEntries_eq] at listed
    rcases List.mem_map.mp listed with ⟨entry, entryListed, same⟩
    obtain ⟨rfl, rfl⟩ := Prod.mk.inj same
    rcases forall₂_of_mem_right each otherListed with ⟨document, -, back⟩
    rcases back.entry with ⟨space, spaceListed, rearranged⟩
    have held := Keyed.get?_of_mem distinct spaceListed
    rw [back.key, Keyed.get?_of_mem distinct entryListed] at held
    rwa [Option.some.inj held]

theorem readsBack_dict {entries : List (String × Space)} (distinct : Keyed.DistinctKeys entries)
    (each : ∀ entry ∈ entries, ReadsBack entry.2) : ReadsBack (.dict entries) := by
  intro fuel nested enough
  rcases Nat.exists_eq_add_one_of_ne_zero (Nat.ne_zero_of_lt enough) with ⟨fuel, rfl⟩
  obtain ⟨rest, tagged, spaces, shallow⟩ := tagged_container "dict" rfl nested (.object (entriesJson entries))
  have backs : ∀ document ∈ documents entries, ∃ read,
      (ofJson? fuel true document.2).map (document.1, ·) = some read ∧ EntryReadsBack entries document read := by
    intro document listed
    rcases List.mem_map.mp ((documents_perm distinct).mem_iff.mp listed) with ⟨entry, entryListed, rfl⟩
    have deeper := Json.depth_lt_of_entry listed
    have fits : entry.2.toJson.sortKeys.depth < fuel := by
      simp only [toJson, Json.sortKeys, documents] at enough shallow deeper
      omega
    rcases each entry entryListed fuel true fits with ⟨read, isRead, rearranged⟩
    exact ⟨(entry.1, read), by simp [isRead], rfl, entry.2, entryListed, rearranged⟩
  rcases exists_forall₂ backs with ⟨read, all⟩
  refine ⟨dictOf read, ?_, rearranged_of_entries distinct (all.imp fun _ _ => And.right)⟩
  have entriesRead : (documents entries).mapM (fun entry => (ofJson? fuel true entry.2).map (entry.1, ·)) =
      some read :=
    option_mapM_eq_some.mpr (all.imp fun _ _ => And.left)
  rw [ofJson?, toJson, tagged]
  simp only [Option.bind_eq_bind, Option.bind_some, spaces, Json.sortKeys]
  simp [show Json.sortEntries (entriesJson entries) = documents entries from rfl, entriesRead]

theorem readsBack_tuple {parts : List Space} (each : ∀ part ∈ parts, ReadsBack part) :
    ReadsBack (.tuple parts) := by
  intro fuel nested enough
  rcases Nat.exists_eq_add_one_of_ne_zero (Nat.ne_zero_of_lt enough) with ⟨fuel, rfl⟩
  obtain ⟨rest, tagged, spaces, shallow⟩ := tagged_container "tuple" rfl nested (.array (partsJson parts))
  have items : (Json.array (partsJson parts)).sortKeys = .array (parts.map fun part => part.toJson.sortKeys) := by
    rw [Json.sortKeys, Json.sortItems_eq, partsJson_eq, List.map_map]
    rfl
  have backs : ∀ part ∈ parts, ∃ read,
      ofJson? fuel true part.toJson.sortKeys = some read ∧ Rearranged (part.mapBoxes Box.writable) read := by
    intro part listed
    apply each part listed
    have deeper := Json.depth_lt_of_item (List.mem_map_of_mem (f := fun part => part.toJson.sortKeys) listed)
    rw [items] at shallow
    rw [toJson] at enough
    omega
  rcases exists_forall₂ backs with ⟨read, all⟩
  refine ⟨.tuple read, ?_, ?_⟩
  · have itemsRead : (parts.map fun part => part.toJson.sortKeys).mapM (ofJson? fuel true) = some read :=
      option_mapM_eq_some.mpr (List.forall₂_map_left_iff.mpr (all.imp fun _ _ => And.left))
    rw [ofJson?, toJson, tagged]
    simp only [Option.bind_eq_bind, Option.bind_some, spaces, items]
    simp [itemsRead]
  · rw [mapBoxes, mapParts_eq]
    refine .tuple _ _ (by simp [all.length_eq]) fun index inner other held otherHeld => ?_
    rw [List.getElem?_map, Option.map_eq_some_iff] at held
    rcases held with ⟨part, partHeld, rfl⟩
    exact (forall₂_getElem? all partHeld otherHeld).2

/-- Every space is read back from its document. -/
theorem readsBack {space : Space} (distinct : space.Distinct) : ReadsBack space := by
  induction space using induct with
  | step space inductionHypothesis =>
      have below (inner : Space) (isPart : Part inner space) : ReadsBack inner :=
        inductionHypothesis inner isPart (distinct.part isPart)
      cases space with
      | box leaf => exact readsBack_box leaf
      | dict entries =>
          apply readsBack_dict (distinct entries .refl)
          exact fun entry listed => below entry.2 (.entry entry.1 entry.2 entries listed)
      | tuple parts => exact readsBack_tuple fun part listed => below part (.part part parts listed)

/-- A space is restored from its document: with the same keys, parts and fields, up to the order of the entries of
dicts, and with all bounds but those that are not finite, which become absent. -/
theorem ofSpec_toJson {space : Space} (distinct : space.Distinct) :
    ∃ read, ofSpec space.toJson = .ok read ∧ Rearranged (space.mapBoxes Box.writable) read ∧
      (space.mapBoxes Box.writable).same read = true ∧
      (space.Finite → Rearranged space read ∧ space.same read = true) := by
  rcases readsBack distinct _ false (Nat.lt_succ_self _) with ⟨read, isRead, rearranged⟩
  have described : ofSpec space.toJson = .ok read := by
    have document : ofDocument? space.toJson.sortKeys = some read := isRead
    cases space <;> simp only [toJson] at document ⊢ <;> simp [ofSpec, document]
  have equal := same_of_rearranged rearranged (distinct_mapBoxes Box.writable distinct)
    (finite_writable space).numeric
  refine ⟨read, described, rearranged, equal, fun finite => ?_⟩
  have unchanged := mapBoxes_eq_self Box.writable fun leaf within => (finite leaf within).writable_eq
  rw [unchanged] at rearranged equal
  exact ⟨rearranged, equal⟩

/-- Keys that stand for fields in documents, an empty dict, and a bound that is not finite. -/
def sampleUnbounded : Space :=
  dictOf
    [("type", .tuple [.box { shape := [2, 0], low := some (1.0 / 0.0), high := some 2.5 }, .dict []]),
      ("spaces", (intBox 3 []).withBatchRank), ("a/b", .box { element := .bool, timeRank := true, timeMajor := true })]

theorem distinct_sampleUnbounded : sampleUnbounded.Distinct := by
  apply distinct_dictOf
  simp only [List.forall_mem_cons, List.not_mem_nil, false_implies, implies_true, and_true]
  refine ⟨distinct_tuple ?_, distinct_box _, distinct_box _⟩
  simp only [List.forall_mem_cons, List.not_mem_nil, false_implies, implies_true, and_true]
  exact ⟨distinct_box _, @distinct_dictOf [] nofun⟩

theorem ofSpec_toJson_unbounded :
    sampleUnbounded.Distinct ∧ sampleUnbounded.same (sampleUnbounded.mapBoxes Box.writable) = false ∧
      (∃ read, ofSpec sampleUnbounded.toJson = .ok read ∧ (sampleUnbounded.mapBoxes Box.writable).same read = true) ∧
      (sampleUnbounded.mapBoxes Box.writable).Finite ∧
      ∃ read, ofSpec (sampleUnbounded.mapBoxes Box.writable).toJson = .ok read ∧
        (sampleUnbounded.mapBoxes Box.writable).same read = true := by
  have distinct := distinct_sampleUnbounded
  have finite := finite_writable sampleUnbounded
  rcases ofSpec_toJson distinct with ⟨read, described, -, equal, -⟩
  rcases ofSpec_toJson (distinct_mapBoxes Box.writable distinct) with ⟨again, describedAgain, -, -, restored⟩
  exact ⟨distinct, by decide +kernel, ⟨read, described, equal⟩, finite, again, describedAgain, (restored finite).2⟩

end Space

end Wiring
