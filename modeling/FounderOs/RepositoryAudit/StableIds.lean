import FounderOs.Foundation.Separated
import FounderOs.RepositoryAudit.Unresolved

namespace FounderOs.RepositoryAudit.Collectors

open Headquarters SortedSet

section collector

variable {Digest : Type} (rules : RelationshipRules Digest)

/-- The categories of `RepositoryStaticFactV1`. -/
def collectorCategories : List Str :=
  ["manifest", "entrypoint", "dependency", "interface", "deployment", "test_ci", "documentation",
    "migration"].map Str.of

/-- The fact types that the collectors append. -/
def collectorFactTypes : List Str :=
  ["rust_lockfile", "rust_manifest", "php_manifest", "php_lockfile", "go_manifest",
    "node_lockfile", "node_manifest", "python_lockfile", "java_manifest", "python_manifest",
    "python_requirements", "manifest", "manifest_entrypoint", "package_dependency",
    "source_entrypoint", "openapi_contract", "asyncapi_contract", "graphql_schema",
    "protobuf_schema", "http_route", "container_build", "terraform_definition", "helm_definition",
    "kubernetes_definition", "compose_definition", "process_definition", "deployment_definition",
    "ci_workflow", "test_source", "architecture_document", "documentation_file",
    "documentation_text", "migration_file", "database_object"].map Str.of

/-- `_stable_key` -/
def stableKey (material : Str) : Str :=
  let normalized := orElse (stripOf 45 (subRuns 45 false (rules.casefold material))) (Str.of "fact")
  orElse ((normalized.take 110).rdropWhile (· = 45)) (Str.of "fact") ++
    45 :: rules.shortDigest material

def factMaterial (category factType path value : Str) : Str :=
  category ++ 46 :: (factType ++ 46 :: (path ++ 46 :: value))

/-- `_safe_output_text`, over the normal form `NFC`. -/
def safeOutputText (nfc : Str → Str) (limit : Nat) (value : Str) : Option Str :=
  let text := Str.strip (nfc value)
  if text = [] ∨ limit < text.length ∨ text.any isControl then none else some text

/-- `_append_fact`, by the fact it appends. -/
def appendedFact (nfc : Str → Str) (maxTextChars : Nat) (category factType value path : Str)
    (evidenceRef : EvidenceRefV1) : Option StaticFact :=
  (safeOutputText nfc maxTextChars value).map fun safeValue =>
    { factId := stableKey rules (factMaterial category factType path safeValue)
      category, factType, value := safeValue, path, evidenceRef }

/-- The fact has the id of its own texts. -/
structure Appended (fact : StaticFact) : Prop where
  category : fact.category ∈ collectorCategories
  factType : fact.factType ∈ collectorFactTypes
  factId : fact.factId =
    stableKey rules (factMaterial fact.category fact.factType fact.path fact.value)

def identityOf (fact : StaticFact) : Str × Str × Str × Str :=
  (fact.category, fact.factType, fact.path, fact.value)

/-- The path of one fact goes on from that of another after a dot, and the other's value makes up
for it. -/
def Continues (fact other : StaticFact) : Prop :=
  ∃ rest, other.path = fact.path ++ 46 :: rest ∧ fact.value = rest ++ 46 :: other.value

variable {rules}

theorem appended_of_call {nfc : Str → Str} {limit : Nat} {category factType value path : Str}
    {evidenceRef : EvidenceRefV1} {fact : StaticFact} (hcategory : category ∈ collectorCategories)
    (htype : factType ∈ collectorFactTypes)
    (h : appendedFact rules nfc limit category factType value path evidenceRef = some fact) :
    Appended rules fact := by
  obtain ⟨safeValue, -, rfl⟩ := Option.map_eq_some_iff.1 h
  exact ⟨hcategory, htype, rfl⟩

theorem shortDigest_length (material : Str) : (rules.shortDigest material).length = 16 := by
  have hhex := rules.shortDigest_hex material
  rw [lowerHex, Bool.and_eq_true, beq_iff_eq] at hhex
  exact hhex.1

/-- Ids with one digest behind their stems have one digest. -/
theorem digest_of_stem {stem stem' : Str} {c : Nat} {material material' : Str}
    (h : stem ++ c :: rules.shortDigest material = stem' ++ c :: rules.shortDigest material') :
    rules.shortDigest material = rules.shortDigest material' := by
  have hlength : (c :: rules.shortDigest material).length =
      (c :: rules.shortDigest material').length := by
    rw [List.length_cons, List.length_cons, shortDigest_length, shortDigest_length]
  exact (List.cons.inj (List.append_inj_right' h hlength)).2

theorem no_dot_in_words : (∀ category ∈ collectorCategories, 46 ∉ category) ∧
    ∀ factType ∈ collectorFactTypes, 46 ∉ factType := by
  decide +kernel

variable {fact other : StaticFact}

/-- Two facts with one material have one category and one type, and either one path and one value or
paths of which one continues the other. -/
theorem factMaterial_eq_iff (hfact : Appended rules fact) (hother : Appended rules other) :
    factMaterial fact.category fact.factType fact.path fact.value =
        factMaterial other.category other.factType other.path other.value ↔
      fact.category = other.category ∧ fact.factType = other.factType ∧
        (fact.path = other.path ∧ fact.value = other.value ∨ Continues fact other ∨
          Continues other fact) := by
  unfold factMaterial Continues
  rw [Separated.append_cons_eq_of_not_mem (no_dot_in_words.1 _ hfact.category)
      (no_dot_in_words.1 _ hother.category),
    Separated.append_cons_eq_of_not_mem (no_dot_in_words.2 _ hfact.factType)
      (no_dot_in_words.2 _ hother.factType), Separated.append_cons_eq_iff]

variable {facts : List StaticFact}

def materialOf (fact : StaticFact) : Str :=
  factMaterial fact.category fact.factType fact.path fact.value

theorem materialOf_eq_iff (hfact : Appended rules fact) (hother : Appended rules other) :
    materialOf fact = materialOf other ↔ identityOf fact = identityOf other ∨
      fact.category = other.category ∧ fact.factType = other.factType ∧
        (Continues fact other ∨ Continues other fact) := by
  unfold materialOf identityOf
  rw [factMaterial_eq_iff hfact hother]
  simp only [Prod.mk.injEq]
  tauto

theorem Continues.path_ne (h : Continues fact other) : identityOf fact ≠ identityOf other := by
  obtain ⟨rest, hpath, -⟩ := h
  intro hsame
  simp only [identityOf, Prod.mk.injEq] at hsame
  have hlength := congrArg List.length (hsame.2.2.1.trans hpath)
  simp at hlength

/-- Facts that differ have ids that differ exactly if no path of one continues that of another. -/
theorem fact_ids_iff (hfacts : ∀ fact ∈ facts, Appended rules fact)
    (hdigest : ∀ fact ∈ facts, ∀ other ∈ facts,
      rules.shortDigest (materialOf fact) = rules.shortDigest (materialOf other) →
        materialOf fact = materialOf other) :
    (∀ fact ∈ facts, ∀ other ∈ facts, identityOf fact ≠ identityOf other →
        fact.factId ≠ other.factId) ↔
      ∀ fact ∈ facts, ∀ other ∈ facts, fact.category = other.category →
        fact.factType = other.factType → ¬Continues fact other := by
  constructor
  · intro hids fact hfact other hother hcategory htype hcontinues
    refine hids fact hfact other hother hcontinues.path_ne ?_
    have hmaterial : materialOf fact = materialOf other :=
      (materialOf_eq_iff (hfacts fact hfact) (hfacts other hother)).2
        (.inr ⟨hcategory, htype, .inl hcontinues⟩)
    rw [(hfacts fact hfact).factId, (hfacts other hother).factId]
    exact congrArg (stableKey rules) hmaterial
  · intro happart fact hfact other hother hne hsame
    rw [(hfacts fact hfact).factId, (hfacts other hother).factId] at hsame
    have hmaterial := hdigest fact hfact other hother (digest_of_stem hsame)
    rcases (materialOf_eq_iff (hfacts fact hfact) (hfacts other hother)).1 hmaterial with
      hidentity | ⟨hcategory, htype, hcontinues | hcontinues⟩
    · exact hne hidentity
    · exact happart fact hfact other hother hcategory htype hcontinues
    · exact happart other hother fact hfact hcategory.symm htype.symm hcontinues

end collector

section relationships

variable {Digest : Type} (rules : RelationshipRules Digest) (portfolio : RepositoryPortfolio)
variable (index : SelectorIndex)

/-- The parts that the id of a relationship is made of. -/
structure Spelling where
  source : Str
  relationshipType : RelationshipType
  target : Str
  deriving DecidableEq

def Spelling.id (spelling : Spelling) : Str :=
  stableId rules "relationship"
    [spelling.source, Str.of spelling.relationshipType.value, spelling.target]

def Spelling.material (spelling : Spelling) : Str :=
  [46].intercalate [Str.of "relationship", spelling.source,
    Str.of spelling.relationshipType.value, spelling.target]

/-- What the type and the target of a relationship are spelled. -/
def Spelling.rest (spelling : Spelling) : Str :=
  Str.of spelling.relationshipType.value ++ 46 :: spelling.target

def Spelling.Continues (spelling other : Spelling) : Prop :=
  ∃ between, other.source = spelling.source ++ 46 :: between ∧
    spelling.rest = between ++ 46 :: other.rest

/-- What the signals with a key are to join, and what its id is made of. -/
def namedEdge (key : SignalKey) : Option (Edge × Spelling) :=
  (portfolio.entry key.1).bind fun source =>
    (edgeOfKey rules portfolio index key).map fun edge =>
      (edge, ⟨source.externalId, key.2.1,
        ((Dict.get index key.2).map (·.externalId)).getD key.2.2⟩)

/-- The first with a stable identity, in the order of the keys. -/
def firstNamed (keys : List SignalKey) (identity : RelationshipKey) : Option (Edge × Spelling) :=
  (keys.filterMap (namedEdge rules portfolio index)).find? (·.1.identity = identity)

/-- The edges that are reported, each with the parts of its id. -/
def reported (keys : List SignalKey) : List (Edge × Spelling) :=
  (keys.filterMap (namedEdge rules portfolio index)).filter fun named =>
    firstNamed rules portfolio index keys named.1.identity = some named

structure Named (keys : List SignalKey) (found : RelationshipsByIdentity) : Prop where
  nodup : (found.map (·.1)).Nodup
  first : ∀ identity,
    (Dict.get found identity).map (fun relationship =>
        (relationship.edge, relationship.relationshipId)) =
      (firstNamed rules portfolio index keys identity).map fun named =>
        (named.1, named.2.id rules)

variable {rules portfolio index} {policy : RelationshipPolicy} {key : SignalKey}
variable {source : PortfolioEntry} {group : List RelationshipSignal} {relationship : Relationship}
variable {found found' : RelationshipsByIdentity} {keys : List SignalKey}
variable {named : Edge × Spelling}

theorem named_of_group (hsource : portfolio.entry key.1 = some source)
    (h : groupRelationship rules portfolio index policy key source group = .ok relationship) :
    ∃ spelling, namedEdge rules portfolio index key = some (relationship.edge, spelling) ∧
      relationship.relationshipId = spelling.id rules := by
  refine ⟨⟨source.externalId, key.2.1, ((Dict.get index key.2).map (·.externalId)).getD key.2.2⟩,
    ?_, ?_⟩
  · rw [namedEdge, hsource, Option.bind_some, edge_of_group hsource h]
    rfl
  · obtain ⟨_, -, h⟩ := ok_of_bind_ok h
    obtain ⟨_, -, h⟩ := ok_of_bind_ok h
    obtain ⟨_, -, h⟩ := ok_of_bind_ok h
    obtain ⟨_, -, h⟩ := ok_of_bind_ok h
    cases h
    unfold Relationship.normalized
    split <;> rfl

theorem firstNamed_concat (hnamed : namedEdge rules portfolio index key = some named)
    (identity : RelationshipKey) :
    firstNamed rules portfolio index (keys ++ [key]) identity =
      (firstNamed rules portfolio index keys identity).or
        (if named.1.identity = identity then some named else none) := by
  unfold firstNamed
  rw [List.filterMap_append, List.find?_append, List.filterMap_cons, hnamed, List.filterMap_nil]
  by_cases hsame : named.1.identity = identity
  · simp [hsame]
  · simp [hsame]

theorem named_add {spelling : Spelling} (hfound : Named rules portfolio index keys found)
    (hnamed : namedEdge rules portfolio index key = some (relationship.edge, spelling))
    (hid : relationship.relationshipId = spelling.id rules)
    (h : addRelationship policy found relationship = .ok found') :
    Named rules portfolio index (keys ++ [key]) found' := by
  obtain ⟨added, rfl, hadded⟩ := add_ok h
  refine ⟨Dict.nodup_keys_set hfound.nodup, fun identity => ?_⟩
  rw [firstNamed_concat hnamed, Dict.get_set]
  have hidentity : relationship.edge.identity = relationship.normalizedIdentity := rfl
  by_cases hsame : relationship.normalizedIdentity = identity
  · subst hsame
    have hfirst := hfound.first relationship.normalizedIdentity
    rw [if_pos rfl, Option.map_some, hadded, if_pos hidentity, hfirst]
    cases firstNamed rules portfolio index keys relationship.normalizedIdentity with
    | none => simp [hid]
    | some first => rfl
  · have hother : ¬relationship.edge.identity = identity := hsame
    rw [if_neg hsame, if_neg hother, Option.or_none, hfound.first]

variable {signals : List RelationshipSignal} {relationships : List Relationship}

theorem named_of_resolve
    (h : resolveSignals rules portfolio index signals policy = .ok relationships) :
    ∃ found : RelationshipsByIdentity,
      Named rules portfolio index (keysOf rules signals) found ∧
        relationships.Perm (found.map (·.2)) := by
  obtain ⟨_, -, h⟩ := ok_of_bind_ok h
  obtain ⟨found, hfold, h⟩ := ok_of_bind_ok h
  obtain ⟨_, -, h⟩ := ok_of_bind_ok h
  cases h
  refine ⟨found, ?_, List.mergeSort_perm _ _⟩
  have hstart : Named rules portfolio index [] [] := ⟨List.nodup_nil, fun _ => rfl⟩
  refine foldlM_invariant (P := fun found keys => Named rules portfolio index keys found)
    (fun found done key found' hfound hstep => ?_) hstart hfold
  cases hsource : portfolio.entry key.1 with
  | none =>
    rw [hsource] at hstep
    cases hstep
  | some source =>
    rw [hsource] at hstep
    obtain ⟨relationship, hgroup, hadd⟩ := ok_of_bind_ok hstep
    obtain ⟨spelling, hnamed, hid⟩ := named_of_group hsource hgroup
    exact named_add hfound hnamed hid hadd

theorem named_of_entry (hfound : Named rules portfolio index keys found)
    {entry : RelationshipKey × Relationship} (hentry : entry ∈ found) :
    ∃ named, firstNamed rules portfolio index keys entry.1 = some named ∧
      named.1 = entry.2.edge ∧ named.2.id rules = entry.2.relationshipId ∧
        named.1.identity = entry.1 := by
  have hfirst := hfound.first entry.1
  rw [Dict.get_of_mem hfound.nodup hentry, Option.map_some] at hfirst
  obtain ⟨named, hnamed, hsame⟩ := Option.map_eq_some_iff.1 hfirst.symm
  obtain ⟨hedge, hid⟩ := Prod.mk.inj hsame
  exact ⟨named, hnamed, hedge, hid, by simpa using List.find?_some hnamed⟩

/-- Each reported edge is one relationship, with the id of its spelling. -/
theorem resolved_named
    (h : resolveSignals rules portfolio index signals policy = .ok relationships)
    (edge : Edge) (id : Str) :
    (∃ relationship ∈ relationships, relationship.edge = edge ∧ relationship.relationshipId = id) ↔
      ∃ named ∈ reported rules portfolio index (keysOf rules signals),
        named.1 = edge ∧ named.2.id rules = id := by
  obtain ⟨found, hfound, hperm⟩ := named_of_resolve h
  constructor
  · rintro ⟨relationship, hmem, rfl, rfl⟩
    obtain ⟨entry, hentry, rfl⟩ := List.mem_map.1 (hperm.mem_iff.1 hmem)
    obtain ⟨named, hnamed, hedge, hid, hidentity⟩ := named_of_entry hfound hentry
    refine ⟨named, List.mem_filter.2 ⟨List.mem_of_find?_eq_some hnamed, ?_⟩, hedge, hid⟩
    rw [hidentity, hnamed]
    exact decide_eq_true rfl
  · rintro ⟨named, hmem, rfl, rfl⟩
    have hfirst := of_decide_eq_true (List.mem_filter.1 hmem).2
    have hget := hfound.first named.1.identity
    rw [hfirst, Option.map_some] at hget
    obtain ⟨relationship, hget, hsame⟩ := Option.map_eq_some_iff.1 hget
    obtain ⟨hedge, hid⟩ := Prod.mk.inj hsame
    refine ⟨relationship, hperm.mem_iff.2 ?_, hedge, hid⟩
    exact List.mem_map.2 ⟨_, Dict.mem_of_get hget, rfl⟩

theorem resolved_edges_nodup
    (h : resolveSignals rules portfolio index signals policy = .ok relationships) :
    (relationships.map (·.edge)).Nodup := by
  obtain ⟨found, hfound, hperm⟩ := named_of_resolve h
  rw [(hperm.map (·.edge)).nodup_iff, List.map_map]
  have hidentities : (found.map fun entry => entry.2.edge.identity).Nodup := by
    rw [List.map_congr_left (g := (·.1)) fun entry hentry => ?_]
    · exact hfound.nodup
    · obtain ⟨named, -, hedge, -, hidentity⟩ := named_of_entry hfound hentry
      rw [← hedge, hidentity]
  have hmap : (found.map fun entry => entry.2.edge.identity) =
      (found.map fun entry => entry.2.edge).map Edge.identity := by
    rw [List.map_map]
    rfl
  rw [hmap] at hidentities
  exact List.Nodup.of_map _ hidentities

theorem no_dot_in_type (relationshipType : RelationshipType) :
    46 ∉ Str.of relationshipType.value := by
  cases relationshipType <;> decide +kernel

theorem value_inj {first second : RelationshipType} (h : first.value = second.value) :
    first = second := by
  revert h
  cases first <;> cases second <;> simp [RelationshipType.value]

variable {spelling other : Spelling}

theorem rest_eq_iff : spelling.rest = other.rest ↔
    spelling.relationshipType = other.relationshipType ∧ spelling.target = other.target := by
  unfold Spelling.rest
  rw [Separated.append_cons_eq_of_not_mem (no_dot_in_type _) (no_dot_in_type _)]
  refine and_congr_left' ⟨fun h => value_inj (Str.of_inj h), fun h => ?_⟩
  rw [h]

theorem material_eq (spelling : Spelling) :
    spelling.material =
      Str.of "relationship" ++ 46 :: (spelling.source ++ 46 :: spelling.rest) := by
  simp [Spelling.material, Spelling.rest, List.intercalate, List.intersperse]

/-- Two relationships with one material are spelled alike, or the source of one goes on into the
rest of the other. -/
theorem material_eq_iff : spelling.material = other.material ↔
    spelling = other ∨ spelling.Continues other ∨ other.Continues spelling := by
  have hsame : spelling = other ↔
      spelling.source = other.source ∧ spelling.rest = other.rest := by
    rw [rest_eq_iff]
    cases spelling
    cases other
    exact Spelling.mk.injEq .. ▸ Iff.rfl
  rw [material_eq, material_eq, hsame, Separated.append_cons_eq_of_not_mem (by decide +kernel)
    (by decide +kernel), Separated.append_cons_eq_iff]
  simp only [true_and]
  rfl

theorem id_eq_iff
    (hdigest : rules.shortDigest spelling.material = rules.shortDigest other.material →
      spelling.material = other.material) :
    spelling.id rules = other.id rules ↔ spelling.material = other.material := by
  constructor
  · intro h
    exact hdigest (digest_of_stem h)
  · intro h
    have hid (spelling : Spelling) : spelling.id rules =
        orElse (((stripOf 46 (subRuns 46 false (rules.casefold spelling.material))).take
          110).rdropWhile (· = 46)) (Str.of "item") ++
            46 :: rules.shortDigest spelling.material := rfl
    rw [hid, hid, h]

/-- The ids of relationships differ exactly if their spellings do and none continues another. -/
theorem relationship_ids_iff
    (h : resolveSignals rules portfolio index signals policy = .ok relationships)
    (hdigest : ∀ named ∈ reported rules portfolio index (keysOf rules signals),
      ∀ other ∈ reported rules portfolio index (keysOf rules signals),
        rules.shortDigest named.2.material = rules.shortDigest other.2.material →
          named.2.material = other.2.material) :
    (∀ relationship ∈ relationships, ∀ other ∈ relationships, relationship.edge ≠ other.edge →
        relationship.relationshipId ≠ other.relationshipId) ↔
      ∀ named ∈ reported rules portfolio index (keysOf rules signals),
        ∀ other ∈ reported rules portfolio index (keysOf rules signals), named.1 ≠ other.1 →
          named.2 ≠ other.2 ∧ ¬named.2.Continues other.2 := by
  constructor
  · intro hids named hnamed other hother hne
    obtain ⟨relationship, hmem, hedge, hid⟩ := (resolved_named h _ _).2 ⟨named, hnamed, rfl, rfl⟩
    obtain ⟨relationship', hmem', hedge', hid'⟩ :=
      (resolved_named h _ _).2 ⟨other, hother, rfl, rfl⟩
    have hids := hids relationship hmem relationship' hmem' (hedge ▸ hedge' ▸ hne)
    rw [hid, hid', ne_eq, id_eq_iff (hdigest named hnamed other hother), material_eq_iff] at hids
    exact ⟨fun hsame => hids (.inl hsame), fun hcontinues => hids (.inr (.inl hcontinues))⟩
  · intro happart relationship hmem relationship' hmem' hne hsame
    obtain ⟨named, hnamed, hedge, hid⟩ := (resolved_named h _ _).1 ⟨relationship, hmem, rfl, rfl⟩
    obtain ⟨other, hother, hedge', hid'⟩ :=
      (resolved_named h _ _).1 ⟨relationship', hmem', rfl, rfl⟩
    have hne : named.1 ≠ other.1 := hedge ▸ hedge' ▸ hne
    rw [← hid, ← hid', id_eq_iff (hdigest named hnamed other hother), material_eq_iff] at hsame
    rcases hsame with hsame | hcontinues | hcontinues
    · exact (happart named hnamed other hother hne).1 hsame
    · exact (happart named hnamed other hother hne).2 hcontinues
    · exact (happart other hother named hnamed hne.symm).2 hcontinues

end relationships

/-- What is told apart by one spelling is told apart by the other. -/
theorem nodup_map_of_apart {Row First Second : Type} {rows : List Row} {first : Row → First}
    {second : Row → Second} (hfirst : (rows.map first).Nodup)
    (happart : ∀ row ∈ rows, ∀ other ∈ rows, first row ≠ first other → second row ≠ second other) :
    (rows.map second).Nodup := by
  rw [List.Nodup, List.pairwise_map] at hfirst ⊢
  exact hfirst.imp_of_mem fun hrow hother hne => happart _ hrow _ hother hne

section ids

variable {Digest : Type} {rules : RelationshipRules Digest} {portfolio : RepositoryPortfolio}
variable {index : SelectorIndex} {policy : RelationshipPolicy} {facts : List StaticFact}
variable {signals : List RelationshipSignal} {relationships : List Relationship}

variable (facts relationships) in
/-- What differs has ids that differ, and the checks for duplicate ids accept what is distinct. -/
structure Identified : Prop where
  factsApart : ∀ fact ∈ facts, ∀ other ∈ facts, identityOf fact ≠ identityOf other →
    fact.factId ≠ other.factId
  relationshipsApart : ∀ relationship ∈ relationships, ∀ other ∈ relationships,
    relationship.edge ≠ other.edge → relationship.relationshipId ≠ other.relationshipId
  claimIds : (facts.map identityOf).Nodup → (facts.map (·.factId)).Nodup
  relationshipIds : (relationships.map (·.relationshipId)).Nodup

/-- Ids are as distinct as what they name, exactly if no path continues another's, no source of a
relationship continues another's, and no two edges are spelled alike. -/
theorem stable_ids_injective_iff (hfacts : ∀ fact ∈ facts, Appended rules fact)
    (h : resolveSignals rules portfolio index signals policy = .ok relationships)
    (hfactDigests : ∀ fact ∈ facts, ∀ other ∈ facts,
      rules.shortDigest (materialOf fact) = rules.shortDigest (materialOf other) →
        materialOf fact = materialOf other)
    (hdigests : ∀ named ∈ reported rules portfolio index (keysOf rules signals),
      ∀ other ∈ reported rules portfolio index (keysOf rules signals),
        rules.shortDigest named.2.material = rules.shortDigest other.2.material →
          named.2.material = other.2.material) :
    Identified facts relationships ↔
      (∀ fact ∈ facts, ∀ other ∈ facts, fact.category = other.category →
        fact.factType = other.factType → ¬Continues fact other) ∧
      ∀ named ∈ reported rules portfolio index (keysOf rules signals),
        ∀ other ∈ reported rules portfolio index (keysOf rules signals), named.1 ≠ other.1 →
          named.2 ≠ other.2 ∧ ¬named.2.Continues other.2 := by
  rw [← fact_ids_iff hfacts hfactDigests, ← relationship_ids_iff h hdigests]
  constructor
  · intro hids
    exact ⟨hids.factsApart, hids.relationshipsApart⟩
  · rintro ⟨hfactIds, hrelationshipIds⟩
    exact ⟨hfactIds, hrelationshipIds, fun hdistinct => nodup_map_of_apart hdistinct hfactIds,
      nodup_map_of_apart (resolved_edges_nodup h) hrelationshipIds⟩

end ids

/-- The digests are those of the texts that the sample has. -/
def sampleIdDigest (material : Str) : Str :=
  if material = Str.of "dependency.package_dependency.package.json.react" then
    Str.of "5e5b33128a8f5c32"
  else if material = Str.of "dependency.package_dependency.package.json.vue" then
    Str.of "ba70fcbef779a6ad"
  else if material = Str.of "dependency.package_dependency.package.json.d/package.json.react" then
    Str.of "0111ea44dc2eb0e6"
  else if material = Str.of "relationship.1.tests.2.tests.x" then Str.of "5701f1ebb8d49520"
  else sampleShortDigest material

theorem sampleIdDigest_hex (material : Str) : lowerHex 16 (sampleIdDigest material) = true := by
  unfold sampleIdDigest
  repeat' split
  · rfl
  · rfl
  · rfl
  · rfl
  · exact sampleShortDigest_hex material

def sampleIdRules : RelationshipRules (List Fields) where
  toEvidenceRules := asciiRules
  shortDigest := sampleIdDigest
  shortDigest_hex := sampleIdDigest_hex
  confidenceText _ := Str.of "0.7"

def dependencyOf (path value : String) : List StaticFact :=
  (appendedFact sampleIdRules id 500 (Str.of "dependency") (Str.of "package_dependency")
    (Str.of value) (Str.of path) (citedFile "a")).toList

theorem appended_of_dependency {path value : String} :
    ∀ fact ∈ dependencyOf path value, Appended sampleIdRules fact := by
  intro fact hfact
  exact appended_of_call (List.mem_of_elem_eq_true rfl) (List.mem_of_elem_eq_true rfl)
    (Option.mem_toList.1 hfact)

def twoDependencies : List StaticFact :=
  dependencyOf "package.json" "react" ++ dependencyOf "package.json" "vue"

/-- A manifest in a directory that has the name of another, up to a dot. -/
def nestedDependencies : List StaticFact :=
  dependencyOf "package.json" "d/package.json.react" ++
    dependencyOf "package.json.d/package.json" "react"

def soleIndex : SelectorIndex :=
  (selectorIndex sampleIdRules soleRepository.repositories).toOption.getD []

theorem soleImport_keys : keysOf sampleIdRules [importing "my repo"] =
    [signalKey sampleIdRules (importing "my repo")] := by
  have hdedup : ([importing "my repo"].map (signalKey sampleIdRules)).dedup =
      [signalKey sampleIdRules (importing "my repo")] := rfl
  rw [keysOf, sortedSet, hdedup]
  exact List.mergeSort_singleton _

theorem stable_ids_injective_iff_dependencies : ∃ relationships,
    resolveSignals sampleIdRules soleRepository soleIndex [importing "my repo"] samplePolicy =
        .ok relationships ∧
      (Identified twoDependencies relationships ↔
        (∀ fact ∈ twoDependencies, ∀ other ∈ twoDependencies, fact.category = other.category →
          fact.factType = other.factType → ¬Continues fact other) ∧
        ∀ named ∈ reported sampleIdRules soleRepository soleIndex
            (keysOf sampleIdRules [importing "my repo"]),
          ∀ other ∈ reported sampleIdRules soleRepository soleIndex
              (keysOf sampleIdRules [importing "my repo"]),
            named.1 ≠ other.1 → named.2 ≠ other.2 ∧ ¬named.2.Continues other.2) := by
  have hkeys := soleImport_keys
  have hresolved : (resolveSignals sampleIdRules soleRepository soleIndex [importing "my repo"]
      samplePolicy).toOption.isSome = true := by
    unfold keysOf at hkeys
    unfold resolveSignals
    rw [hkeys]
    decide +kernel
  obtain ⟨relationships, hrelationships⟩ := Option.isSome_iff_exists.1 hresolved
  refine ⟨relationships, ok_of_toOption hrelationships, stable_ids_injective_iff ?_
    (ok_of_toOption hrelationships) ?_ ?_⟩
  · intro fact hfact
    rcases List.mem_append.1 hfact with hfact | hfact
    · exact appended_of_dependency fact hfact
    · exact appended_of_dependency fact hfact
  · decide +kernel
  · rw [hkeys]
    decide +kernel

def testing (fromRepositoryId : Uuid) (targetSelector : String) : RelationshipSignal where
  workspaceId := sampleWorkspace
  fromRepositoryId
  relationshipType := .tests
  targetSelector := Str.of targetSelector
  evidenceRefs := [citedFile "a"]
  sourceStatus := .observed

/-- A repository whose external id goes on from that of another after a dot. -/
def nestedRepositories : RepositoryPortfolio where
  workspaceId := sampleWorkspace
  repositories :=
    [⟨sampleWorkspace, sampleRepository, Str.of "1", Str.of "acme/app", [], [], [], [], [], [], []⟩,
      ⟨sampleWorkspace, sampleWorkspace, Str.of "1.tests.2", Str.of "acme/web", [], [], [], [], [],
        [], []⟩]

def nestedTests : List RelationshipSignal :=
  [testing sampleWorkspace "x", testing sampleRepository "2.tests.x"]

def nestedIndex : SelectorIndex :=
  (selectorIndex sampleIdRules nestedRepositories.repositories).toOption.getD []

theorem nestedTests_keys : keysOf sampleIdRules nestedTests =
    nestedTests.map (signalKey sampleIdRules) := by
  have hdedup : (nestedTests.map (signalKey sampleIdRules)).dedup =
      nestedTests.map (signalKey sampleIdRules) := rfl
  rw [keysOf, sortedSet, hdedup]
  exact List.mergeSort_of_pairwise (List.pairwise_pair.2 rfl)

/-- Two dependencies have one id, and so have two relationships. -/
theorem continued_ids_collide :
    (¬∀ facts : List StaticFact, (∀ fact ∈ facts, Appended sampleIdRules fact) →
      (∀ fact ∈ facts, ∀ other ∈ facts,
        sampleIdRules.shortDigest (materialOf fact) = sampleIdRules.shortDigest (materialOf other) →
          materialOf fact = materialOf other) →
        ∀ fact ∈ facts, ∀ other ∈ facts, identityOf fact ≠ identityOf other →
          fact.factId ≠ other.factId) ∧
      ¬∀ portfolio index signals policy relationships,
        resolveSignals sampleIdRules portfolio index signals policy = .ok relationships →
          (∀ named ∈ reported sampleIdRules portfolio index (keysOf sampleIdRules signals),
            ∀ other ∈ reported sampleIdRules portfolio index (keysOf sampleIdRules signals),
              sampleIdRules.shortDigest named.2.material =
                  sampleIdRules.shortDigest other.2.material →
                named.2.material = other.2.material) →
            ∀ relationship ∈ relationships, ∀ other ∈ relationships,
              relationship.edge ≠ other.edge →
                relationship.relationshipId ≠ other.relationshipId := by
  constructor
  · intro hall
    have happended : ∀ fact ∈ nestedDependencies, Appended sampleIdRules fact := by
      intro fact hfact
      rcases List.mem_append.1 hfact with hfact | hfact
      · exact appended_of_dependency fact hfact
      · exact appended_of_dependency fact hfact
    have hids := hall nestedDependencies happended (by decide +kernel)
    revert hids
    decide +kernel
  · intro hall
    have hkeys := nestedTests_keys
    have hresolved : (resolveSignals sampleIdRules nestedRepositories nestedIndex nestedTests
        samplePolicy).toOption.isSome = true := by
      unfold keysOf at hkeys
      unfold resolveSignals
      rw [hkeys]
      decide +kernel
    obtain ⟨relationships, hrelationships⟩ := Option.isSome_iff_exists.1 hresolved
    have hrelationships := ok_of_toOption hrelationships
    have hdigests : ∀ named ∈ reported sampleIdRules nestedRepositories nestedIndex
          (keysOf sampleIdRules nestedTests),
        ∀ other ∈ reported sampleIdRules nestedRepositories nestedIndex
          (keysOf sampleIdRules nestedTests),
          sampleIdRules.shortDigest named.2.material = sampleIdRules.shortDigest other.2.material →
            named.2.material = other.2.material := by
      rw [hkeys]
      decide +kernel
    have hids := (relationship_ids_iff hrelationships hdigests).1
      (hall _ _ _ _ _ hrelationships hdigests)
    have hcontinued : ∃ named ∈ reported sampleIdRules nestedRepositories nestedIndex
          (keysOf sampleIdRules nestedTests),
        ∃ other ∈ reported sampleIdRules nestedRepositories nestedIndex
          (keysOf sampleIdRules nestedTests),
          named.1 ≠ other.1 ∧ other.2.source = named.2.source ++ 46 :: Str.of "tests.2" ∧
            named.2.rest = Str.of "tests.2" ++ 46 :: other.2.rest := by
      rw [hkeys]
      decide +kernel
    obtain ⟨named, hnamed, other, hother, hne, hcontinues⟩ := hcontinued
    exact (hids named hnamed other hother hne).2 ⟨Str.of "tests.2", hcontinues⟩

end FounderOs.RepositoryAudit.Collectors
