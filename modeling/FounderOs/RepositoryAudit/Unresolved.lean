import FounderOs.RepositoryAudit.Relationships
import FounderOs.RepositoryAudit.Storage

namespace FounderOs.RepositoryAudit

open Headquarters SortedSet

/-- What a relationship joins, and as what. -/
structure Edge where
  relationshipType : RelationshipType
  source : RepositoryReference
  target : RepositoryReference
  deriving DecidableEq

namespace Edge

def identity (edge : Edge) : RelationshipKey :=
  (edge.relationshipType, edge.source.stableIdentity, edge.target.stableIdentity)

def inOrder (edge : Edge) : Bool :=
  let first := edge.source.orderingKey
  let second := edge.target.orderingKey
  !symmetricRelationshipTypes.contains edge.relationshipType ||
    if first.1 == second.1 then Str.le first.2 second.2 else Str.le first.1 second.1

def normalized (edge : Edge) : Edge :=
  if edge.inOrder then edge else ⟨edge.relationshipType, edge.target, edge.source⟩

end Edge

def Relationship.edge (relationship : Relationship) : Edge :=
  ⟨relationship.relationshipType, relationship.fromRepository, relationship.toRepository⟩

theorem edge_normalized (relationship : Relationship) :
    relationship.normalized.edge = relationship.edge.normalized := by
  have hsame : relationship.edge.inOrder = relationship.inOrder := rfl
  unfold Relationship.normalized Edge.normalized
  rw [hsame]
  split <;> rfl

section edges

variable {Digest : Type} (rules : RelationshipRules Digest) (portfolio : RepositoryPortfolio)
variable (index : SelectorIndex)

/-- What the signals with a key are to join. -/
def edgeOfKey (key : SignalKey) : Option Edge :=
  (portfolio.entry key.1).map fun source =>
    Edge.normalized ⟨key.2.1, source.reference, ((Dict.get index key.2).map (·.reference)).getD
      (candidateReference rules portfolio.workspaceId key.2.1 key.2.2)⟩

/-- The first of the edges with a stable identity, in the order of the keys. -/
def firstEdge (keys : List SignalKey) (identity : RelationshipKey) : Option Edge :=
  (keys.filterMap (edgeOfKey rules portfolio index)).find? (·.identity = identity)

/-- The edges are found by their identities, and none takes the place of one before it. -/
structure Found (keys : List SignalKey) (found : RelationshipsByIdentity) : Prop where
  nodup : (found.map (·.1)).Nodup
  first : ∀ identity,
    (Dict.get found identity).map (·.edge) = firstEdge rules portfolio index keys identity

variable {rules portfolio index} {policy : RelationshipPolicy} {key : SignalKey}
variable {source : PortfolioEntry} {group : List RelationshipSignal} {relationship : Relationship}
variable {found found' : RelationshipsByIdentity} {keys : List SignalKey} {edge : Edge}

theorem edge_of_group (hsource : portfolio.entry key.1 = some source)
    (h : groupRelationship rules portfolio index policy key source group = .ok relationship) :
    edgeOfKey rules portfolio index key = some relationship.edge := by
  obtain ⟨_, -, h⟩ := ok_of_bind_ok h
  obtain ⟨_, -, h⟩ := ok_of_bind_ok h
  obtain ⟨_, -, h⟩ := ok_of_bind_ok h
  obtain ⟨_, -, h⟩ := ok_of_bind_ok h
  cases h
  rw [edge_normalized, edgeOfKey, hsource]
  rfl

/-- A merge keeps the ends and the id of what is there. -/
theorem add_ok (h : addRelationship policy found relationship = .ok found') :
    ∃ added : Relationship, found' = Dict.set found relationship.normalizedIdentity added ∧
      (added.edge, added.relationshipId) =
        ((Dict.get found relationship.normalizedIdentity).map fun existing =>
          (existing.edge, existing.relationshipId)).getD
            (relationship.edge, relationship.relationshipId) := by
  unfold addRelationship at h
  cases hget : Dict.get found relationship.normalizedIdentity with
  | none =>
    simp only [hget] at h
    obtain ⟨_, -, rfl⟩ := map_eq_ok h
    exact ⟨relationship, rfl, rfl⟩
  | some existing =>
    simp only [hget] at h
    obtain ⟨merged, hmerged, rfl⟩ := map_eq_ok h
    obtain ⟨_, -, hmerged⟩ := ok_of_bind_ok hmerged
    cases hmerged
    exact ⟨_, rfl, rfl⟩

theorem firstEdge_concat (hedge : edgeOfKey rules portfolio index key = some edge)
    (identity : RelationshipKey) :
    firstEdge rules portfolio index (keys ++ [key]) identity =
      (firstEdge rules portfolio index keys identity).or
        (if edge.identity = identity then some edge else none) := by
  unfold firstEdge
  rw [List.filterMap_append, List.find?_append, List.filterMap_cons, hedge, List.filterMap_nil]
  by_cases hsame : edge.identity = identity
  · simp [hsame]
  · simp [hsame]

theorem found_add (hfound : Found rules portfolio index keys found)
    (hedge : edgeOfKey rules portfolio index key = some relationship.edge)
    (h : addRelationship policy found relationship = .ok found') :
    Found rules portfolio index (keys ++ [key]) found' := by
  obtain ⟨added, rfl, hadded⟩ := add_ok h
  refine ⟨Dict.nodup_keys_set hfound.nodup, fun identity => ?_⟩
  rw [firstEdge_concat hedge, ← hfound.first, Dict.get_set]
  by_cases hsame : relationship.normalizedIdentity = identity
  · subst hsame
    have hidentity : relationship.edge.identity = relationship.normalizedIdentity := rfl
    rw [if_pos hidentity, if_pos rfl, Option.map_some]
    cases hget : Dict.get found relationship.normalizedIdentity with
    | none =>
      rw [hget] at hadded
      rw [(Prod.mk.inj hadded).1]
      rfl
    | some existing =>
      rw [hget] at hadded
      rw [(Prod.mk.inj hadded).1]
      rfl
  · have hother : ¬relationship.edge.identity = identity := hsame
    rw [if_neg hother, if_neg hsame, Option.or_none]

variable {signals : List RelationshipSignal} {relationships : List Relationship}

/-- The keys of the signals, in order. -/
def keysOf (rules : RelationshipRules Digest) (signals : List RelationshipSignal) :
    List SignalKey :=
  sortedSet signalKeyLe (signals.map (signalKey rules))

/-- What is resolved joins what comes first among what has its identity. -/
theorem resolved_iff (h : resolveSignals rules portfolio index signals policy = .ok relationships) :
    (∃ relationship ∈ relationships, relationship.edge = edge) ↔
      firstEdge rules portfolio index (keysOf rules signals) edge.identity = some edge := by
  obtain ⟨_, -, h⟩ := ok_of_bind_ok h
  obtain ⟨found, hfold, h⟩ := ok_of_bind_ok h
  obtain ⟨_, -, h⟩ := ok_of_bind_ok h
  cases h
  have hfound : Found rules portfolio index (keysOf rules signals) found := by
    have hstart : Found rules portfolio index [] [] := ⟨List.nodup_nil, fun _ => rfl⟩
    refine foldlM_invariant (P := fun found keys => Found rules portfolio index keys found)
      (fun found done key found' hfound hstep => ?_) hstart hfold
    cases hsource : portfolio.entry key.1 with
    | none =>
      rw [hsource] at hstep
      cases hstep
    | some source =>
      rw [hsource] at hstep
      obtain ⟨relationship, hgroup, hadd⟩ := ok_of_bind_ok hstep
      exact found_add hfound (edge_of_group hsource hgroup) hadd
  constructor
  · rintro ⟨relationship, hmem, rfl⟩
    rw [List.mem_mergeSort] at hmem
    obtain ⟨entry, hentry, rfl⟩ := List.mem_map.1 hmem
    have hfirst := hfound.first entry.1
    rw [Dict.get_of_mem hfound.nodup hentry, Option.map_some] at hfirst
    have hidentity : entry.2.edge.identity = entry.1 := by
      unfold firstEdge at hfirst
      simpa using List.find?_some hfirst.symm
    rw [hidentity, hfirst]
  · intro hfirst
    rw [← hfound.first] at hfirst
    obtain ⟨relationship, hget, rfl⟩ := Option.map_eq_some_iff.1 hfirst
    refine ⟨relationship, ?_, rfl⟩
    rw [List.mem_mergeSort]
    exact List.mem_map.2 ⟨_, Dict.mem_of_get hget, rfl⟩

theorem relationships_of_analysis {analysis : RelationshipAnalysis}
    (h : analysisOf rules portfolio policy relationships = .ok analysis) :
    analysis.relationships = relationships := by
  obtain ⟨cycles, -, h⟩ := ok_of_bind_ok h
  obtain ⟨findings, -, h⟩ := ok_of_bind_ok h
  obtain ⟨_, -, h⟩ := ok_of_bind_ok h
  obtain ⟨_, -, h⟩ := ok_of_bind_ok h
  obtain ⟨_, -, h⟩ := ok_of_bind_ok h
  obtain ⟨_, -, h⟩ := ok_of_bind_ok h
  cases h
  rfl

end edges

section slugs

variable {Digest : Type} {rules : RelationshipRules Digest} {value value' : Str}

theorem length_orElse {text other : Str} {most : Nat} (htext : text.length ≤ most)
    (hother : other.length ≤ most) : (orElse text other).length ≤ most := by
  unfold orElse
  split
  · exact hother
  · exact htext

theorem length_stableSlug : (stableSlug rules value).length ≤ 240 := by
  refine length_orElse ?_ (by decide)
  exact ((List.rdropWhile_prefix _ _).length_le).trans (List.length_take_le ..)

variable {workspaceId : Uuid} {relationshipType : RelationshipType}

/-- The full name of a candidate has its slug whole. -/
theorem candidateReference_inj :
    candidateReference rules workspaceId relationshipType value =
      candidateReference rules workspaceId relationshipType value' ↔
        stableSlug rules value = stableSlug rules value' := by
  have hname (value : Str) :
      (candidateReference rules workspaceId relationshipType value).fullName =
        Str.of "unresolved/" ++ stableSlug rules value := by
    refine List.take_of_length_le ?_
    rw [List.length_append]
    exact (Nat.add_le_add_left length_stableSlug _).trans (by decide)
  constructor
  · intro h
    have hnames := congrArg RepositoryReference.fullName h
    rw [hname, hname] at hnames
    exact List.append_cancel_left hnames
  · intro h
    unfold candidateReference
    rw [h]

end slugs

section reports

variable {Digest : Type} (rules : RelationshipRules Digest) (portfolio : RepositoryPortfolio)

def candidateOf (signal : RelationshipSignal) : RepositoryReference :=
  candidateReference rules portfolio.workspaceId signal.relationshipType
    (signalKey rules signal).2.2

/-- The relationship joins the source of the signal and the candidate for its target; a symmetric
one may have been turned round. -/
def Joins (signal : RelationshipSignal) (relationship : Relationship) : Prop :=
  relationship.relationshipType = signal.relationshipType ∧
    ∃ source, portfolio.entry signal.fromRepositoryId = some source ∧
      (relationship.fromRepository = source.reference ∧
          relationship.toRepository = candidateOf rules portfolio signal ∨
        relationship.fromRepository = candidateOf rules portfolio signal ∧
          relationship.toRepository = source.reference)

/-- The signals are reported as two relationships, to candidates of their own. -/
def ReportedApart (analysis : RelationshipAnalysis) (first second : RelationshipSignal) : Prop :=
  candidateOf rules portfolio first ≠ candidateOf rules portfolio second ∧
    ∃ relationship ∈ analysis.relationships, ∃ relationship' ∈ analysis.relationships,
      relationship ≠ relationship' ∧ Joins rules portfolio first relationship ∧
        Joins rules portfolio second relationship'

variable (index : SelectorIndex) (signals : List RelationshipSignal)

/-- No signal with a smaller key has a relationship of the same stable identity that joins something
else. -/
def Leads (signal : RelationshipSignal) : Prop :=
  ∃ edge, edgeOfKey rules portfolio index (signalKey rules signal) = some edge ∧
    firstEdge rules portfolio index (keysOf rules signals) edge.identity = some edge

variable {rules portfolio index signals} {signal : RelationshipSignal} {relationship : Relationship}

/-- Only the source of a signal is a repository of the portfolio. -/
theorem reference_ne_candidate (source : PortfolioEntry) :
    source.reference ≠ candidateOf rules portfolio signal := by
  intro heq
  have hid := congrArg RepositoryReference.repositoryId heq
  cases hid

theorem joins_iff {keys : List SignalKey}
    (hunresolved : Dict.get index (signalKey rules signal).2 = none)
    (hedge : relationship.edge ∈ keys.filterMap (edgeOfKey rules portfolio index)) :
    Joins rules portfolio signal relationship ↔
      edgeOfKey rules portfolio index (signalKey rules signal) = some relationship.edge := by
  have hkey : edgeOfKey rules portfolio index (signalKey rules signal) =
      (portfolio.entry signal.fromRepositoryId).map fun source => Edge.normalized
        ⟨signal.relationshipType, source.reference, candidateOf rules portfolio signal⟩ := by
    unfold edgeOfKey
    rw [hunresolved]
    rfl
  rw [hkey]
  constructor
  · rintro ⟨htype, source, hsource, hends⟩
    obtain ⟨key, -, hedge⟩ := List.mem_filterMap.1 hedge
    obtain ⟨source', -, hedge⟩ := Option.map_eq_some_iff.1 hedge
    generalize htarget : ((Dict.get index key.2).map (·.reference)).getD _ = target at hedge
    rw [hsource, Option.map_some]
    have hsame : (⟨key.2.1, source'.reference, target⟩ : Edge) =
        ⟨signal.relationshipType, source.reference, candidateOf rules portfolio signal⟩ := by
      rw [Edge.mk.injEq]
      unfold Edge.normalized at hedge
      split at hedge <;> obtain ⟨htype', hfrom, hto⟩ := Edge.mk.inj hedge
      · rcases hends with ⟨hleft, hright⟩ | ⟨hleft, -⟩
        · exact ⟨htype'.trans htype, hfrom.trans hleft, hto.trans hright⟩
        · exact absurd (hfrom.trans hleft) (reference_ne_candidate source')
      · rcases hends with ⟨-, hright⟩ | ⟨hleft, hright⟩
        · exact absurd (hto.trans hright) (reference_ne_candidate source')
        · exact ⟨htype'.trans htype, hto.trans hright, hfrom.trans hleft⟩
    rw [← hsame, hedge]
  · intro h
    obtain ⟨source, hsource, hedge⟩ := Option.map_eq_some_iff.1 h
    unfold Edge.normalized at hedge
    split at hedge
    · obtain ⟨htype, hfrom, hto⟩ := Edge.mk.inj hedge
      exact ⟨htype.symm, source, hsource, .inl ⟨hfrom.symm, hto.symm⟩⟩
    · obtain ⟨htype, hfrom, hto⟩ := Edge.mk.inj hedge
      exact ⟨htype.symm, source, hsource, .inr ⟨hfrom.symm, hto.symm⟩⟩

theorem joins_ne {first second : RelationshipSignal} {relationship' : Relationship}
    (hne : candidateOf rules portfolio first ≠ candidateOf rules portfolio second)
    (h : Joins rules portfolio first relationship)
    (h' : Joins rules portfolio second relationship') :
    relationship ≠ relationship' := by
  rintro rfl
  obtain ⟨-, source, -, hends⟩ := h
  obtain ⟨-, source', -, hends'⟩ := h'
  rcases hends with ⟨hfrom, hto⟩ | ⟨hfrom, hto⟩ <;>
    rcases hends' with ⟨hfrom', hto'⟩ | ⟨hfrom', hto'⟩
  · exact hne (hto.symm.trans hto')
  · exact reference_ne_candidate source (hfrom.symm.trans hfrom')
  · exact reference_ne_candidate source' (hfrom'.symm.trans hfrom)
  · exact hne (hfrom.symm.trans hfrom')

variable {collections : List StaticCollection} {policy : RelationshipPolicy}
variable {analysis : RelationshipAnalysis} {projected : List RelationshipSignal}
variable {first second : RelationshipSignal}

/-- Two signals whose targets are not resolved are reported apart exactly if their selectors have
different slugs and neither comes after another with which it shares a stable identity. -/
theorem unresolved_apart_iff
    (h : buildRepositoryRelationshipAnalysis rules portfolio collections signals policy =
      .ok analysis)
    (hprojected : projectCollections rules portfolio [] collections = .ok projected)
    (hindex : selectorIndex rules portfolio.repositories = .ok index)
    (htype : first.relationshipType = second.relationshipType)
    (hfirst : Dict.get index (signalKey rules first).2 = none)
    (hsecond : Dict.get index (signalKey rules second).2 = none) :
    ReportedApart rules portfolio analysis first second ↔
      stableSlug rules (signalKey rules first).2.2 ≠ stableSlug rules (signalKey rules second).2.2 ∧
        Leads rules portfolio index (projected ++ signals) first ∧
          Leads rules portfolio index (projected ++ signals) second := by
  obtain ⟨_, -, h⟩ := ok_of_bind_ok h
  obtain ⟨_, hprojected', h⟩ := ok_of_bind_ok h
  obtain rfl := Except.ok.inj (hprojected.symm.trans hprojected')
  obtain ⟨_, -, h⟩ := ok_of_bind_ok h
  obtain ⟨_, hindex', h⟩ := ok_of_bind_ok h
  obtain rfl := Except.ok.inj (hindex.symm.trans (mapError_ok_iff.1 hindex'))
  obtain ⟨relationships, hresolved, h⟩ := ok_of_bind_ok h
  have hreported := relationships_of_analysis h
  have hslugs : candidateOf rules portfolio first = candidateOf rules portfolio second ↔
      stableSlug rules (signalKey rules first).2.2 =
        stableSlug rules (signalKey rules second).2.2 := by
    unfold candidateOf
    rw [htype]
    exact candidateReference_inj
  have hleads {signal : RelationshipSignal}
      (hunresolved : Dict.get index (signalKey rules signal).2 = none) :
      Leads rules portfolio index (projected ++ signals) signal ↔
        ∃ relationship ∈ analysis.relationships, Joins rules portfolio signal relationship := by
    rw [hreported]
    constructor
    · rintro ⟨edge, hedge, hleads⟩
      obtain ⟨relationship, hmem, rfl⟩ := (resolved_iff hresolved).2 hleads
      exact ⟨relationship, hmem,
        (joins_iff hunresolved (List.mem_of_find?_eq_some hleads)).2 hedge⟩
    · rintro ⟨relationship, hmem, hjoins⟩
      have hleads := (resolved_iff hresolved).1 ⟨relationship, hmem, rfl⟩
      exact ⟨relationship.edge,
        (joins_iff hunresolved (List.mem_of_find?_eq_some hleads)).1 hjoins, hleads⟩
  rw [hleads hfirst, hleads hsecond, ReportedApart, ne_eq, ne_eq, hslugs]
  constructor
  · rintro ⟨hne, relationship, hmem, relationship', hmem', -, hjoins, hjoins'⟩
    exact ⟨hne, ⟨relationship, hmem, hjoins⟩, relationship', hmem', hjoins'⟩
  · rintro ⟨hne, ⟨relationship, hmem, hjoins⟩, relationship', hmem', hjoins'⟩
    exact ⟨hne, relationship, hmem, relationship', hmem',
      joins_ne (mt hslugs.1 hne) hjoins hjoins', hjoins, hjoins'⟩

end reports

/-- The digests are those of the texts that the sample has. -/
def sampleShortDigest (material : Str) : Str :=
  if material = Str.of "relationship.7.imports_package_from.my repo" then Str.of "acf9c4233c2d5e1c"
  else Str.of "392645e13978fb43"

theorem sampleShortDigest_hex (material : Str) :
    lowerHex 16 (sampleShortDigest material) = true := by
  unfold sampleShortDigest
  split <;> rfl

def sampleRelationshipRules : RelationshipRules (List Fields) where
  toEvidenceRules := asciiRules
  shortDigest := sampleShortDigest
  shortDigest_hex := sampleShortDigest_hex
  confidenceText _ := Str.of "0.7"

def samplePolicy : RelationshipPolicy := ⟨50, 50, 50, 50, 50, 16, 65536⟩

def importing (targetSelector : String) : RelationshipSignal where
  workspaceId := sampleWorkspace
  fromRepositoryId := sampleRepository
  relationshipType := .importsPackageFrom
  targetSelector := Str.of targetSelector
  evidenceRefs := [citedFile "a"]
  sourceStatus := .observed

def soleRepository : RepositoryPortfolio where
  workspaceId := sampleWorkspace
  repositories :=
    [⟨sampleWorkspace, sampleRepository, Str.of "7", Str.of "acme/app", [], [], [], [], [], [], []⟩]

/-- Two packages whose names differ in a hyphen. -/
def twoImports : List RelationshipSignal := [importing "my repo", importing "my-repo"]

theorem twoImports_keys : sortedSet signalKeyLe
    (twoImports.map (signalKey sampleRelationshipRules)) =
      twoImports.map (signalKey sampleRelationshipRules) := by
  have hdedup : (twoImports.map (signalKey sampleRelationshipRules)).dedup =
      twoImports.map (signalKey sampleRelationshipRules) := rfl
  rw [sortedSet, hdedup]
  exact List.mergeSort_of_pairwise (List.pairwise_pair.2 rfl)

theorem twoImports_resolved : ∃ analysis index,
    buildRepositoryRelationshipAnalysis sampleRelationshipRules soleRepository [] twoImports
        samplePolicy = .ok analysis ∧
      selectorIndex sampleRelationshipRules soleRepository.repositories = .ok index ∧
      Dict.get index (signalKey sampleRelationshipRules (importing "my repo")).2 = none ∧
      Dict.get index (signalKey sampleRelationshipRules (importing "my-repo")).2 = none := by
  have hbuilt : (buildRepositoryRelationshipAnalysis sampleRelationshipRules soleRepository []
      twoImports samplePolicy).toOption.isSome = true := by
    change (analyzeSignals sampleRelationshipRules soleRepository samplePolicy
      twoImports).toOption.isSome = true
    unfold analyzeSignals resolveSignals
    rw [twoImports_keys]
    decide +kernel
  have hindex : (selectorIndex sampleRelationshipRules soleRepository.repositories).toOption.any
      (fun index =>
        Dict.get index (signalKey sampleRelationshipRules (importing "my repo")).2 == none &&
          Dict.get index (signalKey sampleRelationshipRules (importing "my-repo")).2 == none) =
        true := by
    decide +kernel
  obtain ⟨analysis, hanalysis⟩ := Option.isSome_iff_exists.1 hbuilt
  obtain ⟨index, hfound, hnone⟩ := (Option.any_eq_true _ _).1 hindex
  obtain ⟨hfirst, hsecond⟩ := Bool.and_eq_true_iff.1 hnone
  exact ⟨analysis, index, ok_of_toOption hanalysis, ok_of_toOption hfound, eq_of_beq hfirst,
    eq_of_beq hsecond⟩

theorem unresolved_apart_iff_imports : ∃ analysis index,
    buildRepositoryRelationshipAnalysis sampleRelationshipRules soleRepository [] twoImports
        samplePolicy = .ok analysis ∧
      (ReportedApart sampleRelationshipRules soleRepository analysis (importing "my repo")
          (importing "my-repo") ↔
        stableSlug sampleRelationshipRules
              (signalKey sampleRelationshipRules (importing "my repo")).2.2 ≠
            stableSlug sampleRelationshipRules
              (signalKey sampleRelationshipRules (importing "my-repo")).2.2 ∧
          Leads sampleRelationshipRules soleRepository index ([] ++ twoImports)
              (importing "my repo") ∧
            Leads sampleRelationshipRules soleRepository index ([] ++ twoImports)
              (importing "my-repo")) := by
  obtain ⟨analysis, index, hbuilt, hindex, hfirst, hsecond⟩ := twoImports_resolved
  exact ⟨analysis, index, hbuilt, unresolved_apart_iff hbuilt rfl hindex rfl hfirst hsecond⟩

/-- The two packages become one candidate. -/
theorem hyphen_merges : ¬∀ portfolio collections signals policy analysis projected index,
    buildRepositoryRelationshipAnalysis sampleRelationshipRules portfolio collections signals
        policy = .ok analysis →
      projectCollections sampleRelationshipRules portfolio [] collections = .ok projected →
        selectorIndex sampleRelationshipRules portfolio.repositories = .ok index →
          ∀ first ∈ projected ++ signals, ∀ second ∈ projected ++ signals,
            first.fromRepositoryId = second.fromRepositoryId →
              first.relationshipType = second.relationshipType →
                normalizeSelector sampleRelationshipRules first.targetSelector ≠
                    normalizeSelector sampleRelationshipRules second.targetSelector →
                  Dict.get index (signalKey sampleRelationshipRules first).2 = none →
                    Dict.get index (signalKey sampleRelationshipRules second).2 = none →
                      ReportedApart sampleRelationshipRules portfolio analysis first second := by
  intro hall
  obtain ⟨analysis, index, hbuilt, hindex, hfirst, hsecond⟩ := twoImports_resolved
  have happart := hall soleRepository [] twoImports samplePolicy analysis [] index hbuilt rfl hindex
    (importing "my repo") (List.mem_cons_self ..) (importing "my-repo")
    (List.mem_cons_of_mem _ (List.mem_cons_self ..)) rfl rfl (by decide +kernel) hfirst hsecond
  have hsame : candidateOf sampleRelationshipRules soleRepository (importing "my repo") =
      candidateOf sampleRelationshipRules soleRepository (importing "my-repo") := by
    decide +kernel
  exact happart.1 hsame

end FounderOs.RepositoryAudit
