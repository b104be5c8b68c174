import Mathlib.Algebra.Order.Ring.Unbundled.Rat
import FounderOs.Foundation.Components
import FounderOs.Foundation.JsonText
import FounderOs.Foundation.SortedSet
import FounderOs.RepositoryAudit.Contract
import FounderOs.RepositoryAudit.Views

namespace FounderOs.RepositoryAudit

open Headquarters SortedSet

/-- `.unexpected` is an error of a model that the builder does not turn into one of its own. -/
inductive RelationshipError where
  | validation (detail : String)
  | limit (detail : String)
  | unexpected
  deriving DecidableEq

/-- `casefold` is that of the evidence rules. `shortDigest` is the first sixteen digits of the SHA-256,
`confidenceText` the shortest text of the float. -/
structure RelationshipRules (Digest : Type) extends EvidenceRules Digest where
  shortDigest : Str → Str
  shortDigest_hex : ∀ material, lowerHex 16 (shortDigest material) = true
  confidenceText : Rat → Str

structure RelationshipPolicy where
  maxRepositories : Nat
  maxRelationships : Nat
  maxEvidenceRefsPerRelationship : Nat
  maxFindings : Nat
  maxCycles : Nat
  maxCycleDepth : Nat
  maxOutputBytes : Nat

/-- The provider, always GitHub, is left out. -/
structure PortfolioEntry where
  workspaceId : Uuid
  repositoryId : Uuid
  externalId : Str
  fullName : Str
  packageNames : List Str
  apiContracts : List Str
  eventContracts : List Str
  imageNames : List Str
  deploymentTargets : List Str
  testTargets : List Str
  documentTargets : List Str
  deriving DecidableEq

structure RepositoryPortfolio where
  workspaceId : Uuid
  repositories : List PortfolioEntry

structure RelationshipSignal where
  workspaceId : Uuid
  fromRepositoryId : Uuid
  relationshipType : RelationshipType
  targetSelector : Str
  evidenceRefs : List EvidenceRefV1
  sourceStatus : AnalyzerClaimStatus
  deriving DecidableEq

structure StaticFact where
  factId : Str
  category : Str
  factType : Str
  value : Str
  path : Str
  evidenceRef : EvidenceRefV1
  deriving DecidableEq

/-- What the analysis reads of a collection. -/
structure StaticCollection where
  workspaceId : Uuid
  repositoryId : Uuid
  manifests : List StaticFact
  entrypoints : List StaticFact
  dependencies : List StaticFact
  interfaces : List StaticFact
  deployment : List StaticFact
  testsCi : List StaticFact
  documentation : List StaticFact
  migrations : List StaticFact

def StaticCollection.facts (collection : StaticCollection) : List StaticFact :=
  collection.manifests ++ collection.entrypoints ++ collection.dependencies ++
    collection.interfaces ++ collection.deployment ++ collection.testsCi ++
    collection.documentation ++ collection.migrations

inductive GraphFindingType where
  | cycle | orphan | unresolvedTarget | contradiction
  deriving DecidableEq, Repr

structure GraphFinding where
  findingId : Str
  findingType : GraphFindingType
  repositoryIds : List Uuid
  relationshipIds : List Str
  summary : Str
  evidenceRefs : List EvidenceRefV1
  deriving DecidableEq

structure RelationshipAnalysis where
  workspaceId : Uuid
  relationships : List Relationship
  inverseViews : List Str
  cycles : List (List Uuid)
  orphanRepositoryIds : List Uuid
  unresolvedRelationshipIds : List Str
  findings : List GraphFinding
  limitations : List Str
  deriving DecidableEq

def relationshipTypes : List RelationshipType :=
  [.callsApiOf, .importsPackageFrom, .consumesEventFrom, .deployedBy, .usesImageFrom,
    .generatesClientFor, .tests, .documents, .replaces, .forkedFrom, .duplicateCandidateOf,
    .operationallyCoupledWith, .sharesSchemaWith, .sharesDatabaseWith, .ownsMigrationsFor]

def AnalyzerClaimStatus.value : AnalyzerClaimStatus → String
  | observed => "observed"
  | inferred => "inferred"
  | insufficientEvidence => "insufficient_evidence"

section texts

variable {Digest : Type} (rules : RelationshipRules Digest)

/-- `_normalize_selector`. -/
def normalizeSelector (value : Str) : Option Str :=
  let text := rules.casefold (Str.strip value)
  if text = [] ∨ 255 < text.length ∨ text.any isControl then none else some text

def isKeyChar (c : Nat) : Bool := isLower c || isDigit c

/-- `_STABLE_KEY.sub`: a run of other characters becomes one. -/
def subRuns (replacement : Nat) : Bool → Str → Str
  | _, [] => []
  | inRun, c :: rest =>
    if isKeyChar c then c :: subRuns replacement false rest
    else if inRun then subRuns replacement true rest
    else replacement :: subRuns replacement true rest

def stripOf (c : Nat) (text : Str) : Str := (text.dropWhile (· = c)).rdropWhile (· = c)

def orElse (text other : Str) : Str := if text = [] then other else text

/-- `_stable_slug`. -/
def stableSlug (value : Str) : Str :=
  let slug := stripOf 45 (subRuns 45 false (rules.casefold value))
  orElse (((orElse slug (Str.of "target")).take 240).rdropWhile (· = 45)) (Str.of "target")

/-- `_stable_id`. -/
def stableId (beginning : String) (parts : List Str) : Str :=
  let material := [46].intercalate (Str.of beginning :: parts)
  let value := stripOf 46 (subRuns 46 false (rules.casefold material))
  orElse ((value.take 110).rdropWhile (· = 46)) (Str.of "item") ++ 46 :: rules.shortDigest material

def spaced (value : String) : Str := (Str.of value).map fun c => if c = 95 then 32 else c

end texts

section evidence

/-- `model_dump(mode="json", exclude_none=True)`, with its keys in order. -/
def EvidenceRefV1.fields (evidence : EvidenceRefV1) : List (String × Str) :=
  let field (key : String) (value : Option Str) : List (String × Str) :=
    (value.map fun text => (key, text)).toList
  field "evidence_ref_id" (evidence.evidenceRefId.map (·.text)) ++ field "id" evidence.id ++
    [("kind", Str.of evidence.kind.value)] ++ field "record_id" (evidence.recordId.map (·.text)) ++
    field "ref" evidence.ref ++ [("source", Str.of evidence.source.value)] ++
    field "source_record_id" (evidence.sourceRecordId.map (·.text)) ++ field "url" evidence.url

def EvidenceRefV1.key (evidence : EvidenceRefV1) : Str :=
  JsonText.object (JsonText.strings (evidence.fields.map fun field => (Str.of field.1, field.2)))

/-- `_unique_evidence`: no two references have one key. -/
def uniqueEvidence (refs : List EvidenceRefV1) : List EvidenceRefV1 :=
  sortedSet (fun a b => Str.le a.key b.key) refs

end evidence

section signals

variable {Digest : Type} (rules : RelationshipRules Digest)

def refuseIf (bad : Bool) (error : RelationshipError) : Except RelationshipError Unit :=
  if bad then .error error else .ok ()

/-- What a model does not take. -/
def modelOf (valid : Bool) : Except RelationshipError Unit := refuseIf (!valid) .unexpected

def relationshipFactTypes : List (Str × RelationshipType) :=
  [("internal_package_dependency", RelationshipType.importsPackageFrom),
    ("api_call_target", .callsApiOf), ("event_consumer", .consumesEventFrom),
    ("deployed_repository", .deployedBy), ("container_image_dependency", .usesImageFrom),
    ("generated_client_target", .generatesClientFor), ("tested_repository", .tests),
    ("documented_repository", .documents), ("shared_schema_target", .sharesSchemaWith),
    ("shared_database_target", .sharesDatabaseWith),
    ("migration_target", .ownsMigrationsFor)].map fun entry => (Str.of entry.1, entry.2)

def staticSignal (workspaceId repositoryId : Uuid) (fact : StaticFact) :
    Option RelationshipSignal :=
  (Dict.get relationshipFactTypes fact.factType).map fun relationshipType =>
    { workspaceId
      fromRepositoryId := repositoryId
      relationshipType
      targetSelector := fact.value
      evidenceRefs := [fact.evidenceRef]
      sourceStatus := .observed }

def StaticCollection.signals (collection : StaticCollection) : List RelationshipSignal :=
  collection.facts.filterMap (staticSignal collection.workspaceId collection.repositoryId)

def signalLe (a b : RelationshipSignal) : Bool :=
  lex Str.le (lex Str.le Str.le)
    (a.fromRepositoryId.text, Str.of a.relationshipType.value, rules.casefold a.targetSelector)
    (b.fromRepositoryId.text, Str.of b.relationshipType.value, rules.casefold b.targetSelector)

/-- `relationship_signals_from_static_collection`. -/
def relationshipSignalsFromStaticCollection (collection : StaticCollection) :
    Except RelationshipError (List RelationshipSignal) := do
  collection.signals.forM fun signal =>
    modelOf (normalizeSelector rules signal.targetSelector).isSome
  return collection.signals.mergeSort (signalLe rules)

/-- The loop over the collections; `seen` has the repositories of those before. -/
def projectCollections (portfolio : RepositoryPortfolio) :
    List Uuid → List StaticCollection → Except RelationshipError (List RelationshipSignal)
  | _, [] => .ok []
  | seen, collection :: collections => do
    refuseIf (collection.workspaceId != portfolio.workspaceId)
      (.validation "static collection cannot cross portfolio workspaces")
    refuseIf (!portfolio.repositories.any (·.repositoryId = collection.repositoryId))
      (.validation "static collection repository is absent from the portfolio")
    refuseIf (seen.contains collection.repositoryId)
      (.validation "portfolio accepts one static collection per repository")
    let signals ← relationshipSignalsFromStaticCollection rules collection
    let rest ← projectCollections portfolio (collection.repositoryId :: seen) collections
    return signals ++ rest

end signals

section selectors

variable {Digest : Type} (rules : RelationshipRules Digest)

abbrev SelectorIndex := List ((RelationshipType × Str) × PortfolioEntry)

def PortfolioEntry.selectorSets (entry : PortfolioEntry) : List (RelationshipType × List Str) :=
  [(.importsPackageFrom, entry.packageNames), (.callsApiOf, entry.apiContracts),
    (.consumesEventFrom, entry.eventContracts), (.usesImageFrom, entry.imageNames),
    (.deployedBy, entry.deploymentTargets), (.tests, entry.testTargets),
    (.documents, entry.documentTargets), (.generatesClientFor, entry.apiContracts),
    (.sharesSchemaWith, entry.apiContracts), (.sharesDatabaseWith, []),
    (.ownsMigrationsFor, [entry.fullName])]

/-- An entry of the index is not taken over by another repository. -/
def indexSelector (entry : PortfolioEntry) (index : SelectorIndex)
    (key : RelationshipType × Str) : Except Unit SelectorIndex :=
  if (Dict.get index key).any (·.repositoryId ≠ entry.repositoryId) then .error ()
  else .ok (Dict.set index key entry)

def indexEntry (index : SelectorIndex) (entry : PortfolioEntry) : Except Unit SelectorIndex := do
  let typed := entry.selectorSets.flatMap fun selectors => selectors.2.map (selectors.1, ·)
  let index ← typed.foldlM (fun index selector =>
    match normalizeSelector rules selector.2 with
    | none => .error ()
    | some text => indexSelector entry index (selector.1, text)) index
  let stable := relationshipTypes.flatMap fun type =>
    [entry.externalId, entry.fullName].filterMap fun selector =>
      (normalizeSelector rules selector).map (type, ·)
  stable.foldlM (indexSelector entry) index

/-- `_selector_index`. -/
def selectorIndex (repositories : List PortfolioEntry) : Except Unit SelectorIndex :=
  repositories.foldlM (indexEntry rules) []

end selectors

section resolve

variable {Digest : Type} (rules : RelationshipRules Digest)

def PortfolioEntry.reference (entry : PortfolioEntry) : RepositoryReference :=
  ⟨entry.workspaceId, some entry.repositoryId, entry.externalId, entry.fullName, .canonical⟩

/-- `_candidate_reference`. -/
def candidateReference (workspaceId : Uuid) (relationshipType : RelationshipType)
    (selector : Str) : RepositoryReference :=
  let slug := stableSlug rules selector
  ⟨workspaceId, none,
    (Str.of "unresolved:" ++ Str.of relationshipType.value ++ 58 :: slug).take 255,
    (Str.of "unresolved/" ++ slug).take 500, .candidate⟩

/-- `_confidence`. -/
def relationshipConfidence (status : AnalyzerClaimStatus) (evidenceCount : Nat) (resolved : Bool) :
    Rat :=
  if status = .inferred then (if resolved then 11 / 20 else 2 / 5)
  else if !resolved then 7 / 10
  else min 1 (9 / 10 + 1 / 50 * ((evidenceCount - 1 : Nat) : Rat))

/-- `_relationship_id`. -/
def relationshipId (source : PortfolioEntry) (relationshipType : RelationshipType)
    (target : Option PortfolioEntry) (selector : Str) : Str :=
  stableId rules "relationship" [source.externalId, Str.of relationshipType.value,
    (target.map (·.externalId)).getD selector]

/-- `_relationship_summary`. -/
def relationshipSummary (source : PortfolioEntry) (relationshipType : RelationshipType)
    (target : Option PortfolioEntry) (selector : Str) (status : AnalyzerClaimStatus) : Str :=
  source.fullName ++ 32 :: spaced relationshipType.value ++
    32 :: (target.map (·.fullName)).getD selector ++ Str.of "; " ++ Str.of status.value ++
    Str.of (if target.isSome then " resolved candidate." else " unresolved candidate.")

/-- The validator of a relationship turns a symmetric one round. -/
def Relationship.normalized (relationship : Relationship) : Relationship :=
  if relationship.inOrder then relationship
  else { relationship with
    fromRepository := relationship.toRepository
    toRepository := relationship.fromRepository }

abbrev SignalKey := Uuid × RelationshipType × Str

def signalKey (signal : RelationshipSignal) : SignalKey :=
  (signal.fromRepositoryId, signal.relationshipType,
    (normalizeSelector rules signal.targetSelector).getD [])

def signalKeyLe (a b : SignalKey) : Bool :=
  lex Str.le (lex Str.le Str.le) (a.1.text, Str.of a.2.1.value, a.2.2)
    (b.1.text, Str.of b.2.1.value, b.2.2)

def checkSignal (portfolio : RepositoryPortfolio) (signal : RelationshipSignal) :
    Except RelationshipError Unit := do
  refuseIf (signal.workspaceId != portfolio.workspaceId)
    (.validation "relationship signal cannot cross portfolio workspaces")
  refuseIf (!portfolio.repositories.any (·.repositoryId = signal.fromRepositoryId))
    (.validation "relationship signal source is absent from the portfolio")
  refuseIf (normalizeSelector rules signal.targetSelector).isNone
    (.validation "relationship signal target selector is invalid")

/-- The status that what is observed has, whatever else is inferred. -/
def mergedStatus (observed : Bool) : AnalyzerClaimStatus := if observed then .observed else .inferred

def evidenceLimit : RelationshipError :=
  .limit "relationship evidence exceeds the configured bound"

/-- `repository_by_id`. -/
def RepositoryPortfolio.entry (portfolio : RepositoryPortfolio) (repositoryId : Uuid) :
    Option PortfolioEntry :=
  Dict.get (Dict.index (·.repositoryId) portfolio.repositories) repositoryId

/-- What the signals of one group come to. -/
def groupRelationship (portfolio : RepositoryPortfolio) (index : SelectorIndex)
    (policy : RelationshipPolicy) (key : SignalKey) (source : PortfolioEntry)
    (group : List RelationshipSignal) : Except RelationshipError Relationship := do
  let target := Dict.get index key.2
  refuseIf (target.any (·.repositoryId = key.1))
    (.validation "relationship signal resolved to a self-edge")
  let toReference := (target.map (·.reference)).getD
    (candidateReference rules portfolio.workspaceId key.2.1 key.2.2)
  modelOf toReference.valid
  let evidence := uniqueEvidence (group.flatMap (·.evidenceRefs))
  refuseIf (policy.maxEvidenceRefsPerRelationship < evidence.length) evidenceLimit
  let status := mergedStatus (group.any (·.sourceStatus = .observed))
  let relationship : Relationship := Relationship.normalized
    { workspaceId := portfolio.workspaceId
      status
      confidence := relationshipConfidence status evidence.length target.isSome
      evidenceRefs := evidence
      contradictingEvidenceRefs := []
      relationshipId := relationshipId rules source key.2.1 target key.2.2
      fromRepository := source.reference
      toRepository := toReference
      relationshipType := key.2.1
      summary := some (relationshipSummary source key.2.1 target key.2.2 status) }
  modelOf (relationship.valid rules.toEvidenceRules)
  return relationship

/-- `_merge_relationships`. -/
def mergeRelationships (policy : RelationshipPolicy) (left right : Relationship) :
    Except RelationshipError Relationship := do
  let evidence := uniqueEvidence (left.evidenceRefs ++ right.evidenceRefs)
  refuseIf (policy.maxEvidenceRefsPerRelationship < evidence.length) evidenceLimit
  let status := mergedStatus (left.status == .observed || right.status == .observed)
  return { left with
    status
    confidence := relationshipConfidence status evidence.length
      (left.toRepository.resolutionStatus == .canonical)
    evidenceRefs := evidence
    summary := left.summary.or right.summary }

abbrev RelationshipsByIdentity := List (RelationshipKey × Relationship)

def addRelationship (policy : RelationshipPolicy) (found : RelationshipsByIdentity)
    (relationship : Relationship) : Except RelationshipError RelationshipsByIdentity :=
  match Dict.get found relationship.normalizedIdentity with
  | some existing =>
    (mergeRelationships policy existing relationship).map
      (Dict.set found relationship.normalizedIdentity)
  | none =>
    let found := Dict.set found relationship.normalizedIdentity relationship
    (refuseIf (policy.maxRelationships < found.length)
      (.limit "relationship analysis exceeds the configured edge bound")).map fun _ => found

def directionalTypes : List RelationshipType :=
  [.callsApiOf, .importsPackageFrom, .consumesEventFrom, .deployedBy, .usesImageFrom,
    .generatesClientFor, .tests, .documents, .replaces, .forkedFrom, .ownsMigrationsFor]

/-- `_reject_directional_contradictions`. -/
def rejectDirectionalContradictions : List RelationshipKey → List Relationship →
    Except RelationshipError Unit
  | _, [] => .ok ()
  | seen, relationship :: relationships =>
    if directionalTypes.contains relationship.relationshipType &&
        relationship.toRepository.resolutionStatus == .canonical then do
      refuseIf (seen.contains (relationship.relationshipType,
          relationship.toRepository.stableIdentity, relationship.fromRepository.stableIdentity))
        (.validation
          "opposing directional relationship candidates require explicit contradiction review")
      rejectDirectionalContradictions (relationship.normalizedIdentity :: seen) relationships
    else rejectDirectionalContradictions seen relationships

def relationshipLe (a b : Relationship) : Bool :=
  lex (lex Str.le Str.le) (lex Str.le (lex Str.le Str.le))
    (a.fromRepository.orderingKey, Str.of a.relationshipType.value, a.toRepository.orderingKey)
    (b.fromRepository.orderingKey, Str.of b.relationshipType.value, b.toRepository.orderingKey)

/-- `_resolve_signals`. A source that the portfolio has not is refused before. -/
def resolveSignals (portfolio : RepositoryPortfolio) (index : SelectorIndex)
    (signals : List RelationshipSignal) (policy : RelationshipPolicy) :
    Except RelationshipError (List Relationship) := do
  signals.forM (checkSignal rules portfolio)
  let keys := sortedSet signalKeyLe (signals.map (signalKey rules))
  let found ← keys.foldlM (fun found key =>
    match portfolio.entry key.1 with
    | none => .error .unexpected
    | some source => do
      let group := signals.filter (signalKey rules · = key)
      addRelationship policy found (← groupRelationship rules portfolio index policy key source group))
    []
  rejectDirectionalContradictions [] (found.map (·.2))
  return (found.map (·.2)).mergeSort relationshipLe

end resolve

section graph

variable {Digest : Type} (rules : RelationshipRules Digest)

def uuidLe (a b : Uuid) : Bool := Str.le a.text b.text

/-- The repositories that a node has a directional relationship to. -/
def adjacency (relationships : List Relationship) (node : Uuid) : List Uuid :=
  sortedSet uuidLe (relationships.filterMap fun relationship =>
    if symmetricRelationshipTypes.contains relationship.relationshipType ||
        relationship.fromRepository.repositoryId != some node then none
    else relationship.toRepository.repositoryId)

/-- The order of lists of ids, by their texts. -/
def idsLe : List Uuid → List Uuid → Bool
  | [], _ => true
  | _ :: _, [] => false
  | a :: rest, b :: rest' => if a = b then idsLe rest rest' else uuidLe a b

/-- `_find_cycles`. -/
def findCycles (portfolio : RepositoryPortfolio) (relationships : List Relationship)
    (policy : RelationshipPolicy) : Except RelationshipError (List (List Uuid)) := do
  let nodes := sortedSet uuidLe (portfolio.repositories.map (·.repositoryId))
  let cycles := (((Components.components (adjacency relationships) nodes).filter
    (1 < ·.length)).map (·.mergeSort uuidLe)).mergeSort idsLe
  refuseIf (policy.maxCycles < cycles.length)
    (.limit "relationship graph exceeds the configured cycle bound")
  refuseIf (cycles.any (policy.maxCycleDepth < ·.length))
    (.limit "relationship graph exceeds the configured cycle-depth bound")
  return cycles

def GraphFinding.valid (finding : GraphFinding) : Bool :=
  lengthWithin 1 128 finding.findingId && safe finding.findingId &&
    finding.repositoryIds.length ≤ repositoryIntelligenceMaxItems &&
    finding.relationshipIds.length ≤ repositoryIntelligenceMaxItems &&
    finding.relationshipIds.all (lengthWithin 1 128) && summaryText finding.summary &&
    safe finding.summary &&
    finding.evidenceRefs.length ≤ repositoryIntelligenceMaxEvidenceRefs &&
    finding.evidenceRefs.all (·.valid rules.toEvidenceRules)

/-- `relationship_by_id`. -/
def relationshipById (relationships : List Relationship) (id : Str) : Option Relationship :=
  Dict.get (Dict.index (·.relationshipId) relationships) id

/-- The id in hexadecimal digits, without hyphens. -/
def hex (id : Uuid) : Str := id.text.filter (· ≠ 45)

def cycleFinding (relationships : List Relationship) (cycle : List Uuid) : GraphFinding :=
  let within (reference : RepositoryReference) : Bool :=
    reference.repositoryId.any cycle.contains
  let relationshipIds := ((relationships.filter fun relationship =>
    within relationship.fromRepository && within relationship.toRepository).map
      (·.relationshipId)).mergeSort Str.le
  { findingId := stableId rules "graph-cycle" (cycle.map hex)
    findingType := .cycle
    repositoryIds := cycle
    relationshipIds
    summary := Str.of "Directional repository relationships contain a cycle."
    evidenceRefs := uniqueEvidence (relationshipIds.flatMap fun id =>
      ((relationshipById relationships id).map (·.evidenceRefs)).getD []) }

def orphanFinding (repositoryId : Uuid) : GraphFinding where
  findingId := stableId rules "graph-orphan" [hex repositoryId]
  findingType := .orphan
  repositoryIds := [repositoryId]
  relationshipIds := []
  summary := Str.of "Repository has no observed or inferred portfolio relationship."
  evidenceRefs := []

def unresolvedFinding (relationships : List Relationship) (relationshipId : Str) : GraphFinding :=
  let relationship := relationshipById relationships relationshipId
  { findingId := stableId rules "graph-unresolved" [relationshipId]
    findingType := .unresolvedTarget
    repositoryIds := (relationship.bind (·.fromRepository.repositoryId)).toList
    relationshipIds := [relationshipId]
    summary := Str.of "Relationship target is not resolved to a portfolio repository."
    evidenceRefs := (relationship.map (·.evidenceRefs)).getD [] }

/-- `_graph_findings`; no finding is a contradiction. -/
def graphFindings (relationships : List Relationship) (cycles : List (List Uuid))
    (orphans : List Uuid) (unresolved : List Str) (policy : RelationshipPolicy) :
    Except RelationshipError (List GraphFinding) := do
  let findings := cycles.map (cycleFinding rules relationships) ++
    orphans.map (orphanFinding rules) ++ unresolved.map (unresolvedFinding rules relationships)
  modelOf (findings.all (·.valid rules))
  refuseIf (policy.maxFindings < findings.length)
    (.limit "relationship graph exceeds the configured finding bound")
  return findings.mergeSort fun a b => Str.le a.findingId b.findingId

/-- `RELATIONSHIP_INVERSE_VIEW`. -/
def relationshipInverseView : RelationshipType → String
  | .callsApiOf => "provides_api_to"
  | .importsPackageFrom => "publishes_package_consumed_by"
  | .consumesEventFrom => "produces_event_for"
  | .deployedBy => "deploys"
  | .usesImageFrom => "builds_image_for"
  | .generatesClientFor => "generated_from_contract_in"
  | type => type.value

/-- `_inverse_view`. -/
def inverseView (relationship : Relationship) : Str :=
  if symmetricRelationshipTypes.contains relationship.relationshipType then
    relationship.fromRepository.fullName ++ 32 :: spaced relationship.relationshipType.value ++
      32 :: relationship.toRepository.fullName
  else
    relationship.toRepository.fullName ++
      32 :: spaced (relationshipInverseView relationship.relationshipType) ++
      32 :: relationship.fromRepository.fullName

end graph

section analysis

variable {Digest : Type} (rules : RelationshipRules Digest)

/-- `RepositoryRelationshipAnalysisV1`, with the models of its parts. -/
def RelationshipAnalysis.valid (analysis : RelationshipAnalysis) : Bool :=
  let few {R : Type} (rows : List R) : Bool := rows.length ≤ repositoryIntelligenceMaxItems
  let ids : List Str := analysis.relationships.map (·.relationshipId)
  few analysis.relationships && analysis.relationships.all (·.valid rules.toEvidenceRules) &&
    few analysis.inverseViews && analysis.inverseViews.all shortText && few analysis.cycles &&
    few analysis.orphanRepositoryIds && few analysis.unresolvedRelationshipIds &&
    analysis.unresolvedRelationshipIds.all (lengthWithin 1 128) && few analysis.findings &&
    analysis.findings.all (·.valid rules) && few analysis.limitations &&
    analysis.limitations.all summaryText &&
    analysis.relationships.all (·.workspaceId == analysis.workspaceId) && decide ids.Nodup &&
    decide (analysis.relationships.map (·.normalizedIdentity)).Nodup &&
    analysis.unresolvedRelationshipIds.all ids.contains &&
    decide (analysis.findings.map (·.findingId)).Nodup &&
    analysis.inverseViews.length == analysis.relationships.length &&
    decide (analysis.cycles.map (·.mergeSort uuidLe)).Nodup &&
    decide analysis.orphanRepositoryIds.Nodup && decide analysis.unresolvedRelationshipIds.Nodup

section json

open JsonText

def text (value : String) : Str := quote (Str.of value)
def null : Str := Str.of "null"
def nullable (value : Option Str) : Str := (value.map quote).getD null
def record (fields : List (String × Str)) : Str :=
  object (fields.map fun field => (Str.of field.1, field.2))

def EvidenceRefV1.json (evidence : EvidenceRefV1) : Str :=
  record [("evidence_ref_id", nullable (evidence.evidenceRefId.map (·.text))),
    ("id", nullable evidence.id), ("kind", text evidence.kind.value),
    ("record_id", nullable (evidence.recordId.map (·.text))), ("ref", nullable evidence.ref),
    ("source", text evidence.source.value),
    ("source_record_id", nullable (evidence.sourceRecordId.map (·.text))),
    ("url", nullable evidence.url)]

def ResolutionStatus.value : ResolutionStatus → String
  | canonical => "canonical"
  | candidate => "candidate"

def RepositoryReference.json (reference : RepositoryReference) : Str :=
  record [("external_id", quote reference.externalId), ("full_name", quote reference.fullName),
    ("provider", text "github"),
    ("repository_id", nullable (reference.repositoryId.map (·.text))),
    ("resolution_status", text reference.resolutionStatus.value),
    ("workspace_id", quote reference.workspaceId.text)]

def Relationship.json (relationship : Relationship) : Str :=
  record [("confidence", rules.confidenceText relationship.confidence),
    ("contradicting_evidence_refs",
      array (relationship.contradictingEvidenceRefs.map (·.json))),
    ("evidence_refs", array (relationship.evidenceRefs.map (·.json))),
    ("from_repository", relationship.fromRepository.json),
    ("human_resolution", record [("resolved_at", null), ("resolved_by_user_id", null),
      ("status", text "pending")]),
    ("reconciliation_status", text "current"),
    ("relationship_id", quote relationship.relationshipId),
    ("relationship_type", text relationship.relationshipType.value),
    ("status", text relationship.status.value), ("summary", nullable relationship.summary),
    ("to_repository", relationship.toRepository.json),
    ("workspace_id", quote relationship.workspaceId.text)]

def GraphFindingType.value : GraphFindingType → String
  | cycle => "cycle"
  | orphan => "orphan"
  | unresolvedTarget => "unresolved_target"
  | contradiction => "contradiction"

def idsJson (ids : List Uuid) : Str := array (ids.map fun id => quote id.text)

def GraphFinding.json (finding : GraphFinding) : Str :=
  record [("evidence_refs", array (finding.evidenceRefs.map (·.json))),
    ("finding_id", quote finding.findingId), ("finding_type", text finding.findingType.value),
    ("relationship_ids", array (finding.relationshipIds.map quote)),
    ("repository_ids", idsJson finding.repositoryIds), ("summary", quote finding.summary)]

/-- `deterministic_json`, before it is encoded. -/
def RelationshipAnalysis.deterministicJson (analysis : RelationshipAnalysis) : Str :=
  record [("cycles", array (analysis.cycles.map idsJson)),
    ("findings", array (analysis.findings.map (·.json))),
    ("inverse_views", array (analysis.inverseViews.map quote)),
    ("limitations", array (analysis.limitations.map quote)),
    ("orphan_repository_ids", idsJson analysis.orphanRepositoryIds),
    ("relationships", array (analysis.relationships.map (·.json rules))),
    ("schema_version", text "repository_relationship_analysis.v1"),
    ("unresolved_relationship_ids", array (analysis.unresolvedRelationshipIds.map quote)),
    ("workspace_id", quote analysis.workspaceId.text)]

end json

def repositoryIntelligenceMaxBytes : Nat := 64 * 1024

def analysisLimitations : List Str :=
  ["Relationship candidates use only trusted synthetic portfolio metadata and RI-004 facts.",
    "Name similarity alone never creates a relationship.",
    "Observed and inferred candidates remain pending human confirmation.",
    "Graph validation performs no repository read, target execution, persistence, provider or LLM call."].map
    Str.of

/-- `validate_repository_relationship_analysis_json`, of the text of an analysis. -/
def validateRepositoryRelationshipAnalysisJson (analysis : RelationshipAnalysis) :
    Except RelationshipError RelationshipAnalysis := do
  refuseIf (repositoryIntelligenceMaxBytes < JsonText.utf8Size (analysis.deterministicJson rules))
    (.limit "relationship payload exceeds the configured byte bound")
  refuseIf (!analysis.valid rules)
    (.validation "relationship payload failed strict validation")
  return analysis

/-- `build_repository_relationship_analysis` from the relationships on. -/
def analysisOf (portfolio : RepositoryPortfolio) (policy : RelationshipPolicy)
    (relationships : List Relationship) : Except RelationshipError RelationshipAnalysis := do
  let cycles ← findCycles portfolio relationships policy
  let connected := relationships.flatMap fun relationship =>
    (relationship.fromRepository.repositoryId.toList ++
      relationship.toRepository.repositoryId.toList)
  let orphans := sortedSet uuidLe ((portfolio.repositories.map (·.repositoryId)).filter
    (!connected.contains ·))
  let unresolved := ((relationships.filter
    (·.toRepository.resolutionStatus = .candidate)).map (·.relationshipId)).mergeSort Str.le
  let findings ← graphFindings rules relationships cycles orphans unresolved policy
  let result : RelationshipAnalysis :=
    { workspaceId := portfolio.workspaceId
      relationships
      inverseViews := relationships.map inverseView
      cycles
      orphanRepositoryIds := orphans
      unresolvedRelationshipIds := unresolved
      findings
      limitations := analysisLimitations }
  modelOf (result.valid rules)
  refuseIf (policy.maxOutputBytes < JsonText.utf8Size (result.deterministicJson rules))
    (.limit "relationship analysis exceeds the configured output byte bound")
  validateRepositoryRelationshipAnalysisJson rules result

/-- The rest, once the signals of the collections are projected. -/
def analyzeSignals (portfolio : RepositoryPortfolio) (policy : RelationshipPolicy)
    (signals : List RelationshipSignal) : Except RelationshipError RelationshipAnalysis := do
  refuseIf (policy.maxRelationships * policy.maxEvidenceRefsPerRelationship < signals.length)
    (.limit "relationship signals exceed the configured input bound")
  let index ← (selectorIndex rules portfolio.repositories).mapError fun _ =>
    .validation "portfolio relationship selectors failed strict validation"
  let relationships ← resolveSignals rules portfolio index signals policy
  analysisOf rules portfolio policy relationships

def buildRepositoryRelationshipAnalysis (portfolio : RepositoryPortfolio)
    (collections : List StaticCollection) (signals : List RelationshipSignal)
    (policy : RelationshipPolicy) : Except RelationshipError RelationshipAnalysis := do
  refuseIf (policy.maxRepositories < portfolio.repositories.length)
    (.limit "relationship portfolio exceeds the configured repository bound")
  let projected ← projectCollections rules portfolio [] collections
  analyzeSignals rules portfolio policy (projected ++ signals)

end analysis

end FounderOs.RepositoryAudit
