import FounderOs.RepositoryAudit.CrossSource
import FounderOs.RepositoryAudit.SameStory

namespace FounderOs.RepositoryAudit.CrossSource

open Headquarters

section purpose

variable {Digest : Type} (rules : CrossSourceRules Digest) (collate : Str → Str → Ordering)
variable (db : CrossSourceTables) (workspaceId : Uuid) (repository : CanonicalRepository)

/-- Every source of a workspace, also beyond the bounds of the queries. -/
def CrossSourceTables.allSources : List Source :=
  gatherSources rules (db.orderedTasks workspaceId) (db.orderedPullRequests workspaceId)
    (db.orderedDocuments workspaceId)

/-- The claims of a source that are about the repository. -/
def acceptedClaims (source : Source) : List Claim :=
  match claimSetFromSource rules source with
  | .ok (.ok claims) => if targets rules repository claims then claims else []
  | _ => []

def CrossSourceTables.accepted : List (Source × Claim) :=
  (db.allSources rules workspaceId).flatMap fun source =>
    (acceptedClaims rules repository source).map fun claim => (source, claim)

/-- What all current facts of the repository make of a claim. -/
def CrossSourceTables.statusByAllFacts (claim : Claim) : ComparisonStatus :=
  statusFrom ((db.currentFacts collate workspaceId repository).find? fun fact =>
    factIdentity fact = claim.identity) claim

/-- Each accepted claim is compared once, with all current facts. -/
def Complete (result : CrossSourceResult) : Prop :=
  (result.comparisons.map fun comparison =>
    (comparison.source, comparison.sourceClaim, comparison.status)).Perm
  ((db.accepted rules workspaceId repository).map fun entry =>
    (entry.1.payload rules, entry.2,
      db.statusByAllFacts collate workspaceId repository entry.2))

/-- No fact beyond the bound of the query can settle an accepted claim. -/
def Covered : Prop :=
  ∀ entry ∈ db.accepted rules workspaceId repository,
    ∀ fact ∈ (db.currentFacts collate workspaceId repository).drop maxFacts,
      factIdentity fact = entry.2.identity → settledValue fact entry.2.field = none

/-- The unique constraint on the fingerprints of facts, and what they are the digest of. -/
structure CrossSourceTables.Keyed : Prop where
  unique : (db.facts.map fun fact =>
    (fact.workspaceId, fact.repositoryId, fact.fingerprint)).Nodup
  fingerprint : ∀ fact ∈ db.facts, fact.fingerprint = factIdentity fact

end purpose

section reading

variable {Digest : Type} {rules : CrossSourceRules Digest} {db : CrossSourceTables}
variable {workspaceId : Uuid} {repository : CanonicalRepository} {facts : List FactRecord}
variable {source : Source} {reading next : Reading}

theorem compare_whole {claims : List Claim}
    (h : (claims.foldl (Reading.compare rules db facts source) reading).comparisonsTruncated =
      false) :
    reading.comparisonsTruncated = false ∧
      (claims.foldl (Reading.compare rules db facts source) reading).comparisons =
        reading.comparisons ++ claims.map (compareOne rules db facts source) := by
  induction claims generalizing reading with
  | nil => exact ⟨h, (List.append_nil _).symm⟩
  | cons claim claims ih =>
    rw [List.foldl_cons] at h ⊢
    obtain ⟨hone, hrest⟩ := ih h
    rw [hrest]
    unfold Reading.compare at hone ⊢
    split at hone
    · rename_i hbroken
      rw [hbroken] at hone
      cases hone
    · rename_i hopen
      split at hone
      · cases hone
      · rename_i hroom
        rw [if_neg hopen, if_neg hroom]
        exact ⟨hone, by simp⟩

theorem visit_whole (h : Reading.visit rules db repository facts reading source = .ok next)
    (hwhole : next.comparisonsTruncated = false) :
    reading.comparisonsTruncated = false ∧ next.comparisons = reading.comparisons ++
      (acceptedClaims rules repository source).map (compareOne rules db facts source) := by
  unfold Reading.visit at h
  split at h
  · rename_i hbroken
    cases h
    rw [hbroken] at hwhole
    cases hwhole
  · obtain ⟨read, hread, hnext⟩ := ok_of_bind_ok h
    rw [acceptedClaims, hread]
    cases read with
    | error errorCode =>
      cases hnext
      exact ⟨hwhole, (List.append_nil _).symm⟩
    | ok claims =>
      dsimp only at hnext ⊢
      split at hnext
      · rename_i htargets
        cases hnext
        rw [if_pos htargets]
        exact compare_whole hwhole
      · rename_i hother
        cases hnext
        rw [if_neg hother]
        exact ⟨hwhole, (List.append_nil _).symm⟩

theorem reading_whole {sources : List Source}
    (h : sources.foldlM (Reading.visit rules db repository facts) Reading.start = .ok reading)
    (hwhole : reading.comparisonsTruncated = false) :
    reading.comparisons = sources.flatMap fun source =>
      (acceptedClaims rules repository source).map (compareOne rules db facts source) := by
  refine foldlM_invariant (P := fun reading done => reading.comparisonsTruncated = false →
    reading.comparisons = done.flatMap fun source => (acceptedClaims rules repository source).map
      (compareOne rules db facts source)) ?_ (fun _ => rfl) h hwhole
  intro reading done source next hbefore hvisit hnext
  obtain ⟨hopen, hone⟩ := visit_whole hvisit hnext
  rw [hone, hbefore hopen, List.flatMap_append, List.flatMap_singleton]

theorem crossSourceRecords_whole (h : (db.crossSourceRecords rules workspaceId).2 = false) :
    (db.crossSourceRecords rules workspaceId).1 = db.allSources rules workspaceId := by
  have hpage {R : Type} {rows : List R}
      (hfew : ¬maxSources < (rows.take (maxSources + 1)).length) :
      (rows.take (maxSources + 1)).take maxSources = rows := by
    rw [List.length_take] at hfew
    rw [List.take_take, List.take_of_length_le (by omega)]
  simp only [CrossSourceTables.crossSourceRecords, Bool.or_eq_false_iff,
    decide_eq_false_iff_not] at h ⊢
  obtain ⟨⟨⟨htasks, hpullRequests⟩, hdocuments⟩, hsources⟩ := h
  rw [List.take_of_length_le (Nat.not_lt.1 hsources), hpage htasks, hpage hpullRequests,
    hpage hdocuments]
  rfl

end reading

section complete

variable {Digest : Type} {rules : CrossSourceRules Digest} {collate : Str → Str → Ordering}
variable {db : CrossSourceTables} {workspaceId : Uuid} {repository : CanonicalRepository}
variable {result : CrossSourceResult} {claim : Claim}

theorem currentFacts_nodup (h : db.Keyed) :
    ((db.currentFacts collate workspaceId repository).map factIdentity).Nodup := by
  have hkeys := List.pairwise_map.1 h.unique
  rw [CrossSourceTables.currentFacts, (sortedBy_perm.map factIdentity).nodup_iff]
  refine List.pairwise_map.2 ((hkeys.filter _).imp_of_mem ?_)
  intro a b ha hb hapart hsame
  simp only [List.mem_filter, Bool.and_eq_true, decide_eq_true_eq] at ha hb
  apply hapart
  rw [h.fingerprint a ha.1, h.fingerprint b hb.1, hsame, ha.2.1.1.1, hb.2.1.1.1, ha.2.1.1.2,
    hb.2.1.1.2]

theorem statusFrom_insufficient {fact : FactRecord} :
    statusFrom (some fact) claim = .insufficientEvidence ↔ settledValue fact claim.field = none := by
  simp only [statusFrom, Option.bind_some]
  cases settledValue fact claim.field with
  | none => exact ⟨fun _ => rfl, fun _ => rfl⟩
  | some value =>
    dsimp only
    split <;> simp

/-- The facts that were read make of a claim what all facts do. -/
theorem status_capped_iff (h : db.Keyed) :
    statusFrom (Dict.get (Dict.index factIdentity
        ((db.currentFacts collate workspaceId repository).take maxFacts)) claim.identity) claim =
      db.statusByAllFacts collate workspaceId repository claim ↔
    ∀ fact ∈ (db.currentFacts collate workspaceId repository).drop maxFacts,
      factIdentity fact = claim.identity → settledValue fact claim.field = none := by
  have hkeys : ((db.currentFacts collate workspaceId repository).map factIdentity).Nodup :=
    currentFacts_nodup h
  rw [CrossSourceTables.statusByAllFacts]
  generalize db.currentFacts collate workspaceId repository = facts at hkeys ⊢
  have hunique : Dict.Unique factIdentity facts := .of_nodup hkeys
  have hread : Dict.get (Dict.index factIdentity (facts.take maxFacts)) claim.identity =
      (facts.take maxFacts).find? fun fact => factIdentity fact = claim.identity :=
    Dict.get_index_eq_find? (hunique.subset fun _ => List.mem_of_mem_take)
  have hall : (facts.find? fun fact => factIdentity fact = claim.identity) =
      ((facts.take maxFacts).find? fun fact => factIdentity fact = claim.identity).or
        ((facts.drop maxFacts).find? fun fact => factIdentity fact = claim.identity) := by
    rw [← List.find?_append, List.take_append_drop]
  rw [hread, hall]
  cases hearly : (facts.take maxFacts).find? fun fact => factIdentity fact = claim.identity with
  | some early =>
    -- A fact further on with this identity would be a second one.
    refine iff_of_true rfl fun fact hfact hidentity => ?_
    rw [← List.take_append_drop maxFacts facts, List.map_append, List.nodup_append] at hkeys
    have hfound : factIdentity early = claim.identity := by simpa using List.find?_some hearly
    exact absurd (hfound.trans hidentity.symm) (hkeys.2.2 _
      (List.mem_map_of_mem (List.mem_of_find?_eq_some hearly)) _ (List.mem_map_of_mem hfact))
  | none =>
    have hlate (fact : FactRecord) : ((facts.drop maxFacts).find? fun fact =>
        factIdentity fact = claim.identity) = some fact ↔
          fact ∈ facts.drop maxFacts ∧ factIdentity fact = claim.identity :=
      Dict.find?_key (hunique.subset fun _ => List.mem_of_mem_drop)
    rw [Option.none_or]
    cases hfound : (facts.drop maxFacts).find? fun fact => factIdentity fact = claim.identity with
    | none =>
      refine iff_of_true rfl fun fact hfact hidentity => ?_
      rw [(hlate fact).2 ⟨hfact, hidentity⟩] at hfound
      cases hfound
    | some late =>
      rw [eq_comm, show statusFrom none claim = .insufficientEvidence from rfl,
        statusFrom_insufficient]
      constructor
      · intro hunsettled fact hfact hidentity
        rw [(hlate fact).2 ⟨hfact, hidentity⟩] at hfound
        cases hfound
        exact hunsettled
      · intro hrest
        obtain ⟨hmem, hidentity⟩ := (hlate late).1 hfound
        exact hrest late hmem hidentity

/-- The result of a read that no flag says was cut short. -/
theorem comparisons_whole
    (h : buildRepositoryCrossSourceComparisons rules collate db workspaceId repository = .ok result)
    (hwhole : result.truncated.none = true) :
    result.comparisons = (db.accepted rules workspaceId repository).map fun entry =>
      compareOne rules db ((db.currentFacts collate workspaceId repository).take maxFacts)
        entry.1 entry.2 := by
  obtain ⟨reading, hreading, hresult⟩ := ok_of_bind_ok h
  cases hresult
  simp only [CrossSourceTruncated.none, Bool.and_eq_true, Bool.not_eq_true'] at hwhole
  obtain ⟨⟨hsources, hcomparisons⟩, -⟩ := hwhole
  rw [crossSourceRecords_whole hsources] at hreading
  rw [CrossSourceTables.accepted, List.map_flatMap]
  simp only [List.map_map]
  exact reading_whole hreading hcomparisons

theorem complete_of_comparisons {facts : List FactRecord}
    (h : result.comparisons = (db.accepted rules workspaceId repository).map fun entry =>
      compareOne rules db facts entry.1 entry.2) :
    Complete rules collate db workspaceId repository result ↔
      ∀ entry ∈ db.accepted rules workspaceId repository,
        statusFrom (Dict.get (Dict.index factIdentity facts) entry.2.identity) entry.2 =
          db.statusByAllFacts collate workspaceId repository entry.2 := by
  rw [Complete, h, List.map_map]
  constructor
  · intro hperm entry hentry
    obtain ⟨other, -, hother⟩ := List.mem_map.1 (hperm.subset (List.mem_map_of_mem hentry))
    have hclaim : other.2 = entry.2 := congrArg (·.2.1) hother
    have hstatus : db.statusByAllFacts collate workspaceId repository other.2 =
        statusFrom (Dict.get (Dict.index factIdentity facts) entry.2.identity) entry.2 :=
      congrArg (·.2.2) hother
    rw [← hstatus, hclaim]
  · intro hall
    refine List.Perm.of_eq (List.map_congr_left fun entry hentry => ?_)
    rw [← hall entry hentry]
    rfl

/-- A read that no flag says was cut short is complete exactly when no fact beyond the bound of
its query could have settled a claim. -/
theorem complete_iff_covered (hkeyed : db.Keyed)
    (h : buildRepositoryCrossSourceComparisons rules collate db workspaceId repository = .ok result)
    (hwhole : result.truncated.none = true) :
    Complete rules collate db workspaceId repository result ↔
      Covered rules collate db workspaceId repository := by
  rw [complete_of_comparisons (comparisons_whole h hwhole), Covered]
  exact forall₂_congr fun entry _ => status_capped_iff hkeyed

end complete

section samples

open Proposals (Value)

theorem digit_lt (n : Nat) : n % 10 < 10 := Nat.mod_lt n (Nat.zero_lt_succ 9)

def digitOf (n : Nat) : Fin 10 := ⟨n % 10, digit_lt n⟩

theorem isUuidText_digits (a b c : Fin 10) :
    isUuidText (Str.of "00000000-0000-4000-8000-000000000" ++
      [48 + a.val, 48 + b.val, 48 + c.val]) = true := by
  have hdigit (d : Fin 10) : 48 + d.val ≠ 45 ∧ 48 + d.val ≤ 57 := by omega
  have hkept : [48 + a.val, 48 + b.val, 48 + c.val].filter (· != 45) =
      [48 + a.val, 48 + b.val, 48 + c.val] := by
    simp [hdigit]
  simp [isUuidText, Str.of, List.splitOn, List.splitOnP_cons_eq_if_modifyHead, List.splitOnP_nil,
    hkept, hdigit]

def numberedId (n : Nat) : Uuid :=
  ⟨_, isUuidText_digits (digitOf (n / 100)) (digitOf (n / 10)) (digitOf n)⟩

/-- What is read of the one claim set there is. -/
def sampleRules : CrossSourceRules (List Fields) :=
  { asciiRules with
    loads := fun _ => .error .invalid
    encodedSize := fun _ => some 253
    number := fun _ => 1
    comparisonId := fun _ => [] }

def sampleClaim : Claim where
  repositoryId := sampleRepository
  repositoryFullName := Str.of "acme/app"
  factType := .purpose
  claimId := Str.of "purpose.primary"
  field := .repositoryType
  expectedValue := Str.of "backend_service"
  summary := Str.of "A service."
  confidence := 1

def sampleClaimSet : Value :=
  .obj [(Str.of "claims", .arr [.obj
    [(Str.of "claim_id", .str (Str.of "purpose.primary")), (Str.of "confidence", .num [49]),
      (Str.of "expected_value", .str (Str.of "backend_service")),
      (Str.of "fact_type", .str (Str.of "purpose")),
      (Str.of "field", .str (Str.of "repository_type")),
      (Str.of "repository_full_name", .str (Str.of "acme/app")),
      (Str.of "repository_id", .str sampleRepository.text),
      (Str.of "summary", .str (Str.of "A service."))]])]

def sampleTask : WorkRow where
  id := sampleId 1
  workspaceId := sampleWorkspace
  provider := Str.of "jira"
  sourceRecordId := sampleId 2
  recordProvider := Str.of "jira"
  recordType := Str.of "issue"
  recordDeleted := false
  externalId := some (Str.of "APP-1")
  title := Str.of "Name the service"
  sourceUrl := none
  sourceUpdatedAt := none
  writtenAt := 5
  metadata := .obj [(metadataKey, sampleClaimSet)]

def sampleFact (n : Nat) (factType : FactType) (claimId : Str) (value : FactValue) :
    FactRecord where
  claimId := claimId
  factType := factType
  value := value
  claimStatus := .observed
  confidence := 1
  lifecycleStatus := .current
  firstSeenRunId := sampleId 3
  lastSeenRunId := sampleId 3
  staleAt := none
  links := []
  id := numberedId n
  workspaceId := sampleWorkspace
  repositoryId := sampleRepository
  fingerprint := (factType, claimId)
  humanResolutionStatus := .pending
  updatedAt := 5

def purposeFact : FactRecord :=
  sampleFact 500 .purpose (Str.of "purpose.primary") (.purpose none none .backendService)

def dependencyFact (n : Nat) : FactRecord :=
  sampleFact n .dependencyConsumed [97 + n / 25, 97 + n % 25] (.claim (Str.of "package") none [])

/-- A repository with this many dependencies, and what it is for. -/
def crowdedTables (n : Nat) : CrossSourceTables where
  repositories := []
  runs := []
  facts := (List.range n).map dependencyFact ++ [purposeFact]
  relationships := []
  findings := []
  contradictions := []
  evidence := []
  tasks := [sampleTask]
  pullRequests := []
  documents := []

def sampleRow : CanonicalRepository := sampleListed sampleRepository "acme/app"

theorem crowded_identities (n : Nat) :
    ((crowdedTables n).facts.map factIdentity).Nodup := by
  have hdependencies : ((List.range n).map dependencyFact).Pairwise fun a b =>
      factIdentity a ≠ factIdentity b := by
    refine List.pairwise_map.2 ((List.pairwise_lt_range (n := n)).imp ?_)
    intro a b hlt hsame
    obtain ⟨hhigh, hlow⟩ : 97 + a / 25 = 97 + b / 25 ∧ 97 + a % 25 = 97 + b % 25 := by
      simpa [factIdentity, dependencyFact, sampleFact] using hsame
    omega
  refine List.pairwise_map.2 (List.pairwise_append.2
    ⟨hdependencies, List.pairwise_singleton _ _, fun fact hfact other hother hsame => ?_⟩)
  obtain ⟨m, -, rfl⟩ := List.mem_map.1 hfact
  cases List.mem_singleton.1 hother
  cases congrArg Prod.fst hsame

theorem crowdedTables_keyed (n : Nat) : (crowdedTables n).Keyed := by
  have hfingerprint : ∀ fact ∈ (crowdedTables n).facts, fact.fingerprint = factIdentity fact := by
    intro fact hfact
    rcases List.mem_append.1 hfact with hdependency | hpurpose
    · obtain ⟨m, -, rfl⟩ := List.mem_map.1 hdependency
      rfl
    · cases List.mem_singleton.1 hpurpose
      rfl
  refine ⟨List.pairwise_map.2 ((List.pairwise_map.1 (crowded_identities n)).imp_of_mem ?_),
    hfingerprint⟩
  intro a b ha hb hapart hsame
  apply hapart
  rw [← hfingerprint a ha, ← hfingerprint b hb]
  exact congrArg (·.2.2) hsame

theorem crowded_currentFacts (n : Nat) :
    (crowdedTables n).currentFacts (byText id) sampleWorkspace sampleRow =
      (List.range n).map dependencyFact ++ [purposeFact] := by
  have hall : (crowdedTables n).facts.filter (fun fact => fact.workspaceId = sampleWorkspace &&
      fact.repositoryId = sampleRow.id && fact.lifecycleStatus = .current &&
        supportedFactTypes.contains fact.factType) = (crowdedTables n).facts := by
    rw [List.filter_eq_self]
    intro fact hfact
    rcases List.mem_append.1 hfact with hdependency | hpurpose
    · obtain ⟨m, -, rfl⟩ := List.mem_map.1 hdependency
      exact of_decide_eq_true rfl
    · cases List.mem_singleton.1 hpurpose
      exact of_decide_eq_true rfl
  rw [CrossSourceTables.currentFacts, hall, sortedBy]
  apply List.mergeSort_of_pairwise
  refine List.pairwise_append.2 ⟨List.pairwise_map.2 ((List.pairwise_lt_range (n := n)).imp ?_),
    List.pairwise_singleton _ _, fun fact hfact other hother => ?_⟩
  · intro a b hlt
    have hle : Str.le (dependencyFact a).claimId (dependencyFact b).claimId = true := by
      simp [dependencyFact, sampleFact, Str.le]
      omega
    have hne : (dependencyFact a).claimId ≠ (dependencyFact b).claimId := by
      simp [dependencyFact, sampleFact]
      omega
    have htype : (dependencyFact a).factType = (dependencyFact b).factType := rfl
    simp [byText, htype, hle, hne]
  · obtain ⟨m, -, rfl⟩ := List.mem_map.1 hfact
    cases List.mem_singleton.1 hother
    have hfirst : byText id (Str.of (dependencyFact m).factType.value)
        (Str.of purposeFact.factType.value) = .lt := by
      change byText id (Str.of "dependency_consumed") (Str.of "purpose") = .lt
      rfl
    simp [hfirst]

def sampleSource : Source where
  sourceType := .task
  provider := Str.of "jira"
  recordId := sampleId 2
  ref := Str.of "APP-1"
  url := none
  observedAt := 5
  claimSet := sampleClaimSet

theorem crowded_sources (n : Nat) :
    (crowdedTables n).crossSourceRecords sampleRules sampleWorkspace = ([sampleSource], false) := by
  have htasks : (crowdedTables n).orderedTasks sampleWorkspace = [sampleTask] := by
    have hkept : (crowdedTables n).tasks.filter (fun row => row.workspaceId = sampleWorkspace &&
        [Str.of "github", Str.of "jira"].contains row.provider &&
          row.recordProvider = row.provider && row.recordType = Str.of "issue" &&
            !row.recordDeleted) = [sampleTask] := by
      exact List.filter_eq_self.2 fun row hrow => by
        cases List.mem_singleton.1 hrow
        rfl
    rw [CrossSourceTables.orderedTasks, hkept, sortedBy_singleton]
  have hpullRequests : (crowdedTables n).orderedPullRequests sampleWorkspace = [] := sortedBy_nil
  have hdocuments : (crowdedTables n).orderedDocuments sampleWorkspace = [] := sortedBy_nil
  have hsource : WorkRow.source sampleRules .task sampleTask = some sampleSource := by
    have hclaims : Dict.get [(metadataKey, sampleClaimSet)] metadataKey = some sampleClaimSet := by
      simp [Dict.get]
    simp only [WorkRow.source, sampleTask, hclaims]
    rfl
  rw [CrossSourceTables.crossSourceRecords, htasks, hpullRequests, hdocuments]
  simp [gatherSources, hsource, maxSources]

theorem sampleClaimSet_read : claimSetOf sampleRules sampleClaimSet = some [sampleClaim] := rfl

theorem sampleSource_read :
    claimSetFromSource sampleRules sampleSource = .ok (.ok [sampleClaim]) := by
  have hvalue : claimsOfValue sampleRules sampleClaimSet = .ok [sampleClaim] := by
    rw [claimsOfValue, sampleClaimSet_read]
    rfl
  exact congrArg Except.ok hvalue

theorem sampleClaim_targets : targets sampleRules sampleRow [sampleClaim] = true := rfl

theorem crowded_result (n : Nat) : ∃ result,
    buildRepositoryCrossSourceComparisons sampleRules (byText id) (crowdedTables n) sampleWorkspace
      sampleRow = .ok result ∧ result.truncated.none = true := by
  have hvisit (facts : List FactRecord) : Reading.visit sampleRules (crowdedTables n) sampleRow
      facts Reading.start sampleSource = .ok ⟨[compareOne sampleRules (crowdedTables n) facts
        sampleSource sampleClaim], [], 0, false⟩ := by
    rw [Reading.visit, if_neg (by decide), sampleSource_read]
    simp only [bind, Except.bind, sampleClaim_targets, if_true]
    rfl
  rw [buildRepositoryCrossSourceComparisons, crowded_sources]
  simp only [List.foldlM_cons, List.foldlM_nil, hvisit]
  exact ⟨_, rfl, rfl⟩

theorem crowded_accepted (n : Nat) :
    (crowdedTables n).accepted sampleRules sampleWorkspace sampleRow =
      [(sampleSource, sampleClaim)] := by
  have hclaims : acceptedClaims sampleRules sampleRow sampleSource = [sampleClaim] := by
    rw [acceptedClaims, sampleSource_read]
    exact if_pos sampleClaim_targets
  have hsources := crowded_sources n
  have hall := crossSourceRecords_whole (congrArg Prod.snd hsources)
  rw [CrossSourceTables.accepted, ← hall, hsources, List.flatMap_singleton, hclaims]
  rfl

theorem complete_iff_few : (crowdedTables 3).Keyed ∧ ∃ result,
    buildRepositoryCrossSourceComparisons sampleRules (byText id) (crowdedTables 3) sampleWorkspace
      sampleRow = .ok result ∧ result.truncated.none = true ∧
      (Complete sampleRules (byText id) (crowdedTables 3) sampleWorkspace sampleRow result ↔
        Covered sampleRules (byText id) (crowdedTables 3) sampleWorkspace sampleRow) := by
  obtain ⟨result, hresult, hwhole⟩ := crowded_result 3
  exact ⟨crowdedTables_keyed 3, result, hresult, hwhole,
    complete_iff_covered (crowdedTables_keyed 3) hresult hwhole⟩

/-- What the repository is for comes after as many facts as are read: the claim that names it is
said to have no evidence, and nothing says that facts were left out. -/
theorem unread_fact_unflagged : (crowdedTables 500).Keyed ∧ ∃ result,
    buildRepositoryCrossSourceComparisons sampleRules (byText id) (crowdedTables 500)
      sampleWorkspace sampleRow = .ok result ∧ result.truncated.none = true ∧
      result.comparisons.map (·.status) = [.insufficientEvidence] ∧
      (crowdedTables 500).statusByAllFacts (byText id) sampleWorkspace sampleRow sampleClaim =
        .agreement ∧
      ¬Complete sampleRules (byText id) (crowdedTables 500) sampleWorkspace sampleRow result := by
  obtain ⟨result, hresult, hwhole⟩ := crowded_result 500
  have hcomparisons := comparisons_whole hresult hwhole
  have hother : ((List.range 500).map dependencyFact).find? (fun fact =>
      factIdentity fact = sampleClaim.identity) = none := by
    rw [List.find?_eq_none]
    intro fact hfact
    obtain ⟨m, -, rfl⟩ := List.mem_map.1 hfact
    simp [factIdentity, dependencyFact, sampleFact, Claim.identity, sampleClaim]
  have hread : statusFrom (Dict.get (Dict.index factIdentity (((crowdedTables 500).currentFacts
      (byText id) sampleWorkspace sampleRow).take maxFacts)) sampleClaim.identity) sampleClaim =
        .insufficientEvidence := by
    have hfirst : (((crowdedTables 500).currentFacts (byText id) sampleWorkspace sampleRow).take
        maxFacts) = (List.range 500).map dependencyFact := by
      rw [crowded_currentFacts]
      exact List.take_left' (by simp [maxFacts])
    have hkeys := crowded_identities 500
    rw [hfirst, Dict.get_index_eq_find?, hother]
    · rfl
    · exact (Dict.Unique.of_nodup hkeys).subset fun _ => List.mem_append_left _
  have hall : (crowdedTables 500).statusByAllFacts (byText id) sampleWorkspace sampleRow
      sampleClaim = .agreement := by
    rw [CrossSourceTables.statusByAllFacts, crowded_currentFacts, List.find?_append, hother]
    decide +kernel
  refine ⟨crowdedTables_keyed 500, result, hresult, hwhole, ?_, hall, fun hcomplete => ?_⟩
  · rw [hcomparisons, crowded_accepted]
    exact congrArg (fun status => [status]) hread
  · have hsame := (complete_of_comparisons hcomparisons).1 hcomplete (sampleSource, sampleClaim)
      (crowded_accepted 500 ▸ List.mem_cons_self)
    rw [hread, hall] at hsame
    cases hsame

end samples

end FounderOs.RepositoryAudit.CrossSource
