import FounderOs.RepositoryAudit.Views
import FounderOs.RepositoryAudit.Storage

namespace FounderOs.RepositoryAudit

open Headquarters Transition Dict

section pages

variable {R : Type} {keys : List (R → R → Ordering)} {rows : List R} {most : Nat}

theorem sortedBy_perm : (sortedBy keys rows).Perm rows := List.mergeSort_perm rows _

@[simp] theorem sortedBy_nil : sortedBy keys ([] : List R) = [] := List.mergeSort_nil

@[simp] theorem sortedBy_singleton (row : R) : sortedBy keys [row] = [row] :=
  List.mergeSort_singleton row

/-- Whether one more row is read than are shown. -/
theorem page_overflows : most < ((sortedBy keys rows).take (most + 1)).length ↔
    most < rows.length := by
  rw [List.length_take, sortedBy_perm.length_eq]
  omega

theorem page_perm (h : rows.length ≤ most) :
    (((sortedBy keys rows).take (most + 1)).take most).Perm rows := by
  have hperm : (sortedBy keys rows).Perm rows := sortedBy_perm
  rw [List.take_take, List.take_of_length_le (by rw [hperm.length_eq]; omega)]
  exact hperm

theorem page_length_le {read shown : Nat} :
    (((sortedBy keys rows).take read).take shown).length ≤ rows.length :=
  (List.length_take_le' ..).trans ((List.length_take_le' ..).trans sortedBy_perm.length_eq.le)

end pages

section counts

variable {db : IntelligenceTables} {workspaceId repositoryId : Uuid} {repositoryIds : List Uuid}

theorem unknownCount_eq (h : repositoryId ∈ repositoryIds) :
    (Dict.get (db.portfolioUnknownCounts workspaceId repositoryIds) repositoryId).getD 0 =
      (db.factsOf workspaceId repositoryId).countP fun fact =>
        fact.factType = .unknown && fact.lifecycleStatus = .current :=
  getD_countBy_filter fun fact hfact => by simp [hfact, h, Bool.and_assoc]

theorem pendingConfirmationCount_eq (h : repositoryId ∈ repositoryIds) :
    db.pendingConfirmationCount workspaceId repositoryIds repositoryId =
      (db.factsOf workspaceId repositoryId).countP (·.awaits) +
        (db.relationships.filter fun relationship => relationship.workspaceId = workspaceId &&
          relationship.fromRepositoryId = repositoryId).countP (·.awaits) := by
  have hfacts : (Dict.get (db.pendingFactCounts workspaceId repositoryIds) repositoryId).getD 0 =
      (db.factsOf workspaceId repositoryId).countP (·.awaits) :=
    getD_countBy_filter fun fact hfact => by simp [hfact, h]
  rw [IntelligenceTables.pendingConfirmationCount, hfacts]
  congr 1
  exact getD_countBy_filter fun relationship hfrom => by simp [hfrom, h]

theorem openFindings_total (h : repositoryId ∈ repositoryIds) :
    (db.openFindings workspaceId repositoryIds repositoryId).total =
      (db.findingsOf workspaceId repositoryId).countP (·.status.isOpen) := by
  have hcount (severity : FindingSeverity) :
      (Dict.get (db.portfolioFindingCounts workspaceId repositoryIds)
        (repositoryId, severity)).getD 0 =
        (db.findingsOf workspaceId repositoryId).countP fun finding =>
          finding.status.isOpen && finding.severity = severity := by
    rw [IntelligenceTables.portfolioFindingCounts, Dict.getD_countBy, List.countP_filter,
      IntelligenceTables.findingsOf, List.countP_filter]
    refine List.countP_congr fun finding _ => ?_
    simp only [Bool.and_eq_true, decide_eq_true_eq, Prod.mk.injEq, List.contains_iff_mem]
    constructor
    · rintro ⟨⟨hid, hseverity⟩, ⟨hworkspace, -⟩, hopen⟩
      exact ⟨⟨hopen, hseverity⟩, hworkspace, hid⟩
    · rintro ⟨⟨hopen, hseverity⟩, hworkspace, hid⟩
      exact ⟨⟨hid, hseverity⟩, ⟨hworkspace, hid ▸ h⟩, hopen⟩
  simp only [IntelligenceTables.openFindings, OpenFindings.total, hcount]
  induction db.findingsOf workspaceId repositoryId with
  | nil => rfl
  | cons finding findings ih =>
    simp only [List.countP_cons]
    cases finding.severity <;> cases finding.status.isOpen <;>
      simp only [Bool.true_and, Bool.false_and, decide_true, reduceCtorEq, decide_false, if_true,
        if_false, Bool.false_eq_true] <;> omega

end counts

section detail

variable {Digest : Type} {rules : EvidenceRules Digest} {collate : Str → Str → Ordering}
variable {db : IntelligenceTables} {workspaceId repositoryId : Uuid} {detail : Detail}

/-- What a detail that is not truncated lists, in some order. -/
structure Detail.Whole (rules : EvidenceRules Digest) (db : IntelligenceTables)
    (workspaceId repositoryId : Uuid) (detail : Detail) : Prop where
  facts : detail.facts.Perm
    ((db.factsOf workspaceId repositoryId).map (factPayload rules db workspaceId))
  relationships : detail.relationships.Perm ((db.relationshipsOf workspaceId repositoryId).map
    (relationshipPayload rules db workspaceId repositoryId))
  findings : detail.findings.Perm
    ((db.findingsOf workspaceId repositoryId).map (findingPayload rules db workspaceId))
  unknowns : detail.unknowns = detail.facts.filter (·.factType = .unknown)
  confirmationQueue : detail.confirmationQueue =
    (detail.facts.filter (·.awaits)).map (·.confirmation) ++
      (detail.relationships.filter (·.awaits)).map (·.confirmation)

theorem detail_whole
    (h : buildRepositoryIntelligenceDetail rules collate db workspaceId repositoryId = some detail)
    (hwhole : detail.truncated.any = false) : detail.Whole rules db workspaceId repositoryId := by
  obtain ⟨repository, -, rfl⟩ := Option.map_eq_some_iff.1 h
  simp only [DetailTruncated.any, Bool.or_eq_false_iff, decide_eq_false_iff_not, page_overflows,
    Nat.not_lt, and_assoc] at hwhole
  obtain ⟨hfacts, hrelationships, hfindings, -, hqueue⟩ := hwhole
  exact {
    facts := (page_perm hfacts).map _
    relationships := (page_perm hrelationships).map _
    findings := (page_perm hfindings).map _
    unknowns := rfl
    confirmationQueue := List.take_of_length_le hqueue }

theorem Detail.Whole.unknowns_length (h : detail.Whole rules db workspaceId repositoryId) :
    detail.unknowns.length =
      (db.factsOf workspaceId repositoryId).countP (·.factType = .unknown) := by
  rw [h.unknowns, ← List.countP_eq_length_filter, h.facts.countP_eq, List.countP_map]
  rfl

theorem Detail.Whole.queue_length (h : detail.Whole rules db workspaceId repositoryId) :
    detail.confirmationQueue.length =
      (db.factsOf workspaceId repositoryId).countP (·.awaits) +
        (db.relationshipsOf workspaceId repositoryId).countP (·.awaits) := by
  rw [h.confirmationQueue, List.length_append, List.length_map, List.length_map,
    ← List.countP_eq_length_filter, ← List.countP_eq_length_filter, h.facts.countP_eq,
    h.relationships.countP_eq, List.countP_map, List.countP_map]
  rfl

theorem Detail.Whole.open_length (h : detail.Whole rules db workspaceId repositoryId) :
    (detail.findings.filter (·.status.isOpen)).length =
      (db.findingsOf workspaceId repositoryId).countP (·.status.isOpen) := by
  rw [← List.countP_eq_length_filter, h.findings.countP_eq, List.countP_map]
  rfl

end detail

section story

variable {Digest : Type} {rules : EvidenceRules Digest} {collate : Str → Str → Ordering}
variable {db : IntelligenceTables} {workspaceId repositoryId : Uuid} {limit : Int}
variable {row : PortfolioPayload} {detail : Detail}

/-- The two views give the same numbers. -/
structure SameStory (row : PortfolioPayload) (detail : Detail) : Prop where
  confirmations : row.pendingConfirmationCount = detail.confirmationQueue.length
  unknowns : row.unknownCount = detail.unknowns.length
  openFindings : row.openFindingsTotal = (detail.findings.filter (·.status.isOpen)).length

/-- No relationship that another repository has to this one awaits a decision. -/
def IntelligenceTables.NoInbound (db : IntelligenceTables) (workspaceId repositoryId : Uuid) :
    Prop :=
  ∀ relationship ∈ db.relationships, relationship.workspaceId = workspaceId →
    relationship.toRepositoryId = some repositoryId →
      relationship.fromRepositoryId ≠ repositoryId → relationship.awaits = false

def IntelligenceTables.UnknownsCurrent (db : IntelligenceTables)
    (workspaceId repositoryId : Uuid) : Prop :=
  ∀ fact ∈ db.facts, fact.workspaceId = workspaceId → fact.repositoryId = repositoryId →
    fact.factType = .unknown → fact.lifecycleStatus = .current

theorem portfolio_row
    (h : row ∈ (buildRepositoryIntelligencePortfolio rules collate db workspaceId
      limit).repositories) :
    ∃ repositoryIds, row.id ∈ repositoryIds ∧ ∃ repository, repository.id = row.id ∧
      row = portfolioRepositoryPayload rules collate db workspaceId repositoryIds repository := by
  obtain ⟨repository, hmem, hrow⟩ := List.mem_map.1 h
  have hid : repository.id = row.id := by rw [← hrow]; rfl
  exact ⟨_, hid ▸ List.mem_map_of_mem hmem, repository, hid, hrow.symm⟩

section row

variable (hrow : row ∈ (buildRepositoryIntelligencePortfolio rules collate db workspaceId
  limit).repositories)
variable (hdetail : buildRepositoryIntelligenceDetail rules collate db workspaceId row.id =
  some detail)
variable (hwhole : detail.truncated.any = false)

include hrow hdetail hwhole

theorem confirmations_iff : row.pendingConfirmationCount = detail.confirmationQueue.length ↔
    db.NoInbound workspaceId row.id := by
  obtain ⟨repositoryIds, hmem, repository, hid, hpayload⟩ := portfolio_row hrow
  have hcount : row.pendingConfirmationCount =
      db.pendingConfirmationCount workspaceId repositoryIds row.id := by
    rw [← hid]
    exact congrArg PortfolioPayload.pendingConfirmationCount hpayload
  rw [hcount, pendingConfirmationCount_eq hmem, (detail_whole hdetail hwhole).queue_length,
    Nat.add_left_cancel_iff, IntelligenceTables.relationshipsOf, List.countP_filter,
    List.countP_filter, countP_eq_countP_iff]
  · constructor
    · intro hall relationship hmem hworkspace hto hfrom
      by_contra hawaits
      have hcounted := hall relationship hmem (by simp [hworkspace, hto, hawaits])
      simp only [Bool.and_eq_true, decide_eq_true_eq] at hcounted
      exact hfrom hcounted.2.2
    · intro hnone relationship hmem hlisted
      simp only [Bool.and_eq_true, Bool.or_eq_true, decide_eq_true_eq] at hlisted ⊢
      obtain ⟨hawaits, hworkspace, hend⟩ := hlisted
      refine ⟨hawaits, hworkspace, ?_⟩
      by_contra hfrom
      have hquiet := hnone relationship hmem hworkspace (hend.resolve_left hfrom) hfrom
      exact Bool.false_ne_true (hquiet.symm.trans hawaits)
  · intro relationship _ hcounted
    simp only [Bool.and_eq_true, Bool.or_eq_true, decide_eq_true_eq] at hcounted ⊢
    exact ⟨hcounted.1, hcounted.2.1, .inl hcounted.2.2⟩

theorem unknowns_iff : row.unknownCount = detail.unknowns.length ↔
    db.UnknownsCurrent workspaceId row.id := by
  obtain ⟨repositoryIds, hmem, repository, hid, hpayload⟩ := portfolio_row hrow
  have hcount : row.unknownCount =
      (Dict.get (db.portfolioUnknownCounts workspaceId repositoryIds) row.id).getD 0 := by
    rw [← hid]
    exact congrArg PortfolioPayload.unknownCount hpayload
  rw [hcount, unknownCount_eq hmem, (detail_whole hdetail hwhole).unknowns_length,
    countP_eq_countP_iff fun fact _ hfact => (Bool.and_eq_true_iff.1 hfact).1]
  simp only [IntelligenceTables.factsOf, List.mem_filter, Bool.and_eq_true, decide_eq_true_eq]
  constructor
  · intro hall fact hmem hworkspace hrepository htype
    exact (hall fact ⟨hmem, hworkspace, hrepository⟩ htype).2
  · rintro hcurrent fact ⟨hmem, hworkspace, hrepository⟩ htype
    exact ⟨htype, hcurrent fact hmem hworkspace hrepository htype⟩

theorem openFindings_eq :
    row.openFindingsTotal = (detail.findings.filter (·.status.isOpen)).length := by
  obtain ⟨repositoryIds, hmem, repository, hid, hpayload⟩ := portfolio_row hrow
  have hcount : row.openFindingsTotal =
      (db.openFindings workspaceId repositoryIds row.id).total := by
    rw [← hid]
    exact congrArg PortfolioPayload.openFindingsTotal hpayload
  rw [hcount, openFindings_total hmem, (detail_whole hdetail hwhole).open_length]

theorem same_story_iff : SameStory row detail ↔
    db.NoInbound workspaceId row.id ∧ db.UnknownsCurrent workspaceId row.id := by
  rw [← confirmations_iff hrow hdetail hwhole, ← unknowns_iff hrow hdetail hwhole]
  constructor
  · rintro ⟨hconfirmations, hunknowns, -⟩
    exact ⟨hconfirmations, hunknowns⟩
  · rintro ⟨hconfirmations, hunknowns⟩
    exact ⟨hconfirmations, hunknowns, openFindings_eq hrow hdetail hwhole⟩

end row

end story

section reached

variable {Digest : Type} {rules : EvidenceRules Digest} {collate : Str → Str → Ordering}
variable {db : IntelligenceTables} {workspaceId : Uuid}

/-- Few enough rows for no page of the views to overflow. -/
structure IntelligenceTables.Few (db : IntelligenceTables) : Prop where
  repositories : db.repositories.length ≤ 100
  listed : db.facts.length + db.relationships.length ≤ 100
  findings : db.findings.length ≤ 100
  contradictions : db.contradictions.length ≤ 50

theorem portfolio_whole (hfew : db.Few) :
    (buildRepositoryIntelligencePortfolio rules collate db workspaceId 100).truncated = false := by
  have hlength : (db.repositories.filter (·.workspaceId = workspaceId)).length ≤ 100 :=
    (List.length_filter_le ..).trans hfew.repositories
  exact decide_eq_false fun h => Nat.not_lt.2 hlength (page_overflows.1 h)

theorem portfolio_lists (hfew : db.Few) {repository : CanonicalRepository}
    (hmem : repository ∈ db.repositories) (hworkspace : repository.workspaceId = workspaceId) :
    ∃ row ∈ (buildRepositoryIntelligencePortfolio rules collate db workspaceId 100).repositories,
      row.id = repository.id := by
  have hlength : (db.repositories.filter (·.workspaceId = workspaceId)).length ≤ 100 :=
    (List.length_filter_le ..).trans hfew.repositories
  have hpage : repository ∈ (db.portfolioRows collate workspaceId 100).take 100 :=
    (page_perm hlength).mem_iff.2 (List.mem_filter.2 ⟨hmem, decide_eq_true hworkspace⟩)
  exact ⟨_, List.mem_map_of_mem hpage, rfl⟩

theorem detail_lists (hfew : db.Few) {repository : CanonicalRepository}
    (hmem : repository ∈ db.repositories) (hworkspace : repository.workspaceId = workspaceId) :
    ∃ detail, buildRepositoryIntelligenceDetail rules collate db workspaceId repository.id =
      some detail ∧ detail.truncated.any = false := by
  have hfound : (db.repositories.find? fun row => row.workspaceId = workspaceId &&
      row.id = repository.id).isSome = true := by
    rw [List.find?_isSome]
    exact ⟨repository, hmem, by simp [hworkspace]⟩
  obtain ⟨found, hfound⟩ := Option.isSome_iff_exists.1 hfound
  refine ⟨_, by rw [buildRepositoryIntelligenceDetail, hfound]; rfl, ?_⟩
  have hfacts : (db.factsOf workspaceId repository.id).length ≤ db.facts.length :=
    List.length_filter_le ..
  have hrelationships : (db.relationshipsOf workspaceId repository.id).length ≤
      db.relationships.length := List.length_filter_le ..
  have hfindings : (db.findingsOf workspaceId repository.id).length ≤ db.findings.length :=
    List.length_filter_le ..
  have hcontradictions : (db.contradictionsOf workspaceId repository.id).length ≤
      db.contradictions.length := List.length_filter_le ..
  have hlisted := hfew.listed
  simp only [DetailTruncated.any, Bool.or_eq_false_iff, decide_eq_false_iff_not, page_overflows,
    Nat.not_lt, and_assoc]
  refine ⟨?_, ?_, hfindings.trans hfew.findings, hcontradictions.trans hfew.contradictions, ?_⟩
  · exact hfacts.trans ((Nat.le_add_right ..).trans hlisted)
  · exact hrelationships.trans ((Nat.le_add_left ..).trans hlisted)
  · rw [List.length_append, List.length_map, List.length_map]
    refine (Nat.add_le_add (List.length_filter_le ..) (List.length_filter_le ..)).trans ?_
    rw [List.length_map, List.length_map]
    exact (Nat.add_le_add (page_length_le.trans hfacts)
      (page_length_le.trans hrelationships)).trans hlisted

/-- The ids that are drawn for the rows of a repository, and the time of the last write of one. -/
structure Stamps where
  fact : Uuid → FactKey → Uuid
  relationship : Uuid → RelationshipKey → Uuid
  finding : Uuid → FindingKey → Uuid
  contradiction : Uuid → ContradictionKey → Uuid
  updatedAt : Uuid → Nat

/-- The tables of a workspace whose repositories have been audited. -/
def tablesOf (stamps : Stamps) (audited : List (CanonicalRepository × AuditWorld)) :
    IntelligenceTables where
  repositories := audited.map (·.1)
  runs := audited.flatMap fun entry => entry.2.runs.map (·.toAuditRun)
  facts := audited.flatMap fun entry => entry.2.store.facts.map fun fact =>
    { toFactRow := fact.2
      id := stamps.fact entry.1.id fact.1
      workspaceId := entry.1.workspaceId
      repositoryId := entry.1.id
      fingerprint := fact.1
      humanResolutionStatus := .pending
      updatedAt := stamps.updatedAt (stamps.fact entry.1.id fact.1) }
  relationships := audited.flatMap fun entry => entry.2.store.relationships.map fun row =>
    { toRelationshipRow := row.2
      id := stamps.relationship entry.1.id row.1
      workspaceId := entry.1.workspaceId
      humanResolutionStatus := .pending
      updatedAt := stamps.updatedAt (stamps.relationship entry.1.id row.1) }
  findings := audited.flatMap fun entry => entry.2.store.findings.map fun finding =>
    { toFindingRow := finding.2
      id := stamps.finding entry.1.id finding.1
      workspaceId := entry.1.workspaceId
      repositoryId := entry.1.id
      updatedAt := stamps.updatedAt (stamps.finding entry.1.id finding.1) }
  contradictions := audited.flatMap fun entry => entry.2.store.contradictions.map fun row =>
    { toContradictionRow := row.2
      id := stamps.contradiction entry.1.id row.1
      workspaceId := entry.1.workspaceId
      repositoryId := entry.1.id
      updatedAt := stamps.updatedAt (stamps.contradiction entry.1.id row.1) }
  evidence := audited.flatMap (·.2.store.workspace.evidence)

def sampleListed (id : Uuid) (fullName : String) : CanonicalRepository where
  id := id
  workspaceId := sampleWorkspace
  externalId := Str.of "7"
  name := Str.of fullName
  fullName := Str.of fullName
  defaultBranch := none
  visibility := none
  archived := false
  sourceUrl := none
  lastActivityAt := none
  updatedAt := []

def sampleStamps : Stamps :=
  ⟨fun _ _ => sampleId 1, fun _ _ => sampleId 2, fun _ _ => sampleId 3, fun _ _ => sampleId 4,
    fun _ => 0⟩

/-- The audited repository, and one that was not. -/
def sampleTables (s : AuditWorld) : IntelligenceTables :=
  tablesOf sampleStamps [(sampleListed sampleRepository "acme/app", s),
    (sampleListed (sampleId 7) "acme/lib", emptyAuditWorld)]

/-- The application imports a package of the library; what else it is for is inferred. -/
def crossEdge : Relationship :=
  { selfEdge with
    status := .inferred
    toRepository := ⟨sampleWorkspace, some (sampleId 7), Str.of "8", Str.of "acme/lib", .canonical⟩
    relationshipType := .importsPackageFrom }

def relating (unknowns : List RepositoryUnknown) : AnalyzerResult :=
  { emptyResult with
    relationshipCandidates := [crossEdge]
    unknowns := unknowns }

/-- A first audit has a question that the second has not. -/
def answeredRun : List AuditAction :=
  [.register [sampleRepository, sampleId 7] [sampleId 5],
    .insertEvidence ⟨sampleId 6, sampleId 5, none, none, none⟩] ++
  startedJob 1 "standard" ++
  [samplePersist 1 "standard" (relating [sampleUnknown "Who owns it?"]) 5] ++
  startedJob 2 "standard" ++ [samplePersist 2 "standard" (relating []) 9]

example :
    (samplePayload (relating [sampleUnknown "Who owns it?"])).valid asciiRules = true ∧
      (samplePayload (relating [])).valid asciiRules = true := by
  decide +kernel

theorem answered_world : ∃ s, Reaches (AuditWorld.step sampleSetting) anyStep emptyAuditWorld s ∧
    (sampleTables s).Few ∧ ¬(sampleTables s).UnknownsCurrent sampleWorkspace sampleRepository ∧
      ¬(sampleTables s).NoInbound sampleWorkspace (sampleId 7) := by
  have hrun : (exec (AuditWorld.step sampleSetting) emptyAuditWorld answeredRun).any (fun s =>
      decide ((sampleTables s).facts.length + (sampleTables s).relationships.length ≤ 100) &&
      (decide ((sampleTables s).findings.length ≤ 100) &&
      (decide ((sampleTables s).contradictions.length ≤ 50) &&
      ((sampleTables s).facts.any (fun fact => fact.workspaceId = sampleWorkspace &&
        (fact.repositoryId = sampleRepository && (fact.factType = .unknown &&
          fact.lifecycleStatus ≠ .current))) &&
      (sampleTables s).relationships.any (fun relationship =>
        relationship.workspaceId = sampleWorkspace &&
          (relationship.toRepositoryId = some (sampleId 7) &&
            (relationship.fromRepositoryId ≠ sampleId 7 && relationship.awaits))))))) = true := by
    decide +kernel
  obtain ⟨s, hs, hend⟩ := (Option.any_eq_true _ _).1 hrun
  simp only [Bool.and_eq_true, List.any_eq_true, decide_eq_true_eq] at hend
  obtain ⟨hlisted, hfindings, hcontradictions, ⟨fact, hfact, hinFact, hown, htype, hstale⟩,
    relationship, hrelationship, hin, hto, hfrom, hawaits⟩ := hend
  refine ⟨s, reaches_of_exec hs, ⟨of_decide_eq_true rfl, hlisted, hfindings, hcontradictions⟩, ?_, ?_⟩
  · exact fun hcurrent => hstale (hcurrent fact hfact hinFact hown htype)
  · intro hnone
    exact Bool.false_ne_true
      ((hnone relationship hrelationship hin hto hfrom).symm.trans hawaits)

/-- What the two views of a repository show, in a state that its audits have reached. -/
def sampleViews (s : AuditWorld) (row : PortfolioPayload) (detail : Detail) : Prop :=
  Reaches (AuditWorld.step sampleSetting) anyStep emptyAuditWorld s ∧
    (buildRepositoryIntelligencePortfolio asciiRules (byText id) (sampleTables s) sampleWorkspace
      100).truncated = false ∧
    row ∈ (buildRepositoryIntelligencePortfolio asciiRules (byText id) (sampleTables s)
      sampleWorkspace 100).repositories ∧
    buildRepositoryIntelligenceDetail asciiRules (byText id) (sampleTables s) sampleWorkspace
      row.id = some detail ∧ detail.truncated.any = false

theorem sample_views {id : Uuid} {fullName : String} {s : AuditWorld}
    (hs : Reaches (AuditWorld.step sampleSetting) anyStep emptyAuditWorld s)
    (hfew : (sampleTables s).Few)
    (hmem : sampleListed id fullName ∈ (sampleTables s).repositories) :
    ∃ row detail, row.id = id ∧ sampleViews s row detail := by
  obtain ⟨row, hrow, hid⟩ : ∃ row ∈ (buildRepositoryIntelligencePortfolio asciiRules (byText _)
      (sampleTables s) sampleWorkspace 100).repositories, row.id = id :=
    portfolio_lists hfew hmem rfl
  obtain ⟨detail, hdetail, hwhole⟩ : ∃ detail, buildRepositoryIntelligenceDetail asciiRules
      (byText _) (sampleTables s) sampleWorkspace id = some detail ∧
        detail.truncated.any = false :=
    detail_lists hfew hmem rfl
  exact ⟨row, detail, hid, hs, portfolio_whole hfew, hrow, hid ▸ hdetail, hwhole⟩

theorem same_story_iff_answered : ∃ s row detail, sampleViews s row detail ∧
    (SameStory row detail ↔ (sampleTables s).NoInbound sampleWorkspace row.id ∧
      (sampleTables s).UnknownsCurrent sampleWorkspace row.id) := by
  obtain ⟨s, hs, hfew, -, -⟩ := answered_world
  obtain ⟨row, detail, -, hviews⟩ := sample_views hs hfew List.mem_cons_self
  obtain ⟨-, -, hrow, hdetail, hwhole⟩ := id hviews
  exact ⟨s, row, detail, hviews, same_story_iff hrow hdetail hwhole⟩

/-- The question that was answered is still listed, and the library is asked to confirm what its
row does not count. -/
theorem views_disagree :
    (¬∀ s row detail, sampleViews s row detail → row.unknownCount = detail.unknowns.length) ∧
      ¬∀ s row detail, sampleViews s row detail →
        row.pendingConfirmationCount = detail.confirmationQueue.length := by
  obtain ⟨s, hs, hfew, hunknowns, hinbound⟩ := answered_world
  constructor
  · intro hall
    obtain ⟨row, detail, hid, hviews⟩ := sample_views hs hfew List.mem_cons_self
    obtain ⟨-, -, hrow, hdetail, hwhole⟩ := id hviews
    exact hunknowns (hid ▸ (unknowns_iff hrow hdetail hwhole).1 (hall s row detail hviews))
  · intro hall
    obtain ⟨row, detail, hid, hviews⟩ := sample_views hs hfew
      (List.mem_cons_of_mem _ List.mem_cons_self)
    obtain ⟨-, -, hrow, hdetail, hwhole⟩ := id hviews
    exact hinbound (hid ▸ (confirmations_iff hrow hdetail hwhole).1 (hall s row detail hviews))

end reached

end FounderOs.RepositoryAudit
