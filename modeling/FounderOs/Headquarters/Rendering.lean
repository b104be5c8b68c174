import FounderOs.Headquarters.Missions

namespace FounderOs.Headquarters

open Execution (Instant UserId)

theorem eraseDups_of_nodup {α : Type} [DecidableEq α] {l : List α} (h : l.Nodup) :
    l.eraseDups = l := by
  induction l with
  | nil => rfl
  | cons a l ih =>
    rw [List.nodup_cons] at h
    have hothers : l.filter (fun b => !b == a) = l := by
      refine List.filter_eq_self.2 fun b hb => ?_
      have hne : b ≠ a := fun heq => h.1 (heq ▸ hb)
      simp [hne]
    rw [List.eraseDups_cons, hothers, ih h.2]

section verified

variable {Digest : Type} [DecidableEq Digest] {rules : EvidenceRules Digest} {db : Database}
variable {plan : Plan} {workspaceId : Uuid} {proposals : List Proposal}

omit [DecidableEq Digest] in
theorem cited_ne_nil {proposal : Proposal} {resolved : List ResolvedEvidence}
    (h : citedEvidence rules db workspaceId proposal = some resolved) : resolved ≠ [] := by
  obtain ⟨refs, hrefs, hresolved⟩ := Option.bind_eq_some_iff.1 h
  dsimp only at hresolved
  split at hresolved
  · rename_i hall
    obtain rfl := Option.some.inj hresolved
    intro hnil
    rw [hnil] at hall
    exact strictEvidenceRefs_ne_nil hrefs (List.length_eq_zero_iff.1 hall.1.symm)
  · cases hresolved

theorem reports_of_mapM {verify : Proposal → Except EvidenceError (Option VerifiedProposal)}
    {cited : Proposal → Bool} {reports : List (Option VerifiedProposal)}
    (hone : ∀ proposal ∈ proposals, ∀ report, verify proposal = .ok report →
      report.map (·.proposal) = if cited proposal then some proposal else none)
    (h : proposals.mapM verify = .ok reports) :
    (reports.filterMap id).map (·.proposal) = proposals.filter cited := by
  induction proposals generalizing reports with
  | nil =>
    obtain rfl := Except.ok.inj h
    rfl
  | cons proposal proposals ih =>
    rw [List.forall_mem_cons] at hone
    rw [List.mapM_cons] at h
    cases hfirst : verify proposal with
    | error e =>
      rw [hfirst] at h
      cases h
    | ok report =>
      cases hrest : proposals.mapM verify with
      | error e =>
        rw [hfirst, hrest] at h
        cases h
      | ok rest =>
        rw [hfirst, hrest] at h
        obtain rfl := Except.ok.inj h
        have hreport := hone.1 report hfirst
        have hmap := ih hone.2 hrest
        cases hcited : cited proposal with
        | false =>
          rw [hcited] at hreport
          obtain rfl : report = none := Option.map_eq_none_iff.1 hreport
          simpa [hcited] using hmap
        | true =>
          rw [hcited] at hreport
          obtain ⟨v, rfl, hv⟩ := Option.map_eq_some_iff.1 hreport
          simpa [hcited, hv] using hmap

/-- A batch that answers reports the proposals that cite rows of the workspace, in their order. -/
theorem verifyProposals_reports (hstored : Stored db workspaceId proposals)
    {verified : List VerifiedProposal}
    (h : verifyProposals rules plan db workspaceId proposals = .ok verified) :
    verified.map (·.proposal) = proposals.filter (fun proposal =>
        (citedEvidence rules db workspaceId proposal).isSome) ∧
      ∀ v ∈ verified, v.evidenceRefs ≠ [] := by
  unfold verifyProposals at h
  dsimp only at h
  cases hbuild : buildDirectEvidenceResolver rules plan db workspaceId
      ((strictProposalRefs rules proposals).flatMap (·.2)) with
  | error e =>
    rw [hbuild] at h
    cases h
  | ok r =>
    rw [hbuild] at h
    change Except.map _ (proposals.mapM _) = _ at h
    have hone : ∀ proposal ∈ proposals, ∀ report,
        verifyProposal rules r (linkedBriefingItems plan db workspaceId proposals)
          (strictProposalRefs rules proposals) proposal = .ok report →
        report.map (·.proposal) =
            (if (citedEvidence rules db workspaceId proposal).isSome then some proposal
              else none) ∧
          ∀ v ∈ report, v.evidenceRefs ≠ [] := by
      intro proposal hmem report hreport
      rw [verifyProposal_stored hstored hbuild hmem] at hreport
      cases hcited : citedEvidence rules db workspaceId proposal with
      | none =>
        rw [hcited] at hreport
        obtain rfl := Except.ok.inj hreport
        simp
      | some resolved =>
        rw [hcited] at hreport
        dsimp only at hreport
        cases htrusted : trustedItem rules proposal
            ((strictEvidenceRefs rules proposal.evidenceRefs).getD [])
            (linkedItem db workspaceId proposal) with
        | error e =>
          rw [htrusted] at hreport
          cases hreport
        | ok trusted =>
          rw [htrusted] at hreport
          obtain rfl := Except.ok.inj hreport
          refine ⟨by simp, fun v hv => ?_⟩
          obtain rfl := Option.some.inj hv
          exact dedupeEvidence_ne_nil (fun hnil =>
            cited_ne_nil hcited (List.map_eq_nil_iff.1 hnil))
    cases hreports : proposals.mapM (verifyProposal rules r
        (linkedBriefingItems plan db workspaceId proposals)
        (strictProposalRefs rules proposals)) with
    | error e =>
      rw [hreports] at h
      cases h
    | ok reports =>
      rw [hreports] at h
      obtain rfl := Except.ok.inj h
      refine ⟨reports_of_mapM (fun p hp report hr => (hone p hp report hr).1) hreports, ?_⟩
      intro v hv
      obtain ⟨report, hreport, rfl⟩ := List.mem_filterMap.1 hv
      obtain ⟨proposal, hmem, hverify⟩ := (mem_mapM_ok hreports).1 hreport
      exact (hone proposal hmem _ hverify).2 v rfl

end verified

section missions

variable {Digest S : Type} {rules : HeadquartersRules Digest S} {rows : HeadquartersRows}
variable {workspaceId : Uuid} {read : Projections} {asOf : Instant} {companyWorld : CompanyMap}
variable {candidateType : CandidateType} {candidate : Candidate}

theorem latestDatetime_isSome {a b : Option Instant} :
    (latestDatetime a b).isSome = (a.isSome || b.isSome) := by
  cases a <;> cases b <;> rfl

theorem latestOf_isSome {times : List (Option Instant)} {t : Instant} (h : some t ∈ times) :
    (latestOf times).isSome = true := by
  have hkeeps : ∀ (times : List (Option Instant)) (acc : Option Instant),
      (times.foldl latestDatetime acc).isSome = (acc.isSome || times.any (·.isSome)) := by
    intro times
    induction times with
    | nil => simp
    | cons first rest ih =>
      intro acc
      rw [List.foldl_cons, ih, latestDatetime_isSome, List.any_cons, Bool.or_assoc]
  rw [latestOf, hkeeps]
  simpa using ⟨some t, h, rfl⟩

/-- A candidate of the map is always a mission, and always one that memory counts. -/
theorem worldCandidate_temporal
    (hmap : headquartersMap rules.mail rows.world workspaceId = some companyWorld)
    (h : candidate ∈ companyWorld.candidates candidateType) :
    worldMission rules rows workspaceId candidateType candidate =
        some (350, worldCandidate rules rows workspaceId candidateType candidate) ∧
      (worldCandidate rules rows workspaceId candidateType candidate).temporal = true := by
  obtain ⟨hne, hlive⟩ := evidenced_candidate hmap h
  have hevidence : companyWorldEvidence rules candidateType candidate.sourceRefs ≠ [] :=
    dedupeEvidence_ne_nil fun hnil => hne (List.map_eq_nil_iff.1 hnil)
  obtain ⟨ref, href⟩ := List.exists_mem_of_ne_nil _ hne
  obtain ⟨record, hrecord, hgmail, hid⟩ := hlive ref href
  have hobserved : (worldObservedAt rows workspaceId candidate.sourceRefs).isSome = true := by
    simp only [isGmailMessage, Bool.and_eq_true, decide_eq_true_eq] at hgmail
    refine latestOf_isSome (List.mem_map.2 ⟨record, List.mem_filter.2 ⟨hrecord, ?_⟩, rfl⟩)
    simp only [Bool.and_eq_true, decide_eq_true_eq]
    exact ⟨⟨hgmail.1.1.1, hgmail.2⟩, mem_candidateSourceRecordIds.2 ⟨ref, href, hid.symm⟩⟩
  refine ⟨if_neg hevidence, ?_⟩
  simp [MissionCandidate.temporal, worldCandidate, hobserved, hevidence]

theorem worldMissions_eq
    (hmap : headquartersMap rules.mail rows.world workspaceId = some companyWorld) :
    worldMissions rules rows workspaceId companyWorld =
      (companyWorld.candidates .externalPerson).map (fun candidate =>
          (350, worldCandidate rules rows workspaceId .externalPerson candidate)) ++
        (companyWorld.candidates .organization).map fun candidate =>
          (350, worldCandidate rules rows workspaceId .organization candidate) := by
  have hall : ∀ candidateType, (companyWorld.candidates candidateType).filterMap
      (worldMission rules rows workspaceId candidateType) =
        (companyWorld.candidates candidateType).map fun candidate =>
          (350, worldCandidate rules rows workspaceId candidateType candidate) := by
    intro candidateType
    rw [← List.filterMap_eq_map]
    exact List.filterMap_congr fun candidate h => (worldCandidate_temporal hmap h).1
  rw [worldMissions, hall, hall]

theorem setupMissions_not_temporal {sources : List SourceItem} :
    (setupMissions rows workspaceId sources).filter (·.2.temporal) = [] := by
  unfold setupMissions
  dsimp only
  split
  · rfl
  · split <;> rfl

theorem readSource_evidence (rules : HeadquartersRules Digest S) (rows : HeadquartersRows)
    (workspaceId : Uuid) (asOf : Instant) (descriptor : ConnectorDescriptor) :
    ∃ e, (readSource rules rows workspaceId asOf descriptor).evidence =
      if (readSource rules rows workspaceId asOf descriptor).configured &&
          (readSource rules rows workspaceId asOf descriptor).primaryState.needsAttention then [e]
      else [] :=
  ⟨_, rfl⟩

/-- The configured sources that need attention and have a time to tell. -/
def attentionSources (rules : HeadquartersRules Digest S) (rows : HeadquartersRows)
    (workspaceId : Uuid) (asOf : Instant) : List SourceItem :=
  (readSources rules rows workspaceId asOf).filter fun source =>
    source.configured && source.primaryState.needsAttention && source.observedAt.isSome

theorem sourceMission_temporal {source : SourceItem}
    (h : source ∈ readSources rules rows workspaceId asOf) :
    (sourceMission source).filter (·.2.temporal) =
      if source.configured && source.primaryState.needsAttention && source.observedAt.isSome then
        sourceMission source
      else none := by
  obtain ⟨descriptor, -, rfl⟩ := List.mem_map.1 h
  obtain ⟨e, he⟩ := readSource_evidence rules rows workspaceId asOf descriptor
  generalize readSource rules rows workspaceId asOf descriptor = source at he
  unfold sourceMission
  by_cases hneeds : (source.configured && source.primaryState.needsAttention) = true
  · rw [if_pos hneeds] at he
    rw [if_pos hneeds, hneeds, Bool.true_and]
    cases hobserved : source.observedAt <;>
      simp [MissionCandidate.temporal, sourceCandidate, he, hobserved]
  · rw [if_neg hneeds, Bool.eq_false_iff.2 hneeds]
    rfl

theorem sourceMissions_temporal (rules : HeadquartersRules Digest S) (rows : HeadquartersRows)
    (workspaceId : Uuid) (asOf : Instant) :
    ((readSources rules rows workspaceId asOf).filterMap sourceMission).filter (·.2.temporal) =
      (attentionSources rules rows workspaceId asOf).map fun source =>
        (source.primaryState.score, sourceCandidate source) := by
  have hneeds : ∀ source ∈ attentionSources rules rows workspaceId asOf,
      sourceMission source = some (source.primaryState.score, sourceCandidate source) := by
    intro source hsource
    have hkept := (List.mem_filter.1 hsource).2
    rw [Bool.and_eq_true] at hkept
    exact if_pos hkept.1
  have hmap : (attentionSources rules rows workspaceId asOf).filterMap sourceMission =
      (attentionSources rules rows workspaceId asOf).map fun source =>
        (source.primaryState.score, sourceCandidate source) := by
    rw [← List.filterMap_eq_map]
    exact List.filterMap_congr hneeds
  rw [← hmap, attentionSources, List.filter_filterMap, List.filterMap_filter]
  exact List.filterMap_congr fun source hsource => sourceMission_temporal hsource

/-- The missions that memory counts. -/
def countedMissions (rules : HeadquartersRules Digest S) (rows : HeadquartersRows)
    (workspaceId : Uuid) (asOf : Instant) (read : Projections) : List (Nat × MissionCandidate) :=
  read.verifiedProposals.map (proposalMission rows) ++
    (attentionSources rules rows workspaceId asOf).map (fun source =>
      (source.primaryState.score, sourceCandidate source)) ++
    ((read.companyWorld.candidates .externalPerson).map (fun candidate =>
        (350, worldCandidate rules rows workspaceId .externalPerson candidate)) ++
      (read.companyWorld.candidates .organization).map fun candidate =>
        (350, worldCandidate rules rows workspaceId .organization candidate))

/-- The projections that one transaction reads. -/
structure ReadFrom (rules : HeadquartersRules Digest S) (rows : HeadquartersRows)
    (workspaceId : Uuid) (asOf : Instant) (read : Projections) : Prop where
  companyWorld : headquartersMap rules.mail rows.world workspaceId = some read.companyWorld
  sources : read.sources = readSources rules rows workspaceId asOf
  evidence : ∀ v ∈ read.verifiedProposals, v.evidenceRefs ≠ []
  proposals : read.verifiedProposals.map (·.proposal) =
    (readDecisionRows rows workspaceId).proposals.filter fun proposal =>
      (citedEvidence rules.evidence rows.evidence workspaceId proposal).isSome

theorem filter_temporal (h : ReadFrom rules rows workspaceId asOf read) :
    (buildMissionCandidates rules rows workspaceId read).filter (·.2.temporal) =
      countedMissions rules rows workspaceId asOf read := by
  have hproposals : (read.verifiedProposals.map (proposalMission rows)).filter (·.2.temporal) =
      read.verifiedProposals.map (proposalMission rows) := by
    refine List.filter_eq_self.2 fun mission hmission => ?_
    obtain ⟨v, hv, rfl⟩ := List.mem_map.1 hmission
    simp [MissionCandidate.temporal, proposalMission, h.evidence v hv]
  have hworld : (worldMissions rules rows workspaceId read.companyWorld).filter (·.2.temporal) =
      worldMissions rules rows workspaceId read.companyWorld := by
    refine List.filter_eq_self.2 fun mission hmission => ?_
    rw [worldMissions_eq h.companyWorld] at hmission
    rcases List.mem_append.1 hmission with hmission | hmission
    · obtain ⟨candidate, hcandidate, rfl⟩ := List.mem_map.1 hmission
      exact (worldCandidate_temporal h.companyWorld hcandidate).2
    · obtain ⟨candidate, hcandidate, rfl⟩ := List.mem_map.1 hmission
      exact (worldCandidate_temporal h.companyWorld hcandidate).2
  rw [buildMissionCandidates, List.filter_append, List.filter_append, List.filter_append,
    hproposals, hworld, setupMissions_not_temporal, List.append_nil, h.sources,
    sourceMissions_temporal, worldMissions_eq h.companyWorld, countedMissions]

theorem nodup_scanned (rows : HeadquartersRows) (workspaceId : Uuid) :
    ((readDecisionRows rows workspaceId).proposals.map (·.id)).Nodup := by
  have hmem : ∀ proposal ∈ (readDecisionRows rows workspaceId).proposals,
      proposal ∈ rows.evidence.proposals := by
    intro proposal hproposal
    have heligible := List.mem_filter.1 (List.mem_mergeSort.1 (List.mem_of_mem_take hproposal))
    exact (List.mem_filter.1 heligible.1).1
  have hnodup : (readDecisionRows rows workspaceId).proposals.Nodup := by
    refine List.Nodup.sublist (List.take_sublist _ _) ?_
    refine (List.mergeSort_perm _ _).nodup_iff.2 ?_
    exact (rows.proposals_nodup.filter _).filter _
  exact List.Nodup.map_on (fun a ha b hb hid =>
    rows.evidence.proposal_id a (hmem a ha) b (hmem b hb) hid) hnodup

theorem sourceKey_of_id {key word : Str} (h : 58 ∉ key) :
    (key ++ 58 :: word).takeWhile (· != 58) = key := by
  rw [List.takeWhile_append_of_pos]
  · simp
  · intro c hc
    have hne : c ≠ 58 := fun heq => h (heq ▸ hc)
    simp [hne]

theorem nodup_source_ids (rules : HeadquartersRules Digest S) (rows : HeadquartersRows)
    (workspaceId : Uuid) (asOf : Instant) :
    ((attentionSources rules rows workspaceId asOf).map fun source =>
      (sourceCandidate source).mission.id).Nodup := by
  have hdescriptors : (connectorDescriptors.map (·.provider)).Nodup ∧
      ∀ descriptor ∈ connectorDescriptors, 58 ∉ descriptor.provider := by decide +kernel
  have hsource : Str.of "source:" = [115, 111, 117, 114, 99, 101, 58] := by decide +kernel
  have hcolon : Str.of ":" = [58] := by decide +kernel
  have hkeys : ((attentionSources rules rows workspaceId asOf).map (·.key)).Nodup := by
    refine List.Nodup.sublist (List.filter_sublist.map _) ?_
    rw [readSources, List.map_map]
    exact hdescriptors.1
  refine List.Nodup.of_map (fun id : Str => (id.drop 7).takeWhile (· != 58)) ?_
  rw [List.map_map]
  have hread : (attentionSources rules rows workspaceId asOf).map
      ((fun id : Str => (id.drop 7).takeWhile (· != 58)) ∘ fun source =>
        (sourceCandidate source).mission.id) =
      (attentionSources rules rows workspaceId asOf).map (·.key) := by
    refine List.map_congr_left fun source hmem => ?_
    obtain ⟨descriptor, hdescriptor, rfl⟩ := List.mem_map.1 (List.mem_filter.1 hmem).1
    have hplain := hdescriptors.2 descriptor hdescriptor
    simp only [Function.comp_apply, sourceCandidate, hsource, hcolon, List.append_assoc,
      List.cons_append, List.nil_append, List.drop_succ_cons, List.drop_zero]
    exact sourceKey_of_id hplain
  exact hread ▸ hkeys

theorem nodup_candidate_keys (candidateType : CandidateType)
    (hmap : headquartersMap rules.mail rows.world workspaceId = some companyWorld) :
    ((companyWorld.candidates candidateType).map (·.key)).Nodup := by
  obtain ⟨hemails, hdomains⟩ := nodup_of_build hmap
  have hshown := shown_headquarters hmap
  cases candidateType with
  | externalPerson =>
    have hkeys : (companyWorld.candidates .externalPerson).map (·.key) =
        (companyWorld.people.map (·.1.email)).map .externalPerson := by
      rw [CompanyMap.candidates, List.map_map, List.map_map]
      refine List.map_congr_left fun entry hentry => ?_
      exact (externalPerson_row ((hshown.people entry.1 entry.2).1 hentry).1).2.2.1
    exact hkeys ▸ hemails.map fun _ _ heq => CandidateKey.externalPerson.inj heq
  | organization =>
    have hkeys : (companyWorld.candidates .organization).map (·.key) =
        (companyWorld.organizations.map (·.1.domain)).map .organization := by
      rw [CompanyMap.candidates, List.map_map, List.map_map]
      refine List.map_congr_left fun entry hentry => ?_
      exact (candidateOrganization_row ((hshown.organizations entry.1 entry.2).1 hentry).1).2
    exact hkeys ▸ hdomains.map fun _ _ heq => CandidateKey.organization.inj heq

theorem nodup_world_ids (candidateType : CandidateType)
    (hmap : headquartersMap rules.mail rows.world workspaceId = some companyWorld) :
    ((companyWorld.candidates candidateType).map fun candidate =>
      (worldCandidate rules rows workspaceId candidateType candidate).mission.id).Nodup := by
  have hkeys := nodup_candidate_keys candidateType hmap
  refine List.Nodup.map_on (fun a ha b hb hid => ?_) (List.Nodup.of_map _ hkeys)
  exact List.inj_on_of_nodup_map hkeys ha hb
    (rules.worldReference_key (List.append_cancel_left hid))

/-- No two counted missions share an id. -/
theorem nodup_counted_ids (h : ReadFrom rules rows workspaceId asOf read) :
    ((countedMissions rules rows workspaceId asOf read).map (·.2.mission.id)).Nodup := by
  have hproposal : Str.of "proposal:" = [112, 114, 111, 112, 111, 115, 97, 108, 58] := by
    decide +kernel
  have hsource : Str.of "source:" = [115, 111, 117, 114, 99, 101, 58] := by decide +kernel
  have hperson : Str.of "world:" ++ CandidateType.externalPerson.word =
      [119, 111, 114, 108, 100, 58, 112, 101, 114, 115, 111, 110] := by decide +kernel
  have horganization : Str.of "world:" ++ CandidateType.organization.word =
      [119, 111, 114, 108, 100, 58, 111, 114, 103, 97, 110, 105, 122, 97, 116, 105, 111, 110] := by
    decide +kernel
  have hproposals : (read.verifiedProposals.map fun v =>
      (proposalMission rows v).2.mission.id).Nodup := by
    have hids : (read.verifiedProposals.map (·.proposal.id)).Nodup := by
      have hscanned := (nodup_scanned rows workspaceId).sublist
        ((List.filter_sublist (p := fun proposal =>
          (citedEvidence rules.evidence rows.evidence workspaceId proposal).isSome)).map (·.id))
      rwa [← h.proposals, List.map_map] at hscanned
    have hlist : (read.verifiedProposals.map fun v => (proposalMission rows v).2.mission.id) =
        (read.verifiedProposals.map (·.proposal.id)).map fun id =>
          Str.of "proposal:" ++ id.text := by
      rw [List.map_map]
      rfl
    rw [hlist]
    refine hids.map fun a b heq => ?_
    cases a
    cases b
    simpa using List.append_cancel_left heq
  have hproposal_head : ∀ v, (proposalMission rows v).2.mission.id.head? = some 112 := by
    intro v
    simp [proposalMission, hproposal]
  have hsource_head : ∀ source, (sourceCandidate source).mission.id.head? = some 115 := by
    intro source
    simp [sourceCandidate, hsource]
  have hperson_start : ∀ candidate, ∃ rest,
      (worldCandidate rules rows workspaceId .externalPerson candidate).mission.id =
        [119, 111, 114, 108, 100, 58, 112] ++ rest := by
    intro candidate
    refine ⟨[101, 114, 115, 111, 110] ++ (Str.of ":" ++ rules.worldReference workspaceId
      .externalPerson candidate.key candidate.version), ?_⟩
    simp only [worldCandidate, hperson, List.append_assoc]
    rfl
  have horganization_start : ∀ candidate, ∃ rest,
      (worldCandidate rules rows workspaceId .organization candidate).mission.id =
        [119, 111, 114, 108, 100, 58, 111] ++ rest := by
    intro candidate
    refine ⟨[114, 103, 97, 110, 105, 122, 97, 116, 105, 111, 110] ++ (Str.of ":" ++
      rules.worldReference workspaceId .organization candidate.key candidate.version), ?_⟩
    simp only [worldCandidate, horganization, List.append_assoc]
    rfl
  rw [countedMissions]
  simp only [List.map_append, List.map_map]
  refine List.nodup_append.2 ⟨List.nodup_append.2 ⟨hproposals,
    nodup_source_ids rules rows workspaceId asOf, ?_⟩, List.nodup_append.2
      ⟨nodup_world_ids .externalPerson h.companyWorld,
        nodup_world_ids .organization h.companyWorld, ?_⟩, ?_⟩
  · intro a ha b hb heq
    obtain ⟨v, -, rfl⟩ := List.mem_map.1 ha
    obtain ⟨source, -, rfl⟩ := List.mem_map.1 hb
    have hhead := congrArg List.head? heq
    simp [hproposal_head, hsource_head] at hhead
  · intro a ha b hb heq
    obtain ⟨person, -, rfl⟩ := List.mem_map.1 ha
    obtain ⟨organization, -, rfl⟩ := List.mem_map.1 hb
    obtain ⟨rest, hrest⟩ := hperson_start person
    obtain ⟨rest', hrest'⟩ := horganization_start organization
    simp [hrest, hrest'] at heq
  · intro a ha b hb heq
    have hb : b.head? = some 119 := by
      rcases List.mem_append.1 hb with hb | hb
      · obtain ⟨person, -, rfl⟩ := List.mem_map.1 hb
        obtain ⟨rest, hrest⟩ := hperson_start person
        simp [hrest]
      · obtain ⟨organization, -, rfl⟩ := List.mem_map.1 hb
        obtain ⟨rest, hrest⟩ := horganization_start organization
        simp [hrest]
    rcases List.mem_append.1 ha with ha | ha
    · obtain ⟨v, -, rfl⟩ := List.mem_map.1 ha
      rw [← heq] at hb
      simp [hproposal_head] at hb
    · obtain ⟨source, -, rfl⟩ := List.mem_map.1 ha
      rw [← heq] at hb
      simp [hsource_head] at hb

theorem temporalCandidates_perm (h : ReadFrom rules rows workspaceId asOf read) :
    (temporalCandidates (rankedMissions rules rows workspaceId read)).Perm
      ((countedMissions rules rows workspaceId asOf read).map (·.2)) := by
  refine (List.mergeSort_perm _ _).trans ?_
  rw [rankedMissions, List.filter_map, ← filter_temporal h]
  exact ((List.mergeSort_perm _ _).filter _).map _

/-- Every counted mission has a fingerprint of its own. -/
theorem length_currentFingerprints (h : ReadFrom rules rows workspaceId asOf read) :
    (currentFingerprints (rankedMissions rules rows workspaceId read)).length =
      read.verifiedProposals.length + (attentionSources rules rows workspaceId asOf).length +
        (read.companyWorld.people.length + read.companyWorld.organizations.length) := by
  have hperm := temporalCandidates_perm h
  have hnodup : ((temporalCandidates (rankedMissions rules rows workspaceId read)).map
      temporalCandidateFingerprint).Nodup := by
    refine List.Nodup.of_map (·.id) ?_
    rw [List.map_map]
    have hids := nodup_counted_ids h
    have hids' := (hperm.map fun candidate => candidate.mission.id).nodup_iff.2
      (by rw [List.map_map]; exact hids)
    exact hids'
  rw [currentFingerprints, eraseDups_of_nodup hnodup, List.length_map, hperm.length_eq,
    List.length_map, countedMissions]
  simp [CompanyMap.candidates, Nat.add_assoc]

end missions

section questions

variable {rules : MailRules} {db : WorldRows} {workspaceId : Uuid} {map : CompanyMap}

/-- The outside addresses of the window with an open question. -/
def openPeople (rules : MailRules) (db : WorldRows) (workspaceId : Uuid) : List Str :=
  (messageParticipantEmails rules (window db workspaceId)).dedup.filter fun email =>
    !(internalOf rules db workspaceId .resolutionOnly).contains email &&
      !isResolved db workspaceId .externalPerson (.externalPerson email)

/-- The domains of its outside addresses with an open question. -/
def openOrganizations (rules : MailRules) (db : WorldRows) (workspaceId : Uuid) : List Str :=
  (((messageParticipantEmails rules (window db workspaceId)).filter fun email =>
      !(internalOf rules db workspaceId .resolutionOnly).contains email).filterMap
    (organizationDomain rules)).dedup.filter fun domain =>
      !(isResolved db workspaceId .organization (.organization domain) ||
        isConfirmedOrganization db workspaceId (.organization domain))

theorem length_people (hmap : headquartersMap rules db workspaceId = some map) :
    map.people.length = (openPeople rules db workspaceId).length := by
  have hshown := shown_headquarters hmap
  have hperm : (map.people.map (·.1.email)).Perm (openPeople rules db workspaceId) := by
    refine (List.perm_ext_iff_of_nodup (nodup_of_build hmap).1
      ((List.nodup_dedup _).filter _)).2 fun email => ?_
    rw [List.mem_filter, List.mem_dedup, List.mem_map]
    simp only [Bool.and_eq_true, Bool.not_eq_true', List.contains_eq_mem, decide_eq_false_iff_not]
    constructor
    · rintro ⟨⟨person, version⟩, hentry, rfl⟩
      obtain ⟨hrow, -, hopen⟩ := (hshown.people person version).1 hentry
      have hopen := hopen.resolve_left MapMode.noConfusion
      rw [(externalPerson_row hrow).2.2.1] at hopen
      obtain ⟨hout, hmet⟩ := externalPerson_exists.1 ⟨person, hrow⟩
      exact ⟨hmet, hout, hopen⟩
    · rintro ⟨hmet, hout, hopen⟩
      obtain ⟨person, hrow⟩ := externalPerson_exists.2 ⟨hout, hmet⟩
      obtain ⟨-, hemail, hkey, -⟩ := externalPerson_row hrow
      refine ⟨(person, personVersion db workspaceId person), ?_, hemail⟩
      exact (hshown.people _ _).2 ⟨hemail.symm ▸ hrow, rfl, .inr (hkey ▸ hopen)⟩
  rw [← List.length_map, hperm.length_eq]

theorem length_organizations (hmap : headquartersMap rules db workspaceId = some map) :
    map.organizations.length = (openOrganizations rules db workspaceId).length := by
  have hshown := shown_headquarters hmap
  have hperm : (map.organizations.map (·.1.domain)).Perm
      (openOrganizations rules db workspaceId) := by
    refine (List.perm_ext_iff_of_nodup (nodup_of_build hmap).2
      ((List.nodup_dedup _).filter _)).2 fun domain => ?_
    rw [List.mem_filter, List.mem_dedup, List.mem_map, List.mem_filterMap]
    simp only [Bool.not_eq_true', Bool.or_eq_false_iff, List.mem_filter, List.contains_eq_mem,
      decide_eq_false_iff_not]
    constructor
    · rintro ⟨⟨organization, version⟩, hentry, rfl⟩
      obtain ⟨hrow, -, hopen⟩ := (hshown.organizations organization version).1 hentry
      have hopen := hopen.resolve_left MapMode.noConfusion
      rw [(candidateOrganization_row hrow).2] at hopen
      obtain ⟨email, hout, hmet, hdomain⟩ := candidateOrganization_exists.1 ⟨organization, hrow⟩
      exact ⟨⟨email, ⟨hmet, hout⟩, hdomain⟩, hopen⟩
    · rintro ⟨⟨email, ⟨hmet, hout⟩, hdomain⟩, hopen⟩
      obtain ⟨organization, hrow⟩ := candidateOrganization_exists.2 ⟨email, hout, hmet, hdomain⟩
      obtain ⟨hown, hkey⟩ := candidateOrganization_row hrow
      refine ⟨(organization, organizationVersion db workspaceId organization), ?_, hown⟩
      exact (hshown.organizations _ _).2 ⟨hown.symm ▸ hrow, rfl, .inr (hkey ▸ hopen)⟩
  rw [← List.length_map, hperm.length_eq]

end questions

section rendering

variable {Digest S : Type} [DecidableEq Digest] {rules : HeadquartersRules Digest S} {plan : Plan}
variable {rows : HeadquartersRows} {memory : MemoryRows S} {workspaceId : Uuid} {userId : UserId}
variable {asOf : Instant} {read : Projections}

theorem stored_scanned (rows : HeadquartersRows) (workspaceId : Uuid) :
    Stored rows.evidence workspaceId (readDecisionRows rows workspaceId).proposals := by
  intro proposal hproposal
  have heligible := List.mem_filter.1 (List.mem_mergeSort.1 (List.mem_of_mem_take hproposal))
  obtain ⟨hmem, hproposed⟩ := List.mem_filter.1 heligible.1
  rw [Bool.and_eq_true, decide_eq_true_eq] at hproposed
  exact ⟨hmem, hproposed.1⟩

/-- The open proposals of the scan that cite rows of the workspace. -/
def citedProposals (rules : EvidenceRules Digest) (rows : HeadquartersRows) (workspaceId : Uuid) :
    List Proposal :=
  (readDecisionRows rows workspaceId).proposals.filter fun proposal =>
    (citedEvidence rules rows.evidence workspaceId proposal).isSome

theorem readFrom_of_read (h : readProjections rules plan rows workspaceId asOf = .ok read) :
    ReadFrom rules rows workspaceId asOf read ∧
      Encodable rules.evidence rows.evidence workspaceId
        (readDecisionRows rows workspaceId).proposals ∧
      ∀ proposal ∈ citedProposals rules.evidence rows workspaceId,
        (rows.proposalColumns proposal.id).jsonEncodable = true := by
  unfold readProjections at h
  dsimp only at h
  split at h
  · cases h
  · rename_i verified hverified
    split at h
    · cases h
    · rename_i companyWorld hmap
      split at h
      · rename_i hversions
        obtain rfl := Except.ok.inj h
        obtain ⟨hproposals, hevidence⟩ :=
          verifyProposals_reports (stored_scanned rows workspaceId) hverified
        refine ⟨⟨hmap, rfl, hevidence, hproposals⟩,
          verifyProposals_encodable (stored_scanned rows workspaceId) hverified, ?_⟩
        intro proposal hproposal
        rw [citedProposals, ← hproposals] at hproposal
        obtain ⟨v, hv, rfl⟩ := List.mem_map.1 hproposal
        exact List.all_eq_true.1 hversions v hv
      · cases h

theorem readProjections_exists (plan : Plan) (asOf : Instant)
    (hproposals : Encodable rules.evidence rows.evidence workspaceId
      (readDecisionRows rows workspaceId).proposals)
    (hversions : ∀ proposal ∈ citedProposals rules.evidence rows workspaceId,
      (rows.proposalColumns proposal.id).jsonEncodable = true)
    (hmap : (headquartersMap rules.mail rows.world workspaceId).isSome) :
    ∃ read, readProjections rules plan rows workspaceId asOf = .ok read := by
  obtain ⟨verified, hverified, -⟩ :=
    verifyProposals_eq_ok plan (stored_scanned rows workspaceId) hproposals
  obtain ⟨companyWorld, hmap⟩ := Option.isSome_iff_exists.1 hmap
  have hreports := (verifyProposals_reports (stored_scanned rows workspaceId) hverified).1
  have hall : (verified.all fun v => (rows.proposalColumns v.proposal.id).jsonEncodable) = true := by
    refine List.all_eq_true.2 fun v hv => hversions v.proposal ?_
    rw [citedProposals, ← hreports]
    exact List.mem_map_of_mem hv
  simp [readProjections, hverified, hmap, hall]

/-- The checkpoint since which the changes are counted. -/
def MemoryRows.usableCheckpoint (memory : MemoryRows S) : Option (Checkpoint S) :=
  memory.checkpoint.filter fun c =>
    c.eventFingerprints.length ≤ headquartersCheckpointFingerprintLimit &&
      c.checkpointVersion = companyMemoryCheckpointVersion &&
        c.lastEventSequence ≤ memory.currentSequence

def MemoryRows.knownFingerprints (memory : MemoryRows S) : List Fingerprint :=
  memory.usableCheckpoint.elim [] (·.eventFingerprints)

def MemoryRows.resolvedEvents (memory : MemoryRows S) : List Memory.Event :=
  memory.usableCheckpoint.elim [] fun c =>
    ((memory.events.filter fun e =>
      c.lastEventSequence < e.workspaceSequence && resolvedOrRestored e).mergeSort fun a b =>
        b.workspaceSequence ≤ a.workspaceSequence).take headquartersTemporalEventLimit

/-- The newest of the missions that the checkpoint does not hold and the events after it. -/
def listedChanges (itemId : ChangeItem → Str) (ranked : List MissionCandidate)
    (memory : MemoryRows S) : List ChangeItem :=
  let unknown := (temporalCandidates ranked).filter fun c =>
    decide (temporalCandidateFingerprint c ∉ memory.knownFingerprints)
  let listed := (unknown.map fun c => ChangeItem.candidate c memory.usableCheckpoint.isSome) ++
    memory.resolvedEvents.map .memoryEvent
  (listed.mergeSort fun a b =>
    newerFirst (changeItemSortKey itemId a) (changeItemSortKey itemId b)).take
      headquartersTemporalEventLimit

/-- The state in which headquarters renders for an active member. -/
structure Renderable (rules : HeadquartersRules Digest S) (plan : Plan) (rows : HeadquartersRows)
    (memory : MemoryRows S) (workspaceId : Uuid) (userId : UserId) : Prop where
  member : ∃ member ∈ rows.world.members,
    member.userId = userId ∧ member.workspaceId = workspaceId ∧ member.active = true
  proposals : Encodable rules.evidence rows.evidence workspaceId
    (readDecisionRows rows workspaceId).proposals
  versions : ∀ proposal ∈ citedProposals rules.evidence rows workspaceId,
    (rows.proposalColumns proposal.id).jsonEncodable = true
  addresses : Encodes rules.mail .resolutionOnly
    (internalOf rules.mail rows.world workspaceId .resolutionOnly) (window rows.world workspaceId)
  bounded : (citedProposals rules.evidence rows workspaceId).length +
      (attentionSources rules rows workspaceId memory.asOf).length +
      ((openPeople rules.mail rows.world workspaceId).length +
        (openOrganizations rules.mail rows.world workspaceId).length) ≤
    headquartersCheckpointFingerprintLimit
  shown : ∀ read, readProjections rules plan rows workspaceId memory.asOf = .ok read →
    shownEncodable (rankedMissions rules rows workspaceId read)
      (listedChanges rules.itemId (rankedMissions rules rows workspaceId read) memory) = true

theorem buildChanges_listed {itemId : ChangeItem → Str} {ranked : List MissionCandidate}
    {atLeast : Bool} {result : Changes S × List Fingerprint × Bool}
    (h : buildChanges itemId ranked memory.checkpoint atLeast
      ((readCompanyMemoryEventWindow memory.events memory.currentSequence
        memory.checkpoint).resolvedRows.map .memoryEvent)
      (readCompanyMemoryEventWindow memory.events memory.currentSequence
        memory.checkpoint).resolvedTotal
      (readCompanyMemoryEventWindow memory.events memory.currentSequence
        memory.checkpoint).cursorValid = .ok result) :
    result.1.items = listedChanges itemId ranked memory := by
  rw [buildChanges] at h
  dsimp only at h
  split at h
  · cases h
  · obtain rfl := Except.ok.inj h
    clear h
    dsimp only
    rw [listedChanges, MemoryRows.knownFingerprints, MemoryRows.resolvedEvents,
      MemoryRows.usableCheckpoint]
    cases memory.checkpoint with
    | none => simp
    | some c =>
      by_cases hmany : headquartersCheckpointFingerprintLimit < c.eventFingerprints.length
      · rw [Option.filter_some_neg (by simp [hmany])]
        simp [checkpointFingerprintSet, hmany]
      · have hfew := Nat.le_of_not_lt hmany
        by_cases hcursor : c.checkpointVersion = companyMemoryCheckpointVersion ∧
            c.lastEventSequence ≤ memory.currentSequence
        · rw [Option.filter_some_pos (by simp [hfew, hcursor])]
          simp only [checkpointFingerprintSet, hmany, readCompanyMemoryEventWindow,
            checkpointEventCursorValid, hcursor, Option.all_some, Option.elim_some,
            Option.isSome_some, decide_true, Bool.and_self, Bool.not_true, Bool.false_or,
            Bool.false_eq_true, if_true, if_false]
          rfl
        · rw [Option.filter_some_neg (by simpa [hfew] using hcursor)]
          have hinvalid : checkpointEventCursorValid (some c) memory.currentSequence = false := by
            simpa [checkpointEventCursorValid] using hcursor
          simp [readCompanyMemoryEventWindow, hinvalid]

omit [DecidableEq Digest] in
theorem items_of_build {snapshot : Snapshot S}
    (h : buildHeadquartersSnapshot (headquartersReader rules workspaceId) userId
      ⟨(rows, read), memory.events, memory.currentSequence, memory.checkpoint, memory.asOf⟩ =
        .ok snapshot) :
    snapshot.changes.items =
      listedChanges rules.itemId (rankedMissions rules rows workspaceId read) memory := by
  rw [buildHeadquartersSnapshot] at h
  dsimp only at h
  generalize hresult : buildChanges _ _ _ _ _ _ _ = result at h
  cases result with
  | error message => cases h
  | ok result =>
    obtain rfl := Except.ok.inj h
    exact buildChanges_listed hresult

omit [DecidableEq Digest] in
theorem fingerprints_of_state (h : ReadFrom rules rows workspaceId asOf read) :
    (currentFingerprints (rankedMissions rules rows workspaceId read)).length =
      (citedProposals rules.evidence rows workspaceId).length +
        (attentionSources rules rows workspaceId asOf).length +
        ((openPeople rules.mail rows.world workspaceId).length +
          (openOrganizations rules.mail rows.world workspaceId).length) := by
  rw [length_currentFingerprints h, length_people h.companyWorld,
    length_organizations h.companyWorld, citedProposals, ← h.proposals, List.length_map]

/-- A snapshot has at most as many questions, sources and proposals as the bound. -/
theorem bounded_of_render {snapshot : Snapshot S}
    (h : renderHeadquarters rules plan rows memory workspaceId userId = .ok snapshot) :
    (citedProposals rules.evidence rows workspaceId).length +
        (attentionSources rules rows workspaceId memory.asOf).length +
        ((openPeople rules.mail rows.world workspaceId).length +
          (openOrganizations rules.mail rows.world workspaceId).length) ≤
      headquartersCheckpointFingerprintLimit := by
  unfold renderHeadquarters at h
  split at h
  · cases h
  · split at h
    · cases h
    · rename_i read hread
      split at h
      · cases h
      · rename_i built hbuilt
        rw [← fingerprints_of_state (readFrom_of_read hread).1]
        exact (buildHeadquartersSnapshot_ok hbuilt).1

end rendering

/-- The digests of a sample: one of a key is the key, and the others are empty. -/
def sampleRules : HeadquartersRules (List Fields) Nat where
  evidence := asciiRules
  mail := plainMail
  worldReference _ _ key _ :=
    match key with
    | .externalPerson email => 0 :: email
    | .organization domain => 1 :: domain
    | .other text => 2 :: text
  worldReference_key := by
    intro _ _ key key' _ _ h
    cases key <;> cases key' <;> simp_all
  profileTarget _ _ := []
  healthDigest _ := []
  itemId _ := []
  snapshotId _ _ _ _ _ := 0

def wideAddress (n : Nat) : Str := [0x4E00 + n, 64, 120]

/-- A message to forty addresses, which is as many as are kept. -/
def wideMessage (n : Fin 13) : MessageRecord where
  id := ⟨Str.of "00000000-0000-4000-8000-0000000000" ++ [48 + n.val / 10, 48 + n.val % 10],
    by decide +kernel +revert⟩
  provider := Str.of "gmail"
  externalId := Str.of "m" ++ [48 + n.val]
  recordType := Str.of "message"
  sourceUrl := none
  payloadHash := []
  observedAt := 0
  workspaceId := sampleWorkspace
  isDeleted := false
  sourceUpdatedAt := some 0
  createdAt := 0
  payload := ⟨.null, some ((List.range 40).map fun i => .str (wideAddress (40 * n.val + i))), none⟩

/-- Thirteen such messages, and nothing else but the user. -/
def wideMail : WorldRows where
  records := (List.finRange 13).map wideMessage
  members := [⟨7, sampleWorkspace, Str.of "ann@acme.com", true⟩]
  resolutions := []
  organizations := []
  record_id := by
    intro a ha b hb hid
    obtain ⟨m, -, rfl⟩ := List.mem_map.1 ha
    obtain ⟨n, -, rfl⟩ := List.mem_map.1 hb
    have hdigits : 48 + m.val / 10 = 48 + n.val / 10 ∧ 48 + m.val % 10 = 48 + n.val % 10 := by
      simpa [wideMessage] using congrArg Uuid.text hid
    rw [show m = n by omega]

theorem wideSources_id :
    Dict.Unique (·.id) (wideMail.records.map (·.toSourceRecord)) := by
  intro a ha b hb hid
  obtain ⟨m, hm, rfl⟩ := List.mem_map.1 ha
  obtain ⟨n, hn, rfl⟩ := List.mem_map.1 hb
  rw [wideMail.record_id m hm n hn hid]

theorem wideSources_name :
    Dict.Unique (fun r => (r.workspaceId, r.provider, r.externalId))
      (wideMail.records.map (·.toSourceRecord)) := by
  intro a ha b hb hname
  obtain ⟨r, hr, rfl⟩ := List.mem_map.1 ha
  obtain ⟨r', hr', rfl⟩ := List.mem_map.1 hb
  obtain ⟨m, -, rfl⟩ := List.mem_map.1 hr
  obtain ⟨n, -, rfl⟩ := List.mem_map.1 hr'
  have hdigit : 48 + m.val = 48 + n.val := by
    simpa [wideMessage] using hname
  rw [show m = n by omega]

theorem noProposals_id : Dict.Unique (fun proposal : Proposal => proposal.id) [] := .none _

def wideRows : HeadquartersRows where
  world := wideMail
  evidence :=
    { sampleDatabase [] [] with
      sourceRecords := wideMail.records.map (·.toSourceRecord)
      proposals := []
      sourceRecord_id := wideSources_id
      sourceRecord_name := wideSources_name
      proposal_id := noProposals_id }
  sourceRecords_eq := rfl
  proposals_nodup := List.nodup_nil
  proposalColumns _ := ⟨false, [], none, 0, 0, 0, true⟩
  itemColumns _ := ⟨[], none⟩
  lastSyncAt _ := none
  jobs := []

theorem participants_wideMessage : ∀ n : Fin 13,
    (participants plainMail (gmailMessagePayload (wideMessage n))).map (·.email) =
      (List.range 40).map fun i => wideAddress (40 * n.val + i) := by
  decide +kernel

theorem wideAddress_open {n : Nat} (h : n < 520) :
    wideAddress n ∈ openPeople plainMail wideMail (sampleWorkspace) := by
  have hrow : n / 40 < 13 := by omega
  have hmessage : gmailMessagePayload (wideMessage ⟨n / 40, hrow⟩) ∈
      window wideMail (sampleWorkspace) := by
    refine List.mem_map_of_mem ?_
    rw [List.take_of_length_le]
    · refine List.mem_mergeSort.2 (List.mem_filter.2 ⟨?_, ?_⟩)
      · exact List.mem_map_of_mem (List.mem_finRange _)
      · simp [isGmailMessage, wideMessage]
    · refine (Nat.le_of_eq (List.length_mergeSort _)).trans ?_
      refine (List.length_filter_le _ _).trans ?_
      simp [wideMail, companyMapLimit]
  have hmet : wideAddress n ∈ messageParticipantEmails plainMail (window wideMail (sampleWorkspace)) := by
    refine mem_messageParticipantEmails.2 ⟨_, hmessage, ?_⟩
    rw [participants_wideMessage]
    refine List.mem_map.2 ⟨n % 40, List.mem_range.2 (Nat.mod_lt _ (by decide)), ?_⟩
    rw [Nat.div_add_mod]
  refine List.mem_filter.2 ⟨List.mem_dedup.2 hmet, ?_⟩
  have hown : wideAddress n ≠ Str.of "ann@acme.com" := by
    intro heq
    have hhead : some (0x4E00 + n) = some 97 := congrArg List.head? heq
    simp at hhead
    omega
  have hout : wideAddress n ∉ internalOf plainMail wideMail (sampleWorkspace) .resolutionOnly := by
    intro hmem
    obtain ⟨member, hmember, heq⟩ := List.mem_map.1 hmem
    have hann := (List.mem_filter.1 (List.mem_filter.1 hmember).1).1
    rw [List.mem_singleton.1 hann] at heq
    exact hown (heq.symm.trans (by decide +kernel))
  rw [List.contains_eq_mem, decide_eq_false hout]
  rfl

end FounderOs.Headquarters
