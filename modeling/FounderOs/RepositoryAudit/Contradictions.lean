import FounderOs.RepositoryAudit.Replay
import FounderOs.RepositoryAudit.Storage

namespace FounderOs.RepositoryAudit

open Headquarters Transition

section material

variable (result : AnalyzerResult)

/-- The facts that the claims are stored as, without those of the unknowns. -/
def AnalyzerResult.claimMaterial : List FactMaterial :=
  result.purpose.material ::
    (result.responsibilities.map (RepositoryClaim.material .responsibility) ++
      result.interfacesProvided.map (RepositoryClaim.material .interfaceProvided) ++
      result.dependenciesConsumed.map (RepositoryClaim.material .dependencyConsumed) ++
      result.deploymentUnits.map (RepositoryClaim.material .deploymentUnit) ++
      result.ownershipCandidates.map (RepositoryClaim.material .ownerCandidate))

theorem factMaterial_eq :
    result.factMaterial = result.claimMaterial ++ result.unknowns.map (·.material) := rfl

theorem ids_of_claims :
    result.claims.map (·.1) = result.claimMaterial.map (·.claimId) := by
  simp only [AnalyzerResult.claims, AnalyzerResult.sections, AnalyzerResult.claimMaterial,
    List.map_cons, List.map_append, List.map_map]
  rfl

variable {result} {fact : FactMaterial} {unknown : RepositoryUnknown} {claimId : Str}

theorem factType_of_claim (h : fact ∈ result.claimMaterial) : fact.factType ≠ .unknown := by
  have hmap (factType : FactType) (claims : List RepositoryClaim) (htype : factType ≠ .unknown)
      (hmem : fact ∈ claims.map (RepositoryClaim.material factType)) :
      fact.factType ≠ .unknown := by
    obtain ⟨claim, -, rfl⟩ := List.mem_map.1 hmem
    exact htype
  simp only [AnalyzerResult.claimMaterial, List.mem_cons, List.mem_append] at h
  rcases h with rfl | (((h | h) | h) | h) | h
  · exact fun heq => by cases heq
  all_goals exact hmap _ _ (fun heq => by cases heq) h

/-- The ids of the claims are distinct, as the contract has it. -/
theorem claim_of_id (hids : (result.claims.map (·.1)).Nodup) {other : FactMaterial}
    (h : fact ∈ result.claimMaterial) (hother : other ∈ result.claimMaterial)
    (hid : fact.claimId = other.claimId) : fact = other :=
  List.inj_on_of_nodup_map (ids_of_claims result ▸ hids) h hother hid

/-- The unknowns come last, and one of them takes the place of a claim with its id. -/
theorem factByClaimId_of_unknown (h : unknown ∈ result.unknowns) :
    Dict.get result.factByClaimId unknown.unknownId = some (.unknown, unknown.unknownId) := by
  rw [AnalyzerResult.factByClaimId, factMaterial_eq, List.map_append, Dict.get_ofPairs_append]
  have hlast : Dict.get (Dict.ofPairs ((result.unknowns.map (·.material)).map fun fact =>
      (fact.claimId, fact.key))) unknown.unknownId = some (.unknown, unknown.unknownId) := by
    refine (Dict.get_ofPairs ?_).2 ?_
    · rintro p hp q hq hkey
      simp only [List.map_map, List.mem_map, Function.comp_apply] at hp hq
      obtain ⟨first, -, rfl⟩ := hp
      obtain ⟨second, -, rfl⟩ := hq
      exact congrArg (Prod.mk FactType.unknown) hkey
    · exact List.mem_map.2 ⟨unknown.material, List.mem_map_of_mem h, rfl⟩
  rw [hlast]
  rfl

theorem factByClaimId_of_claim (hids : (result.claims.map (·.1)).Nodup)
    (h : fact ∈ result.claimMaterial)
    (hnot : ∀ unknown ∈ result.unknowns, unknown.unknownId ≠ fact.claimId) :
    Dict.get result.factByClaimId fact.claimId = some fact.key := by
  rw [AnalyzerResult.factByClaimId, factMaterial_eq, List.map_append, Dict.get_ofPairs_append]
  have hfirst : Dict.get (Dict.ofPairs (result.claimMaterial.map fun fact =>
      (fact.claimId, fact.key))) fact.claimId = some fact.key := by
    refine (Dict.get_ofPairs ?_).2 (List.mem_map.2 ⟨fact, h, rfl⟩)
    rintro p hp q hq hkey
    obtain ⟨first, hfirst, rfl⟩ := List.mem_map.1 hp
    obtain ⟨second, hsecond, rfl⟩ := List.mem_map.1 hq
    exact congrArg FactMaterial.key (claim_of_id hids hfirst hsecond hkey)
  have hlast : Dict.get (Dict.ofPairs ((result.unknowns.map (·.material)).map fun fact =>
      (fact.claimId, fact.key))) fact.claimId = none := by
    cases hget : Dict.get (Dict.ofPairs ((result.unknowns.map (·.material)).map fun fact =>
      (fact.claimId, fact.key))) fact.claimId with
    | none => rfl
    | some key =>
      have hmem := Dict.mem_of_mem_ofPairs (Dict.mem_of_get hget)
      simp only [List.map_map, List.mem_map, Function.comp_apply, Prod.mk.injEq] at hmem
      obtain ⟨unknown, hunknown, hid, -⟩ := hmem
      exact absurd hid (hnot unknown hunknown)
  rw [hfirst, hlast]
  rfl

/-- The facts of a payload have keys of their own. -/
theorem fact_of_key (hids : (result.claims.map (·.1)).Nodup)
    (hunknowns : (result.unknowns.map (·.unknownId)).Nodup) {other : FactMaterial}
    (h : fact ∈ result.factMaterial) (hother : other ∈ result.factMaterial)
    (hkey : fact.key = other.key) : fact = other := by
  have htype : fact.factType = other.factType := congrArg Prod.fst hkey
  have hid : fact.claimId = other.claimId := congrArg Prod.snd hkey
  rw [factMaterial_eq, List.mem_append] at h hother
  rcases h with h | h <;> rcases hother with hother | hother
  · exact claim_of_id hids h hother hid
  · obtain ⟨unknown, -, rfl⟩ := List.mem_map.1 hother
    exact absurd htype (factType_of_claim h)
  · obtain ⟨unknown, -, rfl⟩ := List.mem_map.1 h
    exact absurd htype.symm (factType_of_claim hother)
  · obtain ⟨first, hfirst, rfl⟩ := List.mem_map.1 h
    obtain ⟨second, hsecond, rfl⟩ := List.mem_map.1 hother
    rw [List.inj_on_of_nodup_map hunknowns hfirst hsecond hid]

end material

section rows

variable {Item Key Row Content : Type} [DecidableEq Key] {kind : RecordKind Item Key Row}
variable {reading : kind.Reading Content} {items : AnalyzerResult → List Item}
variable {runs : List StoredRun} {run : StoredRun} {evidence : List EvidenceRow}
variable {table : List (Key × Row)}

/-- The row of an item that the newest run asserts under a key of its own. -/
theorem row_of_asserted (ht : reading.Follows items evidence table (run :: runs)) {item : Item}
    (hitem : item ∈ items run.resultHash.result)
    (hown : ∀ other ∈ items run.resultHash.result, kind.key other = kind.key item → other = item) :
    ∃ first row, Dict.get table (kind.key item) = some row ∧ kind.lastSeen row = run.id ∧
      reading.Shows evidence first item row := by
  have hasserts : (run.pass items).asserts kind.key (kind.key item) = true :=
    Retained.asserts_iff.2 ⟨item, hitem, rfl⟩
  obtain ⟨last, first, hlast, hstanding, -⟩ := Retained.standing_of_asserted hasserts
  obtain ⟨hmem, hkey⟩ := Retained.lastItem_mem hlast
  obtain rfl := hown last hmem hkey
  obtain ⟨row, hrow, hseen, -, hshows⟩ := ht.of_standing hstanding
  exact ⟨first, row, hrow, hseen, hshows⟩

end rows

section identities

variable {Digest : Type} {rules : EvidenceRules Digest} {payload : RepositoryIntelligence}

/-- What the contract asks of the ids that a contradiction is stored by. -/
structure AnalyzerResult.Identified (result : AnalyzerResult) : Prop where
  claims : (result.claims.map (·.1)).Nodup
  unknowns : (result.unknowns.map (·.unknownId)).Nodup
  pairs : (result.contradictions.map (·.normalizedPair)).Nodup
  named : ∀ contradiction ∈ result.contradictions,
    ∀ claimId ∈ [contradiction.leftClaimId, contradiction.rightClaimId],
      ∃ fact ∈ result.claimMaterial, fact.claimId = claimId

theorem identitiesValid_of_valid (h : payload.valid rules = true) :
    payload.result.identitiesValid = true := by
  simp only [RepositoryIntelligence.valid, AnalyzerResult.valid, Bool.and_eq_true] at h
  obtain ⟨⟨⟨⟨⟨⟨⟨⟨-, -, hidentities⟩, -⟩, -⟩, -⟩, -⟩, -⟩, -⟩, -⟩ := h
  exact hidentities

theorem identified_of_valid (h : payload.valid rules = true) : payload.result.Identified := by
  have hidentities := identitiesValid_of_valid h
  simp only [AnalyzerResult.identitiesValid, Bool.and_eq_true, decide_eq_true_eq,
    List.all_eq_true, and_assoc] at hidentities
  obtain ⟨hclaims, -, -, -, hunknowns, -, hpairs, hnamed⟩ := hidentities
  refine ⟨hclaims, hunknowns, hpairs, fun contradiction hmem claimId hclaimId => ?_⟩
  obtain ⟨refs, hrefs, -⟩ := (Option.any_eq_true _ _).1 (hnamed contradiction hmem claimId hclaimId)
  have hid : claimId ∈ payload.result.claims.map (·.1) :=
    List.mem_map.2 ⟨_, Dict.mem_of_get hrefs, rfl⟩
  rw [ids_of_claims] at hid
  exact List.mem_map.1 hid

end identities

section contradictions

/-- The row of the fact that the run stored for the claim with the id. -/
def StoresClaim (store : Store) (run : StoredRun) (claimId : Str) (key : FactKey) : Prop :=
  ∃ fact ∈ run.resultHash.result.claimMaterial, fact.claimId = claimId ∧ fact.key = key ∧
    ∃ row, Dict.get store.facts key = some row ∧ row.lastSeenRunId = run.id ∧
      (row.value, row.claimStatus, row.confidence) =
        (fact.value, fact.claimStatus, fact.confidence)

/-- The stored contradiction links the facts of the two claims that the payload names. -/
def LinksNamedFacts (store : Store) (run : StoredRun) (contradiction : Contradiction) : Prop :=
  ∃ row, Dict.get store.contradictions contradiction.normalizedPair = some row ∧
    row.lastSeenRunId = run.id ∧ StoresClaim store run contradiction.leftClaimId row.leftFact ∧
      StoresClaim store run contradiction.rightClaimId row.rightFact

/-- The id of neither claim is also that of an unknown. -/
def NamesNoUnknown (result : AnalyzerResult) (contradiction : Contradiction) : Prop :=
  ∀ unknown ∈ result.unknowns, unknown.unknownId ≠ contradiction.leftClaimId ∧
    unknown.unknownId ≠ contradiction.rightClaimId

variable {store : Store} {runs : List StoredRun} {run : StoredRun} {claimId : Str} {key : FactKey}

theorem row_of_contradiction (hstore : store.Follows (run :: runs))
    (hids : run.resultHash.result.Identified) {contradiction : Contradiction}
    (h : contradiction ∈ run.resultHash.result.contradictions) :
    ∃ row, Dict.get store.contradictions contradiction.normalizedPair = some row ∧
      row.lastSeenRunId = run.id ∧
      some row.leftFact =
        Dict.get run.resultHash.result.factByClaimId contradiction.leftClaimId ∧
      some row.rightFact =
        Dict.get run.resultHash.result.factByClaimId contradiction.rightClaimId := by
  have hlocated := List.mem_map_of_mem (f := fun contradiction : Contradiction =>
    (⟨contradiction, Dict.get run.resultHash.result.factByClaimId contradiction.leftClaimId,
      Dict.get run.resultHash.result.factByClaimId contradiction.rightClaimId⟩ :
        LocatedContradiction)) h
  obtain ⟨first, row, hrow, hseen, hshows⟩ := row_of_asserted hstore.contradictions hlocated
    (by
      rintro other hother hkey
      obtain ⟨second, hsecond, rfl⟩ := List.mem_map.1 hother
      rw [List.inj_on_of_nodup_map hids.pairs hsecond h hkey])
  have hcontent := hshows.1
  simp only [contradictionReading, Prod.mk.injEq] at hcontent
  exact ⟨row, hrow, hseen, hcontent.2.1, hcontent.2.2.1⟩

theorem storesClaim_of_get (hstore : store.Follows (run :: runs))
    (hids : run.resultHash.result.Identified)
    (hnamed : ∃ fact ∈ run.resultHash.result.claimMaterial, fact.claimId = claimId)
    (hnot : ∀ unknown ∈ run.resultHash.result.unknowns, unknown.unknownId ≠ claimId)
    (hkey : some key = Dict.get run.resultHash.result.factByClaimId claimId) :
    StoresClaim store run claimId key := by
  obtain ⟨fact, hfact, rfl⟩ := hnamed
  rw [factByClaimId_of_claim hids.claims hfact hnot] at hkey
  obtain rfl := Option.some.inj hkey
  have hmem : fact ∈ run.resultHash.result.factMaterial := List.mem_append_left _ hfact
  obtain ⟨_, row, hrow, hseen, hshows⟩ := row_of_asserted hstore.facts hmem
    (fun other hother hsame => fact_of_key hids.claims hids.unknowns hother hmem hsame)
  exact ⟨fact, hfact, rfl, rfl, row, hrow, hseen, hshows.1⟩

/-- What is stored for a claim is not what is stored for an unknown with its id. -/
theorem unknownId_ne (h : StoresClaim store run claimId key)
    (hkey : some key = Dict.get run.resultHash.result.factByClaimId claimId)
    {unknown : RepositoryUnknown} (hunknown : unknown ∈ run.resultHash.result.unknowns) :
    unknown.unknownId ≠ claimId := by
  rintro rfl
  obtain ⟨fact, hfact, -, rfl, -⟩ := h
  rw [factByClaimId_of_unknown hunknown] at hkey
  exact factType_of_claim hfact (congrArg Prod.fst (Option.some.inj hkey))

variable {Digest : Type} {rules : EvidenceRules Digest} {setting : Setting} {s t : AuditWorld}
variable {jobId : Uuid} {input : PersistInput} {drawn : Drawn} {committed : Bool}

theorem contradictions_link_iff
    (h : Reaches (AuditWorld.step setting) anyStep emptyAuditWorld s)
    (hvalid : input.payload.valid rules = true)
    (hstep : s.step setting (.persist jobId input drawn committed) = some t)
    (hstored : t.runs = run :: s.runs) :
    (∀ contradiction ∈ input.payload.result.contradictions,
        LinksNamedFacts t.store run contradiction) ↔
      ∀ contradiction ∈ input.payload.result.contradictions,
        NamesNoUnknown input.payload.result contradiction := by
  have hstore := AuditWorld.follows_of_reaches (h.tail trivial hstep)
  obtain ⟨-, -, hhash, -⟩ := stored_of_step (keeps_of_reaches keeps_empty h) hstep hstored
  have hids := identified_of_valid hvalid
  rw [hstored] at hstore
  rw [← hhash] at hids ⊢
  refine forall₂_congr fun contradiction hmem => ?_
  obtain ⟨row, hrow, hseen, hleft, hright⟩ := row_of_contradiction hstore hids hmem
  constructor
  · rintro ⟨other, hother, -, hlinksLeft, hlinksRight⟩ unknown hunknown
    obtain rfl := Option.some.inj (hrow.symm.trans hother)
    exact ⟨unknownId_ne hlinksLeft hleft hunknown, unknownId_ne hlinksRight hright hunknown⟩
  · intro hnot
    have hnamed := hids.named contradiction hmem
    refine ⟨row, hrow, hseen, ?_, ?_⟩
    · exact storesClaim_of_get hstore hids (hnamed _ (List.mem_cons_self ..))
        (fun unknown hunknown => (hnot unknown hunknown).1) hleft
    · exact storesClaim_of_get hstore hids
        (hnamed _ (List.mem_cons_of_mem _ (List.mem_cons_self ..)))
        (fun unknown hunknown => (hnot unknown hunknown).2) hright

end contradictions

def dutyClaim (claimId : String) : RepositoryClaim where
  workspaceId := sampleWorkspace
  status := .observed
  confidence := 1
  evidenceRefs := [citedFile "a"]
  contradictingEvidenceRefs := []
  claimId := Str.of claimId
  claimType := Str.of "duty"
  summary := some (Str.of "bills")
  details := []

/-- Two claims that contradict each other, and an open question. -/
def disputing (unknownId : String) : AnalyzerResult :=
  { emptyResult with
    responsibilities := [dutyClaim "bills", dutyClaim "ships"]
    contradictions := [⟨Str.of "clash", sampleWorkspace, Str.of "bills", Str.of "ships", 1,
      Str.of "either", [citedFile "a"]⟩]
    unknowns := [⟨Str.of unknownId, sampleWorkspace, Str.of "why", []⟩] }

theorem contradictions_link_iff_asked : ∃ s t run,
    Reaches (AuditWorld.step sampleSetting) anyStep emptyAuditWorld s ∧
      s.step sampleSetting (.persist (sampleId 1)
        (sampleInput "standard" (disputing "owner") 6) sampleDraws false) = some t ∧
      t.runs = run :: s.runs ∧
      ((∀ contradiction ∈ (disputing "owner").contradictions,
          LinksNamedFacts t.store run contradiction) ↔
        ∀ contradiction ∈ (disputing "owner").contradictions,
          NamesNoUnknown (disputing "owner") contradiction) := by
  have hvalid : (sampleInput "standard" (disputing "owner") 6).payload.valid asciiRules = true := by
    decide +kernel
  have hrun : (exec (AuditWorld.step sampleSetting) emptyAuditWorld citingRun).any (fun s =>
      (s.step sampleSetting (.persist (sampleId 1)
        (sampleInput "standard" (disputing "owner") 6) sampleDraws false)).any fun t =>
          t.runs.head?.any fun run => t.runs == run :: s.runs) = true := by
    decide +kernel
  obtain ⟨s, hs, hend⟩ := (Option.any_eq_true _ _).1 hrun
  obtain ⟨t, ht, hhead⟩ := (Option.any_eq_true _ _).1 hend
  obtain ⟨run, -, hstored⟩ := (Option.any_eq_true _ _).1 hhead
  have hstored : t.runs = run :: s.runs := eq_of_beq hstored
  exact ⟨s, t, run, reaches_of_exec hs, ht, hstored,
    contradictions_link_iff (reaches_of_exec hs) hvalid ht hstored⟩

/-- The open question has the id of one of the two claims, and the contradiction links it. -/
theorem contradiction_links_unknown : ¬∀ s,
    Reaches (AuditWorld.step sampleSetting) anyStep emptyAuditWorld s →
      ∀ jobId input drawn committed t run, input.payload.valid asciiRules = true →
        s.step sampleSetting (.persist jobId input drawn committed) = some t →
          t.runs = run :: s.runs → ∀ contradiction ∈ input.payload.result.contradictions,
            LinksNamedFacts t.store run contradiction := by
  intro hall
  have hvalid : (sampleInput "standard" (disputing "bills") 6).payload.valid asciiRules = true := by
    decide +kernel
  have hrun : (exec (AuditWorld.step sampleSetting) emptyAuditWorld citingRun).any (fun s =>
      (s.step sampleSetting (.persist (sampleId 1)
        (sampleInput "standard" (disputing "bills") 6) sampleDraws false)).any fun t =>
          t.runs.head?.any fun run => t.runs == run :: s.runs &&
            (Dict.get t.store.contradictions (Str.of "bills", Str.of "ships")).any fun row =>
              row.leftFact.1 == .unknown) = true := by
    decide +kernel
  obtain ⟨s, hs, hend⟩ := (Option.any_eq_true _ _).1 hrun
  obtain ⟨t, ht, hhead⟩ := (Option.any_eq_true _ _).1 hend
  obtain ⟨run, -, hboth⟩ := (Option.any_eq_true _ _).1 hhead
  obtain ⟨hstored, hlinked⟩ := Bool.and_eq_true_iff.1 hboth
  obtain ⟨row, hrow, htype⟩ := (Option.any_eq_true _ _).1 hlinked
  obtain ⟨other, hother, -, ⟨fact, hfact, -, hkey, -⟩, -⟩ :=
    hall s (reaches_of_exec hs) _ _ _ _ t run hvalid ht (eq_of_beq hstored) _
      (List.mem_singleton_self _)
  have hpair : (⟨Str.of "clash", sampleWorkspace, Str.of "bills", Str.of "ships", 1,
      Str.of "either", [citedFile "a"]⟩ : Contradiction).normalizedPair =
        (Str.of "bills", Str.of "ships") := by decide +kernel
  rw [hpair] at hother
  obtain rfl := Option.some.inj (hrow.symm.trans hother)
  exact factType_of_claim hfact ((congrArg Prod.fst hkey).trans (eq_of_beq htype))

end FounderOs.RepositoryAudit
