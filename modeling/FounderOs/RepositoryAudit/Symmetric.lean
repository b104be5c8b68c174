import FounderOs.RepositoryAudit.Contradictions
import FounderOs.RepositoryAudit.Relationships
import FounderOs.RepositoryAudit.SameStory

namespace FounderOs.RepositoryAudit

open Headquarters Transition

/-- A payload as the contract hands it on, with the ends of its relationships in order. -/
def RepositoryIntelligence.normalized (payload : RepositoryIntelligence) : RepositoryIntelligence :=
  { payload with
    result :=
      { payload.result with
        relationshipCandidates := payload.result.relationshipCandidates.map (·.normalized) } }

def PersistInput.normalized (input : PersistInput) : PersistInput :=
  { input with payload := input.payload.normalized }

section upsert

variable {Item Key Row : Type} [DecidableEq Key] {kind : RecordKind Item Key Row}
variable {repositoryId : Uuid} {Kept : Row → Prop} {run : StoredRun} {draw : Nat → Uuid}
variable {state state' : WorkspaceRows × List (Key × Row)} {items : List Item} {item : Item}

/-- Each item of an upsert that goes through is written to a row that meets the constraints. -/
theorem written_of_upsertAll (hkeeps : kind.Keeps repositoryId Kept)
    (hrepository : run.scope.repositoryId = repositoryId)
    (h : kind.upsertAll run draw state items = .ok state')
    (hkept : ∀ entry ∈ state.2, Kept entry.2) (hitem : item ∈ items) :
    ∃ write old w, kind.write run.toAuditRun item = .ok write ∧
      verify (kind.constraints w (write old)) = .ok () ∧ ∀ row, old = some row → Kept row := by
  unfold RecordKind.upsertAll at h
  induction items generalizing state with
  | nil => cases hitem
  | cons head items ih =>
    rw [List.foldlM_cons] at h
    obtain ⟨next, hnext, h⟩ := ok_of_bind_ok h
    rcases List.mem_cons.1 hitem with rfl | hitem
    · obtain ⟨write, hwrite, hnext⟩ := ok_of_bind_ok hnext
      obtain ⟨_, hverify, -⟩ := ok_of_bind_ok hnext
      exact ⟨write, _, _, hwrite, hverify, kept_get hkept⟩
    · exact ih h (upsert_keeps hkeeps hrepository hnext hkept) hitem

end upsert

section relationships

variable {relationship : Relationship} {run : StoredRun} {repositoryId : Uuid}

/-- The source of a relationship that is written is the repository of the run, and the target is
another one. -/
theorem ends_of_written {write : Option RelationshipRow → RelationshipRow}
    {old : Option RelationshipRow} {w : WorkspaceRows}
    (hrepository : run.scope.repositoryId = repositoryId)
    (hwrite : relationshipKind.write run.toAuditRun relationship = .ok write)
    (hverify : verify (relationshipKind.constraints w (write old)) = .ok ())
    (hold : ∀ row, old = some row → row.Kept repositoryId) :
    relationship.fromRepository.repositoryId = some repositoryId ∧
      relationship.toRepository.repositoryId ≠ some repositoryId := by
  obtain ⟨_, -, hwrite⟩ := ok_of_bind_ok hwrite
  obtain ⟨_, hforeign, hwrite⟩ := ok_of_bind_ok hwrite
  cases hwrite
  have hsource := rejectIf_ok.1 hforeign
  rw [hrepository, decide_eq_false_iff_not, not_not] at hsource
  refine ⟨hsource, fun htarget => ?_⟩
  have hentries := verify_ok.1 hverify
  simp only [relationshipKind, RelationshipRow.constraints, column, nullableColumn, check,
    confidenceCheck, List.forall_mem_cons, Bool.not_eq_eq_eq_not, Bool.not_false] at hentries
  obtain ⟨-, -, -, -, -, -, hedge, -⟩ := hentries
  have hfrom : (relationship.write run.toAuditRun old).fromRepositoryId = repositoryId := by
    cases old with
    | none => exact hrepository
    | some row => exact hold row rfl
  have hto : (relationship.write run.toAuditRun old).toRepositoryId = some repositoryId := by
    cases old <;> exact htarget
  simp [hfrom, hto] at hedge

/-- The two ends change places where they are out of order. -/
theorem source_of_normalized (h : relationship.inOrder = false) :
    relationship.normalized.fromRepository = relationship.toRepository := by
  simp [Relationship.normalized, h]

theorem normalized_of_inOrder (h : relationship.inOrder = true) :
    relationship.normalized = relationship := by
  simp [Relationship.normalized, h]

variable {input : PersistInput}

/-- A payload whose relationships are in order is handed on as it is. -/
theorem input_normalized (h : ∀ relationship ∈ input.payload.result.relationshipCandidates,
    relationship.inOrder = true) : input.normalized = input := by
  have hsame : input.payload.result.relationshipCandidates.map (·.normalized) =
      input.payload.result.relationshipCandidates := by
    conv_rhs => rw [← List.map_id input.payload.result.relationshipCandidates]
    exact List.map_congr_left fun relationship hmem => normalized_of_inOrder (h relationship hmem)
  simp only [PersistInput.normalized, RepositoryIntelligence.normalized, hsame]

end relationships

section persist

variable {store : Store} {run : StoredRun} {relationship : Relationship}

/-- The run stored the relationship as one of its repository. -/
def StoresRelationship (store : Store) (run : StoredRun) (relationship : Relationship) : Prop :=
  ∃ entry ∈ store.relationships, entry.1.1 = relationship.relationshipType ∧
    entry.2.fromRepositoryId = run.scope.repositoryId ∧ entry.2.lastSeenRunId = run.id ∧
      relationshipReading.ofRow entry.2 = relationshipReading.ofItems relationship relationship

variable {Digest : Type} {rules : EvidenceRules Digest} {setting : Setting} {s t : AuditWorld}
variable {jobId : Uuid} {input : PersistInput} {drawn : Drawn} {committed : Bool}

theorem records_of_step (hs : s.Lawful setting)
    (h : s.step setting (.persist jobId input drawn committed) = some t)
    (hstored : t.runs = run :: s.runs) :
    persistRecords s.store s.runs run drawn.evidence = .ok t.store ∧
      run.resultHash = input.payload ∧ run.scope.repositoryId = setting.repositoryId := by
  obtain ⟨job, store, hlocked, hverdict, hrecords, rfl, rfl⟩ := stored_by_step h hstored
  obtain ⟨-, -, -, hawaits, -⟩ := verdict_store.1 hverdict
  have hjob := hs.kept (AuditWorld.get_of_lockedJob hlocked)
  exact ⟨hrecords, rfl, (congrArg (·.repositoryId) hawaits.scope).symm.trans hjob.repository⟩

theorem ends_of_stored (hs : s.Lawful setting)
    (h : s.step setting (.persist jobId input drawn committed) = some t)
    (hstored : t.runs = run :: s.runs)
    (hmem : relationship ∈ input.payload.result.relationshipCandidates) :
    relationship.fromRepository.repositoryId = some setting.repositoryId ∧
      relationship.toRepository.repositoryId ≠ some setting.repositoryId := by
  obtain ⟨hrecords, hhash, hrepository⟩ := records_of_step hs h hstored
  obtain ⟨_, -, hrecords⟩ := ok_of_bind_ok hrecords
  obtain ⟨facts, -, hrecords⟩ := ok_of_bind_ok hrecords
  obtain ⟨relationships, hrelationships, -⟩ := ok_of_bind_ok hrecords
  obtain ⟨write, old, w, hwrite, hverify, hold⟩ := written_of_upsertAll relationship_keeps
    hrepository hrelationships hs.store.relationships (hhash ▸ hmem)
  exact ends_of_written hrepository hwrite hverify hold

theorem storesRelationship_of_step
    (hs : Reaches (AuditWorld.step setting) anyStep emptyAuditWorld s)
    (hvalid : input.payload.valid rules = true)
    (h : s.step setting (.persist jobId input drawn committed) = some t)
    (hstored : t.runs = run :: s.runs)
    (hmem : relationship ∈ input.payload.result.relationshipCandidates) :
    StoresRelationship t.store run relationship := by
  obtain ⟨-, hhash, hrepository⟩ := records_of_step (lawful_of_reaches hs) h hstored
  have hreached := hs.tail trivial h
  have hfollows := (AuditWorld.follows_of_reaches hreached).relationships
  rw [hstored] at hfollows
  have hidentities : (input.payload.result.relationshipCandidates.map
      (·.normalizedIdentity)).Nodup := by
    have hidentities := identitiesValid_of_valid hvalid
    simp only [AnalyzerResult.identitiesValid, Bool.and_eq_true, decide_eq_true_eq] at hidentities
    exact hidentities.1.1.1.1.1.2
  obtain ⟨first, row, hrow, hseen, hshows⟩ := row_of_asserted hfollows (hhash ▸ hmem)
    (fun other hother hkey => List.inj_on_of_nodup_map hidentities (hhash ▸ hother) hmem hkey)
  have hentry := Dict.mem_of_get hrow
  have hkept := (lawful_of_reaches hreached).store.relationships _ hentry
  exact ⟨_, hentry, rfl, hkept.trans hrepository.symm, hseen, hshows.1⟩

/-- A payload whose candidates can be stored with the ends that they name is stored whole after the
contract has turned the symmetric ones round exactly if it turned none. -/
theorem symmetric_survive_iff
    (h : Reaches (AuditWorld.step setting) anyStep emptyAuditWorld s)
    (hvalid : input.normalized.payload.valid rules = true)
    (hstep : s.step setting (.persist jobId input drawn committed) = some t)
    (hstored : t.runs = run :: s.runs) :
    (∃ t' run', s.step setting (.persist jobId input.normalized drawn committed) = some t' ∧
        t'.runs = run' :: s.runs ∧
          ∀ relationship ∈ input.payload.result.relationshipCandidates,
            StoresRelationship t'.store run' relationship) ↔
      ∀ relationship ∈ input.payload.result.relationshipCandidates,
        relationship.inOrder = true := by
  have hs := lawful_of_reaches h
  constructor
  · rintro ⟨t', run', hstep', hstored', -⟩ relationship hmem
    by_contra hout
    have hsource := (ends_of_stored hs hstep' hstored' (List.mem_map_of_mem hmem)).1
    rw [source_of_normalized (Bool.eq_false_iff.2 hout)] at hsource
    exact (ends_of_stored hs hstep hstored hmem).2 hsource
  · intro horder
    rw [input_normalized horder] at hvalid ⊢
    exact ⟨t, run, hstep, hstored, fun relationship hmem =>
      storesRelationship_of_step h hvalid hstep hstored hmem⟩

end persist

/-- The application shares a schema with another repository. -/
def sharedSchema (externalId : String) : Relationship :=
  { crossEdge with
    toRepository :=
      ⟨sampleWorkspace, some (sampleId 7), Str.of externalId, Str.of "acme/lib", .canonical⟩
    relationshipType := .sharesSchemaWith }

def sharing (externalId : String) : AnalyzerResult :=
  { emptyResult with relationshipCandidates := [sharedSchema externalId] }

/-- A job is running for one of two repositories, and there is a row of evidence. -/
def pairedRun : List AuditAction :=
  .register [sampleRepository, sampleId 7] [sampleId 5] ::
    .insertEvidence ⟨sampleId 6, sampleId 5, none, none, none⟩ :: startedJob 1 "standard"

/-- Whatever the other repository is called, the candidate can be stored with the ends that it
names. -/
def StoresSharing (externalId : String) : Prop :=
  ∃ s t run, Reaches (AuditWorld.step sampleSetting) anyStep emptyAuditWorld s ∧
    s.step sampleSetting (.persist (sampleId 1)
      (sampleInput "standard" (sharing externalId) 6) sampleDraws false) = some t ∧
    t.runs = run :: s.runs

theorem storesSharing (externalId : String)
    (hrun : (exec (AuditWorld.step sampleSetting) emptyAuditWorld pairedRun).any (fun s =>
      (s.step sampleSetting (.persist (sampleId 1)
        (sampleInput "standard" (sharing externalId) 6) sampleDraws false)).any fun t =>
          t.runs.head?.any fun run => t.runs == run :: s.runs) = true) :
    StoresSharing externalId := by
  obtain ⟨s, hs, hend⟩ := (Option.any_eq_true _ _).1 hrun
  obtain ⟨t, ht, hhead⟩ := (Option.any_eq_true _ _).1 hend
  obtain ⟨run, -, hstored⟩ := (Option.any_eq_true _ _).1 hhead
  exact ⟨s, t, run, reaches_of_exec hs, ht, eq_of_beq hstored⟩

theorem symmetric_survive_iff_ordered : ∃ s,
    Reaches (AuditWorld.step sampleSetting) anyStep emptyAuditWorld s ∧
      ((∃ t' run', s.step sampleSetting (.persist (sampleId 1)
            (sampleInput "standard" (sharing "8") 6).normalized sampleDraws false) = some t' ∧
          t'.runs = run' :: s.runs ∧ ∀ relationship ∈ (sharing "8").relationshipCandidates,
            StoresRelationship t'.store run' relationship) ↔
        ∀ relationship ∈ (sharing "8").relationshipCandidates, relationship.inOrder = true) := by
  have hvalid : (sampleInput "standard" (sharing "8") 6).normalized.payload.valid asciiRules =
      true := by
    decide +kernel
  obtain ⟨s, t, run, hs, hstep, hstored⟩ := storesSharing "8" (by decide +kernel)
  exact ⟨s, hs, symmetric_survive_iff hs hvalid hstep hstored⟩

/-- The other repository has the smaller id, and becomes the source. -/
theorem symmetric_turned_away : ¬∀ s,
    Reaches (AuditWorld.step sampleSetting) anyStep emptyAuditWorld s →
      ∀ jobId input drawn committed t run, input.normalized.payload.valid asciiRules = true →
        s.step sampleSetting (.persist jobId input drawn committed) = some t →
          t.runs = run :: s.runs →
            ∃ t' run',
              s.step sampleSetting (.persist jobId input.normalized drawn committed) = some t' ∧
                t'.runs = run' :: s.runs ∧
                  ∀ relationship ∈ input.payload.result.relationshipCandidates,
                    StoresRelationship t'.store run' relationship := by
  intro hall
  have hvalid : (sampleInput "standard" (sharing "5") 6).normalized.payload.valid asciiRules =
      true := by
    decide +kernel
  obtain ⟨s, t, run, hs, hstep, hstored⟩ := storesSharing "5" (by decide +kernel)
  obtain ⟨t', run', hstep', hstored', -⟩ := hall s hs _ _ _ _ t run hvalid hstep hstored
  have hmem : (sharedSchema "5").normalized ∈ (sampleInput "standard" (sharing "5")
      6).normalized.payload.result.relationshipCandidates := List.mem_singleton_self _
  have hsource := (ends_of_stored (lawful_of_reaches hs) hstep' hstored' hmem).1
  have hturned : (sharedSchema "5").normalized.fromRepository.repositoryId = some (sampleId 7) := by
    decide +kernel
  exact absurd (hturned.symm.trans hsource) (by decide +kernel)

end FounderOs.RepositoryAudit
