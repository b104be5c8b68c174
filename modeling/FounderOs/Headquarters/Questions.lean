import Mathlib.Data.List.Perm.Subperm
import FounderOs.Headquarters.Projection

namespace FounderOs.Headquarters

/-- A row of the map, with the keys that a resolve command reads. -/
structure Candidate where
  key : CandidateKey
  version : CandidateVersion
  email : Option Str
  displayName : Option Str
  organizationKey : Option CandidateKey
  sourceRefs : List SourceRef
  deriving DecidableEq

def PersonRow.candidate (row : PersonRow) (version : CandidateVersion) : Candidate :=
  ⟨row.key, version, some row.email, row.displayName, row.organizationKey, row.sourceRefs⟩

def OrganizationRow.candidate (row : OrganizationRow) (version : CandidateVersion) : Candidate :=
  ⟨row.key, version, none, none, none, row.sourceRefs⟩

def CompanyMap.candidates (map : CompanyMap) : CandidateType → List Candidate
  | .externalPerson => map.people.map fun entry => entry.1.candidate entry.2
  | .organization => map.organizations.map fun entry => entry.1.candidate entry.2

inductive ResolutionError where
  | candidateNotFound (detail : String)
  | conflict (detail : String)
  | evidence (detail : String)
  /-- `UnicodeEncodeError`. -/
  | unencodable
  deriving DecidableEq, Repr

def companyMapLimit : Nat := 100

def candidateChanged : ResolutionError :=
  .conflict "candidate changed; refresh Company World before resolving it"

variable (rules : MailRules)

def headquartersMap (db : WorldRows) (workspaceId : Uuid) : Option CompanyMap :=
  buildWorkspaceCompanyMap rules db workspaceId .resolutionOnly companyMapLimit

def rebuiltMap (db : WorldRows) (workspaceId : Uuid) : Option CompanyMap :=
  buildWorkspaceCompanyMap rules db workspaceId .rebuilt companyMapLimit

def resolveCandidate (db : WorldRows) (workspaceId : Uuid) (candidateType : CandidateType)
    (candidateKey : CandidateKey) : Except ResolutionError Candidate :=
  match rebuiltMap rules db workspaceId with
  | none => .error .unencodable
  | some map =>
    match (map.candidates candidateType).find? fun candidate => candidate.key = candidateKey with
    | none => .error (.candidateNotFound "candidate not found")
    | some candidate => .ok candidate

def lockCandidateEvidence (db : WorldRows) (workspaceId : Uuid) (candidate : Candidate) :
    Except ResolutionError (List MessageRecord) :=
  let recordIds := candidateSourceRecordIds candidate.sourceRefs
  if recordIds = [] then .error (.evidence "candidate has no source record evidence")
  else
    let records := (db.records.filter (isGmailMessage workspaceId)).filter fun record =>
      decide (record.id ∈ recordIds)
    if recordIds.all fun id => records.any fun record => record.id = id then .ok records
    else .error (.evidence "candidate evidence is unavailable")

/-- What a resolve command does between the search for an earlier resolution and the rows it
writes. Its first reading of the map, the locking of the evidence and its second reading are
statements of their own, and each finds the rows that are committed by then. -/
def admitCandidate (first locking second : WorldRows) (workspaceId : Uuid)
    (candidateType : CandidateType) (candidateKey : CandidateKey) (version : CandidateVersion) :
    Except ResolutionError (Candidate × List MessageRecord) :=
  match resolveCandidate rules first workspaceId candidateType candidateKey with
  | .error e => .error e
  | .ok candidate =>
    match lockCandidateEvidence locking workspaceId candidate with
    | .error e => .error e
    | .ok locked =>
      match resolveCandidate rules second workspaceId candidateType candidateKey with
      | .error (.candidateNotFound _) => .error candidateChanged
      | .error e => .error e
      | .ok again =>
        let recordIds := candidateSourceRecordIds again.sourceRefs
        if !(recordIds.all (fun id => locked.any fun record => record.id = id) &&
            locked.all fun record => decide (record.id ∈ recordIds)) then .error candidateChanged
        else if again.version ≠ version then .error candidateChanged
        else .ok (again, locked)

variable {rules} {db : WorldRows} {workspaceId : Uuid} {candidateType : CandidateType}
variable {map : CompanyMap} {candidate other : Candidate} {email domain : Str}

def internalOf (rules : MailRules) (db : WorldRows) (workspaceId : Uuid) (mode : MapMode) :
    List Str :=
  internalKeys rules db workspaceId mode (mapMessages db workspaceId mode companyMapLimit)

/-- Both modes read this window. -/
def window (db : WorldRows) (workspaceId : Uuid) : List Message :=
  gmailMessageRows db workspaceId companyMapLimit

theorem shown_headquarters (h : headquartersMap rules db workspaceId = some map) :
    Shown rules db workspaceId .resolutionOnly (internalOf rules db workspaceId .resolutionOnly)
      (window db workspaceId) map :=
  shown_of_build h

theorem shown_rebuilt (h : rebuiltMap rules db workspaceId = some map) :
    Shown rules db workspaceId .rebuilt (internalOf rules db workspaceId .rebuilt)
      (window db workspaceId) map :=
  shown_of_build h

theorem mem_internal_rebuilt : email ∈ internalOf rules db workspaceId .rebuilt ↔
    ∃ member ∈ db.members, member.workspaceId = workspaceId ∧
      normalizeEmail rules member.email = email := by
  simp [internalOf, internalKeys, mapMembers, and_assoc]

theorem mem_internal_headquarters : email ∈ internalOf rules db workspaceId .resolutionOnly ↔
    ∃ member ∈ db.members, member.workspaceId = workspaceId ∧ member.active = true ∧
      member.email ∈ messageParticipantEmails rules (window db workspaceId) ∧
        normalizeEmail rules member.email = email := by
  change email ∈ ((db.members.filter (·.workspaceId = workspaceId)).filter fun member =>
    member.active && (messageParticipantEmails rules (window db workspaceId)).contains member.email
      ).map (fun member => normalizeEmail rules member.email) ↔ _
  simp [and_assoc, and_left_comm]

theorem internal_rebuilt_of_headquarters
    (h : email ∈ internalOf rules db workspaceId .resolutionOnly) :
    email ∈ internalOf rules db workspaceId .rebuilt := by
  obtain ⟨member, hmember, hhome, -, -, hemail⟩ := mem_internal_headquarters.1 h
  exact mem_internal_rebuilt.2 ⟨member, hmember, hhome, hemail⟩

/-- Neither the person nor the organization of the address is still to be resolved. -/
def Settled (rules : MailRules) (db : WorldRows) (workspaceId : Uuid) (email : Str) : Prop :=
  isResolved db workspaceId .externalPerson (.externalPerson email) = true ∧
    ∀ domain, organizationDomain rules email = some domain →
      isResolved db workspaceId .organization (.organization domain) = true ∨
        isConfirmedOrganization db workspaceId (.organization domain) = true

/-- Each address of the window that is a member's is an active member's, under the stored text
itself, or has no question left. -/
def MembersSeenAlike (rules : MailRules) (db : WorldRows) (workspaceId : Uuid) : Prop :=
  ∀ member ∈ db.members, member.workspaceId = workspaceId →
    normalizeEmail rules member.email ∈
      messageParticipantEmails rules (window db workspaceId) →
    (∃ active ∈ db.members, active.workspaceId = workspaceId ∧ active.active = true ∧
      active.email ∈ messageParticipantEmails rules (window db workspaceId) ∧
        normalizeEmail rules active.email = normalizeEmail rules member.email) ∨
      Settled rules db workspaceId (normalizeEmail rules member.email)

theorem membersSeenAlike_iff : MembersSeenAlike rules db workspaceId ↔
    ∀ email ∈ messageParticipantEmails rules (window db workspaceId),
      email ∈ internalOf rules db workspaceId .rebuilt →
        email ∈ internalOf rules db workspaceId .resolutionOnly ∨
          Settled rules db workspaceId email := by
  constructor
  · intro h email hmet hinternal
    obtain ⟨member, hmember, hhome, rfl⟩ := mem_internal_rebuilt.1 hinternal
    exact (h member hmember hhome hmet).imp_left mem_internal_headquarters.2
  · intro h member hmember hhome hmet
    exact (h _ hmet (mem_internal_rebuilt.2 ⟨member, hmember, hhome, rfl⟩)).imp_left
      mem_internal_headquarters.1

theorem organization_rebuilt {organization : OrganizationRow}
    (h : (domain, organization) ∈ candidateOrganizations rules
      (internalOf rules db workspaceId .resolutionOnly) (window db workspaceId))
    (hsame : ∀ email ∈ messageParticipantEmails rules (window db workspaceId),
      organizationDomain rules email = some domain →
        email ∈ internalOf rules db workspaceId .rebuilt →
          email ∈ internalOf rules db workspaceId .resolutionOnly) :
    (domain, organization) ∈ candidateOrganizations rules
      (internalOf rules db workspaceId .rebuilt) (window db workspaceId) := by
  have hmeetings : Dict.under domain (organizationMeetings rules
      (internalOf rules db workspaceId .resolutionOnly) (window db workspaceId)) =
      Dict.under domain (organizationMeetings rules
        (internalOf rules db workspaceId .rebuilt) (window db workspaceId)) := by
    rw [organizationMeetings_under, organizationMeetings_under]
    refine congrArg List.flatten (List.map_congr_left fun message hmessage => ?_)
    rw [outside_congr fun email hemail hdomain => ?_]
    have hmet := mem_messageParticipantEmails.2 ⟨message, hmessage, hemail⟩
    exact ⟨internal_rebuilt_of_headquarters, hsame email hmet hdomain⟩
  rw [mem_candidateOrganizations, hmeetings] at h
  exact mem_candidateOrganizations.2 h

/-- What headquarters can digest, the resolve command can. -/
theorem rebuilt_isSome (h : (headquartersMap rules db workspaceId).isSome) :
    (rebuiltMap rules db workspaceId).isSome := by
  obtain ⟨-, hpeople, horganizations⟩ := buildWorkspaceCompanyMap_isSome.1 h
  refine buildWorkspaceCompanyMap_isSome.2 ⟨.inl rfl, fun email person hrow => ?_,
    fun domain organization hrow => ?_⟩
  · have hout := (externalPerson_row hrow).1
    have hfirst : email ∉ internalOf rules db workspaceId .resolutionOnly :=
      fun hin => hout (internal_rebuilt_of_headquarters hin)
    exact hpeople email person ((externalPeople_congr hout hfirst).1 hrow)
  · obtain ⟨email, hout, hmet, hdomain⟩ := candidateOrganization_exists.1 ⟨_, hrow⟩
    obtain ⟨shown, hshown⟩ := candidateOrganization_exists.2
      ⟨email, fun hin => hout (internal_rebuilt_of_headquarters hin), hmet, hdomain⟩
    have hencodes := horganizations domain shown hshown
    have hkeys := candidateOrganization_row hrow
    have hkeys' := candidateOrganization_row hshown
    rw [OrganizationRow.encodable, hkeys'.1, hkeys'.2] at hencodes
    rwa [OrganizationRow.encodable, hkeys.1, hkeys.2]

theorem mem_person_candidates : candidate ∈ map.candidates .externalPerson ↔
    ∃ person version, (person, version) ∈ map.people ∧ person.candidate version = candidate := by
  simp [CompanyMap.candidates]

theorem mem_organization_candidates : candidate ∈ map.candidates .organization ↔
    ∃ organization version, (organization, version) ∈ map.organizations ∧
      organization.candidate version = candidate := by
  simp [CompanyMap.candidates]

theorem candidates_subset (h : MembersSeenAlike rules db workspaceId) {rebuilt : CompanyMap}
    (hmap : headquartersMap rules db workspaceId = some map)
    (hrebuilt : rebuiltMap rules db workspaceId = some rebuilt)
    (hcandidate : candidate ∈ map.candidates candidateType) :
    candidate ∈ rebuilt.candidates candidateType := by
  have hshown := shown_headquarters hmap
  have hagain := shown_rebuilt hrebuilt
  have hsame := membersSeenAlike_iff.1 h
  cases candidateType with
  | externalPerson =>
    obtain ⟨person, version, hrow, rfl⟩ := mem_person_candidates.1 hcandidate
    obtain ⟨hrow, hversion, hopen⟩ := (hshown.people person version).1 hrow
    have hopen := hopen.resolve_left MapMode.noConfusion
    obtain ⟨hfirst, -, hkey, -⟩ := externalPerson_row hrow
    have hmet := (externalPerson_exists.1 ⟨person, hrow⟩).2
    have hout : person.email ∉ internalOf rules db workspaceId .rebuilt := by
      intro hin
      rcases hsame _ hmet hin with hin | hsettled
      · exact hfirst hin
      · rw [hkey, hsettled.1] at hopen
        cases hopen
    exact mem_person_candidates.2 ⟨person, version,
      (hagain.people person version).2 ⟨(externalPeople_congr hfirst hout).1 hrow, hversion,
        .inl rfl⟩, rfl⟩
  | organization =>
    obtain ⟨organization, version, hrow, rfl⟩ := mem_organization_candidates.1 hcandidate
    obtain ⟨hrow, hversion, hopen⟩ := (hshown.organizations organization version).1 hrow
    have hopen := hopen.resolve_left MapMode.noConfusion
    have hkey := (candidateOrganization_row hrow).2
    refine mem_organization_candidates.2 ⟨organization, version,
      (hagain.organizations organization version).2 ⟨organization_rebuilt hrow ?_, hversion,
        .inl rfl⟩, rfl⟩
    intro email hmet hdomain hin
    rcases hsame email hmet hin with hin | hsettled
    · exact hin
    · rw [hkey] at hopen
      rcases hsettled.2 _ hdomain with hresolved | hconfirmed
      · rw [hresolved] at hopen
        cases hopen.1
      · rw [hconfirmed] at hopen
        cases hopen.2

theorem candidate_unique (hmap : rebuiltMap rules db workspaceId = some map)
    (h : candidate ∈ map.candidates candidateType) (hother : other ∈ map.candidates candidateType)
    (hkey : candidate.key = other.key) : candidate = other := by
  have hshown := shown_rebuilt hmap
  cases candidateType with
  | externalPerson =>
    obtain ⟨person, version, hentry, rfl⟩ := mem_person_candidates.1 h
    obtain ⟨person', version', hentry', rfl⟩ := mem_person_candidates.1 hother
    obtain ⟨hrow, rfl, -⟩ := (hshown.people _ _).1 hentry
    obtain ⟨hrow', rfl, -⟩ := (hshown.people _ _).1 hentry'
    have hemail : person.email = person'.email := by
      change person.key = person'.key at hkey
      rw [(externalPerson_row hrow).2.2.1, (externalPerson_row hrow').2.2.1] at hkey
      exact CandidateKey.externalPerson.inj hkey
    obtain rfl := externalPerson_unique (hemail ▸ hrow) hrow'
    rfl
  | organization =>
    obtain ⟨organization, version, hentry, rfl⟩ := mem_organization_candidates.1 h
    obtain ⟨organization', version', hentry', rfl⟩ := mem_organization_candidates.1 hother
    obtain ⟨hrow, rfl, -⟩ := (hshown.organizations _ _).1 hentry
    obtain ⟨hrow', rfl, -⟩ := (hshown.organizations _ _).1 hentry'
    have hdomain : organization.domain = organization'.domain := by
      change organization.key = organization'.key at hkey
      rw [(candidateOrganization_row hrow).2, (candidateOrganization_row hrow').2] at hkey
      exact CandidateKey.organization.inj hkey
    obtain rfl := candidateOrganization_unique (hdomain ▸ hrow) hrow'
    rfl

theorem resolveCandidate_eq_ok {candidateKey : CandidateKey} :
    resolveCandidate rules db workspaceId candidateType candidateKey = .ok candidate ↔
      ∃ map, rebuiltMap rules db workspaceId = some map ∧
        candidate ∈ map.candidates candidateType ∧ candidate.key = candidateKey := by
  have hkey_of : ∀ {map : CompanyMap} {found : Candidate},
      (map.candidates candidateType).find? (fun c => c.key = candidateKey) = some found →
        found ∈ map.candidates candidateType ∧ found.key = candidateKey := fun hfound =>
    ⟨List.mem_of_find?_eq_some hfound, by simpa using List.find?_some hfound⟩
  unfold resolveCandidate
  split
  · rename_i hnone
    simp [hnone]
  · rename_i map hmap
    split
    · rename_i hnone
      constructor
      · intro h
        cases h
      rintro ⟨other, hother, hmem, hkey⟩
      obtain rfl := Option.some.inj (hmap.symm.trans hother)
      exact absurd (decide_eq_true hkey) (List.find?_eq_none.1 hnone candidate hmem)
    · rename_i found hfound
      obtain ⟨hmem, hkey⟩ := hkey_of hfound
      constructor
      · intro h
        obtain rfl := Except.ok.inj h
        exact ⟨map, hmap, hmem, hkey⟩
      · rintro ⟨other, hother, hcandidate, hsame⟩
        obtain rfl := Option.some.inj (hmap.symm.trans hother)
        rw [candidate_unique hmap hmem hcandidate (hkey.trans hsame.symm)]

theorem evidenced_candidate {mode : MapMode} {limit : Nat}
    (hmap : buildWorkspaceCompanyMap rules db workspaceId mode limit = some map)
    (h : candidate ∈ map.candidates candidateType) :
    Evidenced db workspaceId candidate.sourceRefs := by
  have hmessages : ∀ message ∈ mapMessages db workspaceId mode limit,
      Evidenced db workspaceId message.sourceRefs := fun _ => evidenced_of_mem_rows
  cases candidateType with
  | externalPerson =>
    obtain ⟨person, version, hrow, rfl⟩ := mem_person_candidates.1 h
    exact evidenced_person hmessages (((shown_of_build hmap).people _ _).1 hrow).1
  | organization =>
    obtain ⟨organization, version, hrow, rfl⟩ := mem_organization_candidates.1 h
    exact evidenced_organization hmessages (((shown_of_build hmap).organizations _ _).1 hrow).1

theorem mem_candidateSourceRecordIds {refs : List SourceRef} {id : Uuid} :
    id ∈ candidateSourceRecordIds refs ↔ ∃ ref ∈ refs, ref.recordId = id := by
  rw [candidateSourceRecordIds, List.mem_mergeSort, List.mem_dedup, List.mem_map]

theorem lockCandidateEvidence_of_evidenced (h : Evidenced db workspaceId candidate.sourceRefs) :
    ∃ locked, lockCandidateEvidence db workspaceId candidate = .ok locked ∧
      (candidateSourceRecordIds candidate.sourceRefs).all (fun id =>
        locked.any fun record => record.id = id) = true ∧
      locked.all (fun record =>
        decide (record.id ∈ candidateSourceRecordIds candidate.sourceRefs)) = true := by
  obtain ⟨first, hfirst⟩ := List.exists_mem_of_ne_nil _ h.1
  have hne : candidateSourceRecordIds candidate.sourceRefs ≠ [] :=
    List.ne_nil_of_mem (mem_candidateSourceRecordIds.2 ⟨first, hfirst, rfl⟩)
  have hall : (candidateSourceRecordIds candidate.sourceRefs).all (fun id =>
      ((db.records.filter (isGmailMessage workspaceId)).filter fun record =>
        decide (record.id ∈ candidateSourceRecordIds candidate.sourceRefs)).any fun record =>
          record.id = id) = true := by
    refine List.all_eq_true.2 fun id hid => List.any_eq_true.2 ?_
    obtain ⟨ref, href, rfl⟩ := mem_candidateSourceRecordIds.1 hid
    obtain ⟨record, hrecord, hlive, hrecordId⟩ := h.2 ref href
    refine ⟨record, List.mem_filter.2 ⟨List.mem_filter.2 ⟨hrecord, hlive⟩, ?_⟩,
      decide_eq_true hrecordId⟩
    exact decide_eq_true (hrecordId ▸ hid)
  refine ⟨_, ?_, hall, List.all_eq_true.2 fun record hrecord => (List.mem_filter.1 hrecord).2⟩
  rw [lockCandidateEvidence, if_neg hne, if_pos hall]

theorem admitCandidate_of_mem (hmap : rebuiltMap rules db workspaceId = some map)
    (h : candidate ∈ map.candidates candidateType) :
    ∃ locked, admitCandidate rules db db db workspaceId candidateType candidate.key
      candidate.version = .ok (candidate, locked) := by
  have hresolve := resolveCandidate_eq_ok.2 ⟨map, hmap, h, rfl⟩
  obtain ⟨locked, hlock, hall, hown⟩ :=
    lockCandidateEvidence_of_evidenced (evidenced_candidate hmap h)
  refine ⟨locked, ?_⟩
  simp [admitCandidate, hresolve, hlock, hall, hown]

theorem mem_of_admitCandidate {candidateKey : CandidateKey} {version : CandidateVersion}
    {admitted : Candidate × List MessageRecord}
    (h : admitCandidate rules db db db workspaceId candidateType candidateKey version =
      .ok admitted) : ∃ map, rebuiltMap rules db workspaceId = some map ∧
        ∃ candidate ∈ map.candidates candidateType,
          candidate.key = candidateKey ∧ candidate.version = version := by
  rw [admitCandidate] at h
  split at h
  · cases h
  · rename_i candidate hresolve
    split at h
    · cases h
    · rw [hresolve] at h
      dsimp only at h
      split at h
      · cases h
      · split at h
        · cases h
        · rename_i hversion
          obtain ⟨map, hmap, hmem, hkey⟩ := resolveCandidate_eq_ok.1 hresolve
          exact ⟨map, hmap, candidate, hmem, hkey, not_not.1 hversion⟩

/-- Each candidate that headquarters shows is, in the map that the resolve command rebuilds, under
the same key and version, and the command that names both is let through. -/
def QuestionsAnswerable (rules : MailRules) (db : WorldRows) (workspaceId : Uuid) : Prop :=
  ∀ map, headquartersMap rules db workspaceId = some map →
    ∀ candidateType, ∀ candidate ∈ map.candidates candidateType,
      (∃ rebuilt, rebuiltMap rules db workspaceId = some rebuilt ∧
        ∃ again ∈ rebuilt.candidates candidateType,
          again.key = candidate.key ∧ again.version = candidate.version) ∧
      ∃ admitted, admitCandidate rules db db db workspaceId candidateType candidate.key
        candidate.version = .ok admitted

theorem person_candidate_open {rebuilt : CompanyMap}
    (hrebuilt : rebuiltMap rules db workspaceId = some rebuilt)
    (h : candidate ∈ rebuilt.candidates .externalPerson)
    (hkey : candidate.key = .externalPerson email) :
    email ∉ internalOf rules db workspaceId .rebuilt := by
  obtain ⟨person, version, hentry, rfl⟩ := mem_person_candidates.1 h
  obtain ⟨hrow, -, -⟩ := ((shown_rebuilt hrebuilt).people _ _).1 hentry
  obtain ⟨hout, -, hperson, -⟩ := externalPerson_row hrow
  change person.key = _ at hkey
  rw [hperson] at hkey
  exact CandidateKey.externalPerson.inj hkey ▸ hout

/-- An address that only one of the maps takes for external is counted in one of them. -/
theorem people_count_lt {organization organization' : OrganizationRow}
    (h : (domain, organization) ∈ candidateOrganizations rules
      (internalOf rules db workspaceId .resolutionOnly) (window db workspaceId))
    (h' : (domain, organization') ∈ candidateOrganizations rules
      (internalOf rules db workspaceId .rebuilt) (window db workspaceId))
    (hmet : email ∈ messageParticipantEmails rules (window db workspaceId))
    (hdomain : organizationDomain rules email = some domain)
    (hin : email ∈ internalOf rules db workspaceId .rebuilt)
    (hout : email ∉ internalOf rules db workspaceId .resolutionOnly) :
    organization'.people.length < organization.people.length := by
  obtain ⟨-, hpeople⟩ := candidateOrganization_people h
  obtain ⟨hnodup, hpeople'⟩ := candidateOrganization_people h'
  have hnew : email ∉ organization'.people := fun hmem => ((hpeople' email).1 hmem).1 hin
  have hsub : email :: organization'.people ⊆ organization.people := by
    intro other hother
    rcases List.mem_cons.1 hother with rfl | hother
    · exact (hpeople _).2 ⟨hout, hmet, hdomain⟩
    · obtain ⟨hother, hrest⟩ := (hpeople' other).1 hother
      exact (hpeople other).2 ⟨fun h => hother (internal_rebuilt_of_headquarters h), hrest⟩
  exact (List.subperm_of_subset (List.nodup_cons.2 ⟨hnew, hnodup⟩) hsub).length_le

theorem seen_alike_of_answerable (hmap : headquartersMap rules db workspaceId = some map)
    (h : QuestionsAnswerable rules db workspaceId) : MembersSeenAlike rules db workspaceId := by
  refine membersSeenAlike_iff.2 fun email hmet hin => or_iff_not_imp_left.2 fun hout => ?_
  have hshown := shown_headquarters hmap
  obtain ⟨person, hperson⟩ := externalPerson_exists.2 ⟨hout, hmet⟩
  obtain ⟨-, hemail, hkey, -⟩ := externalPerson_row hperson
  constructor
  · by_contra hopen
    have hentry := (hshown.people person (personVersion db workspaceId person)).2
      ⟨hemail ▸ hperson, rfl, .inr (hkey ▸ Bool.eq_false_iff.2 hopen)⟩
    obtain ⟨⟨rebuilt, hrebuilt, again, hagain, hsame, -⟩, -⟩ :=
      h map hmap .externalPerson _ (mem_person_candidates.2 ⟨_, _, hentry, rfl⟩)
    exact person_candidate_open hrebuilt hagain (hsame.trans hkey) hin
  · intro domain hdomain
    by_contra hopen
    obtain ⟨hresolved, hconfirmed⟩ := not_or.1 hopen
    obtain ⟨organization, hrow⟩ := candidateOrganization_exists.2 ⟨email, hout, hmet, hdomain⟩
    obtain ⟨hown, horganization⟩ := candidateOrganization_row hrow
    have hentry := (hshown.organizations organization
      (organizationVersion db workspaceId organization)).2
      ⟨hown ▸ hrow, rfl, .inr ⟨horganization ▸ Bool.eq_false_iff.2 hresolved,
        horganization ▸ Bool.eq_false_iff.2 hconfirmed⟩⟩
    obtain ⟨⟨rebuilt, hrebuilt, again, hagain, hsame, hversion⟩, -⟩ :=
      h map hmap .organization _ (mem_organization_candidates.2 ⟨_, _, hentry, rfl⟩)
    obtain ⟨organization', version, hentry', rfl⟩ := mem_organization_candidates.1 hagain
    obtain ⟨hrow', rfl, -⟩ := ((shown_rebuilt hrebuilt).organizations _ _).1 hentry'
    have hdomains : organization'.domain = domain := by
      change organization'.key = organization.key at hsame
      rw [horganization, (candidateOrganization_row hrow').2] at hsame
      exact CandidateKey.organization.inj hsame
    have hlt := people_count_lt hrow (hdomains ▸ hrow') hmet hdomain hin hout
    have hcount : organization'.people.length = organization.people.length :=
      Option.some.inj (congrArg CandidateVersion.peopleCount hversion)
    exact absurd hcount (Nat.ne_of_lt hlt)

theorem answerable_of_seen_alike (h : MembersSeenAlike rules db workspaceId) :
    QuestionsAnswerable rules db workspaceId := by
  intro map hmap candidateType candidate hcandidate
  obtain ⟨rebuilt, hrebuilt⟩ := Option.isSome_iff_exists.1
    (rebuilt_isSome (Option.isSome_iff_exists.2 ⟨map, hmap⟩))
  have hagain := candidates_subset h hmap hrebuilt hcandidate
  obtain ⟨locked, hadmit⟩ := admitCandidate_of_mem hrebuilt hagain
  exact ⟨⟨rebuilt, hrebuilt, candidate, hagain, rfl, rfl⟩, (candidate, locked), hadmit⟩

/-- Plain lower-case addresses are read as they are. -/
def plainMail : MailRules := ⟨id, fun text => ([], text)⟩

def sampleMessage (id : Uuid) (sender : Str) : MessageRecord where
  id := id
  provider := Str.of "gmail"
  externalId := Str.of "m1"
  recordType := Str.of "message"
  sourceUrl := none
  payloadHash := []
  observedAt := 0
  workspaceId := sampleWorkspace
  isDeleted := false
  sourceUpdatedAt := some 0
  createdAt := 0
  payload := ⟨.str sender, some [], none⟩

/-- Ann, whose account is disabled, has written a message. -/
def departedMember : WorldRows where
  records := [sampleMessage sampleWorkspace (Str.of "ann@acme.com")]
  members := [⟨7, sampleWorkspace, Str.of "ann@acme.com", false⟩]
  resolutions := []
  organizations := []
  record_id := by simp [Dict.Unique]

end FounderOs.Headquarters
