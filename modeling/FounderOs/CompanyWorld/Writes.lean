import FounderOs.CompanyWorld.Sessions
import FounderOs.Foundation.Outcome

namespace FounderOs.CompanyWorld

open Execution (UserId)
open Headquarters

variable {rules : MailRules} {workspaceId : Uuid} {actorUserId : UserId} {command : ResolveCommand}
variable {drawn : Drawn} {rows : Readings} {db db' : WorldTables} {candidate : Candidate}
variable {resolution : Resolution} {receipt : Receipt} {person : Person}

/-- Rows are added and none is changed. -/
structure Grown (db db' : WorldTables) : Prop where
  people : db.people <+: db'.people
  organizations : db.organizations <+: db'.organizations
  affiliations : db.affiliations <+: db'.affiliations
  interactions : db.interactions <+: db'.interactions
  resolutions : db.resolutions <+: db'.resolutions
  memoryEvents : db.memoryEvents <+: db'.memoryEvents

theorem Grown.refl (db : WorldTables) : Grown db db :=
  ⟨List.prefix_rfl, List.prefix_rfl, List.prefix_rfl, List.prefix_rfl, List.prefix_rfl,
    List.prefix_rfl⟩

theorem Grown.trans {db'' : WorldTables} (h : Grown db db') (h' : Grown db' db'') :
    Grown db db'' where
  people := h.people.trans h'.people
  organizations := h.organizations.trans h'.organizations
  affiliations := h.affiliations.trans h'.affiliations
  interactions := h.interactions.trans h'.interactions
  resolutions := h.resolutions.trans h'.resolutions
  memoryEvents := h.memoryEvents.trans h'.memoryEvents

/-- What a transaction publishes over the rows it saw is what it made of them. -/
theorem published_self (h : Grown db db') : published db db' db = db' := by
  have heq : ∀ {R : Type} {l l' : List R}, l <+: l' → l ++ l'.drop l.length = l' :=
    fun h => (List.prefix_iff_eq_append.1 h)
  rw [published, heq h.people, heq h.organizations, heq h.affiliations, heq h.interactions,
    heq h.resolutions, heq h.memoryEvents]

section inserts

theorem insertPerson_ok (h : db.insertPerson person = .ok db') :
    db' = { db with people := db.people ++ [person] } ∧ ∀ p ∈ db.people, p.id ≠ person.id := by
  unfold WorldTables.insertPerson at h
  split at h
  · cases h
  · rename_i hnone
    refine ⟨(Except.ok.inj h).symm, fun p hp hid => hnone ?_⟩
    exact List.any_eq_true.2 ⟨p, hp, by simp [hid]⟩

theorem insertOrganization_ok {organization : Organization}
    (h : db.insertOrganization organization = .ok db') :
    db' = { db with organizations := db.organizations ++ [organization] } := by
  unfold WorldTables.insertOrganization at h
  split at h
  · cases h
  · exact (Except.ok.inj h).symm

theorem insertAffiliation_ok {affiliation : Affiliation}
    (h : db.insertAffiliation affiliation = .ok db') :
    db' = { db with affiliations := db.affiliations ++ [affiliation] } := by
  unfold WorldTables.insertAffiliation at h
  split at h
  · cases h
  · exact (Except.ok.inj h).symm

theorem insertResolution_ok (h : db.insertResolution resolution = .ok db') :
    db' = { db with resolutions := db.resolutions ++ [resolution] } ∧
      ∀ r ∈ db.resolutions, r.id ≠ resolution.id ∧
        r.idempotencyKey ≠ resolution.idempotencyKey ∧
        (r.candidateType, r.candidateKey) ≠
          (resolution.candidateType, resolution.candidateKey) := by
  unfold WorldTables.insertResolution at h
  split at h
  · cases h
  · rename_i hnone
    refine ⟨(Except.ok.inj h).symm, fun r hr => ⟨fun hid => hnone ?_, fun hkey => hnone ?_,
      fun hcandidate => hnone ?_⟩⟩
    · exact List.any_eq_true.2 ⟨r, hr, by simp [hid]⟩
    · exact List.any_eq_true.2 ⟨r, hr, by simp [hkey]⟩
    · obtain ⟨htype, hkey⟩ := Prod.mk.inj hcandidate
      exact List.any_eq_true.2 ⟨r, hr, by simp [htype, hkey]⟩

/-- The event of a resolution is there afterwards, and is the only one that can be new. -/
theorem appendResolutionEvent_ok (h : appendResolutionEvent db resolution = .ok db') :
    resolutionEvent resolution ∈ db'.memoryEvents ∧
      ∃ added, db' = { db with memoryEvents := db.memoryEvents ++ added } ∧
        ∀ e ∈ added, e = resolutionEvent resolution := by
  unfold appendResolutionEvent at h
  dsimp only at h
  split at h
  · rename_i existing hfound
    split at h
    · cases h
    · rename_i hsame
      obtain rfl := Except.ok.inj h
      obtain rfl := not_not.1 hsame
      exact ⟨List.mem_of_find?_eq_some hfound, [], by simp, by simp⟩
  · obtain rfl := Except.ok.inj h
    exact ⟨by simp, [resolutionEvent resolution], rfl, by simp⟩

/-- Where the event is there, and no other has the id, nothing is added. -/
theorem appendResolutionEvent_again (hmem : resolutionEvent resolution ∈ db.memoryEvents)
    (hsame : ∀ e ∈ db.memoryEvents, e.resolutionId = resolution.id →
      e = resolutionEvent resolution) :
    appendResolutionEvent db resolution = .ok db := by
  unfold appendResolutionEvent
  dsimp only
  split
  · rename_i existing hfound
    have hid := List.find?_some hfound
    simp only [Bool.and_eq_true, decide_eq_true_eq] at hid
    rw [if_neg (not_not.2 (hsame existing (List.mem_of_find?_eq_some hfound) hid.2))]
  · rename_i hnone
    exact absurd (List.find?_eq_none.1 hnone _ hmem) (by simp)

end inserts

section decisions

theorem getOrCreateExternalPerson_ok {displayName : Option Str}
    (h : getOrCreateExternalPerson rules db actorUserId drawn candidate displayName =
      .ok (person, db')) :
    person.normalizedEmail = normalizeEmail rules (candidate.email.getD []) ∧
      ((person ∈ db.people ∧ db' = db) ∨
        (db' = { db with people := db.people ++ [person] } ∧
          ∀ p ∈ db.people, p.id ≠ person.id)) := by
  unfold getOrCreateExternalPerson at h
  dsimp only at h
  split at h
  · rename_i existing hfound
    obtain ⟨rfl, rfl⟩ := Prod.mk.inj (Except.ok.inj h)
    exact ⟨by simpa using List.find?_some hfound, .inl ⟨List.mem_of_find?_eq_some hfound, rfl⟩⟩
  · obtain ⟨inserted, hinsert, heq⟩ := map_eq_ok h
    obtain ⟨rfl, rfl⟩ := Prod.mk.inj heq
    exact ⟨rfl, .inr (insertPerson_ok hinsert)⟩

theorem getOrCreateOrganization_ok {candidateKey : CandidateKey} {displayName : Option Str}
    {relationshipKind : RelationshipKind} {organization : Organization}
    (h : getOrCreateOrganization rules db actorUserId drawn candidateKey displayName
      relationshipKind = .ok (organization, db')) :
    ∃ added, db' = { db with organizations := db.organizations ++ added } ∧ added.length ≤ 1 := by
  unfold getOrCreateOrganization at h
  dsimp only at h
  split at h
  · obtain ⟨-, rfl⟩ := Prod.mk.inj (Except.ok.inj h)
    exact ⟨[], by simp, by simp⟩
  · split at h
    · split at h
      · cases h
      · obtain ⟨inserted, hinsert, heq⟩ := map_eq_ok h
        obtain ⟨-, rfl⟩ := Prod.mk.inj heq
        exact ⟨_, insertOrganization_ok hinsert, by simp⟩
    · cases h

theorem getOrCreateAffiliation_ok {organization : Organization} {sourceRecordId : Uuid}
    {relationshipType : RelationshipType} {roleTitle : Option Str} {affiliation : Affiliation}
    (h : getOrCreateAffiliation db actorUserId drawn person organization sourceRecordId
      relationshipType roleTitle = .ok (affiliation, db')) :
    ∃ added, db' = { db with affiliations := db.affiliations ++ added } ∧ added.length ≤ 1 := by
  unfold getOrCreateAffiliation at h
  dsimp only at h
  split at h
  · obtain ⟨-, rfl⟩ := Prod.mk.inj (Except.ok.inj h)
    exact ⟨[], by simp, by simp⟩
  · obtain ⟨inserted, hinsert, heq⟩ := map_eq_ok h
    obtain ⟨-, rfl⟩ := Prod.mk.inj heq
    exact ⟨_, insertAffiliation_ok hinsert, by simp⟩

/-- A message that the person takes part in, and has no interaction of. -/
def Unmet (rules : MailRules) (workspaceId : Uuid) (db : WorldTables) (person : Person)
    (record : MessageRecord) : Prop :=
  isGmailMessage workspaceId record = true ∧
    normalizeEmail rules person.normalizedEmail ∈ recordEmails rules record ∧
      ∀ interaction ∈ db.interactionsOf person.id, interaction.sourceRecordId ≠ record.id

theorem mem_materialize {members : List Member} {records : List MessageRecord}
    {organization : Option Organization} {ids : Option (List Uuid)} {interaction : Interaction}
    (h : interaction ∈ materializePersonInteractions rules workspaceId members records db person
      organization ids) : interaction.personId = person.id ∧
        ∃ record ∈ records, Unmet rules workspaceId db person record := by
  unfold materializePersonInteractions at h
  dsimp only at h
  split at h
  · cases h
  · obtain ⟨record, hrecord, rfl⟩ := List.mem_map.1 h
    obtain ⟨hrecord, hunmet⟩ := List.mem_filter.1 hrecord
    obtain ⟨hmem, hgmail⟩ := List.mem_filter.1 (List.mem_filter.1 (List.mem_mergeSort.1 hrecord)).1
    simp only [Bool.and_eq_true, Bool.not_eq_true', List.contains_eq_mem, decide_eq_true_eq,
      decide_eq_false_iff_not, List.mem_map, not_exists, not_and] at hunmet
    exact ⟨rfl, record, hmem, hgmail, hunmet⟩

/-- What a decision writes: at most one row of each profile, and interactions of the person that it
names, whom it has found or is the first to have the id of. -/
structure Wrote (rules : MailRules) (command : ResolveCommand) (candidate : Candidate)
    (db : WorldTables) (confirmed : Confirmed) : Prop where
  people : ∃ added, confirmed.tables.people = db.people ++ added ∧ added.length ≤ 1
  organizations : ∃ added,
    confirmed.tables.organizations = db.organizations ++ added ∧ added.length ≤ 1
  affiliations : ∃ added, confirmed.tables.affiliations = db.affiliations ++ added ∧
    added.length ≤ 1
  resolutions : confirmed.tables.resolutions = db.resolutions
  memoryEvents : confirmed.tables.memoryEvents = db.memoryEvents
  nobody : confirmed.personId = none → confirmed.interactionCount = 0 ∧
    confirmed.tables.interactions = db.interactions
  somebody : ∀ id, confirmed.personId = some id →
    command.decision = .confirmed ∧ command.candidateType = .externalPerson ∧
    ∃ person ∈ confirmed.tables.people, person.id = id ∧
      person.normalizedEmail = normalizeEmail rules (candidate.email.getD []) ∧
      (person ∈ db.people ∨ ∀ p ∈ db.people, p.id ≠ id) ∧
      ∃ added, confirmed.tables.interactions = db.interactions ++ added ∧
        added.length = confirmed.interactionCount ∧ ∀ i ∈ added, i.personId = id

theorem confirmExternalPerson_ok {sourceRecordId : Uuid} {confirmed : Confirmed}
    (hdecision : command.decision = .confirmed) (htype : command.candidateType = .externalPerson)
    (h : confirmExternalPerson rules workspaceId actorUserId command drawn rows db candidate
      sourceRecordId = .ok confirmed) : Wrote rules command candidate db confirmed := by
  unfold confirmExternalPerson at h
  split at h
  · cases h
  · rename_i organization _
    split at h
    · cases h
    · rename_i person db₁ hperson
      obtain ⟨hemail, hfound⟩ := getOrCreateExternalPerson_ok hperson
      obtain ⟨⟨affiliation, db₂⟩, haffiliated, rfl⟩ := map_eq_ok h
      obtain ⟨affiliations, rfl, hone⟩ : ∃ added,
          db₂ = { db₁ with affiliations := db₁.affiliations ++ added } ∧ added.length ≤ 1 := by
        split at haffiliated
        · obtain ⟨⟨created, db₃⟩, hcreated, heq⟩ := map_eq_ok haffiliated
          obtain ⟨-, rfl⟩ := Prod.mk.inj heq
          exact getOrCreateAffiliation_ok hcreated
        · obtain ⟨-, rfl⟩ := Prod.mk.inj (Except.ok.inj haffiliated)
          exact ⟨[], by simp, by simp⟩
      obtain ⟨people, rfl, hpeople, hmem, hnew⟩ : ∃ added,
          db₁ = { db with people := db.people ++ added } ∧ added.length ≤ 1 ∧
            person ∈ db.people ++ added ∧
              (person ∈ db.people ∨ ∀ p ∈ db.people, p.id ≠ person.id) := by
        rcases hfound with ⟨hmem, rfl⟩ | ⟨rfl, hnew⟩
        · exact ⟨[], by simp, by simp, by simpa using hmem, .inl hmem⟩
        · exact ⟨[person], rfl, by simp, by simp, .inr hnew⟩
      refine ⟨⟨people, rfl, hpeople⟩, ⟨[], by simp [WorldTables.addInteractions], by simp⟩,
        ⟨affiliations, rfl, hone⟩, rfl, rfl, ?_, fun id hid => ?_⟩
      · intro hnone
        cases hnone
      obtain rfl := Option.some.inj hid
      exact ⟨hdecision, htype, person, hmem, rfl, hemail, hnew, _, rfl, rfl,
        fun i hi => (mem_materialize hi).1⟩

theorem writeDecision_ok {sourceRecordId : Uuid} {confirmed : Confirmed}
    (h : writeDecision rules workspaceId actorUserId command drawn rows db candidate
      sourceRecordId = .ok confirmed) : Wrote rules command candidate db confirmed := by
  unfold writeDecision at h
  split at h
  · obtain rfl := Except.ok.inj h
    exact ⟨⟨[], by simp, by simp⟩, ⟨[], by simp, by simp⟩, ⟨[], by simp, by simp⟩, rfl, rfl,
      fun _ => ⟨rfl, rfl⟩, fun id hid => by cases hid⟩
  · rename_i hdecision htype
    exact confirmExternalPerson_ok hdecision htype h
  · obtain ⟨⟨organization, db₁⟩, hcreated, rfl⟩ := map_eq_ok h
    obtain ⟨organizations, rfl, hone⟩ := getOrCreateOrganization_ok hcreated
    exact ⟨⟨[], by simp, by simp⟩, ⟨organizations, rfl, hone⟩, ⟨[], by simp, by simp⟩, rfl, rfl,
      fun _ => ⟨rfl, rfl⟩, fun id hid => by cases hid⟩

end decisions

section commands

theorem email_of_admitted {first locking second : WorldRows} {key : CandidateKey}
    {version : CandidateVersion} {locked : List MessageRecord}
    (h : admitCandidate rules first locking second workspaceId .externalPerson key version =
      .ok (candidate, locked)) : ∃ email, candidate.email = some email ∧
        key = .externalPerson email := by
  obtain ⟨hresolve, hkey⟩ : resolveCandidate rules second workspaceId .externalPerson key =
      .ok candidate ∧ candidate.key = key := by
    unfold admitCandidate at h
    split at h
    · cases h
    · split at h
      · cases h
      · split at h
        · cases h
        · cases h
        · rename_i again hagain
          dsimp only at h
          split at h
          · cases h
          · split at h
            · cases h
            · obtain ⟨rfl, rfl⟩ := Prod.mk.inj (Except.ok.inj h)
              obtain ⟨-, -, -, hkey⟩ := resolveCandidate_eq_ok.1 hagain
              exact ⟨hagain, hkey⟩
  obtain ⟨map, hmap, hmem, -⟩ := resolveCandidate_eq_ok.1 hresolve
  obtain ⟨person, version, hentry, rfl⟩ := mem_person_candidates.1 hmem
  obtain ⟨hrow, -⟩ := ((shown_rebuilt hmap).people _ _).1 hentry
  exact ⟨person.email, rfl, hkey.symm.trans (externalPerson_row hrow).2.2.1⟩

inductive Profile where
  | person | organization | affiliation
  deriving DecidableEq, Repr

def WorldTables.count (db : WorldTables) : Profile → Nat
  | .person => db.people.length
  | .organization => db.organizations.length
  | .affiliation => db.affiliations.length

def Admits (rules : MailRules) (workspaceId : Uuid) (rows : Readings) (command : ResolveCommand) :
    Prop :=
  (admitCandidate rules (rows 0) (rows 1) (rows 2) workspaceId command.candidateType
    command.candidateKey command.candidateVersion).toOption.isSome = true

/-- The first acceptance of a command. -/
structure Accepted (rules : MailRules) (workspaceId : Uuid) (rows : Readings)
    (command : ResolveCommand) (db : WorldTables) (receipt : Receipt) (db' : WorldTables) :
    Prop where
  admitted : Admits rules workspaceId rows command
  grown : Grown db db'
  created : ∀ profile, db'.count profile ≤ db.count profile + 1
  candidateType : receipt.resolution.candidateType = command.candidateType
  candidateKey : receipt.resolution.candidateKey = command.candidateKey
  idempotencyKey : receipt.resolution.idempotencyKey = command.idempotencyKey
  requestHash : receipt.resolution.requestHash = command.toResolveRequest
  resolutions : db'.resolutions = db.resolutions ++ [receipt.resolution]
  fresh : ∀ r ∈ db.resolutions, r.id ≠ receipt.resolution.id ∧
    r.idempotencyKey ≠ receipt.resolution.idempotencyKey ∧
    (r.candidateType, r.candidateKey) ≠
      (receipt.resolution.candidateType, receipt.resolution.candidateKey)
  event : resolutionEvent receipt.resolution ∈ db'.memoryEvents
  events : ∀ e ∈ db'.memoryEvents,
    e ∈ db.memoryEvents ∨ e = resolutionEvent receipt.resolution
  results : receipt = { receiptForResolution db' receipt.resolution false with
    interactionCount := receipt.interactionCount }
  nobody : receipt.resolution.resultPersonId = none →
    receipt.interactionCount = 0 ∧ db'.interactions = db.interactions
  somebody : ∀ id, receipt.resolution.resultPersonId = some id →
    command.decision = .confirmed ∧ ∃ email, command.candidateKey = .externalPerson email ∧
    ∃ person ∈ db'.people, person.id = id ∧
      person.normalizedEmail = normalizeEmail rules email ∧
      (person ∈ db.people ∨ ∀ p ∈ db.people, p.id ≠ id) ∧
      ∃ added, db'.interactions = db.interactions ++ added ∧
        added.length = receipt.interactionCount ∧ ∀ i ∈ added, i.personId = id

theorem resolveNew_ok (h : resolveNew rules workspaceId actorUserId command drawn rows db =
    .ok (receipt, db')) : Accepted rules workspaceId rows command db receipt db' := by
  unfold resolveNew at h
  split at h
  · cases h
  · rename_i candidate locked hadmit
    split at h
    · cases h
    · split at h
      · cases h
      · rename_i confirmed hconfirmed
        have hwrote := writeDecision_ok hconfirmed
        obtain ⟨db₂, hrows, heq⟩ := map_eq_ok h
        obtain ⟨rfl, rfl⟩ := Prod.mk.inj heq
        cases hinsert : confirmed.tables.insertResolution _ with
        | error e =>
          rw [hinsert] at hrows
          cases hrows
        | ok db₁ =>
          rw [hinsert] at hrows
          obtain ⟨rfl, hfresh⟩ := insertResolution_ok hinsert
          obtain ⟨hevent, events, rfl, hnew⟩ := appendResolutionEvent_ok hrows
          obtain ⟨people, hpeople, honePerson⟩ := hwrote.people
          obtain ⟨organizations, horganizations, honeOrganization⟩ := hwrote.organizations
          obtain ⟨affiliations, haffiliations, honeAffiliation⟩ := hwrote.affiliations
          rw [hwrote.resolutions] at hfresh
          have hinteractions : db.interactions <+: confirmed.tables.interactions := by
            cases hperson : confirmed.personId with
            | none => exact (hwrote.nobody hperson).2 ▸ List.prefix_rfl
            | some id =>
              obtain ⟨-, -, -, -, -, -, -, added, hadded, -⟩ := hwrote.somebody id hperson
              exact ⟨added, hadded.symm⟩
          exact {
            admitted := by rw [Admits, hadmit]; rfl
            grown :=
              { people := ⟨people, hpeople.symm⟩
                organizations := ⟨organizations, horganizations.symm⟩
                affiliations := ⟨affiliations, haffiliations.symm⟩
                interactions := hinteractions
                resolutions := ⟨_, congrArg (· ++ [_]) hwrote.resolutions.symm⟩
                memoryEvents := ⟨events, congrArg (· ++ events) hwrote.memoryEvents.symm⟩ }
            created := by
              intro profile
              cases profile with
              | person => simpa [WorldTables.count, hpeople] using honePerson
              | organization => simpa [WorldTables.count, horganizations] using honeOrganization
              | affiliation => simpa [WorldTables.count, haffiliations] using honeAffiliation
            candidateType := rfl
            candidateKey := rfl
            idempotencyKey := rfl
            requestHash := rfl
            resolutions := congrArg (· ++ [_]) hwrote.resolutions
            fresh := hfresh
            event := hevent
            events := by
              intro e he
              rcases List.mem_append.1 he with he | he
              · exact .inl (hwrote.memoryEvents ▸ he)
              · exact .inr (hnew e he)
            results := rfl
            nobody := hwrote.nobody
            somebody := by
              intro id hid
              obtain ⟨hdecision, htype, person, hmem, hown, hemail, hfound, hadded⟩ :=
                hwrote.somebody id hid
              rw [htype] at hadmit
              obtain ⟨email, hsent, hkey⟩ := email_of_admitted hadmit
              rw [hsent, Option.getD_some] at hemail
              exact ⟨hdecision, email, hkey, person, hmem, hown, hemail, hfound, hadded⟩ }

theorem resolve_ok (h : resolveCompanyWorldCandidate rules workspaceId actorUserId command drawn
    rows db = .ok (receipt, db')) : command.encodable = true ∧
      ((∃ found ∈ db.resolutions, found.requestHash = command.toResolveRequest ∧
          (∀ other, db.byIdempotencyKey command.idempotencyKey = some other → other = found) ∧
          appendResolutionEvent db found = .ok db' ∧
            receipt = receiptForResolution db' found true) ∨
        (db.byIdempotencyKey command.idempotencyKey = none ∧
          db.byCandidate command.candidateType command.candidateKey = none ∧
            Accepted rules workspaceId rows command db receipt db')) := by
  have hreplay : ∀ found ∈ db.resolutions, ∀ detail,
      (∀ other, db.byIdempotencyKey command.idempotencyKey = some other → other = found) →
      replayResolution command db found detail = .ok (receipt, db') →
        ∃ found ∈ db.resolutions, found.requestHash = command.toResolveRequest ∧
          (∀ other, db.byIdempotencyKey command.idempotencyKey = some other → other = found) ∧
          appendResolutionEvent db found = .ok db' ∧
            receipt = receiptForResolution db' found true := by
    intro found hfound detail hkey hreplayed
    unfold replayResolution at hreplayed
    split at hreplayed
    · cases hreplayed
    · rename_i hsame
      obtain ⟨db₁, happend, heq⟩ := map_eq_ok hreplayed
      obtain ⟨rfl, rfl⟩ := Prod.mk.inj heq
      exact ⟨found, hfound, not_not.1 hsame, hkey, happend, rfl⟩
  unfold resolveCompanyWorldCandidate at h
  split at h
  · cases h
  · rename_i hencodable
    refine ⟨by simpa using hencodable, ?_⟩
    split at h
    · rename_i found hfound
      refine .inl (hreplay found (List.mem_of_find?_eq_some hfound) _ (fun other hother => ?_) h)
      exact Option.some.inj (hother.symm.trans hfound)
    · rename_i hkey
      split at h
      · rename_i found hfound
        refine .inl (hreplay found (List.mem_of_find?_eq_some hfound) _ (fun other hother => ?_) h)
        cases hkey.symm.trans hother
      · rename_i hcandidate
        exact .inr ⟨hkey, hcandidate, resolveNew_ok h⟩

end commands

section backfill

theorem insertMembers_ok {members : List Member}
    (h : members.foldlM (fun (db : WorldTables) member =>
      db.insertPerson (membershipPerson rules drawn member)) db = .ok db') :
    ∃ added, db' = { db with people := db.people ++ added } := by
  induction members generalizing db with
  | nil =>
    obtain rfl := Except.ok.inj h
    exact ⟨[], by simp⟩
  | cons member members ih =>
    rw [List.foldlM_cons] at h
    cases hinsert : db.insertPerson (membershipPerson rules drawn member) with
    | error e =>
      rw [hinsert] at h
      cases h
    | ok db₁ =>
      rw [hinsert] at h
      obtain ⟨added, rfl⟩ := ih h
      obtain ⟨rfl, -⟩ := insertPerson_ok hinsert
      exact ⟨membershipPerson rules drawn member :: added, by simp⟩

theorem backfillPeople_eq (rules : MailRules) (workspaceId : Uuid) (rows : Readings)
    (db before : WorldTables) (entries : List (Person × Nat)) :
    ∃ added, entries.foldl (fun db entry => db.addInteractions
          (backfilledInteractions rules workspaceId rows before db entry)) db =
        { db with interactions := db.interactions ++ added } ∧
      ∀ i ∈ added, ∃ entry ∈ entries, i.personId = entry.1.id ∧
        ∃ record ∈ (rows (2 * entry.2 + 2)).records, Unmet rules workspaceId db entry.1 record := by
  induction entries generalizing db with
  | nil => exact ⟨[], by simp, by simp⟩
  | cons entry entries ih =>
    obtain ⟨added, heq, hadded⟩ := ih (db.addInteractions
      (backfilledInteractions rules workspaceId rows before db entry))
    refine ⟨backfilledInteractions rules workspaceId rows before db entry ++ added, ?_, ?_⟩
    · rw [List.foldl_cons, heq, WorldTables.addInteractions, List.append_assoc]
    · intro i hi
      rcases List.mem_append.1 hi with hi | hi
      · obtain ⟨hperson, record, hrecord, hunmet⟩ := mem_materialize hi
        exact ⟨entry, List.mem_cons_self, hperson, record, hrecord, hunmet⟩
      · obtain ⟨other, hother, hperson, record, hrecord, hgmail, hemail, hnone⟩ := hadded i hi
        refine ⟨other, List.mem_cons_of_mem _ hother, hperson, record, hrecord, hgmail, hemail,
          fun j hj => hnone j ?_⟩
        obtain ⟨hmem, howner⟩ := List.mem_filter.1 hj
        exact List.mem_filter.2 ⟨List.mem_append_left _ hmem, howner⟩

/-- A backfill adds people, and interactions of confirmed people that they had not had. -/
theorem backfill_ok (h : backfillCompanyWorld rules workspaceId drawn rows db = .ok db') :
    ∃ people interactions, db' = { db with
        people := db.people ++ people, interactions := db.interactions ++ interactions } ∧
      ∀ i ∈ interactions, ∃ entry ∈ (confirmedExternal db).zipIdx, i.personId = entry.1.id ∧
        ∃ record ∈ (rows (2 * entry.2 + 2)).records, Unmet rules workspaceId db entry.1 record := by
  obtain ⟨withMembers, hmembers, rfl⟩ := map_eq_ok h
  obtain ⟨people, rfl⟩ := insertMembers_ok hmembers
  obtain ⟨interactions, heq, hadded⟩ := backfillPeople_eq rules workspaceId rows
    { db with people := db.people ++ people } db (confirmedExternal db).zipIdx
  exact ⟨people, interactions, heq, hadded⟩

end backfill

end FounderOs.CompanyWorld
