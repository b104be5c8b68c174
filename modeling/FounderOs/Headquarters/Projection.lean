import FounderOs.Headquarters.CompanyMap

namespace FounderOs.Headquarters

variable {rules : MailRules} {db : WorldRows} {workspaceId : Uuid} {internal internal' : List Str}
variable {messages : List Message} {message : Message} {email domain : Str}

theorem email_of_mem_participantByEmail {entry : Str × Mailbox}
    (h : entry ∈ participantByEmail rules message) : entry.2.email = entry.1 := by
  obtain ⟨mailbox, -, rfl⟩ := List.mem_map.1 (Dict.mem_of_mem_ofPairs h)
  rfl

theorem externalMailboxes_eq (internal : List Str) (message : Message) :
    externalMailboxes rules internal message =
      (externalMailboxes rules [] message).filter fun mailbox => mailbox.email ∉ internal := by
  rw [externalMailboxes, externalMailboxes, List.filter_map, List.filter_filter]
  congr 1
  refine List.filter_congr fun entry hentry => ?_
  simp [email_of_mem_participantByEmail hentry]

theorem mem_externalMailboxes_email :
    (∃ mailbox ∈ externalMailboxes rules internal message, mailbox.email = email) ↔
      email ∉ internal ∧ email ∈ (participants rules message).map (·.email) := by
  have hkeys : email ∈ (participantByEmail rules message).map (·.1) ↔
      email ∈ (participants rules message).map (·.email) := by
    rw [participantByEmail, Dict.mem_keys_ofPairs, List.map_map]
    rfl
  rw [← hkeys]
  constructor
  · rintro ⟨mailbox, hmailbox, rfl⟩
    rw [externalMailboxes] at hmailbox
    obtain ⟨entry, hentry, rfl⟩ := List.mem_map.1 hmailbox
    obtain ⟨hentry, hout⟩ := List.mem_filter.1 hentry
    rw [email_of_mem_participantByEmail hentry]
    exact ⟨by simpa using hout, List.mem_map_of_mem hentry⟩
  · rintro ⟨hout, hmem⟩
    obtain ⟨entry, hentry, rfl⟩ := List.mem_map.1 hmem
    refine ⟨entry.2, ?_, email_of_mem_participantByEmail hentry⟩
    exact List.mem_map_of_mem (List.mem_filter.2 ⟨hentry, by simpa using hout⟩)

theorem mem_messageParticipantEmails :
    email ∈ messageParticipantEmails rules messages ↔
      ∃ message ∈ messages, email ∈ (participants rules message).map (·.email) :=
  List.mem_flatMap

/-- What is met under an address does not depend on who else is internal. -/
theorem personMeetings_under (internal : List Str) (messages : List Message) (email : Str) :
    Dict.under email (personMeetings rules internal messages) =
      if email ∈ internal then []
      else Dict.under email (personMeetings rules [] messages) := by
  have hone : ∀ (internal : List Str) (message : Message),
      Dict.under email ((externalMailboxes rules internal message).map fun mailbox =>
          (mailbox.email, (mailbox.name, message))) =
        ((externalMailboxes rules internal message).filter (·.email = email)).map fun mailbox =>
          (mailbox.name, message) := by
    intro internal message
    simp [Dict.under, List.filter_map, Function.comp_def]
  rw [personMeetings, personMeetings, Dict.under_flatMap, Dict.under_flatMap]
  simp only [hone]
  split
  · rename_i hin
    refine List.flatMap_eq_nil_iff.2 fun message _ => ?_
    rw [List.map_eq_nil_iff, List.filter_eq_nil_iff]
    intro mailbox hmailbox heq
    have hout := (mem_externalMailboxes_email.1 ⟨mailbox, hmailbox, rfl⟩).1
    exact hout (of_decide_eq_true heq ▸ hin)
  · rename_i hout
    refine congrArg List.flatten (List.map_congr_left fun message _ => congrArg _ ?_)
    rw [externalMailboxes_eq internal message, List.filter_filter]
    refine List.filter_congr fun mailbox _ => ?_
    by_cases heq : mailbox.email = email
    · simp [heq, hout]
    · simp [heq]

/-- The addresses of a domain that a message adds to its organization. -/
def outside (rules : MailRules) (internal : List Str) (domain : Str) (message : Message) :
    List Str :=
  ((externalMailboxes rules internal message).filter fun mailbox =>
    organizationDomain rules mailbox.email = some domain).map (·.email)

theorem mem_outside : email ∈ outside rules internal domain message ↔
    email ∉ internal ∧ email ∈ (participants rules message).map (·.email) ∧
      organizationDomain rules email = some domain := by
  rw [outside, List.mem_map]
  constructor
  · rintro ⟨mailbox, hmailbox, rfl⟩
    obtain ⟨hmailbox, hdomain⟩ := List.mem_filter.1 hmailbox
    obtain ⟨hout, hmem⟩ := mem_externalMailboxes_email.1 ⟨mailbox, hmailbox, rfl⟩
    exact ⟨hout, hmem, of_decide_eq_true hdomain⟩
  · rintro ⟨hout, hmem, hdomain⟩
    obtain ⟨mailbox, hmailbox, rfl⟩ := mem_externalMailboxes_email.2 ⟨hout, hmem⟩
    exact ⟨mailbox, List.mem_filter.2 ⟨hmailbox, decide_eq_true hdomain⟩, rfl⟩

theorem organizationMeetings_under (internal : List Str) (messages : List Message) (domain : Str) :
    Dict.under domain (organizationMeetings rules internal messages) =
      messages.flatMap fun message =>
        if outside rules internal domain message = [] then []
        else [(outside rules internal domain message, message)] := by
  rw [organizationMeetings, Dict.under_flatMap]
  refine congrArg List.flatten (List.map_congr_left fun message _ => ?_)
  have hnodup : (organizationDomains rules (externalMailboxes rules internal message)).Nodup :=
    (List.mergeSort_perm _ _).nodup_iff.2 (List.nodup_dedup _)
  dsimp only
  rw [Dict.under_self_keyed hnodup]
  have hmem : domain ∈ organizationDomains rules (externalMailboxes rules internal message) ↔
      outside rules internal domain message ≠ [] := by
    rw [organizationDomains, List.mem_mergeSort, List.mem_dedup, List.mem_filterMap, outside, ne_eq,
      List.map_eq_nil_iff, List.filter_eq_nil_iff]
    simp
  by_cases hnil : outside rules internal domain message = []
  · rw [if_pos hnil, if_neg (fun h => hmem.1 h hnil)]
  · rw [if_neg hnil, if_pos (hmem.2 hnil)]
    rfl

theorem outside_congr (h : ∀ email ∈ (participants rules message).map (·.email),
      organizationDomain rules email = some domain → (email ∈ internal ↔ email ∈ internal')) :
    outside rules internal domain message = outside rules internal' domain message := by
  rw [outside, outside, externalMailboxes_eq internal, externalMailboxes_eq internal',
    List.filter_filter, List.filter_filter]
  congr 1
  refine List.filter_congr fun mailbox hmailbox => ?_
  have hmem := (mem_externalMailboxes_email.1 ⟨mailbox, hmailbox, rfl⟩).2
  by_cases hdomain : organizationDomain rules mailbox.email = some domain
  · simp [hdomain, h _ hmem hdomain]
  · simp [hdomain]

theorem mem_mergeSourceRefs {existing incoming : List SourceRef} {ref : SourceRef}
    (h : ref ∈ mergeSourceRefs existing incoming) : ref ∈ existing ∨ ref ∈ incoming := by
  induction incoming using List.reverseRecOn with
  | nil => exact .inl h
  | append_singleton incoming last ih =>
    rw [mergeSourceRefs, List.foldl_append] at h
    change ref ∈ if (mergeSourceRefs existing incoming).any (·.id = last.id) then
      mergeSourceRefs existing incoming else mergeSourceRefs existing incoming ++ [last] at h
    have hcases : ref ∈ mergeSourceRefs existing incoming ∨ ref = last := by
      split at h
      · exact .inl h
      · simpa using h
    rcases hcases with h | rfl
    · exact (ih h).imp_right (List.mem_append_left _)
    · exact .inr (List.mem_append_right _ (List.mem_singleton_self _))

theorem length_mergeSourceRefs (existing incoming : List SourceRef) :
    existing.length ≤ (mergeSourceRefs existing incoming).length := by
  induction incoming using List.reverseRecOn with
  | nil => exact Nat.le_refl _
  | append_singleton incoming last ih =>
    rw [mergeSourceRefs, List.foldl_append]
    change _ ≤ (if (mergeSourceRefs existing incoming).any (·.id = last.id) then
      mergeSourceRefs existing incoming else mergeSourceRefs existing incoming ++ [last]).length
    split
    · exact ih
    · rw [List.length_append]
      exact ih.trans (Nat.le_add_right _ _)

theorem mergeSourceRefs_ne_nil {existing incoming : List SourceRef} (h : incoming ≠ []) :
    mergeSourceRefs existing incoming ≠ [] := by
  cases incoming with
  | nil => exact absurd rfl h
  | cons first rest =>
    intro hnil
    have hlength := length_mergeSourceRefs
      (if existing.any (·.id = first.id) then existing else existing ++ [first]) rest
    change _ ≤ (mergeSourceRefs existing (first :: rest)).length at hlength
    rw [hnil] at hlength
    split at hlength
    · rename_i hany
      obtain rfl := List.length_eq_zero_iff.1 (Nat.le_zero.1 hlength)
      cases hany
    · simp at hlength

theorem recordSourceRefs_ne_nil (record : MessageRecord) : recordSourceRefs record ≠ [] := by
  unfold recordSourceRefs
  dsimp only
  split
  · assumption
  · exact List.cons_ne_nil _ _

theorem recordId_of_mem_recordSourceRefs {record : MessageRecord} {ref : SourceRef}
    (h : ref ∈ recordSourceRefs record) : ref.recordId = record.id := by
  unfold recordSourceRefs at h
  dsimp only at h
  split at h
  · obtain ⟨entry, -, hentry⟩ := List.mem_filterMap.1 h
    obtain ⟨fields, -, hfields⟩ := Option.bind_eq_some_iff.1 hentry
    obtain ⟨label, -, rfl⟩ := Option.map_eq_some_iff.1 hfields
    rfl
  · obtain rfl := List.mem_singleton.1 h
    rfl

/-- The references of a row name live messages of the workspace. -/
def Evidenced (db : WorldRows) (workspaceId : Uuid) (refs : List SourceRef) : Prop :=
  refs ≠ [] ∧ ∀ ref ∈ refs, ∃ record ∈ db.records,
    isGmailMessage workspaceId record = true ∧ record.id = ref.recordId

theorem evidenced_of_mem_rows {limit : Nat} (h : message ∈ gmailMessageRows db workspaceId limit) :
    Evidenced db workspaceId message.sourceRefs := by
  obtain ⟨record, hrecord, rfl⟩ := List.mem_map.1 h
  have hlive := List.mem_filter.1 (List.mem_mergeSort.1 (List.mem_of_mem_take hrecord))
  constructor
  · exact fun hnil => recordSourceRefs_ne_nil record (List.map_eq_nil_iff.1 hnil)
  · intro ref href
    obtain ⟨raw, hraw, rfl⟩ := List.mem_map.1 href
    exact ⟨record, hlive.1, hlive.2, (recordId_of_mem_recordSourceRefs hraw).symm⟩

theorem Evidenced.merge {existing incoming : List SourceRef}
    (hexisting : existing = [] ∨ Evidenced db workspaceId existing)
    (hincoming : Evidenced db workspaceId incoming) :
    Evidenced db workspaceId (mergeSourceRefs existing incoming) := by
  refine ⟨mergeSourceRefs_ne_nil hincoming.1, fun ref href => ?_⟩
  rcases mem_mergeSourceRefs href with href | href
  · rcases hexisting with rfl | hexisting
    · cases href
    · exact hexisting.2 ref href
  · exact hincoming.2 ref href

variable {mode : MapMode} {limit : Nat} {person : PersonRow} {organization : OrganizationRow}

theorem mem_of_under {K X : Type} [DecidableEq K] {k : K} {x : X} {pairs : List (K × X)}
    (h : x ∈ Dict.under k pairs) : (k, x) ∈ pairs := by
  obtain ⟨p, hp, rfl⟩ := List.mem_map.1 h
  obtain ⟨hp, hk⟩ := List.mem_filter.1 hp
  exact of_decide_eq_true hk ▸ hp

theorem mem_externalPeople : (email, person) ∈ externalPeople rules internal messages ↔
    Dict.tally (newPerson rules) PersonRow.meet email
      (Dict.under email (personMeetings rules internal messages)) = some person :=
  Dict.mem_gather

theorem mem_candidateOrganizations :
    (domain, organization) ∈ candidateOrganizations rules internal messages ↔
      Dict.tally newOrganization OrganizationRow.meet domain
        (Dict.under domain (organizationMeetings rules internal messages)) = some organization :=
  Dict.mem_gather

/-- A row of the map is the same for everyone to whom its address is not internal. -/
theorem externalPeople_congr (h : email ∉ internal) (h' : email ∉ internal') :
    (email, person) ∈ externalPeople rules internal messages ↔
      (email, person) ∈ externalPeople rules internal' messages := by
  rw [mem_externalPeople, mem_externalPeople, personMeetings_under internal,
    personMeetings_under internal', if_neg h, if_neg h']

theorem externalPerson_unique {person' : PersonRow}
    (h : (email, person) ∈ externalPeople rules internal messages)
    (h' : (email, person') ∈ externalPeople rules internal messages) : person = person' :=
  Option.some.inj ((mem_externalPeople.1 h).symm.trans (mem_externalPeople.1 h'))

theorem candidateOrganization_unique {organization' : OrganizationRow}
    (h : (domain, organization) ∈ candidateOrganizations rules internal messages)
    (h' : (domain, organization') ∈ candidateOrganizations rules internal messages) :
    organization = organization' :=
  Option.some.inj ((mem_candidateOrganizations.1 h).symm.trans (mem_candidateOrganizations.1 h'))

theorem externalPerson_row (h : (email, person) ∈ externalPeople rules internal messages) :
    email ∉ internal ∧ person.email = email ∧ person.key = .externalPerson email ∧
      person.organizationKey = organizationKeyForEmail rules email := by
  have htally := mem_externalPeople.1 h
  refine ⟨fun hin => ?_, ?_⟩
  · rw [personMeetings_under, if_pos hin] at htally
    cases htally
  · exact Dict.tally_induct (P := fun row : PersonRow => row.email = email ∧
      row.key = .externalPerson email ∧ row.organizationKey = organizationKeyForEmail rules email)
      htally (fun _ _ => ⟨rfl, rfl, rfl⟩) (fun _ _ _ h => h)

theorem candidateOrganization_row
    (h : (domain, organization) ∈ candidateOrganizations rules internal messages) :
    organization.domain = domain ∧ organization.key = .organization domain :=
  Dict.tally_induct (P := fun row : OrganizationRow => row.domain = domain ∧
    row.key = .organization domain) (mem_candidateOrganizations.1 h) (fun _ _ => ⟨rfl, rfl⟩)
    (fun _ _ _ h => h)

theorem externalPerson_exists : (∃ person, (email, person) ∈ externalPeople rules internal messages) ↔
    email ∉ internal ∧ email ∈ messageParticipantEmails rules messages := by
  have hkeys : (∃ person, (email, person) ∈ externalPeople rules internal messages) ↔
      email ∈ (externalPeople rules internal messages).map (·.1) := by
    simp
  rw [hkeys, externalPeople, Dict.mem_keys_gather, mem_messageParticipantEmails, personMeetings,
    List.map_flatMap, List.mem_flatMap]
  simp only [List.map_map]
  constructor
  · rintro ⟨message, hmessage, hmem⟩
    obtain ⟨mailbox, hmailbox, rfl⟩ := List.mem_map.1 hmem
    obtain ⟨hout, hmem⟩ := mem_externalMailboxes_email.1 ⟨mailbox, hmailbox, rfl⟩
    exact ⟨hout, message, hmessage, hmem⟩
  · rintro ⟨hout, message, hmessage, hmem⟩
    obtain ⟨mailbox, hmailbox, rfl⟩ := mem_externalMailboxes_email.2 ⟨hout, hmem⟩
    exact ⟨message, hmessage, List.mem_map.2 ⟨mailbox, hmailbox, rfl⟩⟩

theorem candidateOrganization_exists :
    (∃ organization, (domain, organization) ∈ candidateOrganizations rules internal messages) ↔
      ∃ email, email ∉ internal ∧ email ∈ messageParticipantEmails rules messages ∧
        organizationDomain rules email = some domain := by
  have hrow : (∃ organization, (domain, organization) ∈
      candidateOrganizations rules internal messages) ↔
        Dict.under domain (organizationMeetings rules internal messages) ≠ [] := by
    simp only [mem_candidateOrganizations, ← Option.isSome_iff_exists, Dict.tally_isSome]
  rw [hrow, organizationMeetings_under, ne_eq, List.flatMap_eq_nil_iff, not_forall]
  simp only [mem_messageParticipantEmails]
  constructor
  · rintro ⟨message, hmessage⟩
    obtain ⟨hmessage, hmet⟩ := Classical.not_imp.1 hmessage
    have hne : outside rules internal domain message ≠ [] := fun hnil => hmet (if_pos hnil)
    obtain ⟨email, hemail⟩ := List.exists_mem_of_ne_nil _ hne
    obtain ⟨hout, hmem, hdomain⟩ := mem_outside.1 hemail
    exact ⟨email, hout, ⟨message, hmessage, hmem⟩, hdomain⟩
  · rintro ⟨email, hout, ⟨message, hmessage, hmem⟩, hdomain⟩
    refine ⟨message, Classical.not_imp.2 ⟨hmessage, ?_⟩⟩
    rw [if_neg (List.ne_nil_of_mem (mem_outside.2 ⟨hout, hmem, hdomain⟩))]
    exact List.cons_ne_nil _ _

/-- The set of people of a row is what its messages add. -/
theorem candidateOrganization_people
    (h : (domain, organization) ∈ candidateOrganizations rules internal messages) :
    organization.people.Nodup ∧ ∀ email, email ∈ organization.people ↔
      email ∉ internal ∧ email ∈ messageParticipantEmails rules messages ∧
        organizationDomain rules email = some domain := by
  have hunion : ∀ (xs : List (List Str × Message)) (row : OrganizationRow),
      Dict.tally newOrganization OrganizationRow.meet domain xs = some row →
      row.people.Nodup ∧ ∀ email, email ∈ row.people ↔ ∃ x ∈ xs, email ∈ x.1 := by
    intro xs
    induction xs using List.reverseRecOn with
    | nil =>
      intro row hrow
      cases hrow
    | append_singleton xs x ih =>
      intro row hrow
      rw [Dict.tally_concat] at hrow
      obtain rfl := Option.some.inj hrow
      refine ⟨List.nodup_dedup _, fun email => ?_⟩
      cases hxs : Dict.tally newOrganization OrganizationRow.meet domain xs with
      | none =>
        have hnil : xs = [] := by
          by_contra hne
          have hsome := (Dict.tally_isSome newOrganization OrganizationRow.meet domain).2 hne
          rw [hxs] at hsome
          cases hsome
        subst hnil
        simp [OrganizationRow.meet, newOrganization]
      | some before =>
        simp [OrganizationRow.meet, (ih before hxs).2 email, or_and_right, exists_or]
  obtain ⟨hnodup, hmem⟩ := hunion _ _ (mem_candidateOrganizations.1 h)
  refine ⟨hnodup, fun email => ?_⟩
  rw [hmem, organizationMeetings_under, mem_messageParticipantEmails]
  constructor
  · rintro ⟨x, hx, hemail⟩
    obtain ⟨message, hmessage, hx⟩ := List.mem_flatMap.1 hx
    split at hx
    · cases hx
    · obtain rfl := List.mem_singleton.1 hx
      obtain ⟨hout, hmem, hdomain⟩ := mem_outside.1 hemail
      exact ⟨hout, ⟨message, hmessage, hmem⟩, hdomain⟩
  · rintro ⟨hout, ⟨message, hmessage, hmem⟩, hdomain⟩
    have hemail := mem_outside.2 ⟨hout, hmem, hdomain⟩
    refine ⟨(outside rules internal domain message, message), ?_, hemail⟩
    refine List.mem_flatMap.2 ⟨message, hmessage, ?_⟩
    rw [if_neg (List.ne_nil_of_mem hemail)]
    exact List.mem_singleton_self _

theorem evidenced_person
    (hmessages : ∀ message ∈ messages, Evidenced db workspaceId message.sourceRefs)
    (h : (email, person) ∈ externalPeople rules internal messages) :
    Evidenced db workspaceId person.sourceRefs := by
  have hseen : ∀ x ∈ Dict.under email (personMeetings rules internal messages),
      Evidenced db workspaceId x.2.sourceRefs := by
    intro x hx
    obtain ⟨message, hmessage, hx⟩ := List.mem_flatMap.1 (mem_of_under hx)
    obtain ⟨mailbox, -, hpair⟩ := List.mem_map.1 hx
    obtain rfl := (Prod.mk.inj hpair).2
    exact hmessages message hmessage
  refine Dict.tally_induct (P := fun row : PersonRow => Evidenced db workspaceId row.sourceRefs)
    (mem_externalPeople.1 h) (fun x hx => ?_) (fun row x hx hrow => ?_)
  · exact Evidenced.merge (.inl rfl) (hseen x hx)
  · exact Evidenced.merge (.inr hrow) (hseen x hx)

theorem evidenced_organization
    (hmessages : ∀ message ∈ messages, Evidenced db workspaceId message.sourceRefs)
    (h : (domain, organization) ∈ candidateOrganizations rules internal messages) :
    Evidenced db workspaceId organization.sourceRefs := by
  have hseen : ∀ x ∈ Dict.under domain (organizationMeetings rules internal messages),
      Evidenced db workspaceId x.2.sourceRefs := by
    intro x hx
    obtain ⟨message, hmessage, hx⟩ := List.mem_flatMap.1 (mem_of_under hx)
    obtain ⟨_, -, hpair⟩ := List.mem_map.1 hx
    obtain rfl := (Prod.mk.inj hpair).2
    exact hmessages message hmessage
  refine Dict.tally_induct
    (P := fun row : OrganizationRow => Evidenced db workspaceId row.sourceRefs)
    (mem_candidateOrganizations.1 h) (fun x hx => ?_) (fun row x hx hrow => ?_)
  · exact Evidenced.merge (.inl rfl) (hseen x hx)
  · exact Evidenced.merge (.inr hrow) (hseen x hx)

/-- The candidates of a mode: the rows of its own internal people that it does not suppress. -/
structure Shown (rules : MailRules) (db : WorldRows) (workspaceId : Uuid) (mode : MapMode)
    (internal : List Str) (messages : List Message) (map : CompanyMap) : Prop where
  people : ∀ person version, (person, version) ∈ map.people ↔
    (person.email, person) ∈ externalPeople rules internal messages ∧
      version = personVersion db workspaceId person ∧
      (mode = .rebuilt ∨ isResolved db workspaceId .externalPerson person.key = false)
  organizations : ∀ organization version, (organization, version) ∈ map.organizations ↔
    (organization.domain, organization) ∈ candidateOrganizations rules internal messages ∧
      version = organizationVersion db workspaceId organization ∧
      (mode = .rebuilt ∨ isResolved db workspaceId .organization organization.key = false ∧
        isConfirmedOrganization db workspaceId organization.key = false)

theorem mem_values_externalPeople :
    person ∈ (externalPeople rules internal messages).map (·.2) ↔
      (person.email, person) ∈ externalPeople rules internal messages := by
  constructor
  · intro h
    obtain ⟨⟨email, row⟩, hentry, rfl⟩ := List.mem_map.1 h
    rwa [(externalPerson_row hentry).2.1]
  · exact fun h => List.mem_map_of_mem h

theorem mem_values_candidateOrganizations :
    organization ∈ (candidateOrganizations rules internal messages).map (·.2) ↔
      (organization.domain, organization) ∈ candidateOrganizations rules internal messages := by
  constructor
  · intro h
    obtain ⟨⟨domain, row⟩, hentry, rfl⟩ := List.mem_map.1 h
    rwa [(candidateOrganization_row hentry).1]
  · exact fun h => List.mem_map_of_mem h

/-- All that a mode digests and binds has a UTF-8 form. -/
structure Encodes (rules : MailRules) (mode : MapMode) (internal : List Str)
    (messages : List Message) : Prop where
  bound : mode = .rebuilt ∨ (messageParticipantEmails rules messages).all Str.encodable = true
  people : ∀ email person, (email, person) ∈ externalPeople rules internal messages →
    person.encodable = true
  organizations : ∀ domain organization,
    (domain, organization) ∈ candidateOrganizations rules internal messages →
      organization.encodable = true

theorem buildWorkspaceCompanyMap_isSome :
    (buildWorkspaceCompanyMap rules db workspaceId mode limit).isSome ↔
      Encodes rules mode
        (internalKeys rules db workspaceId mode (mapMessages db workspaceId mode limit))
        (mapMessages db workspaceId mode limit) := by
  rw [buildWorkspaceCompanyMap]
  split
  · rename_i h
    simp only [Bool.and_eq_true, Bool.or_eq_true, List.all_eq_true, List.mem_mergeSort,
      decide_eq_true_eq] at h
    refine ⟨fun _ => ⟨?_, fun email person hrow => ?_, fun domain organization hrow => ?_⟩,
      fun _ => rfl⟩
    · simpa only [List.all_eq_true] using h.1.1
    · exact h.1.2 person (List.mem_map_of_mem hrow)
    · exact h.2 organization (List.mem_map_of_mem hrow)
  · rename_i h
    refine ⟨fun hnone => absurd hnone Bool.false_ne_true, fun hencodes => absurd ?_ h⟩
    simp only [Bool.and_eq_true, Bool.or_eq_true, List.all_eq_true, List.mem_mergeSort,
      decide_eq_true_eq]
    refine ⟨⟨?_, fun person hrow => ?_⟩, fun organization hrow => ?_⟩
    · simpa only [List.all_eq_true] using hencodes.bound
    · exact hencodes.people _ _ (mem_values_externalPeople.1 hrow)
    · exact hencodes.organizations _ _ (mem_values_candidateOrganizations.1 hrow)

theorem shown_of_build {map : CompanyMap}
    (h : buildWorkspaceCompanyMap rules db workspaceId mode limit = some map) :
    Shown rules db workspaceId mode
      (internalKeys rules db workspaceId mode (mapMessages db workspaceId mode limit))
      (mapMessages db workspaceId mode limit) map := by
  rw [buildWorkspaceCompanyMap] at h
  split at h
  · obtain rfl := Option.some.inj h
    constructor
    · intro person version
      rw [List.mem_map]
      constructor
      · rintro ⟨row, hrow, hpair⟩
        obtain ⟨rfl, rfl⟩ := Prod.mk.inj hpair
        obtain ⟨hrow, hopen⟩ := List.mem_filter.1 hrow
        exact ⟨mem_values_externalPeople.1 (List.mem_mergeSort.1 hrow), rfl, by simpa using hopen⟩
      · rintro ⟨hrow, rfl, hopen⟩
        refine ⟨person, List.mem_filter.2 ⟨?_, by simpa using hopen⟩, rfl⟩
        exact List.mem_mergeSort.2 (mem_values_externalPeople.2 hrow)
    · intro organization version
      rw [List.mem_map]
      constructor
      · rintro ⟨row, hrow, hpair⟩
        obtain ⟨rfl, rfl⟩ := Prod.mk.inj hpair
        obtain ⟨hrow, hopen⟩ := List.mem_filter.1 hrow
        exact ⟨mem_values_candidateOrganizations.1 (List.mem_mergeSort.1 hrow), rfl,
          by simpa using hopen⟩
      · rintro ⟨hrow, rfl, hopen⟩
        refine ⟨organization, List.mem_filter.2 ⟨?_, by simpa using hopen⟩, rfl⟩
        exact List.mem_mergeSort.2 (mem_values_candidateOrganizations.2 hrow)
  · cases h

theorem nodup_emails : (((externalPeople rules internal messages).map (·.2)).map
    (·.email)).Nodup := by
  rw [List.map_map]
  have hkeys : (externalPeople rules internal messages).map ((·.email) ∘ (·.2)) =
      (externalPeople rules internal messages).map (·.1) :=
    List.map_congr_left fun entry hentry => (externalPerson_row hentry).2.1
  exact hkeys ▸ Dict.nodup_keys_gather

theorem nodup_domains : (((candidateOrganizations rules internal messages).map (·.2)).map
    (·.domain)).Nodup := by
  rw [List.map_map]
  have hkeys : (candidateOrganizations rules internal messages).map ((·.domain) ∘ (·.2)) =
      (candidateOrganizations rules internal messages).map (·.1) :=
    List.map_congr_left fun entry hentry => (candidateOrganization_row hentry).1
  exact hkeys ▸ Dict.nodup_keys_gather

theorem nodup_of_build {map : CompanyMap}
    (h : buildWorkspaceCompanyMap rules db workspaceId mode limit = some map) :
    (map.people.map (·.1.email)).Nodup ∧ (map.organizations.map (·.1.domain)).Nodup := by
  rw [buildWorkspaceCompanyMap] at h
  split at h
  · obtain rfl := Option.some.inj h
    rw [List.map_map, List.map_map]
    constructor
    · refine List.Nodup.sublist (List.filter_sublist.map _) ?_
      exact ((List.mergeSort_perm _ _).map _).nodup_iff.2 nodup_emails
    · refine List.Nodup.sublist (List.filter_sublist.map _) ?_
      exact ((List.mergeSort_perm _ _).map _).nodup_iff.2 nodup_domains
  · cases h

end FounderOs.Headquarters
