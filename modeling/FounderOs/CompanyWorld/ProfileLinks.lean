import FounderOs.CompanyWorld.ExactlyOnce
import FounderOs.Foundation.FormUrl

namespace FounderOs.CompanyWorld

open Execution (UserId)
open Headquarters

/-- UTF-8 as the browser has it, of which only this is used. -/
structure Encoding where
  encode : Str → List Nat
  decode : List Nat → Str
  encode_ascii : ∀ text, (∀ c ∈ text, c < 128) → encode text = text
  decode_ascii : ∀ bytes, (∀ b ∈ bytes, b < 128) → decode bytes = bytes

structure MemberProfile where
  key : Str
  userId : Str
  deriving DecidableEq

structure PersonProfile where
  key : Str
  personId : Str
  deriving DecidableEq

structure CandidateProfile where
  key : Str
  candidateVersion : Str
  deriving DecidableEq

structure OrganizationProfile where
  key : Str
  organizationId : Str
  deriving DecidableEq

/-- What the profile links read of the response. -/
structure CompanyMapResponse where
  companyKey : Str
  internal : List MemberProfile
  externalCandidates : List CandidateProfile
  confirmedExternal : List PersonProfile
  organizations : List CandidateProfile
  confirmedOrganizations : List OrganizationProfile
  deriving DecidableEq

section page

variable (data : CompanyMapResponse)

def maxProfileSelectorLength : Nat := 512

def profileSelectorForKey (selectedKey : Str) : Option Str :=
  if selectedKey = data.companyKey then some (Str.of "v1:company")
  else
    ((data.internal.find? (·.key = selectedKey)).map fun member =>
      Str.of "v1:member:" ++ member.userId).or <|
    ((data.confirmedExternal.find? (·.key = selectedKey)).map fun person =>
      Str.of "v1:person:" ++ person.personId).or <|
    ((data.externalCandidates.find? (·.key = selectedKey)).map fun person =>
      Str.of "v1:person-candidate:" ++ person.candidateVersion).or <|
    ((data.confirmedOrganizations.find? (·.key = selectedKey)).map fun organization =>
      Str.of "v1:organization:" ++ organization.organizationId).or <|
    (data.organizations.find? (·.key = selectedKey)).map fun organization =>
      Str.of "v1:organization-candidate:" ++ organization.candidateVersion

def hasControlCharacter (value : Str) : Bool := value.any fun c => c ≤ 31 || c = 127

def normalizeCompanyWorldProfileSelector (selector : Option Str) : Option Str :=
  selector.filter fun text =>
    text ≠ [] && text.length ≤ maxProfileSelectorLength && !hasControlCharacter text

/-- The keys in the order in which a selector is looked for. -/
def profileKeys : List Str :=
  data.companyKey :: (data.internal.map (·.key) ++ data.confirmedExternal.map (·.key) ++
    data.externalCandidates.map (·.key) ++ data.confirmedOrganizations.map (·.key) ++
      data.organizations.map (·.key))

def resolveCompanyWorldProfileSelector (selector : Option Str) : Option Str :=
  (normalizeCompanyWorldProfileSelector selector).bind fun text =>
    (profileKeys data).find? fun key => profileSelectorForKey data key = some text

inductive ProfileRequestResolution where
  | default (selectedKey : Str)
  | resolved (selectedKey : Str)
  | unavailable
  deriving DecidableEq

def resolveCompanyWorldProfileRequest (selector : Option Str) (requested : Bool) :
    ProfileRequestResolution :=
  if !requested then .default data.companyKey
  else if selector = none then .unavailable
  else
    match (resolveCompanyWorldProfileSelector data selector).filter (· ≠ []) with
    | some key => .resolved key
    | none => .unavailable

structure ProfileTarget where
  href : Str
  selectedKey : Str
  selector : Str

variable (enc : Encoding)

def profileHref (selector : Str) : Str :=
  Str.of "/company-brain" ++ 63 ::
    (FormUrl.serialize [(enc.encode (Str.of "profile"), enc.encode selector)] ++
      35 :: Str.of "company-world-profile")

def buildCompanyWorldProfileTarget (selectedKey : Str) : Option ProfileTarget :=
  ((profileSelectorForKey data selectedKey).filter (· ≠ [])).map fun selector =>
    { href := profileHref enc selector
      selectedKey := selectedKey
      selector := selector }

/-- The query of a link, with the question mark. -/
def queryOf (href : Str) : Str := (href.dropWhile (· ≠ 63)).takeWhile (· ≠ 35)

def readCompanyWorldProfileSelector (search : Str) : Option Str :=
  let query := if search.head? = some 63 then search.drop 1 else search
  let named := (FormUrl.parse (enc.encode query)).find? fun pair =>
    enc.decode pair.1 = Str.of "profile"
  normalizeCompanyWorldProfileSelector (named.map fun pair => enc.decode pair.2)

/-- What the page shows for a link. -/
def openProfileLink (href : Str) : ProfileRequestResolution :=
  let selector := readCompanyWorldProfileSelector enc (queryOf href)
  resolveCompanyWorldProfileRequest data selector selector.isSome

end page

/-- The ids of users, and digests. -/
structure ProfileRules where
  userUuid : UserId → Uuid
  /-- The first 20 digits of the SHA-256 of an address. -/
  personDigest : Str → Str
  /-- The SHA-256 of a version, in hexadecimal. -/
  versionDigest : CandidateVersion → Str
  versionDigest_length : ∀ version, (versionDigest version).length = 64
  versionDigest_hex : ∀ version, ∀ c ∈ versionDigest version,
    (48 ≤ c ∧ c ≤ 57) ∨ (97 ≤ c ∧ c ≤ 102)

/-- The rows of a company map, with what stands behind each profile. -/
structure ServedMap where
  workspaceId : Uuid
  members : List UserId
  people : List Uuid
  candidates : List (PersonRow × CandidateVersion)
  organizations : List Uuid
  organizationCandidates : List (OrganizationRow × CandidateVersion)

section serve

variable (mail : MailRules) (workspaceId : Uuid) (db : WorldTables) (rows : SourceRows)

def confirmedPeople : List Person :=
  db.people.filter fun person => person.status = .active &&
    person.origin = .founderConfirmation && person.userId.isNone

/-- `confirmed_person_candidate_keys`; of the resolutions of a person the last one counts. -/
def confirmedPersonCandidateKeys : List CandidateKey :=
  (confirmedPeople db).filterMap fun person =>
    ((db.resolutions.filter fun r => r.resultPersonId = some person.id).getLast?).map
      (·.candidateKey)

/-- `build_workspace_company_map` with the durable rows, as the page shows it; the order of the
confirmed rows is left out. -/
def serveCompanyMap (limit : Nat) : Option ServedMap :=
  let world := worldRows workspaceId db rows
  (buildWorkspaceCompanyMap mail world workspaceId .rebuilt limit).map fun map =>
    { workspaceId := workspaceId
      members := (rows.members.filter (·.workspaceId = workspaceId)).map (·.userId)
      people := (confirmedPeople db).map (·.id)
      candidates := map.people.filter fun entry =>
        !isResolved world workspaceId .externalPerson entry.1.key &&
          !(confirmedPersonCandidateKeys db).contains entry.1.key
      organizations := (db.organizations.filter (·.status = .active)).map (·.id)
      organizationCandidates := map.organizations.filter fun entry =>
        !(isResolved world workspaceId .organization entry.1.key ||
          isConfirmedOrganization world workspaceId entry.1.key) }

end serve

/-- What a profile is about. -/
inductive Subject where
  | company
  | member (userId : Uuid)
  | person (id : Uuid)
  | personCandidate (version : CandidateVersion)
  | organization (id : Uuid)
  | organizationCandidate (version : CandidateVersion)
  deriving DecidableEq

section subjects

variable (rules : ProfileRules) (workspaceId : Uuid)

def candidateKeyText : CandidateKey → Str
  | .externalPerson email => Str.of "external-person:" ++ rules.personDigest email
  | .organization domain => Str.of "organization:" ++ domain
  | .other text => text

def ServedMap.response (map : ServedMap) : CompanyMapResponse where
  companyKey := Str.of "workspace:" ++ map.workspaceId.text
  internal := map.members.map fun user =>
    ⟨Str.of "user:" ++ (rules.userUuid user).text, (rules.userUuid user).text⟩
  externalCandidates := map.candidates.map fun entry =>
    ⟨candidateKeyText rules entry.1.key, rules.versionDigest entry.2⟩
  confirmedExternal := map.people.map fun id => ⟨Str.of "person:" ++ id.text, id.text⟩
  organizations := map.organizationCandidates.map fun entry =>
    ⟨candidateKeyText rules entry.1.key, rules.versionDigest entry.2⟩
  confirmedOrganizations := map.organizations.map fun id =>
    ⟨Str.of "organization:" ++ id.text, id.text⟩

/-- The profiles of a map by their keys, in the order in which a key is looked for. -/
def ServedMap.profiles (map : ServedMap) : List (Str × Subject) :=
  (Str.of "workspace:" ++ map.workspaceId.text, .company) ::
    (map.members.map (fun user =>
        (Str.of "user:" ++ (rules.userUuid user).text, Subject.member (rules.userUuid user))) ++
      map.people.map (fun id => (Str.of "person:" ++ id.text, Subject.person id)) ++
      map.candidates.map (fun entry =>
        (candidateKeyText rules entry.1.key, Subject.personCandidate entry.2)) ++
      map.organizations.map (fun id =>
        (Str.of "organization:" ++ id.text, Subject.organization id)) ++
      map.organizationCandidates.map fun entry =>
        (candidateKeyText rules entry.1.key, Subject.organizationCandidate entry.2))

/-- The subject of the profile that the page shows for a key. -/
def ServedMap.subjectAt (map : ServedMap) (key : Str) : Option Subject :=
  ((map.profiles rules).find? (·.1 = key)).map (·.2)

def selectorOf : Subject → Str
  | .company => Str.of "v1:company"
  | .member userId => Str.of "v1:member:" ++ userId.text
  | .person id => Str.of "v1:person:" ++ id.text
  | .personCandidate version => Str.of "v1:person-candidate:" ++ rules.versionDigest version
  | .organization id => Str.of "v1:organization:" ++ id.text
  | .organizationCandidate version =>
    Str.of "v1:organization-candidate:" ++ rules.versionDigest version

/-- The key under which a map of the workspace has a subject. -/
def keyOf : Subject → Str
  | .company => Str.of "workspace:" ++ workspaceId.text
  | .member userId => Str.of "user:" ++ userId.text
  | .person id => Str.of "person:" ++ id.text
  | .organization id => Str.of "organization:" ++ id.text
  | .personCandidate version | .organizationCandidate version =>
    candidateKeyText rules version.key

def ServedMap.versions (map : ServedMap) : List CandidateVersion :=
  map.candidates.map (·.2) ++ map.organizationCandidates.map (·.2)

end subjects

section lookup

variable {rules : ProfileRules} {map : ServedMap} {key text : Str} {subject : Subject}

theorem profileKeys_response :
    profileKeys (map.response rules) = (map.profiles rules).map (·.1) := by
  simp only [profileKeys, ServedMap.response, ServedMap.profiles, List.map_cons, List.map_append,
    List.map_map]
  rfl

theorem selectorFor_response :
    profileSelectorForKey (map.response rules) key =
      (map.subjectAt rules key).map (selectorOf rules) := by
  by_cases hcompany : key = Str.of "workspace:" ++ map.workspaceId.text
  · subst hcompany
    simp [profileSelectorForKey, ServedMap.response, ServedMap.subjectAt, ServedMap.profiles,
      selectorOf]
  · have hfirst : decide (Str.of "workspace:" ++ map.workspaceId.text = key) = false :=
      decide_eq_false fun h => hcompany h.symm
    have hnone : ¬key = (map.response rules).companyKey := hcompany
    rw [profileSelectorForKey, if_neg hnone, ServedMap.subjectAt, ServedMap.profiles,
      List.find?_cons]
    simp only [hfirst, ServedMap.response, List.find?_append, List.find?_map, Option.map_or,
      Option.map_map, Option.or_assoc]
    rfl

theorem mem_profiles_of_subjectAt (h : map.subjectAt rules key = some subject) :
    (key, subject) ∈ map.profiles rules := by
  obtain ⟨⟨found, _⟩, hfound, rfl⟩ := Option.map_eq_some_iff.1 h
  have hkey := List.find?_some hfound
  obtain rfl : found = key := of_decide_eq_true hkey
  exact List.mem_of_find?_eq_some hfound

theorem subjectAt_isSome (h : key ∈ (map.profiles rules).map (·.1)) :
    ∃ subject, map.subjectAt rules key = some subject := by
  obtain ⟨entry, hentry, rfl⟩ := List.mem_map.1 h
  have hfound : ((map.profiles rules).find? (·.1 = entry.1)).isSome = true :=
    List.find?_isSome.2 ⟨entry, hentry, decide_eq_true rfl⟩
  obtain ⟨found, hfound⟩ := Option.isSome_iff_exists.1 hfound
  exact ⟨found.2, by rw [ServedMap.subjectAt, hfound]; rfl⟩

end lookup

section served

variable {rules : ProfileRules} {mail : MailRules} {workspaceId : Uuid} {db : WorldTables}
  {rows : SourceRows} {limit : Nat} {map : ServedMap} {key : Str} {subject : Subject}

/-- A candidate's version has its key, which names its address or its domain. -/
theorem candidate_keys (h : serveCompanyMap mail workspaceId db rows limit = some map) :
    (∀ entry ∈ map.candidates,
      entry.1.key = .externalPerson entry.1.email ∧ entry.2.key = entry.1.key) ∧
      ∀ entry ∈ map.organizationCandidates,
        entry.1.key = .organization entry.1.domain ∧ entry.2.key = entry.1.key := by
  obtain ⟨built, hbuilt, rfl⟩ := Option.map_eq_some_iff.1 h
  have hshown := shown_of_build hbuilt
  constructor
  · intro entry hentry
    obtain ⟨hrow, hversion, -⟩ := (hshown.people _ _).1 (List.mem_filter.1 hentry).1
    exact ⟨(externalPerson_row hrow).2.2.1, hversion ▸ rfl⟩
  · intro entry hentry
    obtain ⟨hrow, hversion, -⟩ := (hshown.organizations _ _).1 (List.mem_filter.1 hentry).1
    exact ⟨(candidateOrganization_row hrow).2, hversion ▸ rfl⟩

theorem workspace_of_served (h : serveCompanyMap mail workspaceId db rows limit = some map) :
    map.workspaceId = workspaceId := by
  obtain ⟨built, -, rfl⟩ := Option.map_eq_some_iff.1 h
  rfl

/-- One subject has one key, in every map of the workspace. -/
theorem key_of_mem (h : serveCompanyMap mail workspaceId db rows limit = some map)
    (hmem : (key, subject) ∈ map.profiles rules) : key = keyOf rules workspaceId subject := by
  obtain ⟨hperson, horganization⟩ := candidate_keys h
  have hworkspace := workspace_of_served h
  simp only [ServedMap.profiles, List.mem_cons, List.mem_append, List.mem_map,
    Prod.mk.injEq] at hmem
  rcases hmem with ⟨rfl, rfl⟩ | (((⟨user, -, rfl, rfl⟩ | ⟨id, -, rfl, rfl⟩) |
    ⟨entry, hentry, rfl, rfl⟩) | ⟨id, -, rfl, rfl⟩) | ⟨entry, hentry, rfl, rfl⟩
  · rw [hworkspace]
    rfl
  · rfl
  · rfl
  · rw [keyOf, (hperson entry hentry).2]
  · rfl
  · rw [keyOf, (horganization entry hentry).2]

theorem key_ne_nil (h : serveCompanyMap mail workspaceId db rows limit = some map)
    (hmem : (key, subject) ∈ map.profiles rules) : key ≠ [] := by
  obtain ⟨hperson, horganization⟩ := candidate_keys h
  have hlead : ∀ {lead tail : Str}, lead ≠ [] → lead ++ tail ≠ [] :=
    fun h => List.append_ne_nil_of_left_ne_nil h _
  simp only [ServedMap.profiles, List.mem_cons, List.mem_append, List.mem_map,
    Prod.mk.injEq] at hmem
  rcases hmem with ⟨rfl, -⟩ | (((⟨user, -, rfl, -⟩ | ⟨id, -, rfl, -⟩) |
    ⟨entry, hentry, rfl, -⟩) | ⟨id, -, rfl, -⟩) | ⟨entry, hentry, rfl, -⟩
  · exact hlead (List.cons_ne_nil _ _)
  · exact hlead (List.cons_ne_nil _ _)
  · exact hlead (List.cons_ne_nil _ _)
  · rw [(hperson entry hentry).1]
    exact hlead (List.cons_ne_nil _ _)
  · exact hlead (List.cons_ne_nil _ _)
  · rw [(horganization entry hentry).1]
    exact hlead (List.cons_ne_nil _ _)

theorem version_of_mem (hmem : (key, subject) ∈ map.profiles rules) {version : CandidateVersion}
    (h : subject = .personCandidate version ∨ subject = .organizationCandidate version) :
    version ∈ map.versions := by
  simp only [ServedMap.profiles, List.mem_cons, List.mem_append, List.mem_map,
    Prod.mk.injEq] at hmem
  rw [ServedMap.versions, List.mem_append]
  rcases hmem with ⟨-, rfl⟩ | (((⟨user, -, -, rfl⟩ | ⟨id, -, -, rfl⟩) |
    ⟨entry, hentry, -, rfl⟩) | ⟨id, -, -, rfl⟩) | ⟨entry, hentry, -, rfl⟩
  · rcases h with h | h <;> cases h
  · rcases h with h | h <;> cases h
  · rcases h with h | h <;> cases h
  · rcases h with h | h
    · cases h
      exact .inl (List.mem_map_of_mem hentry)
    · cases h
  · rcases h with h | h <;> cases h
  · rcases h with h | h
    · cases h
    · cases h
      exact .inr (List.mem_map_of_mem hentry)

end served

section selectors

variable {rules : ProfileRules} {subject other : Subject}

/-- Which kind of profile a selector names, read off its letters. -/
def selectorKind (text : Str) : Nat :=
  if text[3]? = some 99 then 0
  else if text[3]? = some 109 then 1
  else if text[3]? = some 112 then if text[9]? = some 58 then 2 else 3
  else if text[15]? = some 58 then 4 else 5

def Subject.kind : Subject → Nat
  | .company => 0
  | .member _ => 1
  | .person _ => 2
  | .personCandidate _ => 3
  | .organization _ => 4
  | .organizationCandidate _ => 5

theorem selectorKind_selectorOf (rules : ProfileRules) (subject : Subject) :
    selectorKind (selectorOf rules subject) = subject.kind := by
  cases subject <;> rfl

theorem uuid_ext {id other : Uuid} (h : id.text = other.text) : id = other := by
  cases id
  cases other
  cases h
  rfl

theorem selectorOf_inj (h : selectorOf rules subject = selectorOf rules other)
    (hfree : ∀ version version',
      (subject = .personCandidate version ∨ subject = .organizationCandidate version) →
        (other = .personCandidate version' ∨ other = .organizationCandidate version') →
          rules.versionDigest version = rules.versionDigest version' → version = version') :
    subject = other := by
  have hkind : subject.kind = other.kind := by
    rw [← selectorKind_selectorOf rules subject, h, selectorKind_selectorOf]
  cases subject with
  | company => cases other <;> first | rfl | cases hkind
  | member userId =>
    cases other with
    | member userId' => rw [uuid_ext (List.append_cancel_left h)]
    | _ => cases hkind
  | person id =>
    cases other with
    | person id' => rw [uuid_ext (List.append_cancel_left h)]
    | _ => cases hkind
  | personCandidate version =>
    cases other with
    | personCandidate version' =>
      rw [hfree version version' (.inl rfl) (.inl rfl) (List.append_cancel_left h)]
    | _ => cases hkind
  | organization id =>
    cases other with
    | organization id' => rw [uuid_ext (List.append_cancel_left h)]
    | _ => cases hkind
  | organizationCandidate version =>
    cases other with
    | organizationCandidate version' =>
      rw [hfree version version' (.inr rfl) (.inr rfl) (List.append_cancel_left h)]
    | _ => cases hkind

/-- What the selectors begin with. -/
def selectorLeads : List Str :=
  ["v1:company", "v1:member:", "v1:person:", "v1:person-candidate:", "v1:organization:",
    "v1:organization-candidate:"].map Str.of

theorem selectorLeads_plain : ∀ lead ∈ selectorLeads,
    lead.length ≤ 40 ∧ lead ≠ [] ∧ ∀ c ∈ lead, 32 < c ∧ c < 127 := by
  decide +kernel

/-- A selector as it can stand in a query: short, and of graphic ASCII characters. -/
structure PlainSelector (text : Str) : Prop where
  length_le : text.length ≤ maxProfileSelectorLength
  ne_nil : text ≠ []
  graphic : ∀ c ∈ text, 32 < c ∧ c < 127

theorem plain_append {lead tail : Str} (hlead : lead ∈ selectorLeads) (htail : tail.length ≤ 64)
    (hgraphic : ∀ c ∈ tail, 32 < c ∧ c < 127) : PlainSelector (lead ++ tail) := by
  obtain ⟨hlength, hne, hplain⟩ := selectorLeads_plain lead hlead
  refine ⟨?_, by simp [hne], fun c hc => (List.mem_append.1 hc).elim (hplain c) (hgraphic c)⟩
  rw [List.length_append, maxProfileSelectorLength]
  omega

theorem plain_selectorOf (rules : ProfileRules) (subject : Subject) :
    PlainSelector (selectorOf rules subject) := by
  have huuid : ∀ {lead : Str} (id : Uuid), lead ∈ selectorLeads → PlainSelector (lead ++ id.text) :=
    fun id hlead => plain_append hlead (Nat.le_trans (Nat.le_of_eq (uuid_length id)) (by omega))
      (uuid_graphic id)
  have hversion : ∀ {lead : Str} (version : CandidateVersion), lead ∈ selectorLeads →
      PlainSelector (lead ++ rules.versionDigest version) := by
    intro lead version hlead
    refine plain_append hlead (Nat.le_of_eq (rules.versionDigest_length version)) fun c hc => ?_
    have hrange := rules.versionDigest_hex version c hc
    omega
  cases subject with
  | company =>
    have hlead : Str.of "v1:company" ∈ selectorLeads := List.mem_of_elem_eq_true rfl
    obtain ⟨hlength, hne, hgraphic⟩ := selectorLeads_plain _ hlead
    exact ⟨Nat.le_trans hlength (by decide), hne, hgraphic⟩
  | member userId => exact huuid userId (List.mem_of_elem_eq_true rfl)
  | person id => exact huuid id (List.mem_of_elem_eq_true rfl)
  | personCandidate version => exact hversion version (List.mem_of_elem_eq_true rfl)
  | organization id => exact huuid id (List.mem_of_elem_eq_true rfl)
  | organizationCandidate version => exact hversion version (List.mem_of_elem_eq_true rfl)

theorem normalize_plain {text : Str} (h : PlainSelector text) :
    normalizeCompanyWorldProfileSelector (some text) = some text := by
  have hcontrol : hasControlCharacter text = false := by
    refine List.any_eq_false.2 fun c hc => ?_
    have hrange := h.graphic c hc
    simp only [Bool.or_eq_true, decide_eq_true_eq]
    omega
  simp [normalizeCompanyWorldProfileSelector, Option.filter_some, h.ne_nil, h.length_le, hcontrol]

/-- A selector that is written to the query of a link is read back from it. -/
theorem read_written (enc : Encoding) {text : Str} (h : PlainSelector text) :
    readCompanyWorldProfileSelector enc (queryOf (profileHref enc text)) = some text := by
  have htext : enc.encode text = text :=
    enc.encode_ascii text fun c hc => by
      have hrange := h.graphic c hc
      omega
  have hname : ∀ c ∈ Str.of "profile", c < 128 := by decide +kernel
  have hparam : enc.encode (Str.of "profile") = Str.of "profile" := enc.encode_ascii _ hname
  have hbytes : ∀ pair ∈ [(Str.of "profile", text)], FormUrl.Pair.Bytes pair := by
    intro pair hpair
    obtain rfl := List.mem_singleton.1 hpair
    refine ⟨fun c hc => ?_, fun c hc => ?_⟩
    · have hrange := hname c hc
      omega
    · have hrange := h.graphic c hc
      omega
  have hquery : ∀ c ∈ FormUrl.serialize [(Str.of "profile", text)], 37 ≤ c ∧ c ≤ 122 :=
    fun c hc => FormUrl.mem_serialize hbytes hc
  have hpath : ∀ c ∈ Str.of "/company-brain", decide (c ≠ 63) = true := by decide +kernel
  have hkept : ∀ c ∈ FormUrl.serialize [(Str.of "profile", text)], decide (c ≠ 35) = true := by
    intro c hc
    have hrange := hquery c hc
    exact decide_eq_true (by omega)
  have hsearch : queryOf (Str.of "/company-brain" ++ 63 ::
      (FormUrl.serialize [(Str.of "profile", text)] ++ 35 :: Str.of "company-world-profile")) =
        63 :: FormUrl.serialize [(Str.of "profile", text)] := by
    rw [queryOf, List.dropWhile_append_of_pos hpath, List.dropWhile_cons_of_neg (by simp),
      List.takeWhile_cons_of_pos (by simp), List.takeWhile_append_of_pos hkept,
      List.takeWhile_cons_of_neg (by simp), List.append_nil]
  have hencoded : enc.encode (FormUrl.serialize [(Str.of "profile", text)]) =
      FormUrl.serialize [(Str.of "profile", text)] :=
    enc.encode_ascii _ fun c hc => by
      have hrange := hquery c hc
      omega
  have hdecoded : enc.decode text = text :=
    enc.decode_ascii text fun c hc => by
      have hrange := h.graphic c hc
      omega
  rw [profileHref, htext, hparam, hsearch, readCompanyWorldProfileSelector]
  simp only [List.head?_cons, if_pos, List.drop_one, List.tail_cons, hencoded,
    FormUrl.parse_serialize hbytes, List.find?_cons, enc.decode_ascii _ hname, decide_true,
    Option.map_some, hdecoded]
  exact normalize_plain h

end selectors

section roundTrip

variable {rules : ProfileRules} {mail : MailRules} {workspaceId : Uuid} {db : WorldTables}
  {rows : SourceRows} {limit : Nat} {map : ServedMap} {key : Str} {subject : Subject}

/-- A selector is resolved to the profile of its subject, in the maps that have it. -/
theorem resolve_selectorOf (h : serveCompanyMap mail workspaceId db rows limit = some map)
    (hinj : ∀ key' other, (key', other) ∈ map.profiles rules →
      selectorOf rules subject = selectorOf rules other → subject = other) :
    resolveCompanyWorldProfileRequest (map.response rules) (some (selectorOf rules subject)) true =
      if map.subjectAt rules (keyOf rules workspaceId subject) = some subject then
        .resolved (keyOf rules workspaceId subject)
      else .unavailable := by
  have hnormal := normalize_plain (plain_selectorOf rules subject)
  rw [resolveCompanyWorldProfileRequest, resolveCompanyWorldProfileSelector, hnormal,
    Option.bind_some, profileKeys_response]
  cases hfound : ((map.profiles rules).map (·.1)).find? fun key' =>
      profileSelectorForKey (map.response rules) key' = some (selectorOf rules subject) with
  | none =>
    have hmissing : map.subjectAt rules (keyOf rules workspaceId subject) ≠ some subject := by
      intro hat
      refine absurd ?_ (List.find?_eq_none.1 hfound (keyOf rules workspaceId subject)
        (List.mem_map_of_mem (mem_profiles_of_subjectAt hat)))
      rw [selectorFor_response, hat]
      exact decide_eq_true rfl
    rw [if_neg hmissing]
    rfl
  | some found =>
    have hselector : profileSelectorForKey (map.response rules) found =
        some (selectorOf rules subject) := by
      simpa using List.find?_some hfound
    rw [selectorFor_response] at hselector
    obtain ⟨other, hother, hsame⟩ := Option.map_eq_some_iff.1 hselector
    have hmem := mem_profiles_of_subjectAt hother
    obtain rfl := hinj found other hmem hsame.symm
    obtain rfl := key_of_mem h hmem
    rw [if_pos hother, Option.filter_some, if_pos (decide_eq_true (key_ne_nil h hmem))]
    rfl

theorem profileTarget_of_subject (enc : Encoding) (hat : map.subjectAt rules key = some subject) :
    ∃ target, buildCompanyWorldProfileTarget (map.response rules) enc key = some target ∧
      readCompanyWorldProfileSelector enc (queryOf target.href) =
        some (selectorOf rules subject) := by
  have hplain := plain_selectorOf rules subject
  refine ⟨⟨profileHref enc (selectorOf rules subject), key, selectorOf rules subject⟩, ?_,
    read_written enc hplain⟩
  rw [buildCompanyWorldProfileTarget, selectorFor_response, hat, Option.map_some,
    Option.filter_some, if_pos (decide_eq_true hplain.ne_nil), Option.map_some]

variable {db' : WorldTables} {rows' : SourceRows} {limit' : Nat} {map' : ServedMap}

/-- Every profile has a link, and the link opens it. In another map of the workspace it opens the
profile of the same subject, or none. -/
theorem profileLink_roundTrip (rules : ProfileRules) (enc : Encoding)
    (h : serveCompanyMap mail workspaceId db rows limit = some map)
    (h' : serveCompanyMap mail workspaceId db' rows' limit' = some map')
    (hfree : ∀ version ∈ map.versions ++ map'.versions,
      ∀ version' ∈ map.versions ++ map'.versions,
        rules.versionDigest version = rules.versionDigest version' → version = version')
    (hkey : key ∈ profileKeys (map.response rules)) :
    ∃ target subject,
      buildCompanyWorldProfileTarget (map.response rules) enc key = some target ∧
      map.subjectAt rules key = some subject ∧
      openProfileLink (map.response rules) enc target.href = .resolved key ∧
      (openProfileLink (map'.response rules) enc target.href = .unavailable ∨
        openProfileLink (map'.response rules) enc target.href = .resolved key ∧
          map'.subjectAt rules key = some subject) ∧
      (subject ≠ .company → openProfileLink (map'.response rules) enc target.href ≠
        .resolved (map'.response rules).companyKey) := by
  rw [profileKeys_response] at hkey
  obtain ⟨subject, hat⟩ := subjectAt_isSome hkey
  obtain ⟨target, htarget, hread⟩ := profileTarget_of_subject enc hat
  have hmem := mem_profiles_of_subjectAt hat
  obtain rfl := key_of_mem h hmem
  -- What a selector says tells every subject of the two maps from this one.
  have hinj : ∀ {shown : ServedMap}, (∀ version ∈ shown.versions,
      version ∈ map.versions ++ map'.versions) → ∀ key' other,
        (key', other) ∈ shown.profiles rules →
          selectorOf rules subject = selectorOf rules other → subject = other := by
    intro shown hversions key' other hother hsame
    exact selectorOf_inj hsame fun version version' hleft hright =>
      hfree version (List.mem_append_left _ (version_of_mem hmem hleft)) version'
        (hversions version' (version_of_mem hother hright))
  have hopen : ∀ data : CompanyMapResponse, openProfileLink data enc target.href =
      resolveCompanyWorldProfileRequest data (some (selectorOf rules subject)) true := by
    intro data
    rw [openProfileLink, hread]
    rfl
  have hsame := resolve_selectorOf h (hinj fun version => List.mem_append_left _)
  have hother := resolve_selectorOf h' (hinj fun version => List.mem_append_right _)
  rw [if_pos hat] at hsame
  refine ⟨target, subject, htarget, hat, (hopen _).trans hsame, ?_, fun hsubject hcompany => ?_⟩
  · rw [hopen, hother]
    split
    · exact .inr ⟨rfl, by assumption⟩
    · exact .inl rfl
  · rw [hopen, hother] at hcompany
    split at hcompany
    · rename_i hat'
      injection hcompany with hcompany
      rw [hcompany, ServedMap.subjectAt, ServedMap.profiles] at hat'
      simp only [ServedMap.response, List.find?_cons, decide_true, Option.map_some,
        Option.some.injEq] at hat'
      exact hsubject hat'.symm
    · cases hcompany

end roundTrip

def asciiEncoding : Encoding where
  encode text := text
  decode bytes := bytes
  encode_ascii _ _ := rfl
  decode_ascii _ _ := rfl

def sampleProfiles : ProfileRules where
  userUuid _ := sampleWorkspace
  personDigest _ := List.replicate 20 48
  versionDigest _ := List.replicate 64 48
  versionDigest_length _ := List.length_replicate
  versionDigest_hex _ c hc :=
    .inl (by rw [List.eq_of_mem_replicate hc]; exact ⟨Nat.le_refl _, Nat.le_add_right 48 9⟩)

/-- The map of a workspace that `ann@gmail.com` has written to. -/
def annMap (limit : Nat) : Option ServedMap :=
  serveCompanyMap plainMail sampleWorkspace ⟨[], [], [], [], [], []⟩ (mailFrom "ann@gmail.com")
    limit

def annKey : Str := Str.of "external-person:" ++ List.replicate 20 48

theorem annMap_candidates : (annMap 10).any (fun map =>
    (profileKeys (map.response sampleProfiles)).contains annKey && map.versions.length = 1) ∧
      (annMap 0).any fun map => map.versions.length = 0 := by
  decide +kernel

theorem profileLink_roundTrip_ann : ∃ map target, annMap 10 = some map ∧
    buildCompanyWorldProfileTarget (map.response sampleProfiles) asciiEncoding annKey =
      some target ∧
    openProfileLink (map.response sampleProfiles) asciiEncoding target.href =
      .resolved annKey := by
  obtain ⟨hshown, hlater⟩ := annMap_candidates
  obtain ⟨map, hmap, hmapped⟩ := (Option.any_eq_true _ _).1 hshown
  obtain ⟨map', hmap', hnone⟩ := (Option.any_eq_true _ _).1 hlater
  obtain ⟨hkey, hversions⟩ := Bool.and_eq_true_iff.1 hmapped
  obtain ⟨version, hversion⟩ := List.length_eq_one_iff.1 (of_decide_eq_true hversions)
  have hempty := List.eq_nil_of_length_eq_zero (of_decide_eq_true hnone)
  have hfree : ∀ a ∈ map.versions ++ map'.versions, a = version := by
    intro a ha
    rw [hversion, hempty] at ha
    simpa using ha
  obtain ⟨target, -, htarget, -, hopen, -⟩ := profileLink_roundTrip sampleProfiles asciiEncoding
    hmap hmap' (fun a ha b hb _ => (hfree a ha).trans (hfree b hb).symm)
    (List.contains_iff_mem.1 hkey)
  exact ⟨map, target, hmap, htarget, hopen⟩

end FounderOs.CompanyWorld
