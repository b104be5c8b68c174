import FounderOs.CompanyWorld.Writes

namespace FounderOs.CompanyWorld

open Execution (UserId)
open Headquarters Transition

variable {rules : MailRules} {workspaceId : Uuid} {actorUserId : UserId} {command : ResolveCommand}
variable {drawn : Drawn} {rows : Readings} {db db' : WorldTables} {receipt : Receipt}

/-- What the constraints of the tables and the code that fills them keep. -/
structure Sound (db : WorldTables) : Prop where
  ids : (db.resolutions.map (·.id)).Nodup
  keys : (db.resolutions.map (·.idempotencyKey)).Nodup
  candidates : (db.resolutions.map fun r => (r.candidateType, r.candidateKey)).Nodup
  requests : ∀ r ∈ db.resolutions, r.requestHash.candidateType = r.candidateType ∧
    r.requestHash.candidateKey = r.candidateKey
  events : ∀ e ∈ db.memoryEvents, ∃ r ∈ db.resolutions, e = resolutionEvent r
  persons : ∀ r ∈ db.resolutions, ∀ id, r.resultPersonId = some id → ∃ p ∈ db.people, p.id = id
  owners : ∀ i ∈ db.interactions, ∃ p ∈ db.people, p.id = i.personId

/-- A receipt that the tables still answer its command with. -/
structure Stored (db : WorldTables) (command : ResolveCommand) (receipt : Receipt) : Prop where
  encodable : command.encodable = true
  row : receipt.resolution ∈ db.resolutions
  request : receipt.resolution.requestHash = command.toResolveRequest
  event : resolutionEvent receipt.resolution ∈ db.memoryEvents
  results : { receipt with replayed := true } = receiptForResolution db receipt.resolution true
  key : ∀ r ∈ db.resolutions, r.idempotencyKey = command.idempotencyKey →
    r.requestHash = command.toResolveRequest

section sound

variable (hsound : Sound db)

include hsound

theorem Sound.row_of_request {r r' : Resolution} (hr : r ∈ db.resolutions)
    (hr' : r' ∈ db.resolutions) (h : r.requestHash = r'.requestHash) : r = r' := by
  obtain ⟨htype, hkey⟩ := hsound.requests r hr
  obtain ⟨htype', hkey'⟩ := hsound.requests r' hr'
  refine List.inj_on_of_nodup_map hsound.candidates hr hr' ?_
  rw [← htype, ← hkey, ← htype', ← hkey', h]

theorem Sound.append_again {r : Resolution} (hr : r ∈ db.resolutions)
    (hevent : resolutionEvent r ∈ db.memoryEvents) : appendResolutionEvent db r = .ok db := by
  refine appendResolutionEvent_again hevent fun e he hid => ?_
  obtain ⟨r', hr', rfl⟩ := hsound.events e he
  rw [List.inj_on_of_nodup_map hsound.ids hr' hr hid]

/-- An accepted command that is sent again, by anyone and at any time, is answered with its receipt
and adds no row. -/
theorem resolve_stored (hstored : Stored db command receipt) :
    resolveCompanyWorldCandidate rules workspaceId actorUserId command drawn rows db =
      .ok ({ receipt with replayed := true }, db) := by
  have hreplay : ∀ detail, replayResolution command db receipt.resolution detail =
      .ok ({ receipt with replayed := true }, db) := by
    intro detail
    rw [replayResolution, if_neg (not_not.2 hstored.request),
      hsound.append_again hstored.row hstored.event, hstored.results]
    rfl
  unfold resolveCompanyWorldCandidate
  rw [if_neg (by simp [hstored.encodable])]
  split
  · rename_i found hfound
    have hmem := List.mem_of_find?_eq_some hfound
    have hkey : found.idempotencyKey = command.idempotencyKey := by
      simpa using List.find?_some hfound
    rw [hsound.row_of_request hmem hstored.row
      ((hstored.key found hmem hkey).trans hstored.request.symm)]
    exact hreplay _
  · obtain ⟨htype, hkey⟩ := hsound.requests _ hstored.row
    rw [hstored.request] at htype hkey
    cases hcandidate : db.byCandidate command.candidateType command.candidateKey with
    | none =>
      have hno := List.find?_eq_none.1 hcandidate _ hstored.row
      exact absurd (by simp [← htype, ← hkey]) hno
    | some found =>
      have hmem := List.mem_of_find?_eq_some hcandidate
      have hsame := List.find?_some hcandidate
      simp only [Bool.and_eq_true, decide_eq_true_eq] at hsame
      obtain rfl : found = receipt.resolution :=
        List.inj_on_of_nodup_map hsound.candidates hmem hstored.row (by
          rw [hsame.1, hsame.2, htype, hkey])
      exact hreplay _

theorem Sound.replayed {found : Resolution} (hfound : found ∈ db.resolutions)
    (h : appendResolutionEvent db found = .ok db') :
    Sound db' ∧ Grown db db' ∧ db'.interactions = db.interactions ∧
      db'.resolutions = db.resolutions ∧ ∀ profile, db'.count profile = db.count profile := by
  obtain ⟨-, added, rfl, hadded⟩ := appendResolutionEvent_ok h
  refine ⟨{ hsound with events := fun e he => ?_ },
    { Grown.refl db with memoryEvents := List.prefix_append _ _ }, rfl, rfl, fun profile => ?_⟩
  · rcases List.mem_append.1 he with he | he
    · exact hsound.events e he
    · exact ⟨found, hfound, hadded e he⟩
  · cases profile <;> rfl

theorem Sound.accepted (h : Accepted rules workspaceId rows command db receipt db') :
    Sound db' := by
  have hnodup : ∀ {K : Type} (key : Resolution → K), (db.resolutions.map key).Nodup →
      (∀ r ∈ db.resolutions, key r ≠ key receipt.resolution) →
        (db'.resolutions.map key).Nodup := by
    intro K key hkeys hfresh
    rw [h.resolutions, List.map_append, List.nodup_append]
    refine ⟨hkeys, List.nodup_singleton _, fun a ha b hb => ?_⟩
    obtain ⟨r, hr, rfl⟩ := List.mem_map.1 ha
    rw [List.mem_singleton.1 hb]
    exact hfresh r hr
  have hall : ∀ {P : Resolution → Prop}, (∀ r ∈ db.resolutions, P r) → P receipt.resolution →
      ∀ r ∈ db'.resolutions, P r := by
    intro P hold hnew r hr
    rw [h.resolutions] at hr
    rcases List.mem_append.1 hr with hr | hr
    · exact hold r hr
    · exact List.mem_singleton.1 hr ▸ hnew
  refine ⟨hnodup _ hsound.ids fun r hr => (h.fresh r hr).1,
    hnodup _ hsound.keys fun r hr => (h.fresh r hr).2.1,
    hnodup _ hsound.candidates fun r hr => (h.fresh r hr).2.2, hall hsound.requests ?_, ?_,
    hall (fun r hr id hid => ?_) fun id hid => ?_, fun i hi => ?_⟩
  · rw [h.requestHash, h.candidateType, h.candidateKey]
    exact ⟨rfl, rfl⟩
  · intro e he
    rcases h.events e he with he | rfl
    · obtain ⟨r, hr, rfl⟩ := hsound.events e he
      exact ⟨r, h.grown.resolutions.subset hr, rfl⟩
    · exact ⟨receipt.resolution, by rw [h.resolutions]; simp, rfl⟩
  · obtain ⟨p, hp, hown⟩ := hsound.persons r hr id hid
    exact ⟨p, h.grown.people.subset hp, hown⟩
  · obtain ⟨-, email, -, person, hperson, hown, -⟩ := h.somebody id hid
    exact ⟨person, hperson, hown⟩
  · have hold : i ∈ db.interactions → ∃ p ∈ db'.people, p.id = i.personId := by
      intro hi
      obtain ⟨p, hp, hown⟩ := hsound.owners i hi
      exact ⟨p, h.grown.people.subset hp, hown⟩
    cases hperson : receipt.resolution.resultPersonId with
    | none => exact hold ((h.nobody hperson).2 ▸ hi)
    | some id =>
      obtain ⟨-, email, -, person, hmem, hown, -, -, added, hadded, -, hall⟩ :=
        h.somebody id hperson
      rw [hadded] at hi
      rcases List.mem_append.1 hi with hi | hi
      · exact hold hi
      · exact ⟨person, hmem, hown.trans (hall i hi).symm⟩

end sound

/-- Rows that are added leave a receipt as it is, if none is an interaction of its person, and none
a resolution under the key of its command for another request. -/
theorem Stored.grown (h : Stored db command receipt) (hgrown : Grown db db')
    (hcount : ∀ id, receipt.resolution.resultPersonId = some id →
      (db'.interactionsOf id).length = (db.interactionsOf id).length)
    (hkey : ∀ r ∈ db'.resolutions, r ∉ db.resolutions →
      r.idempotencyKey = command.idempotencyKey → r.requestHash = command.toResolveRequest) :
    Stored db' command receipt where
  encodable := h.encodable
  row := hgrown.resolutions.subset h.row
  request := h.request
  event := hgrown.memoryEvents.subset h.event
  results := by
    rw [h.results, receiptForResolution, receiptForResolution]
    cases hperson : receipt.resolution.resultPersonId with
    | none => rfl
    | some id => simp only [Option.elim_some, hcount id hperson]
  key := by
    intro r hr hsame
    by_cases hold : r ∈ db.resolutions
    · exact h.key r hold hsame
    · exact hkey r hr hold hsame

/-- The address of the person that a command confirms. -/
def ResolveCommand.confirmedEmail (command : ResolveCommand) : Option Str :=
  match command.candidateKey, command.decision with
  | .externalPerson email, .confirmed => some email
  | _, _ => none

/-- No person has the address of the candidate, or only one whom nothing is known of: who has no
interaction, and whom no resolution names. -/
def PersonUnknown (rules : MailRules) (db : WorldTables) (command : ResolveCommand) : Prop :=
  ∀ email ∈ command.confirmedEmail, ∀ person ∈ db.people,
    person.normalizedEmail = normalizeEmail rules email →
      db.interactionsOf person.id = [] ∧ ∀ r ∈ db.resolutions, r.resultPersonId ≠ some person.id

section accepted

variable (hsound : Sound db) (h : Accepted rules workspaceId rows command db receipt db')
variable (hunknown : PersonUnknown rules db command)

include hsound h hunknown

/-- The interactions that an acceptance adds are all that its person has, and no earlier resolution
names that person. -/
theorem Accepted.interactionsOf :
    (∀ id, receipt.resolution.resultPersonId = some id →
      (db'.interactionsOf id).length = receipt.interactionCount) ∧
    ∀ r ∈ db.resolutions, ∀ id, r.resultPersonId = some id →
      db'.interactionsOf id = db.interactionsOf id := by
  cases hperson : receipt.resolution.resultPersonId with
  | none =>
    refine ⟨?_, fun r _ id _ => ?_⟩
    · intro id hid
      cases hid
    rw [WorldTables.interactionsOf, WorldTables.interactionsOf, (h.nobody hperson).2]
  | some personId =>
    obtain ⟨hdecision, email, hkey, person, -, rfl, hemail, hfound, added, hadded, hlength, hown⟩ :=
      h.somebody personId hperson
    have hnone : db.interactionsOf person.id = [] ∧
        ∀ r ∈ db.resolutions, r.resultPersonId ≠ some person.id := by
      rcases hfound with hmem | hnew
      · refine hunknown email ?_ person hmem hemail
        rw [ResolveCommand.confirmedEmail, hkey, hdecision]
        rfl
      · refine ⟨List.filter_eq_nil_iff.2 fun i hi hid => ?_, fun r hr hid => ?_⟩
        · obtain ⟨p, hp, hown⟩ := hsound.owners i hi
          exact hnew p hp (hown.trans (of_decide_eq_true hid))
        · obtain ⟨p, hp, hown⟩ := hsound.persons r hr _ hid
          exact hnew p hp hown
    refine ⟨fun id hid => ?_, fun r hr id hid => ?_⟩
    · obtain rfl := Option.some.inj hid
      have hall : added.filter (·.personId = person.id) = added :=
        List.filter_eq_self.2 fun i hi => decide_eq_true (hown i hi)
      rw [WorldTables.interactionsOf, hadded, List.filter_append, hall]
      change (db.interactionsOf person.id ++ added).length = _
      rw [hnone.1, List.nil_append, hlength]
    · have hother : added.filter (·.personId = id) = [] := by
        refine List.filter_eq_nil_iff.2 fun i hi hid' => hnone.2 r hr ?_
        rw [hid, ← of_decide_eq_true hid', hown i hi]
      rw [WorldTables.interactionsOf, hadded, List.filter_append, hother, List.append_nil]
      rfl

theorem Accepted.stored (hencodable : command.encodable = true) : Stored db' command receipt where
  encodable := hencodable
  row := by
    rw [h.resolutions]
    simp
  request := h.requestHash
  event := h.event
  results := by
    have hcount := (h.interactionsOf hsound hunknown).1
    rw [h.results]
    simp only [receiptForResolution, Receipt.mk.injEq, true_and, and_true]
    cases hperson : receipt.resolution.resultPersonId with
    | none => exact (h.nobody hperson).1
    | some id => exact (hcount id hperson).symm
  key := by
    intro r hr hkey
    rw [h.resolutions] at hr
    rcases List.mem_append.1 hr with hr | hr
    · exact absurd (hkey.trans h.idempotencyKey.symm) (h.fresh r hr).2.1
    · rw [List.mem_singleton.1 hr]
      exact h.requestHash

end accepted

/-- The rows of one profile that answers on one candidate have created. -/
def createdRows (answers : List Answer) (profile : Profile) (candidateType : CandidateType)
    (candidateKey : CandidateKey) : Nat :=
  answers.foldr (fun a total =>
    (if a.command.candidateType = candidateType ∧ a.command.candidateKey = candidateKey then
      a.after.count profile - a.before.count profile else 0) + total) 0

/-- A later answer to a command that an earlier one accepted. -/
def Repeats (later earlier : Answer) : Prop :=
  ∀ receipt, earlier.command = later.command → earlier.result = .ok receipt →
    later.result = .ok { receipt with replayed := true } ∧ later.after = later.before

/-- What resolution is to be in a workspace. The answers stand in their order, the last one
first. -/
structure ExactlyOnce (s : State) : Prop where
  perCandidate : (s.tables.resolutions.map fun r => (r.candidateType, r.candidateKey)).Nodup
  perKey : (s.tables.resolutions.map (·.idempotencyKey)).Nodup
  created : ∀ profile candidateType candidateKey,
    createdRows s.answers profile candidateType candidateKey ≤ 1
  repeated : s.answers.Pairwise Repeats
  rejected : ∀ a ∈ s.answers, ∀ e, a.result = .error e → a.after = a.before

/-- A workspace before the first command. -/
structure State.Initial (s : State) : Prop where
  sound : Sound s.tables
  holder : s.holder = none
  sessions : ∀ i, s.sessions i = none
  answers : s.answers = []

def KeyFree (answers : List Answer) (command : ResolveCommand) : Prop :=
  ∀ a ∈ answers, a.command.idempotencyKey = command.idempotencyKey →
    a.result.toOption.isSome = true → a.command.toResolveRequest = command.toResolveRequest

/-- A backfill finds no message missing among the interactions of a confirmed person whom a
resolution names. -/
def Materialized (rules : MailRules) (workspaceId : Uuid) (rows : Readings) (db : WorldTables) :
    Prop :=
  ∀ entry ∈ (confirmedExternal db).zipIdx,
    (∃ r ∈ db.resolutions, r.resultPersonId = some entry.1.id) →
      ∀ record ∈ (rows (2 * entry.2 + 2)).records, ¬ Unmet rules workspaceId db entry.1 record

/-- What a transaction must find at its end for every receipt to be still the one that was given.
A command that would be the first on its candidate and under its key must not carry the key of an
accepted command with another request, and must not confirm a person of whom there is something
already; a backfill must find nothing to add of a person whom a resolution names. -/
def KeepsTask (rules : MailRules) (workspaceId : Uuid) (s : State) (rows : Readings) : Task → Prop
  | .resolve _ command =>
    s.tables.byIdempotencyKey command.idempotencyKey = none →
    s.tables.byCandidate command.candidateType command.candidateKey = none →
    Admits rules workspaceId rows command →
      KeyFree s.answers command ∧ PersonUnknown rules s.tables command
  | .backfill => Materialized rules workspaceId rows s.tables

def Keeps (rules : MailRules) (workspaceId : Uuid) (s : State) : Action → Prop
  | .finish i _ => ∀ session ∈ s.sessions i, ∀ held ∈ session.held,
    KeepsTask rules workspaceId s (held.rows (worldRows workspaceId held.seen s.rows)) session.task
  | _ => True

instance (answers : List Answer) (command : ResolveCommand) : Decidable (KeyFree answers command) :=
  inferInstanceAs (Decidable (∀ a ∈ answers, _ → _ → _))

instance (rules : MailRules) (db : WorldTables) (command : ResolveCommand) :
    Decidable (PersonUnknown rules db command) :=
  inferInstanceAs (Decidable (∀ email ∈ command.confirmedEmail, ∀ person ∈ db.people, _ → _ ∧ _))

instance (rules : MailRules) (workspaceId : Uuid) (db : WorldTables) (person : Person)
    (record : MessageRecord) : Decidable (Unmet rules workspaceId db person record) :=
  inferInstanceAs (Decidable (_ ∧ _ ∧ ∀ interaction ∈ db.interactionsOf person.id, _))

instance (rules : MailRules) (workspaceId : Uuid) (rows : Readings) (db : WorldTables) :
    Decidable (Materialized rules workspaceId rows db) :=
  inferInstanceAs (Decidable (∀ entry ∈ (confirmedExternal db).zipIdx, _ → ∀ record ∈ _, ¬ _))

instance (rules : MailRules) (workspaceId : Uuid) (rows : Readings) (command : ResolveCommand) :
    Decidable (Admits rules workspaceId rows command) :=
  inferInstanceAs (Decidable (_ = true))

instance (rules : MailRules) (workspaceId : Uuid) (s : State) (rows : Readings) :
    (task : Task) → Decidable (KeepsTask rules workspaceId s rows task)
  | .resolve _ _ => inferInstanceAs (Decidable (_ → _ → _ → _ ∧ _))
  | .backfill => inferInstanceAs (Decidable (Materialized _ _ _ _))

instance (rules : MailRules) (workspaceId : Uuid) (s : State) :
    (a : Action) → Decidable (Keeps rules workspaceId s a)
  | .finish i _ => inferInstanceAs (Decidable (∀ session ∈ s.sessions i, ∀ held ∈ session.held, _))
  | .start _ _ | .acquire _ | .read _ | .abort _ | .change _ => inferInstanceAs (Decidable True)

/-- The lock makes the transactions on a workspace one after another. -/
structure Serial (s : State) : Prop where
  sound : Sound s.tables
  held : ∀ i task held, s.sessions i = some ⟨task, some held⟩ →
    s.holder = some i ∧ held.seen = s.tables
  stored : ∀ a ∈ s.answers, ∀ receipt, a.result = .ok receipt → Stored s.tables a.command receipt
  created : ∀ profile candidateType candidateKey,
    createdRows s.answers profile candidateType candidateKey ≤ 1 ∧
      (s.tables.byCandidate candidateType candidateKey = none →
        createdRows s.answers profile candidateType candidateKey = 0)
  repeated : s.answers.Pairwise Repeats
  rejected : ∀ a ∈ s.answers, ∀ e, a.result = .error e → a.after = a.before

section invariant

variable {s s' : State} {i : SessionId} {task : Task} {held : Held} {a : Action}

theorem Serial.exactlyOnce (h : Serial s) : ExactlyOnce s where
  perCandidate := h.sound.candidates
  perKey := h.sound.keys
  created profile candidateType candidateKey := (h.created profile candidateType candidateKey).1
  repeated := h.repeated
  rejected := h.rejected

theorem serial_of_initial (h : s.Initial) : Serial s where
  sound := h.sound
  held := by
    intro i task held hsession
    rw [h.sessions i] at hsession
    cases hsession
  stored := by simp [h.answers]
  created := by simp [h.answers, createdRows]
  repeated := by simp [h.answers]
  rejected := by simp [h.answers]

/-- Steps that neither write nor answer. -/
theorem Serial.frame (h : Serial s) (htables : s'.tables = s.tables)
    (hanswers : s'.answers = s.answers)
    (hheld : ∀ i task held, s'.sessions i = some ⟨task, some held⟩ →
      s'.holder = some i ∧ held.seen = s.tables) : Serial s' where
  sound := htables ▸ h.sound
  held := htables ▸ hheld
  stored := by
    rw [htables, hanswers]
    exact h.stored
  created := by
    rw [htables, hanswers]
    exact h.created
  repeated := hanswers ▸ h.repeated
  rejected := hanswers ▸ h.rejected

theorem createdRows_cons {answer : Answer} {answers : List Answer} {profile : Profile}
    {candidateType : CandidateType} {candidateKey : CandidateKey} :
    createdRows (answer :: answers) profile candidateType candidateKey =
      (if answer.command.candidateType = candidateType ∧
          answer.command.candidateKey = candidateKey then
        answer.after.count profile - answer.before.count profile else 0) +
        createdRows answers profile candidateType candidateKey := rfl

/-- No one else has the lock when a transaction that has it ends. -/
theorem Serial.held_close (h : Serial s) (hsession : s.sessions i = some ⟨task, some held⟩)
    (tables : WorldTables) (answers : List Answer) :
    ∀ j task' held', (s.close i tables answers).sessions j = some ⟨task', some held'⟩ → False := by
  intro j task' held' hj
  by_cases hij : j = i
  · subst hij
    simp [State.close] at hj
  · simp only [State.close, Function.update_of_ne hij] at hj
    have hmine := (h.held i task held hsession).1
    have htheirs := (h.held j task' held' hj).1
    rw [hmine] at htheirs
    exact hij (Option.some.inj htheirs).symm

/-- Whatever a command is answered now, it repeats what it was accepted with. -/
theorem Serial.repeats (h : Serial s) {answer : Answer}
    {outcome : Except ResolveError (Receipt × WorldTables)}
    (houtcome : resolveCompanyWorldCandidate rules workspaceId actorUserId answer.command drawn rows
      s.tables = outcome) (hbefore : answer.before = s.tables)
    (hresult : ∀ receipt, outcome = .ok (receipt, s.tables) →
      answer.result = .ok receipt ∧ answer.after = s.tables) :
    ∀ earlier ∈ s.answers, Repeats answer earlier := by
  intro earlier hearlier receipt hsame hok
  have hstored := h.stored earlier hearlier receipt hok
  rw [hsame] at hstored
  obtain ⟨hanswer, hafter⟩ := hresult _ (houtcome.symm.trans (resolve_stored h.sound hstored))
  exact ⟨hanswer, hafter.trans hbefore.symm⟩

/-- An answer that creates no profile. -/
theorem Serial.created_same (h : Serial s) {tables : WorldTables} {answer : Answer}
    (hcount : ∀ profile, answer.after.count profile = answer.before.count profile)
    (hresolutions : tables.resolutions = s.tables.resolutions) :
    ∀ profile candidateType candidateKey,
      createdRows (answer :: s.answers) profile candidateType candidateKey ≤ 1 ∧
        (tables.byCandidate candidateType candidateKey = none →
          createdRows (answer :: s.answers) profile candidateType candidateKey = 0) := by
  intro profile candidateType candidateKey
  rw [createdRows_cons, hcount, Nat.sub_self, ite_self, Nat.zero_add, WorldTables.byCandidate,
    hresolutions]
  exact h.created profile candidateType candidateKey

/-- The first answer that accepts a candidate. -/
theorem Serial.created_accepted (h : Serial s)
    (hcandidate : s.tables.byCandidate command.candidateType command.candidateKey = none)
    (haccepted : Accepted rules workspaceId rows command s.tables receipt db') :
    ∀ profile candidateType candidateKey,
      createdRows (⟨command, .ok receipt, s.tables, db'⟩ :: s.answers) profile candidateType
          candidateKey ≤ 1 ∧
        (db'.byCandidate candidateType candidateKey = none →
          createdRows (⟨command, .ok receipt, s.tables, db'⟩ :: s.answers) profile candidateType
            candidateKey = 0) := by
  intro profile candidateType candidateKey
  obtain ⟨hone, hnone⟩ := h.created profile candidateType candidateKey
  rw [createdRows_cons]
  by_cases hsame : command.candidateType = candidateType ∧ command.candidateKey = candidateKey
  · rw [if_pos hsame]
    obtain ⟨rfl, rfl⟩ := hsame
    have hprofile := haccepted.created profile
    refine ⟨?_, fun hlater => ?_⟩
    · rw [hnone hcandidate]
      exact Nat.sub_le_iff_le_add'.2 hprofile
    · have hmem : receipt.resolution ∈ db'.resolutions := by
        rw [haccepted.resolutions]
        simp
      have hno := List.find?_eq_none.1 hlater _ hmem
      simp [haccepted.candidateType, haccepted.candidateKey] at hno
  · rw [if_neg hsame, Nat.zero_add]
    refine ⟨hone, fun hlater => hnone (List.find?_eq_none.2 fun r hr => ?_)⟩
    exact List.find?_eq_none.1 hlater r (haccepted.grown.resolutions.subset hr)

theorem Serial.refused (h : Serial s)
    (hsession : s.sessions i = some ⟨.resolve actorUserId command, some held⟩) {e : ResolveError}
    (hrefused : resolveCompanyWorldCandidate rules workspaceId actorUserId command drawn rows
      s.tables = .error e) :
    Serial (s.close i s.tables (⟨command, .error e, s.tables, s.tables⟩ :: s.answers)) where
  sound := h.sound
  held j task' held' hj := (h.held_close hsession _ _ j task' held' hj).elim
  stored := by
    refine List.forall_mem_cons.2 ⟨fun receipt hok => ?_, h.stored⟩
    cases hok
  created := h.created_same (fun _ => rfl) rfl
  repeated := by
    refine List.pairwise_cons.2 ⟨h.repeats hrefused rfl fun receipt hok => ?_, h.repeated⟩
    cases hok
  rejected := List.forall_mem_cons.2 ⟨fun _ _ => rfl, h.rejected⟩

theorem Serial.replayed (h : Serial s)
    (hsession : s.sessions i = some ⟨.resolve actorUserId command, some held⟩)
    (hok : resolveCompanyWorldCandidate rules workspaceId actorUserId command drawn rows
      s.tables = .ok (receipt, db')) {found : Resolution} (hfound : found ∈ s.tables.resolutions)
    (hrequest : found.requestHash = command.toResolveRequest)
    (hkey : ∀ other, s.tables.byIdempotencyKey command.idempotencyKey = some other → other = found)
    (happend : appendResolutionEvent s.tables found = .ok db')
    (hreceipt : receipt = receiptForResolution db' found true) :
    Serial (s.close i db' (⟨command, .ok receipt, s.tables, db'⟩ :: s.answers)) := by
  obtain ⟨hsound, hgrown, hinteractions, hresolutions, hcount⟩ := h.sound.replayed hfound happend
  have hevent := (appendResolutionEvent_ok happend).1
  refine {
    sound := hsound
    held := fun j task' held' hj => (h.held_close hsession _ _ j task' held' hj).elim
    stored := List.forall_mem_cons.2 ⟨?_, fun a ha receipt' hok' => ?_⟩
    created := h.created_same hcount hresolutions
    repeated := List.pairwise_cons.2 ⟨h.repeats hok rfl fun receipt' hok' => ?_, h.repeated⟩
    rejected := List.forall_mem_cons.2 ⟨?_, h.rejected⟩ }
  · intro receipt' hsame
    obtain rfl := Except.ok.inj hsame
    refine ⟨(resolve_ok hok).1, ?_, ?_, ?_, ?_, fun r hr hsame => ?_⟩
    · rw [hreceipt]
      exact hresolutions.symm ▸ hfound
    · rw [hreceipt]
      exact hrequest
    · rw [hreceipt]
      exact hevent
    · rw [hreceipt]
      rfl
    · have hr' : r ∈ s.tables.resolutions := hresolutions ▸ hr
      cases hby : s.tables.byIdempotencyKey command.idempotencyKey with
      | none => exact absurd (decide_eq_true hsame) (List.find?_eq_none.1 hby r hr')
      | some other =>
        have hother := List.find?_some hby
        have hsame' : r.idempotencyKey = other.idempotencyKey :=
          hsame.trans (of_decide_eq_true hother).symm
        rw [List.inj_on_of_nodup_map h.sound.keys hr' (List.mem_of_find?_eq_some hby) hsame',
          hkey other hby, hrequest]
  · refine (h.stored a ha receipt' hok').grown hgrown (fun id _ => ?_) fun r hr hnew => ?_
    · exact congrArg (fun interactions => (interactions.filter (·.personId = id)).length) hinteractions
    · exact absurd (hresolutions ▸ hr) hnew
  · obtain ⟨rfl, rfl⟩ := Prod.mk.inj (Except.ok.inj hok')
    exact ⟨rfl, rfl⟩
  · intro e he
    cases he

theorem Serial.accepted (h : Serial s)
    (hsession : s.sessions i = some ⟨.resolve actorUserId command, some held⟩)
    (hok : resolveCompanyWorldCandidate rules workspaceId actorUserId command drawn rows
      s.tables = .ok (receipt, db'))
    (hcandidate : s.tables.byCandidate command.candidateType command.candidateKey = none)
    (haccepted : Accepted rules workspaceId rows command s.tables receipt db')
    (hfree : KeyFree s.answers command) (hunknown : PersonUnknown rules s.tables command) :
    Serial (s.close i db' (⟨command, .ok receipt, s.tables, db'⟩ :: s.answers)) := by
  refine {
    sound := h.sound.accepted haccepted
    held := fun j task' held' hj => (h.held_close hsession _ _ j task' held' hj).elim
    stored := List.forall_mem_cons.2 ⟨?_, fun a ha receipt' hok' => ?_⟩
    created := h.created_accepted hcandidate haccepted
    repeated := List.pairwise_cons.2 ⟨h.repeats hok rfl fun receipt' hok' => ?_, h.repeated⟩
    rejected := List.forall_mem_cons.2 ⟨?_, h.rejected⟩ }
  · intro receipt' hsame
    obtain rfl := Except.ok.inj hsame
    exact haccepted.stored h.sound hunknown (resolve_ok hok).1
  · have hstored := h.stored a ha receipt' hok'
    refine hstored.grown haccepted.grown (fun id hid => ?_) fun r hr hnew hkey => ?_
    · exact congrArg List.length
        ((haccepted.interactionsOf h.sound hunknown).2 _ hstored.row id hid)
    · have hr' : r ∈ s.tables.resolutions ++ [receipt.resolution] := haccepted.resolutions ▸ hr
      rcases List.mem_append.1 hr' with hold | hlast
      · exact absurd hold hnew
      · rw [List.mem_singleton.1 hlast] at hkey ⊢
        have hsame := hfree a ha (hkey.symm.trans haccepted.idempotencyKey) (by rw [hok']; rfl)
        rw [haccepted.requestHash, hsame]
  · obtain ⟨rfl, rfl⟩ := Prod.mk.inj (Except.ok.inj hok')
    exact ⟨rfl, rfl⟩
  · intro e he
    cases he

theorem Serial.backfilled (h : Serial s)
    (hsession : s.sessions i = some ⟨task, some held⟩)
    (hok : backfillCompanyWorld rules workspaceId drawn rows s.tables = .ok db')
    (hmaterialized : Materialized rules workspaceId rows s.tables) :
    Serial (s.close i db' s.answers) := by
  obtain ⟨people, interactions, rfl, hadded⟩ := backfill_ok hok
  refine {
    sound := { h.sound with persons := fun r hr id hid => ?_, owners := fun i hi => ?_ }
    held := fun j task' held' hj => (h.held_close hsession _ _ j task' held' hj).elim
    stored := fun a ha receipt' hok' => ?_
    created := h.created
    repeated := h.repeated
    rejected := h.rejected }
  · obtain ⟨p, hp, hown⟩ := h.sound.persons r hr id hid
    exact ⟨p, List.mem_append_left _ hp, hown⟩
  · rcases List.mem_append.1 hi with hi | hi
    · obtain ⟨p, hp, hown⟩ := h.sound.owners i hi
      exact ⟨p, List.mem_append_left _ hp, hown⟩
    · obtain ⟨entry, hentry, hperson, -⟩ := hadded i hi
      have hmem := List.mem_of_getElem? (List.mem_zipIdx_iff_getElem?.1 hentry)
      exact ⟨entry.1, List.mem_append_left _ (List.mem_of_mem_filter hmem), hperson.symm⟩
  · have hstored := h.stored a ha receipt' hok'
    refine hstored.grown ⟨List.prefix_append _ _, List.prefix_rfl, List.prefix_rfl,
      List.prefix_append _ _, List.prefix_rfl, List.prefix_rfl⟩ (fun id hid => ?_)
        fun r hr hnew => absurd hr hnew
    have hother : interactions.filter (·.personId = id) = [] := by
      refine List.filter_eq_nil_iff.2 fun i hi hown => ?_
      obtain ⟨entry, hentry, hperson, record, hrecord, hunmet⟩ := hadded i hi
      refine hmaterialized entry hentry ⟨_, hstored.row, ?_⟩ record hrecord hunmet
      rw [hid, ← of_decide_eq_true hown, hperson]
    change ((s.tables.interactions ++ interactions).filter _).length = _
    rw [List.filter_append, hother, List.append_nil]
    rfl

/-- A transaction that ends has seen the rows that it ends on, so that the rows it publishes are
those it has made. -/
theorem Serial.finished (h : Serial s) (hsession : s.sessions i = some ⟨task, some held⟩)
    (hkeeps : Keeps rules workspaceId s (.finish i drawn)) :
    Serial (finishStep rules workspaceId s i task held drawn) := by
  obtain ⟨-, hseen⟩ := h.held i task held hsession
  have htask := hkeeps _ hsession _ rfl
  unfold finishStep
  cases task with
  | resolve actorUserId command =>
    dsimp only at htask ⊢
    rw [hseen] at htask ⊢
    cases hresult : resolveCompanyWorldCandidate rules workspaceId actorUserId command drawn
        (held.rows (worldRows workspaceId s.tables s.rows)) s.tables with
    | error e => exact h.refused hsession hresult
    | ok accepted =>
      obtain ⟨receipt, after⟩ := accepted
      dsimp only
      rcases (resolve_ok hresult).2 with
        ⟨found, hfound, hrequest, hkey, happend, hreceipt⟩ | ⟨hkey, hcandidate, haccepted⟩
      · rw [published_self (h.sound.replayed hfound happend).2.1]
        exact h.replayed hsession hresult hfound hrequest hkey happend hreceipt
      · rw [published_self haccepted.grown]
        obtain ⟨hfree, hunknown⟩ := htask hkey hcandidate haccepted.admitted
        exact h.accepted hsession hresult hcandidate haccepted hfree hunknown
  | backfill =>
    dsimp only at htask ⊢
    rw [hseen] at htask ⊢
    cases hresult : backfillCompanyWorld rules workspaceId drawn
        (held.rows (worldRows workspaceId s.tables s.rows)) s.tables with
    | error e =>
      exact h.frame rfl rfl fun j task' held' hj => (h.held_close hsession _ _ j task' held' hj).elim
    | ok after =>
      have hgrown : Grown s.tables after := by
        obtain ⟨people, interactions, rfl, -⟩ := backfill_ok hresult
        exact { Grown.refl s.tables with
          people := List.prefix_append _ _, interactions := List.prefix_append _ _ }
      dsimp only
      rw [published_self hgrown]
      exact h.backfilled hsession hresult htask

theorem Serial.step (h : Serial s) (hkeeps : Keeps rules workspaceId s a)
    (hstep : step rules workspaceId s a = some s') : Serial s' := by
  cases a with
  | start i task =>
    simp only [CompanyWorld.step, Option.ite_none_right_eq_some, Option.some.injEq] at hstep
    obtain ⟨-, rfl⟩ := hstep
    refine h.frame rfl rfl fun j task' held hj => ?_
    by_cases hij : j = i
    · subst hij
      simp [State.put] at hj
    · simp only [State.put, Function.update_of_ne hij] at hj
      exact h.held j task' held hj
  | acquire i =>
    simp only [CompanyWorld.step] at hstep
    split at hstep
    · simp only [Option.ite_none_right_eq_some, Option.some.injEq] at hstep
      obtain ⟨hfree, rfl⟩ := hstep
      refine h.frame rfl rfl fun j task' held hj => ?_
      by_cases hij : j = i
      · subst hij
        simp only [State.put, Function.update_self, Option.some.injEq, Session.mk.injEq] at hj
        exact ⟨rfl, hj.2 ▸ rfl⟩
      · simp only [State.put, Function.update_of_ne hij] at hj
        cases hfree.symm.trans (h.held j task' held hj).1
    · cases hstep
  | read i =>
    simp only [CompanyWorld.step] at hstep
    split at hstep
    · rename_i task held hsession
      obtain rfl := Option.some.inj hstep
      refine h.frame rfl rfl fun j task' held' hj => ?_
      by_cases hij : j = i
      · subst hij
        simp only [State.put, Function.update_self, Option.some.injEq, Session.mk.injEq] at hj
        rw [← hj.2]
        exact h.held j task held hsession
      · simp only [State.put, Function.update_of_ne hij] at hj
        exact h.held j task' held' hj
    · cases hstep
  | finish i drawn =>
    simp only [CompanyWorld.step] at hstep
    split at hstep
    · rename_i task held hsession
      obtain rfl := Option.some.inj hstep
      exact h.finished hsession hkeeps
    · cases hstep
  | abort i =>
    simp only [CompanyWorld.step] at hstep
    split at hstep
    · obtain rfl := Option.some.inj hstep
      refine h.frame rfl rfl fun j task' held hj => ?_
      by_cases hij : j = i
      · subst hij
        simp [State.close] at hj
      · simp only [State.close, Function.update_of_ne hij] at hj
        obtain ⟨hholder, hseen⟩ := h.held j task' held hj
        refine ⟨?_, hseen⟩
        rw [State.close, hholder, if_neg fun hsame => hij (Option.some.inj hsame)]
    · cases hstep
  | change rows =>
    obtain rfl := Option.some.inj hstep
    exact h.frame rfl rfl h.held

theorem resolution_exactly_once (hinit : s.Initial)
    (hrun : Reaches (CompanyWorld.step rules workspaceId) (Keeps rules workspaceId) s s') :
    ExactlyOnce s' :=
  (hrun.invariant (fun _ _ _ h hkeeps hstep => h.step hkeeps hstep)
    (serial_of_initial hinit)).exactlyOnce

end invariant

def laterMessage : Uuid := sampleUuid ⟨1, Nat.succ_lt_succ (Nat.zero_lt_succ 8)⟩

theorem laterMessage_ne : sampleWorkspace ≠ laterMessage := by decide +kernel

/-- One message, of its sender to nobody in particular. -/
def mailFrom (sender : String) : SourceRows where
  records := [sampleMessage sampleWorkspace (Str.of sender)]
  members := []
  record_id := by simp [Dict.Unique]

/-- The message of `mailFrom "ann@gmail.com"` is deleted, and another one has come. -/
def laterMailFrom (sender : String) : SourceRows where
  records := [{ sampleMessage sampleWorkspace (Str.of "ann@gmail.com") with isDeleted := true },
    { sampleMessage laterMessage (Str.of sender) with externalId := Str.of "m2" }]
  members := []
  record_id := by simp [Dict.Unique, sampleMessage, laterMessage_ne, laterMessage_ne.symm]

def emptyWorld (rows : SourceRows) : State where
  tables := ⟨[], [], [], [], [], []⟩
  rows := rows
  holder := none
  sessions := fun _ => none
  answers := []

theorem emptyWorld_initial (rows : SourceRows) : (emptyWorld rows).Initial where
  sound := by constructor <;> simp [emptyWorld]
  holder := rfl
  sessions _ := rfl
  answers := rfl

/-- A confirmation of the candidate as it is shown on the rows. -/
def confirmation (rows : SourceRows) (email idempotencyKey : String) : ResolveCommand where
  candidateType := .externalPerson
  candidateKey := .externalPerson (Str.of email)
  candidateVersion :=
    match resolveCandidate plainMail (worldRows sampleWorkspace (emptyWorld rows).tables rows)
      sampleWorkspace .externalPerson (.externalPerson (Str.of email)) with
    | .ok candidate => candidate.version
    | .error _ => ⟨.externalPerson [], none, none, none, none, none, 0, none, []⟩
  decision := .confirmed
  displayName := none
  organizationName := none
  relationshipType := none
  organizationRelationshipKind := none
  roleTitle := none
  idempotencyKey := Str.of idempotencyKey

def send (task : Task) (id : Uuid) : List Action :=
  [.start 0 task, .acquire 0, .finish 0 ⟨id, id, id, id, fun _ => id, 0⟩]

theorem resolution_exactly_once_resent :
    ∃ s, Reaches (step plainMail sampleWorkspace) (Keeps plainMail sampleWorkspace)
        (emptyWorld (mailFrom "ann@gmail.com")) s ∧
      s.answers.map (fun a => a.result.toOption.map (·.replayed)) = [some true, some false] ∧
        ExactlyOnce s := by
  let command := confirmation (mailFrom "ann@gmail.com") "ann@gmail.com" "k1"
  have hrun : (exec (restrict (step plainMail sampleWorkspace) (Keeps plainMail sampleWorkspace))
      (emptyWorld (mailFrom "ann@gmail.com"))
      (send (.resolve 7 command) sampleWorkspace ++ send (.resolve 7 command) laterMessage)).any
      (fun s => s.answers.map (fun a => a.result.toOption.map (·.replayed)) =
        [some true, some false]) = true := by decide +kernel
  obtain ⟨s, hs, hanswers⟩ := (Option.any_eq_true _ _).1 hrun
  have hreach := reaches_of_exec_restrict hs
  exact ⟨s, hreach, of_decide_eq_true hanswers,
    resolution_exactly_once (emptyWorld_initial _) hreach⟩

/-- The last answer is not what an earlier acceptance of its command was. -/
def contradicted (s : State) : Bool :=
  match s.answers with
  | [] => false
  | later :: answers => answers.any fun earlier => earlier.command = later.command &&
      earlier.result.toOption.any fun receipt =>
        later.result.toOption ≠ some { receipt with replayed := true }

theorem not_exactlyOnce {s : State} (h : contradicted s = true) : ¬ ExactlyOnce s := by
  intro honce
  have hrepeated := honce.repeated
  unfold contradicted at h
  split at h
  · cases h
  · rename_i later answers hanswers
    rw [hanswers] at hrepeated
    obtain ⟨earlier, hmem, hboth⟩ := List.any_eq_true.1 h
    obtain ⟨hsame, hreceipt⟩ := Bool.and_eq_true_iff.1 hboth
    obtain ⟨receipt, hok, hdiffer⟩ := (Option.any_eq_true _ _).1 hreceipt
    have haccepted : earlier.result = .ok receipt := by
      cases hresult : earlier.result with
      | error e =>
        rw [hresult] at hok
        cases hok
      | ok accepted =>
        rw [hresult] at hok
        rw [Option.some.inj hok]
    obtain ⟨hlater, -⟩ := (List.pairwise_cons.1 hrepeated).1 earlier hmem receipt
      (of_decide_eq_true hsame) haccepted
    rw [hlater] at hdiffer
    exact absurd rfl (of_decide_eq_true hdiffer)

/-- Ann is confirmed under `k1` and again under `k2`, which Bob's confirmation can still take. -/
def keyTaken : List Action :=
  let ann := confirmation (mailFrom "ann@gmail.com") "ann@gmail.com" "k1"
  let bob := confirmation (laterMailFrom "bob@gmail.com") "bob@gmail.com" "k2"
  let again : Task := .resolve 7 { ann with idempotencyKey := Str.of "k2" }
  send (.resolve 7 ann) sampleWorkspace ++ send again sampleWorkspace ++
    .change (laterMailFrom "bob@gmail.com") :: send (.resolve 7 bob) laterMessage ++
      send again sampleWorkspace

/-- A backfill adds an interaction of Ann between two sendings of her confirmation. -/
def recounted : List Action :=
  let ann : Task := .resolve 7 (confirmation (mailFrom "ann@gmail.com") "ann@gmail.com" "k1")
  send ann sampleWorkspace ++ .change (laterMailFrom "ann@gmail.com") ::
    send .backfill laterMessage ++ send ann sampleWorkspace

theorem resent_command_contradicted :
    (¬∀ s t, s.Initial → exec (step plainMail sampleWorkspace) s keyTaken = some t →
      ExactlyOnce t) ∧
    (¬∀ s t, s.Initial → exec (step plainMail sampleWorkspace) s recounted = some t →
      ExactlyOnce t) := by
  have hcontradicted : ∀ run ∈ [keyTaken, recounted], ((exec (step plainMail sampleWorkspace)
      (emptyWorld (mailFrom "ann@gmail.com")) run).any contradicted) = true := by decide +kernel
  have hrefuted : ∀ run ∈ [keyTaken, recounted], ¬∀ s t, s.Initial →
      exec (step plainMail sampleWorkspace) s run = some t → ExactlyOnce t := by
    intro run hrun hall
    obtain ⟨t, ht, hbad⟩ := (Option.any_eq_true _ _).1 (hcontradicted run hrun)
    exact not_exactlyOnce hbad (hall _ t (emptyWorld_initial _) ht)
  exact ⟨hrefuted _ (by simp), hrefuted _ (by simp)⟩

end FounderOs.CompanyWorld
