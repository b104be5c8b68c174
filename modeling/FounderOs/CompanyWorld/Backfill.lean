import FounderOs.CompanyWorld.ExactlyOnce
import Mathlib.Algebra.Ring.Nat
import Mathlib.Data.List.Nodup

namespace FounderOs.CompanyWorld

open Headquarters

inductive BackfillError where
  /-- `IntegrityError` of a unique constraint. -/
  | integrity
  /-- `DataError` of an address that is longer than its column. -/
  | tooLong
  deriving DecidableEq, Repr

/-- The counts of a report. -/
structure BackfillCounts where
  membershipsSeen : Nat
  confirmedExternalPeopleSeen : Nat
  peopleProposed : Nat
  organizationsProposed : Nat
  affiliationsProposed : Nat
  interactionsProposed : Nat
  peopleWritten : Nat
  organizationsWritten : Nat
  affiliationsWritten : Nat
  interactionsWritten : Nat
  conflicts : Nat
  deriving DecidableEq, Repr

/-- A row of `people` as it is flushed; its address has a column of 320 characters. -/
def flushPerson (db : WorldTables) (person : Person) : Except BackfillError WorldTables :=
  if 320 < person.normalizedEmail.length then .error .tooLong
  else (db.insertPerson person).mapError fun _ => .integrity

def flushInteraction (db : WorldTables) (interaction : Interaction) :
    Except BackfillError WorldTables :=
  if db.interactions.any fun other => other.sourceRecordId = interaction.sourceRecordId &&
      other.personId = interaction.personId then .error .integrity
  else .ok (db.addInteractions [interaction])

section backfill

variable (rules : MailRules) (workspaceId : Uuid) (rows : SourceRows)

/-- What `materialize_person_interactions` comes to for a confirmed person. The organization is the
one that the person had at the start. -/
def plannedInteractions (before db : WorldTables) (person : Person) : List Interaction :=
  materializePersonInteractions rules workspaceId rows.members rows.records db person
    (organizationOf before person) none

/-- One round of the loop over the confirmed people. -/
def materializeNext (before : WorldTables) (written : Nat × WorldTables) (person : Person) :
    Except BackfillError (Nat × WorldTables) := do
  let interactions := plannedInteractions rules workspaceId rows before written.2 person
  let db ← interactions.foldlM flushInteraction written.2
  return (written.1 + interactions.length, db)

/-- A member whose person has another address, or whose address another person has. -/
def conflicting (db : WorldTables) (member : Member) : Bool :=
  let email := normalizeEmail rules member.email
  match db.people.find? (·.userId = some member.userId) with
  | some person => person.normalizedEmail != email
  | none => db.people.any (·.normalizedEmail = email)

/-- What is done only with `apply`: the people of the members are flushed together. -/
def applyBackfill (drawn : Drawn) (db : WorldTables) :
    Except BackfillError (Nat × WorldTables) := do
  let withMembers ← ((proposedMemberships rules workspaceId rows.members db).map
    (membershipPerson rules drawn)).foldlM flushPerson db
  (confirmedExternal db).foldlM (materializeNext rules workspaceId rows db) (0, withMembers)

/-- `backfill_company_world`; a report has the number of proposals of each confirmed person. -/
def backfill (apply : Bool) (drawn : Drawn) (db : WorldTables) :
    Except BackfillError (BackfillCounts × WorldTables) := do
  let memberships := rows.members.filter (·.workspaceId = workspaceId)
  let proposed := proposedMemberships rules workspaceId rows.members db
  let external := confirmedExternal db
  let proposals := external.map fun person =>
    (plannedInteractions rules workspaceId rows db db person).length
  let written ← if apply then applyBackfill rules workspaceId rows drawn db else .ok (0, db)
  return (
    { membershipsSeen := memberships.length
      confirmedExternalPeopleSeen := external.length
      peopleProposed := proposed.length
      organizationsProposed := 0
      affiliationsProposed := 0
      interactionsProposed := proposals.sum
      peopleWritten := if apply then proposed.length else 0
      organizationsWritten := 0
      affiliationsWritten := 0
      interactionsWritten := written.1
      conflicts := memberships.countP (conflicting rules db) }, written.2)

end backfill

section people

variable {db after : WorldTables} {person : Person} {people : List Person}

/-- One of the unique constraints bars the second row beside the first. -/
def Person.Collides (person other : Person) : Prop :=
  person.id = other.id ∨ person.normalizedEmail = other.normalizedEmail ∨
    (other.userId.isSome = true ∧ person.userId = other.userId)

theorem flushPerson_ok_iff : flushPerson db person = .ok after ↔
    person.normalizedEmail.length ≤ 320 ∧ (∀ other ∈ db.people, ¬other.Collides person) ∧
      after = { db with people := db.people ++ [person] } := by
  unfold flushPerson
  split
  · rename_i hlong
    exact ⟨(fun h => by cases h), fun h => absurd h.1 (Nat.not_le.2 hlong)⟩
  · rename_i hshort
    rw [mapError_ok_iff, WorldTables.insertPerson]
    split
    · rename_i hany
      obtain ⟨other, hother, hcollides⟩ := List.any_eq_true.1 hany
      refine ⟨(fun h => by cases h), fun h => absurd ?_ (h.2.1 other hother)⟩
      simpa [Person.Collides, or_assoc] using hcollides
    · rename_i hnone
      have hfree : ∀ other ∈ db.people, ¬other.Collides person := by
        intro other hother hcollides
        refine hnone (List.any_eq_true.2 ⟨other, hother, ?_⟩)
        simpa [Person.Collides, or_assoc] using hcollides
      constructor
      · intro h
        exact ⟨Nat.le_of_not_lt hshort, hfree, (Except.ok.inj h).symm⟩
      · rintro ⟨-, -, rfl⟩
        rfl

/-- The rows go in together exactly if they fit and nothing bars one of them. -/
theorem flushPeople_ok_iff : people.foldlM flushPerson db = .ok after ↔
    (∀ person ∈ people, person.normalizedEmail.length ≤ 320 ∧
      ∀ other ∈ db.people, ¬other.Collides person) ∧
        people.Pairwise (fun person other => ¬person.Collides other) ∧
          after = { db with people := db.people ++ people } := by
  induction people generalizing db with
  | nil =>
    constructor
    · intro h
      cases h
      exact ⟨List.forall_mem_nil _, .nil, by simp⟩
    · rintro ⟨-, -, rfl⟩
      simp
      rfl
  | cons person people ih =>
    rw [List.foldlM_cons, List.pairwise_cons, List.forall_mem_cons]
    constructor
    · intro h
      obtain ⟨next, hnext, h⟩ := ok_of_bind_ok h
      obtain ⟨hshort, hfree, rfl⟩ := flushPerson_ok_iff.1 hnext
      obtain ⟨hall, hpairs, rfl⟩ := ih.1 h
      have hlater (other : Person) (hother : other ∈ people) : ¬person.Collides other :=
        (hall other hother).2 person (List.mem_append_right _ (List.mem_singleton_self _))
      refine ⟨⟨⟨hshort, hfree⟩, fun other hother => ⟨(hall other hother).1, fun row hrow => ?_⟩⟩,
        ⟨hlater, hpairs⟩, by simp⟩
      exact (hall other hother).2 row (List.mem_append_left _ hrow)
    · rintro ⟨⟨⟨hshort, hfree⟩, hall⟩, ⟨hfirst, hpairs⟩, rfl⟩
      rw [flushPerson_ok_iff.2 ⟨hshort, hfree, rfl⟩]
      refine ih.2 ⟨fun other hother => ⟨(hall other hother).1, fun row hrow => ?_⟩, hpairs, by simp⟩
      rcases List.mem_append.1 hrow with hrow | hrow
      · exact (hall other hother).2 row hrow
      · rw [List.mem_singleton.1 hrow]
        exact hfirst other hother

end people

section interactions

variable {rules : MailRules} {workspaceId : Uuid} {rows : SourceRows} {before db db' : WorldTables}
variable {person : Person} {people : List Person} {interactions : List Interaction}

theorem flushInteractions_ok
    (hfree : ∀ interaction ∈ interactions, ∀ other ∈ db.interactions,
      other.sourceRecordId = interaction.sourceRecordId → other.personId ≠ interaction.personId)
    (hnodup : (interactions.map (·.sourceRecordId)).Nodup) :
    interactions.foldlM flushInteraction db = .ok (db.addInteractions interactions) := by
  induction interactions generalizing db with
  | nil => simp [WorldTables.addInteractions]; rfl
  | cons interaction interactions ih =>
    rw [List.forall_mem_cons] at hfree
    rw [List.map_cons, List.nodup_cons] at hnodup
    have hfirst : flushInteraction db interaction = .ok (db.addInteractions [interaction]) := by
      refine if_neg fun hany => ?_
      obtain ⟨other, hother, hsame⟩ := List.any_eq_true.1 hany
      simp only [Bool.and_eq_true, decide_eq_true_eq] at hsame
      exact hfree.1 other hother hsame.1 hsame.2
    rw [List.foldlM_cons, hfirst]
    refine (ih (fun later hlater other hother hsource => ?_) hnodup.2).trans ?_
    · rcases List.mem_append.1 hother with hother | hother
      · exact hfree.2 later hlater other hother hsource
      · rw [List.mem_singleton.1 hother] at hsource
        exact absurd (hsource ▸ List.mem_map_of_mem hlater) hnodup.1
    · simp [WorldTables.addInteractions]

theorem personId_of_planned {interaction : Interaction}
    (h : interaction ∈ plannedInteractions rules workspaceId rows before db person) :
    interaction.personId = person.id :=
  (mem_materialize h).1

/-- A message is planned for the person exactly if they take part in it and have it not yet. -/
theorem mem_sources_planned {id : Uuid} :
    id ∈ (plannedInteractions rules workspaceId rows before db person).map (·.sourceRecordId) ↔
      normalizeEmail rules person.normalizedEmail ≠ [] ∧
        ∃ record ∈ rows.records, Unmet rules workspaceId db person record ∧ record.id = id := by
  unfold plannedInteractions materializePersonInteractions Unmet
  dsimp only
  split
  · rename_i hempty
    exact ⟨(fun h => by cases h), fun h => absurd hempty h.1⟩
  · rename_i hemail
    simp only [List.map_map, List.mem_map, List.mem_filter, List.mem_mergeSort, Function.comp_apply,
      Option.all_none, and_true, Bool.and_eq_true, Bool.not_eq_true', List.contains_eq_mem,
      decide_eq_true_eq, decide_eq_false_iff_not, not_exists, not_and]
    constructor
    · rintro ⟨record, ⟨⟨hrecord, hgmail⟩, hparticipant, hnew⟩, rfl⟩
      exact ⟨hemail, record, hrecord, ⟨hgmail, hparticipant, hnew⟩, rfl⟩
    · rintro ⟨-, record, hrecord, ⟨hgmail, hparticipant, hnew⟩, rfl⟩
      exact ⟨record, ⟨⟨hrecord, hgmail⟩, hparticipant, hnew⟩, rfl⟩

theorem free_of_planned {interaction other : Interaction}
    (h : interaction ∈ plannedInteractions rules workspaceId rows before db person)
    (hother : other ∈ db.interactions)
    (hsource : other.sourceRecordId = interaction.sourceRecordId) :
    other.personId ≠ interaction.personId := by
  obtain ⟨-, record, -, ⟨-, -, hnew⟩, hid⟩ := mem_sources_planned.1 (List.mem_map_of_mem h)
  rw [personId_of_planned h]
  intro hperson
  exact hnew other (List.mem_filter.2 ⟨hother, decide_eq_true hperson⟩) (hsource.trans hid.symm)

/-- A record is planned once. -/
theorem nodup_planned (hrecords : (rows.records.map (·.id)).Nodup) :
    ((plannedInteractions rules workspaceId rows before db person).map
      (·.sourceRecordId)).Nodup := by
  unfold plannedInteractions materializePersonInteractions
  dsimp only
  split
  · exact List.nodup_nil
  · rw [List.map_map]
    have hfiltered : (((rows.records.filter (isGmailMessage workspaceId)).filter fun _ =>
        true).map (·.id)).Nodup :=
      hrecords.sublist ((List.filter_sublist.trans List.filter_sublist).map _)
    refine List.Nodup.sublist (List.filter_sublist.map _) ?_
    exact ((List.mergeSort_perm _ _).map _).nodup_iff.2 hfiltered

/-- Only the interactions of the person decide what is planned for them. -/
theorem planned_congr (h : db.interactionsOf person.id = db'.interactionsOf person.id) :
    plannedInteractions rules workspaceId rows before db person =
      plannedInteractions rules workspaceId rows before db' person := by
  unfold plannedInteractions materializePersonInteractions
  rw [h]

/-- What was planned is not planned again. -/
theorem planned_again {before' : WorldTables} (h : db'.interactionsOf person.id =
    db.interactionsOf person.id ++ plannedInteractions rules workspaceId rows before db person) :
    plannedInteractions rules workspaceId rows before' db' person = [] := by
  rw [List.eq_nil_iff_forall_not_mem]
  intro interaction hmem
  obtain ⟨hemail, record, hrecord, ⟨hgmail, hparticipant, hnew⟩, -⟩ :=
    mem_sources_planned.1 (List.mem_map_of_mem hmem)
  have hunmet : Unmet rules workspaceId db person record :=
    ⟨hgmail, hparticipant, fun other hother => hnew other (h ▸ List.mem_append_left _ hother)⟩
  have hplanned : record.id ∈ (plannedInteractions rules workspaceId rows before db person).map
      (·.sourceRecordId) :=
    mem_sources_planned.2 ⟨hemail, record, hrecord, hunmet, rfl⟩
  obtain ⟨other, hother, hsource⟩ := List.mem_map.1 hplanned
  exact hnew other (h ▸ List.mem_append_right _ hother) hsource

theorem interactionsOf_add_other (hother : ∀ interaction ∈ interactions,
    interaction.personId ≠ person.id) :
    (db.addInteractions interactions).interactionsOf person.id = db.interactionsOf person.id := by
  have hnone : interactions.filter (·.personId = person.id) = [] :=
    List.filter_eq_nil_iff.2 fun interaction hmem => by simpa using hother interaction hmem
  rw [WorldTables.interactionsOf, WorldTables.addInteractions, List.filter_append, hnone,
    List.append_nil]
  rfl

variable (rules workspaceId rows before) in
def allPlanned (db : WorldTables) (people : List Person) : List Interaction :=
  people.flatMap (plannedInteractions rules workspaceId rows before db)

theorem allPlanned_congr (h : ∀ person ∈ people,
    db.interactionsOf person.id = db'.interactionsOf person.id) :
    allPlanned rules workspaceId rows before db people =
      allPlanned rules workspaceId rows before db' people :=
  List.flatMap_congr fun person hperson => planned_congr (h person hperson)

/-- Each person is planned for once. -/
theorem filter_allPlanned (hpeople : (people.map (·.id)).Nodup) (hperson : person ∈ people) :
    (allPlanned rules workspaceId rows before db people).filter (·.personId = person.id) =
      plannedInteractions rules workspaceId rows before db person := by
  have hown : (plannedInteractions rules workspaceId rows before db person).filter
      (·.personId = person.id) = plannedInteractions rules workspaceId rows before db person :=
    List.filter_eq_self.2 fun interaction hmem => by simpa using personId_of_planned hmem
  have hother {other : Person} (hid : other.id ≠ person.id) :
      (plannedInteractions rules workspaceId rows before db other).filter
        (·.personId = person.id) = [] :=
    List.filter_eq_nil_iff.2 fun interaction hmem => by
      simpa [personId_of_planned hmem] using hid
  unfold allPlanned
  induction people with
  | nil => cases hperson
  | cons head people ih =>
    rw [List.map_cons, List.nodup_cons] at hpeople
    rw [List.flatMap_cons, List.filter_append]
    rcases List.mem_cons.1 hperson with rfl | hperson
    · have hrest : (people.flatMap (plannedInteractions rules workspaceId rows before db)).filter
          (·.personId = person.id) = [] := by
        refine List.filter_eq_nil_iff.2 fun interaction hmem => ?_
        obtain ⟨other, hmember, hmem⟩ := List.mem_flatMap.1 hmem
        rw [personId_of_planned hmem, decide_eq_true_eq]
        exact fun hid => hpeople.1 (hid ▸ List.mem_map_of_mem hmember)
      rw [hown, hrest, List.append_nil]
    · have hid : head.id ≠ person.id := fun hid => hpeople.1 (hid ▸ List.mem_map_of_mem hperson)
      rw [hother hid, List.nil_append]
      exact ih hpeople.2 hperson

/-- What is added for one person leaves the plans for the others as they are. -/
theorem allPlanned_add (hperson : person.id ∉ people.map (·.id)) :
    allPlanned rules workspaceId rows before
        (db.addInteractions (plannedInteractions rules workspaceId rows before db person)) people =
      allPlanned rules workspaceId rows before db people := by
  refine allPlanned_congr fun other hother => interactionsOf_add_other fun interaction hmem => ?_
  rw [personId_of_planned hmem]
  exact fun hid => hperson (hid ▸ List.mem_map_of_mem hother)

/-- The confirmed people are written one after another as they are planned at the start. -/
theorem materialize_ok (hrecords : (rows.records.map (·.id)).Nodup)
    (hpeople : (people.map (·.id)).Nodup) (written : Nat) :
    people.foldlM (materializeNext rules workspaceId rows before) (written, db) =
      .ok (written + (allPlanned rules workspaceId rows before db people).length,
        db.addInteractions (allPlanned rules workspaceId rows before db people)) := by
  induction people generalizing db written with
  | nil => simp [allPlanned, WorldTables.addInteractions]; rfl
  | cons person people ih =>
    rw [List.map_cons, List.nodup_cons] at hpeople
    have hfree : ∀ interaction ∈ plannedInteractions rules workspaceId rows before db person,
        ∀ other ∈ db.interactions, other.sourceRecordId = interaction.sourceRecordId →
          other.personId ≠ interaction.personId :=
      fun interaction hmem other hother hsource => free_of_planned hmem hother hsource
    have hflush := flushInteractions_ok hfree (nodup_planned hrecords)
    have hnext : materializeNext rules workspaceId rows before (written, db) person =
        .ok (written + (plannedInteractions rules workspaceId rows before db person).length,
          db.addInteractions (plannedInteractions rules workspaceId rows before db person)) := by
      unfold materializeNext
      dsimp only
      rw [hflush]
      rfl
    rw [List.foldlM_cons, hnext]
    refine (ih hpeople.2 _).trans ?_
    rw [allPlanned_add hpeople.1]
    simp [allPlanned, WorldTables.addInteractions, Nat.add_assoc]

end interactions

section honest

variable (rules : MailRules) (workspaceId : Uuid) (rows : SourceRows)

/-- The primary keys of what a backfill reads. -/
structure Keyed (db : WorldTables) : Prop where
  people : (db.people.map (·.id)).Nodup
  members : ((rows.members.filter (·.workspaceId = workspaceId)).map (·.userId)).Nodup
  records : (rows.records.map (·.id)).Nodup

/-- The ids that are drawn for the members are new ones. -/
structure FreshPeople (drawn : Drawn) (db : WorldTables) : Prop where
  distinct : ∀ first ∈ rows.members, ∀ second ∈ rows.members,
    drawn.membershipPersonId first.userId = drawn.membershipPersonId second.userId →
      first.userId = second.userId
  unused : ∀ member ∈ rows.members, ∀ person ∈ db.people,
    person.id ≠ drawn.membershipPersonId member.userId

/-- The rows with the people of the proposed members and the planned interactions. -/
def backfilled (drawn : Drawn) (db : WorldTables) : WorldTables :=
  { db with
    people := db.people ++ (proposedMemberships rules workspaceId rows.members db).map
      (membershipPerson rules drawn)
    interactions := db.interactions ++
      allPlanned rules workspaceId rows db db (confirmedExternal db) }

/-- A dry run counts the rows that an apply run makes, and a second apply run makes none. -/
def Honest (drawn drawn' : Drawn) (db : WorldTables) : Prop :=
  ∃ dry report again people interactions,
    backfill rules workspaceId rows false drawn db = .ok (dry, db) ∧
      let after := { db with
        people := db.people ++ people
        interactions := db.interactions ++ interactions }
      backfill rules workspaceId rows true drawn db = .ok (report, after) ∧
        dry.peopleProposed = people.length ∧ dry.interactionsProposed = interactions.length ∧
          dry.organizationsProposed = 0 ∧ dry.affiliationsProposed = 0 ∧
            backfill rules workspaceId rows true drawn' after = .ok (again, after)

/-- The members that have no durable row keep addresses of their own when they are normalized, and
these fit their column. -/
def Addressed (db : WorldTables) : Prop :=
  ((proposedMemberships rules workspaceId rows.members db).map fun member =>
      normalizeEmail rules member.email).Nodup ∧
    ∀ member ∈ proposedMemberships rules workspaceId rows.members db,
      (normalizeEmail rules member.email).length ≤ 320

variable {rules workspaceId rows} {db after : WorldTables} {drawn drawn' : Drawn}

theorem mem_proposed {member : Member} :
    member ∈ proposedMemberships rules workspaceId rows.members db ↔
      (member ∈ rows.members ∧ member.workspaceId = workspaceId) ∧
        ∀ person ∈ db.people, person.userId ≠ some member.userId ∧
          person.normalizedEmail ≠ normalizeEmail rules member.email := by
  rw [proposedMemberships, List.mem_filter, List.mem_filter, decide_eq_true_eq]
  refine and_congr_right fun _ => ?_
  simp [not_or]

theorem proposed_sublist : (proposedMemberships rules workspaceId rows.members db).Sublist
    (rows.members.filter (·.workspaceId = workspaceId)) := List.filter_sublist

/-- Nothing bars the people of the members that are proposed beside an address that two share. -/
theorem flushMembers_ok_iff (hkeyed : Keyed workspaceId rows db)
    (hfresh : FreshPeople rows drawn db) :
    ((proposedMemberships rules workspaceId rows.members db).map
        (membershipPerson rules drawn)).foldlM flushPerson db = .ok after ↔
      Addressed rules workspaceId rows db ∧ after = { db with
        people := db.people ++ (proposedMemberships rules workspaceId rows.members db).map
          (membershipPerson rules drawn) } := by
  rw [flushPeople_ok_iff, List.pairwise_map, List.forall_mem_map, Addressed]
  constructor
  · rintro ⟨hall, hpairs, rfl⟩
    refine ⟨⟨?_, fun member hmember => (hall member hmember).1⟩, rfl⟩
    exact List.pairwise_map.2 (hpairs.imp fun hfree hsame => hfree (.inr (.inl hsame)))
  · rintro ⟨⟨hemails, hlengths⟩, rfl⟩
    refine ⟨fun member hmember => ⟨hlengths member hmember, fun other hother hcollides => ?_⟩, ?_,
      rfl⟩
    · obtain ⟨⟨hmem, -⟩, hfree⟩ := mem_proposed.1 hmember
      rcases hcollides with hid | hemail | ⟨-, huser⟩
      · exact hfresh.unused member hmem other hother hid
      · exact (hfree other hother).2 hemail
      · exact (hfree other hother).1 huser
    · have husers : (proposedMemberships rules workspaceId rows.members db).Pairwise
          fun first second => first.userId ≠ second.userId :=
        List.pairwise_map.1 (hkeyed.members.sublist (proposed_sublist.map _))
      refine (husers.and (List.pairwise_map.1 hemails)).imp_of_mem ?_
      rintro first second hfirst hsecond ⟨huser, hemail⟩ hcollides
      rcases hcollides with hid | hsame | ⟨-, hsame⟩
      · exact huser (hfresh.distinct first (mem_proposed.1 hfirst).1.1 second
          (mem_proposed.1 hsecond).1.1 hid)
      · exact hemail hsame
      · exact huser (Option.some.inj hsame)

/-- After a run no member is proposed any more. -/
theorem proposed_again : proposedMemberships rules workspaceId rows.members
    (backfilled rules workspaceId rows drawn db) = [] := by
  rw [List.eq_nil_iff_forall_not_mem]
  intro member hmember
  obtain ⟨hmem, hfree⟩ := mem_proposed.1 hmember
  have hproposed : member ∈ proposedMemberships rules workspaceId rows.members db :=
    mem_proposed.2 ⟨hmem, fun person hperson => hfree person (List.mem_append_left _ hperson)⟩
  have hadded : membershipPerson rules drawn member ∈
      (backfilled rules workspaceId rows drawn db).people :=
    List.mem_append_right _ (List.mem_map_of_mem hproposed)
  exact (hfree _ hadded).1 rfl

theorem external_again : confirmedExternal (backfilled rules workspaceId rows drawn db) =
    confirmedExternal db := by
  have hnone : ((proposedMemberships rules workspaceId rows.members db).map
      (membershipPerson rules drawn)).filter (fun person =>
        person.origin = .founderConfirmation && person.userId.isNone &&
          person.status = .active) = [] := by
    refine List.filter_eq_nil_iff.2 fun person hperson => ?_
    obtain ⟨member, -, rfl⟩ := List.mem_map.1 hperson
    simp [membershipPerson]
  unfold confirmedExternal backfilled
  rw [List.filter_append, hnone, List.append_nil]

theorem Keyed.external (h : Keyed workspaceId rows db) :
    ((confirmedExternal db).map (·.id)).Nodup :=
  h.people.sublist (List.filter_sublist.map _)

theorem allPlanned_again (hkeyed : Keyed workspaceId rows db) {before : WorldTables} :
    allPlanned rules workspaceId rows before (backfilled rules workspaceId rows drawn db)
      (confirmedExternal db) = [] := by
  refine List.flatMap_eq_nil_iff.2 fun person hperson => ?_
  have hown : (backfilled rules workspaceId rows drawn db).interactionsOf person.id =
      db.interactionsOf person.id ++ plannedInteractions rules workspaceId rows db db person := by
    unfold WorldTables.interactionsOf backfilled
    rw [List.filter_append, filter_allPlanned hkeyed.external hperson]
  exact planned_again hown

theorem backfill_iff :
    (∃ report, backfill rules workspaceId rows true drawn db = .ok (report, after)) ↔
      ∃ written, applyBackfill rules workspaceId rows drawn db = .ok (written, after) := by
  constructor
  · rintro ⟨report, h⟩
    obtain ⟨written, hwritten, h⟩ := ok_of_bind_ok h
    cases h
    exact ⟨written.1, hwritten⟩
  · rintro ⟨written, h⟩
    apply Exists.intro
    unfold backfill
    rw [if_pos rfl, h]
    rfl

/-- The interactions of the confirmed people are those that a dry run plans. -/
theorem materialize_members (hkeyed : Keyed workspaceId rows db) :
    (confirmedExternal db).foldlM (materializeNext rules workspaceId rows db)
        (0, { db with
          people := db.people ++ (proposedMemberships rules workspaceId rows.members db).map
            (membershipPerson rules drawn) }) =
      .ok ((allPlanned rules workspaceId rows db db (confirmedExternal db)).length,
        backfilled rules workspaceId rows drawn db) := by
  rw [materialize_ok hkeyed.records hkeyed.external, Nat.zero_add]
  rfl

/-- What a run with `apply` comes to, where the people of the members go in. -/
theorem backfill_apply (hkeyed : Keyed workspaceId rows db) (hfresh : FreshPeople rows drawn db) :
    (∃ report, backfill rules workspaceId rows true drawn db = .ok (report, after)) ↔
      Addressed rules workspaceId rows db ∧ after = backfilled rules workspaceId rows drawn db := by
  rw [backfill_iff]
  constructor
  · rintro ⟨written, h⟩
    obtain ⟨withMembers, hmembers, h⟩ := ok_of_bind_ok h
    obtain ⟨haddressed, rfl⟩ := (flushMembers_ok_iff hkeyed hfresh).1 hmembers
    rw [materialize_members hkeyed] at h
    cases h
    exact ⟨haddressed, rfl⟩
  · rintro ⟨haddressed, rfl⟩
    apply Exists.intro
    unfold applyBackfill
    rw [(flushMembers_ok_iff hkeyed hfresh).2 ⟨haddressed, rfl⟩]
    exact materialize_members hkeyed

theorem sum_lengths {people : List Person} :
    (people.map fun person =>
        (plannedInteractions rules workspaceId rows db db person).length).sum =
      (allPlanned rules workspaceId rows db db people).length :=
  List.length_flatMap.symm

/-- A second run finds nothing to do. -/
theorem backfill_again (hkeyed : Keyed workspaceId rows db) :
    ∃ again, backfill rules workspaceId rows true drawn'
        (backfilled rules workspaceId rows drawn db) =
      .ok (again, backfilled rules workspaceId rows drawn db) := by
  refine backfill_iff.2 ⟨0, ?_⟩
  unfold applyBackfill
  rw [proposed_again, external_again]
  refine (materialize_ok hkeyed.records hkeyed.external 0).trans ?_
  rw [allPlanned_again hkeyed]
  simp [WorldTables.addInteractions]

theorem insert_of_flush {members : List Member}
    (h : (members.map (membershipPerson rules drawn)).foldlM flushPerson db = .ok after) :
    members.foldlM (fun (db : WorldTables) member =>
      db.insertPerson (membershipPerson rules drawn member)) db = .ok after := by
  induction members generalizing db with
  | nil =>
    cases h
    rfl
  | cons member members ih =>
    rw [List.map_cons, List.foldlM_cons] at h
    obtain ⟨next, hnext, h⟩ := ok_of_bind_ok h
    have hinsert : db.insertPerson (membershipPerson rules drawn member) = .ok next := by
      unfold flushPerson at hnext
      split at hnext
      · cases hnext
      · exact mapError_ok_iff.1 hnext
    rw [List.foldlM_cons, hinsert]
    exact ih h

theorem foldl_planned {before : WorldTables} {people : List Person} (n : Nat)
    (hpeople : (people.map (·.id)).Nodup) :
    (people.zipIdx n).foldl (fun db entry => db.addInteractions (backfilledInteractions rules
        workspaceId (fun _ => worldRows workspaceId before rows) before db entry)) db =
      db.addInteractions (allPlanned rules workspaceId rows before db people) := by
  induction people generalizing db n with
  | nil => simp [allPlanned, WorldTables.addInteractions]
  | cons person people ih =>
    rw [List.map_cons, List.nodup_cons] at hpeople
    have hown : backfilledInteractions rules workspaceId
        (fun _ => worldRows workspaceId before rows) before db (person, n) =
          plannedInteractions rules workspaceId rows before db person := rfl
    rw [List.zipIdx_cons, List.foldl_cons, ih _ hpeople.2, hown, allPlanned_add hpeople.1]
    simp [allPlanned, WorldTables.addInteractions]

/-- A run that goes through leaves what the task of a session makes of rows that stay. -/
theorem backfillCompanyWorld_of_apply {report : BackfillCounts} (hkeyed : Keyed workspaceId rows db)
    (hfresh : FreshPeople rows drawn db)
    (h : backfill rules workspaceId rows true drawn db = .ok (report, after)) :
    backfillCompanyWorld rules workspaceId drawn (fun _ => worldRows workspaceId db rows) db =
      .ok after := by
  obtain ⟨haddressed, rfl⟩ := (backfill_apply hkeyed hfresh).1 ⟨report, h⟩
  have hmembers := insert_of_flush ((flushMembers_ok_iff hkeyed hfresh).2 ⟨haddressed, rfl⟩)
  change Except.map _ (List.foldlM _ db (proposedMemberships rules workspaceId rows.members db)) = _
  rw [hmembers]
  exact congrArg Except.ok (foldl_planned 0 hkeyed.external)

end honest

/-- A casefold of the letters of the sample. -/
def sharpMail : MailRules where
  casefold text := text.flatMap fun c =>
    if c = 223 then [115, 115] else if 65 ≤ c ∧ c ≤ 90 then [c + 32] else [c]
  parseaddr text := ([], text)

def memberOf (userId : Nat) (email : String) : Member :=
  ⟨userId, sampleWorkspace, Str.of email, true⟩

/-- Someone who was confirmed, and has written since. -/
def confirmedAnn : WorldTables where
  people := [⟨sampleWorkspace, none, Str.of "ann@gmail.com", none, .founderConfirmation, .active,
    some 7, some 0⟩]
  organizations := []
  affiliations := []
  interactions := []
  resolutions := []
  memoryEvents := []

def membersOf (members : List Member) : SourceRows where
  records := [sampleMessage sampleWorkspace (Str.of "ann@gmail.com")]
  members := members
  record_id := (mailFrom "ann@gmail.com").record_id

def memberId : Uuid := sampleUuid (Fin.last 9)

def twoDrawn : Drawn where
  personId := sampleWorkspace
  organizationId := sampleWorkspace
  affiliationId := sampleWorkspace
  resolutionId := sampleWorkspace
  membershipPersonId userId := if userId = 7 then laterMessage else memberId
  now := 0

theorem keyed_membersOf {first second : String} :
    Keyed sampleWorkspace (membersOf [memberOf 7 first, memberOf 8 second]) confirmedAnn where
  people := List.nodup_singleton _
  members := by simp [membersOf, memberOf]
  records := List.nodup_singleton _

theorem fresh_membersOf {first second : String} :
    FreshPeople (membersOf [memberOf 7 first, memberOf 8 second]) twoDrawn confirmedAnn where
  distinct := by
    have hne : laterMessage ≠ memberId := by decide +kernel
    simp [membersOf, memberOf, twoDrawn, hne, hne.symm]
  unused := by
    have hfirst : sampleWorkspace ≠ laterMessage := laterMessage_ne
    have hsecond : sampleWorkspace ≠ memberId := by decide +kernel
    simp [membersOf, memberOf, twoDrawn, confirmedAnn, hfirst, hsecond]

end FounderOs.CompanyWorld
