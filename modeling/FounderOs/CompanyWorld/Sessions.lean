import Mathlib.Logic.Function.Basic
import FounderOs.CompanyWorld.Resolution
import FounderOs.Foundation.Transition

namespace FounderOs.CompanyWorld

open Execution (UserId)
open Headquarters

abbrev SessionId := Nat

section backfill

variable (rules : MailRules) (workspaceId : Uuid)

/-- Those who have no durable row of their own, and whose address has none. -/
def proposedMemberships (members : List Member) (db : WorldTables) : List Member :=
  (members.filter (·.workspaceId = workspaceId)).filter fun member =>
    !db.people.any fun person => person.userId = some member.userId ||
      person.normalizedEmail = normalizeEmail rules member.email

def confirmedExternal (db : WorldTables) : List Person :=
  db.people.filter fun person =>
    person.origin = .founderConfirmation && person.userId.isNone && person.status = .active

def organizationOf (db : WorldTables) (person : Person) : Option Organization :=
  ((db.affiliations.filter (·.personId = person.id)).getLast?).bind fun affiliation =>
    db.organizations.find? (·.id = affiliation.organizationId)

/-- The person of a membership. The name of the user is left out. -/
def membershipPerson (drawn : Drawn) (member : Member) : Person where
  id := drawn.membershipPersonId member.userId
  userId := some member.userId
  normalizedEmail := normalizeEmail rules member.email
  displayName := none
  origin := .membership
  status := .active
  confirmedByUserId := none
  confirmedAt := none

/-- The interactions of the person that a backfill comes to at its place in the list. -/
def backfilledInteractions (rows : Readings) (before db : WorldTables) (entry : Person × Nat) :
    List Interaction :=
  materializePersonInteractions rules workspaceId (rows (2 * entry.2 + 1)).members
    (rows (2 * entry.2 + 2)).records db entry.1 (organizationOf before entry.1) none

/-- `backfill_company_world` with `apply=True`. -/
def backfillCompanyWorld (drawn : Drawn) (rows : Readings) (db : WorldTables) :
    Except ResolveError WorldTables :=
  ((proposedMemberships rules workspaceId (rows 0).members db).foldlM
      (fun (db : WorldTables) member => db.insertPerson (membershipPerson rules drawn member)) db).map
    fun withMembers => (confirmedExternal db).zipIdx.foldl (fun db' entry =>
      db'.addInteractions (backfilledInteractions rules workspaceId rows db db' entry)) withMembers

end backfill

inductive Task where
  | resolve (actorUserId : UserId) (command : ResolveCommand)
  | backfill
  deriving DecidableEq

/-- What a transaction has read since it has its locks: first the durable rows. -/
structure Held where
  seen : WorldTables
  readings : List WorldRows

structure Session where
  task : Task
  held : Option Held

/-- What a client was told, and the durable rows before and after. -/
structure Answer where
  command : ResolveCommand
  result : Except ResolveError Receipt
  before : WorldTables
  after : WorldTables

/-- The Company World of one workspace. `holder` has the advisory lock of the workspace; the locks
of a key and of a candidate are taken behind it, and are free then. -/
structure State where
  tables : WorldTables
  rows : SourceRows
  holder : Option SessionId
  sessions : SessionId → Option Session
  answers : List Answer

/-- `abort` is any failure that the rest does not name: a lost connection, a constraint on a length
or a reference, a client that goes away. `change` is the work of all others: imported and removed
messages, users and memberships. -/
inductive Action where
  | start (session : SessionId) (task : Task)
  | acquire (session : SessionId)
  | read (session : SessionId)
  | finish (session : SessionId) (drawn : Drawn)
  | abort (session : SessionId)
  | change (rows : SourceRows)

/-- A reading that is not a step of its own is made at the end. -/
def Held.rows (held : Held) (now : WorldRows) : Readings := fun n => held.readings.getD n now

/-- A commit adds the rows that a transaction has made of those it saw. -/
def published (seen after committed : WorldTables) : WorldTables where
  people := committed.people ++ after.people.drop seen.people.length
  organizations := committed.organizations ++ after.organizations.drop seen.organizations.length
  affiliations := committed.affiliations ++ after.affiliations.drop seen.affiliations.length
  interactions := committed.interactions ++ after.interactions.drop seen.interactions.length
  resolutions := committed.resolutions ++ after.resolutions.drop seen.resolutions.length
  memoryEvents := committed.memoryEvents ++ after.memoryEvents.drop seen.memoryEvents.length

namespace State

variable (s : State) (i : SessionId)

def put (session : Session) : State :=
  { s with sessions := Function.update s.sessions i (some session) }

/-- The end of a transaction gives its locks back. -/
def close (tables : WorldTables) (answers : List Answer) : State where
  tables := tables
  rows := s.rows
  holder := if s.holder = some i then none else s.holder
  sessions := Function.update s.sessions i none
  answers := answers

end State

section steps

variable (rules : MailRules) (workspaceId : Uuid) (s : State) (i : SessionId)

/-- A command that is refused leaves the transaction to be rolled back. -/
def finishStep (task : Task) (held : Held) (drawn : Drawn) : State :=
  let rows := held.rows (worldRows workspaceId held.seen s.rows)
  match task with
  | .resolve actorUserId command =>
    match resolveCompanyWorldCandidate rules workspaceId actorUserId command drawn rows
        held.seen with
    | .error e => s.close i s.tables (⟨command, .error e, s.tables, s.tables⟩ :: s.answers)
    | .ok (receipt, after) =>
      let tables := published held.seen after s.tables
      s.close i tables (⟨command, .ok receipt, s.tables, tables⟩ :: s.answers)
  | .backfill =>
    match backfillCompanyWorld rules workspaceId drawn rows held.seen with
    | .error _ => s.close i s.tables s.answers
    | .ok after => s.close i (published held.seen after s.tables) s.answers

def step : Action → Option State
  | .start i task => if (s.sessions i).isNone then some (s.put i ⟨task, none⟩) else none
  | .acquire i =>
    match s.sessions i with
    | some ⟨task, none⟩ =>
      if s.holder = none then some { s.put i ⟨task, some ⟨s.tables, []⟩⟩ with holder := some i }
      else none
    | _ => none
  | .read i =>
    match s.sessions i with
    | some ⟨task, some held⟩ =>
      some (s.put i ⟨task, some { held with
        readings := held.readings ++ [worldRows workspaceId held.seen s.rows] }⟩)
    | _ => none
  | .finish i drawn =>
    match s.sessions i with
    | some ⟨task, some held⟩ => some (finishStep rules workspaceId s i task held drawn)
    | _ => none
  | .abort i =>
    match s.sessions i with
    | some _ => some (s.close i s.tables s.answers)
    | none => none
  | .change rows => some { s with rows := rows }

end steps

end FounderOs.CompanyWorld
