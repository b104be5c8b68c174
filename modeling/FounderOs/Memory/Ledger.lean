import FounderOs.Memory.Event
import FounderOs.Foundation.Transition
import Mathlib.Logic.Function.Basic

namespace FounderOs.Memory

open Execution (Instant)

abbrev TxnId := Nat

/-- The uncommitted rows of one transaction: its events, and its value of the stream row. It holds
the lock of the stream row exactly when it has written it. -/
structure Work where
  pending : List Event
  lastSequence : Option Nat
  deriving DecidableEq, Repr

inductive Outcome where
  | appended (event : Event)
  | replayed (event : Event)
  | conflict
  | failed
  deriving DecidableEq, Repr

inductive CallPc where
  | selecting
  | allocating
  | flushing (sequence : Nat)
  | reselecting
  | ended (outcome : Outcome)
  deriving DecidableEq, Repr

/-- One `append_company_memory_event`; `before` is the work at its start, to which its savepoint
goes back. -/
structure Call where
  entry : Entry
  observedAt : Instant
  before : Work
  pc : CallPc
  deriving DecidableEq, Repr

def Call.running (call : Call) : Bool :=
  match call.pc with
  | .ended _ => false
  | _ => true

structure Txn where
  work : Work
  savepoints : List Work
  call : Option Call
  deriving DecidableEq, Repr

def Txn.appending (x : Txn) : Bool := x.call.any Call.running

/-- The ledger of one workspace: `events` holds the committed rows in the order they became
visible, `lastSequence` the committed stream row, `lock` the transaction that has written it. -/
structure World where
  events : List Event
  lastSequence : Option Nat
  lock : Option TxnId
  txns : TxnId → Option Txn

def emptyLedger : World := ⟨[], none, none, fun _ => none⟩

/-- What a reader takes as its cursor. -/
def World.currentSequence (s : World) : Nat := s.lastSequence.getD 0

inductive Action where
  | begin (txn : TxnId)
  | append (txn : TxnId) (request : AppendRequest) (observedAt : Instant)
  | select (txn : TxnId)
  | allocate (txn : TxnId)
  | flush (txn : TxnId) (integrityError : Bool)
  | reselect (txn : TxnId)
  | interrupt (txn : TxnId)
  | savepoint (txn : TxnId)
  | release (txn : TxnId)
  | rollbackTo (txn : TxnId)
  | commit (txn : TxnId)
  | rollback (txn : TxnId)
  deriving DecidableEq, Repr

namespace World

variable (s : World) (txn : TxnId) (x : Txn)

def put : World := { s with txns := Function.update s.txns txn (some x) }

/-- A statement of a READ COMMITTED transaction sees what is committed and its own rows. -/
def visible : List Event := s.events ++ x.work.pending

/-- Going back to earlier work gives the row lock back when it was taken since. -/
def restore (work : Work) : World :=
  { s.put txn { x with work := work } with
    lock := if work.lastSequence.isNone ∧ s.lock = some txn then none else s.lock }

def close (events : List Event) (lastSequence : Option Nat) : World where
  events := events
  lastSequence := lastSequence
  lock := if s.lock = some txn then none else s.lock
  txns := Function.update s.txns txn none

end World

def Txn.at (x : Txn) (call : Call) (pc : CallPc) : Txn :=
  { x with call := some { call with pc := pc } }

section Steps

variable (s : World) (txn : TxnId) (x : Txn) (call : Call)

/-- `_assert_exact_replay` on the row with the same idempotency key, if there is one. -/
def existingOutcome (entry : Entry) (rows : List Event) : Option Outcome :=
  (rows.find? (fun event => event.key = entry.idempotencyKey)).map fun event =>
    if event.fingerprint ≠ entry.payloadFingerprint then .conflict else .replayed event

def appendStep (request : AppendRequest) (observedAt : Instant) : Option World :=
  if x.appending then none
  else
    match validatedEntry request with
    | .error _ => some (s.put txn { x with call := none })
    | .ok entry => some (s.put txn { x with call := some ⟨entry, observedAt, x.work, .selecting⟩ })

def selectStep : World :=
  match existingOutcome call.entry (s.visible x) with
  | some outcome => s.put txn (x.at call (.ended outcome))
  | none => s.put txn (x.at call .allocating)

/-- `_next_workspace_sequence`: the upsert waits while another transaction has the row. -/
def allocateStep : Option World :=
  if s.lock = none ∨ s.lock = some txn then
    let sequence := (x.work.lastSequence.orElse fun _ => s.lastSequence).getD 0 + 1
    some { s.put txn { x.at call (.flushing sequence) with
             work := { x.work with lastSequence := some sequence } } with lock := some txn }
  else none

/-- The insert of the event. A row of another open transaction does not show here: the insert would
wait for it, and the row lock leaves none. -/
def flushStep (sequence : Nat) (integrityError : Bool) : World :=
  let event : Event := ⟨sequence, call.entry, call.observedAt⟩
  if integrityError ∨ (s.visible x).any
      (fun row => row.key = event.key ∨ row.workspaceSequence = event.workspaceSequence) then
    s.restore txn (x.at call .reselecting) call.before
  else
    s.put txn { x.at call (.ended (.appended event)) with
      work := { x.work with pending := x.work.pending ++ [event] } }

def reselectStep : World :=
  s.put txn (x.at call (.ended ((existingOutcome call.entry (s.visible x)).getD .failed)))

/-- Any other exception: the savepoint of the append is rolled back, and the caller decides. -/
def interruptStep : World := s.restore txn (x.at call (.ended .failed)) call.before

def callStep (a : Action) : Option World :=
  match a, call.pc with
  | .select _, .selecting => some (selectStep s txn x call)
  | .allocate _, .allocating => allocateStep s txn x call
  | .flush _ integrityError, .flushing sequence =>
    some (flushStep s txn x call sequence integrityError)
  | .reselect _, .reselecting => some (reselectStep s txn x call)
  | .interrupt _, .selecting | .interrupt _, .allocating | .interrupt _, .flushing _
  | .interrupt _, .reselecting => some (interruptStep s txn x call)
  | _, _ => none

def txnStep (a : Action) : Option World :=
  match a with
  | .append _ request observedAt => appendStep s txn x request observedAt
  | .rollback _ => some (s.close txn s.events s.lastSequence)
  | .commit _ =>
    if x.appending then none
    else some (s.close txn (s.visible x) (x.work.lastSequence.orElse fun _ => s.lastSequence))
  | .savepoint _ =>
    if x.appending then none
    else some (s.put txn { x with savepoints := x.work :: x.savepoints })
  | .release _ =>
    if x.appending then none
    else some (s.put txn { x with savepoints := x.savepoints.tail })
  | .rollbackTo _ =>
    if x.appending then none
    else x.savepoints.head?.map (s.restore txn { x with savepoints := x.savepoints.tail })
  | a => x.call.bind fun call => callStep s txn x call a

end Steps

def Action.txn : Action → TxnId
  | .begin txn | .append txn _ _ | .select txn | .allocate txn | .flush txn _ | .reselect txn
  | .interrupt txn | .savepoint txn | .release txn | .rollbackTo txn | .commit txn
  | .rollback txn => txn

def step (s : World) (a : Action) : Option World :=
  match a with
  | .begin txn =>
    if (s.txns txn).isNone then some (s.put txn ⟨⟨[], none⟩, [], none⟩) else none
  | a => (s.txns a.txn).bind fun x => txnStep s a.txn x a

end FounderOs.Memory
