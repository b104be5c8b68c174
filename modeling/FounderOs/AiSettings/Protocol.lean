import FounderOs.AiSettings.Model
import FounderOs.Foundation.Transition
import Mathlib.Logic.Function.Basic

namespace FounderOs.AiSettings

open WorkspaceAiConfiguration

abbrev CallId := Nat

/-- A committed save or removal. -/
structure Write where
  before : Option WorkspaceAiConfiguration
  after : WorkspaceAiConfiguration
  deriving DecidableEq

/-- A call of the provider that has come back. `readAfter` counts the saves and removals that were
committed when its check read the row. -/
structure Probe where
  readAfter : Nat
  request : ProbeRequest
  outcome : ProbeOutcome
  deriving DecidableEq

inductive AiPc where
  | saveRequested (userId : UserId) (payload : AiSettingsInput)
  | inserting (row : WorkspaceAiConfiguration)
  | removeRequested
  | writing (write : Write)
  | probing (readAfter : Nat) (read : CheckRead)
  | probed (readAfter : Nat) (read : CheckRead) (outcome : ProbeOutcome)
  | recording (row : WorkspaceAiConfiguration)
  deriving DecidableEq

/-- The row of a workspace with the open requests on it. `lock` is who holds the row, or the entry of
an uncommitted one in the unique index. `writes` and `probes` are history. -/
structure AiWorld where
  clock : Nat
  configuration : Option WorkspaceAiConfiguration
  lock : Option CallId
  calls : CallId → Option AiPc
  writes : List Write
  probes : List Probe

/-- `fail` is any end that is not named: a rollback, a lost connection, a cancelled request. -/
inductive AiAction where
  | save (call : CallId) (userId : UserId) (payload : AiSettingsInput)
  | lockForSave (call : CallId) (nonce : Str)
  | insert (call : CallId)
  | remove (call : CallId)
  | lockForRemove (call : CallId)
  | check (call : CallId)
  | probe (call : CallId) (outcome : ProbeOutcome)
  | lockForCheck (call : CallId)
  | commit (call : CallId)
  | fail (call : CallId)
  | tick (elapsed : Nat)
  deriving DecidableEq

namespace AiWorld

variable (s : AiWorld) (i : CallId)

def put (pc : AiPc) : AiWorld := { s with calls := Function.update s.calls i (some pc) }

def hold (pc : AiPc) : AiWorld := { s.put i pc with lock := some i }

def close : AiWorld :=
  { s with
    lock := if s.lock = some i then none else s.lock
    calls := Function.update s.calls i none }

@[simp] theorem put_calls_self (pc : AiPc) : (s.put i pc).calls i = some pc :=
  Function.update_self ..

@[simp] theorem hold_calls_self (pc : AiPc) : (s.hold i pc).calls i = some pc :=
  Function.update_self ..

@[simp] theorem close_calls_self : (s.close i).calls i = none := Function.update_self ..

end AiWorld

section steps

variable (server : Server) (s : AiWorld) (i : CallId)

/-- `SELECT ... FOR UPDATE` locks nothing where there is no row. -/
def lockForSaveStep (nonce : Str) (userId : UserId) (payload : AiSettingsInput) :
    Option AiWorld :=
  match saveWorkspaceAiSettings server nonce s.clock userId payload s.configuration,
      s.configuration with
  | .ok row, none => some (s.put i (.inserting row))
  | .error _, none => some (s.close i)
  | .ok row, some before =>
    if s.lock = none then some (s.hold i (.writing ⟨some before, row⟩)) else none
  | .error _, some _ => if s.lock = none then some (s.close i) else none

/-- A second row for the workspace breaks the unique constraint. -/
def insertStep (row : WorkspaceAiConfiguration) : Option AiWorld :=
  match s.configuration with
  | some _ => some (s.close i)
  | none => if s.lock = none then some (s.hold i (.writing ⟨none, row⟩)) else none

def lockForRemoveStep : Option AiWorld :=
  match s.configuration with
  | none => some (s.close i)
  | some before =>
    if s.lock = none then
      some (s.hold i (.writing ⟨some before, removeWorkspaceAiCredential before⟩))
    else none

def checkStep : AiWorld :=
  if server.enableLlm then
    match readForCheck server s.configuration with
    | .error _ => s
    | .ok read => s.put i (.probing s.writes.length read)
  else s

def probeStep (readAfter : Nat) (read : CheckRead) (outcome : ProbeOutcome) : AiWorld :=
  { s.put i (.probed readAfter read outcome) with
    probes := s.probes ++ [⟨readAfter, read.request server, outcome⟩] }

def lockForCheckStep (read : CheckRead) (outcome : ProbeOutcome) : Option AiWorld :=
  match s.configuration with
  | none => some (s.close i)
  | some current =>
    if s.lock = none then
      if current.configurationVersion ≠ read.version then some (s.close i)
      else some (s.hold i (.recording (recordCheck s.clock read.model outcome current)))
    else none

def commitWrite (write : Write) : AiWorld :=
  { s.close i with configuration := some write.after, writes := s.writes ++ [write] }

def commitCheck (row : WorkspaceAiConfiguration) : AiWorld :=
  { s.close i with configuration := some row }

def aiStep (s : AiWorld) : AiAction → Option AiWorld
  | .save i userId payload =>
    if s.calls i = none then some (s.put i (.saveRequested userId payload)) else none
  | .lockForSave i nonce =>
    match s.calls i with
    | some (.saveRequested userId payload) => lockForSaveStep server s i nonce userId payload
    | _ => none
  | .insert i =>
    match s.calls i with
    | some (.inserting row) => insertStep s i row
    | _ => none
  | .remove i => if s.calls i = none then some (s.put i .removeRequested) else none
  | .lockForRemove i =>
    match s.calls i with
    | some .removeRequested => lockForRemoveStep s i
    | _ => none
  | .check i => if s.calls i = none then some (checkStep server s i) else none
  | .probe i outcome =>
    match s.calls i with
    | some (.probing readAfter read) => some (probeStep server s i readAfter read outcome)
    | _ => none
  | .lockForCheck i =>
    match s.calls i with
    | some (.probed _ read outcome) => lockForCheckStep s i read outcome
    | _ => none
  | .commit i =>
    match s.calls i with
    | some (.writing write) => some (commitWrite s i write)
    | some (.recording row) => some (commitCheck s i row)
    | _ => none
  | .fail i => if s.calls i = none then none else some (s.close i)
  | .tick elapsed => some { s with clock := s.clock + elapsed }

end steps

def unconfigured : AiWorld := ⟨0, none, none, fun _ => none, [], []⟩

end FounderOs.AiSettings
