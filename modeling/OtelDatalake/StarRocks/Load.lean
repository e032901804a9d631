import OtelDatalake.Foundation.Runs
import OtelDatalake.StarRocks.Errors
import OtelDatalake.StarRocks.Label

open OtelDatalake.Foundation OtelDatalake.Buffer

namespace OtelDatalake.StarRocks

def maxAbortedLabelProbesPerAttempt : Nat := 64

inductive TransactionMode where
  | v1
  | v2
  deriving DecidableEq, Repr

/-- The state of a label on the server; a one-shot load goes on by itself once it has begun. -/
inductive LabelState where
  | absent
  | running (oneShot : Bool)
  | prepared (oneShot : Bool)
  | committed
  | aborted
  deriving DecidableEq, Repr

inductive Request where
  | streamLoad
  | loadState
  | beginTransaction
  | loadData
  | prepareTransaction
  | commitTransaction
  | rollbackTransaction
  deriving DecidableEq, Repr

namespace LabelState

/-- A one-shot load is prepared and committed by the server. -/
def advance : LabelState → Option LabelState
  | .running true => some (.prepared true)
  | .prepared true => some .committed
  | _ => none

/-- A transaction that is not committed may be given up by the server. -/
def expire : LabelState → Option LabelState
  | .running _ | .prepared _ => some .aborted
  | _ => none

def isPrepared : LabelState → Bool
  | .prepared _ => true
  | _ => false

/-- A reply that names a state names the state of its label. -/
def describedBy (state : LabelState) (reply : LoadStatus) : Bool :=
  (!isLoadStateCommitted reply || state == .committed) && (!isLoadStatePrepared reply || state.isPrepared) &&
    (!isLoadStateAborted reply || state == .aborted)

end LabelState

/-- The server's part in a request: the state of its label behind one whose reply is lost, and behind one that it
    answers with success. -/
structure LabelServer where
  process : LabelState → Request → LabelState
  accept : LabelState → Request → Option LabelState

/-- Which reply made `send_v2` look at a label that exists: that to `begin` or that to `commit`. -/
inductive ConfirmCause where
  | begin (err : StreamLoadError)
  | commit (err : StreamLoadError)
  deriving DecidableEq, Repr

inductive SdkCall where
  | sendSingleBatch
  | confirmV1 (err : StreamLoadError)
  | beginTransaction
  | loadTransactionData
  | prepareTransaction
  | rollbackFailed (err : StreamLoadError)
  | commitTransaction
  | confirmV2 (cause : ConfirmCause)
  | completeV2 (cause : ConfirmCause)
  | recheckV2
  | rollbackUncommitted (err : StreamLoadError)
  deriving DecidableEq, Repr

def SdkCall.request : SdkCall → Request
  | .sendSingleBatch => .streamLoad
  | .confirmV1 _ | .confirmV2 _ | .recheckV2 => .loadState
  | .beginTransaction => .beginTransaction
  | .loadTransactionData => .loadData
  | .prepareTransaction => .prepareTransaction
  | .commitTransaction | .completeV2 _ => .commitTransaction
  | .rollbackFailed _ | .rollbackUncommitted _ => .rollbackTransaction

inductive SdkResult where
  | ok
  | status (reply : LoadStatus)
  | error (err : StreamLoadError)
  deriving DecidableEq, Repr

/-- An attempt to deliver the lease: between two calls of `send_v1` or `send_v2`, in one of them, or returned from one
    with its fallback index. -/
inductive Attempt where
  | idle
  | calling (fallbackIdx probes : Nat) (call : SdkCall)
  | returned (fallbackIdx : Nat) (result : Except StreamLoadError Unit)

abbrev DebugText := Option (List Char) → List Char

section Send

variable (debug : DebugText) (label : List Char)

/-- The error for a label that exists and is neither committed nor aborted. -/
def uncommittedError (version : String) (fallbackIdx : Nat) (reply : LoadStatus) : StreamLoadError :=
  .transaction ("StarRocks ".toList ++ version.toList ++ " label '".toList ++ activeLabel label fallbackIdx ++
    "' already exists in uncommitted state (status='".toList ++ reply.status ++ "', state=".toList ++
    debug reply.state ++ ", existing_job_status=".toList ++ debug reply.existingJobStatus ++ ")".toList)

/-- The label was aborted: go on to the next one, unless there were too many probes or there is none. -/
def nextLabel (mode : TransactionMode) (fallbackIdx probes : Nat) (err : StreamLoadError) : Attempt :=
  if maxAbortedLabelProbesPerAttempt ≤ probes + 1 then .returned fallbackIdx (.error err)
  else
    let nextIdx := min (fallbackIdx + 1) u32Max
    if formatAttemptLeaseLabel label nextIdx = activeLabel label fallbackIdx then .returned nextIdx (.error err)
    else .calling nextIdx (probes + 1) (match mode with | .v1 => .sendSingleBatch | .v2 => .beginTransaction)

def confirmV1LabelCommitted (fallbackIdx probes : Nat) (err : StreamLoadError) (reply : LoadStatus) : Attempt :=
  if isLoadStatusOk reply.status && isLoadStateCommitted reply then .returned fallbackIdx (.ok ())
  else if isLoadStateAborted reply then nextLabel label .v1 fallbackIdx probes err
  else .returned fallbackIdx (.error (uncommittedError debug label "V1" fallbackIdx reply))

/-- `confirm_or_complete_v2_label` in `send_v2`, up to its next call. -/
def confirmOrCompleteV2Label (fallbackIdx probes : Nat) (cause : ConfirmCause) (reply : LoadStatus) : Attempt :=
  if isLoadStatusOk reply.status && isLoadStateCommitted reply then .returned fallbackIdx (.ok ())
  else if isLoadStatusOk reply.status && isLoadStatePrepared reply then
    .calling fallbackIdx probes (.completeV2 cause)
  else if isLoadStateAborted reply then
    match cause with
    | .begin err => nextLabel label .v2 fallbackIdx probes err
    | .commit err => .returned fallbackIdx (.error err)
  else .calling fallbackIdx probes (.rollbackUncommitted (uncommittedError debug label "V2" fallbackIdx reply))

def resume (fallbackIdx probes : Nat) (call : SdkCall) (result : SdkResult) : Attempt :=
  match call, result with
  | .sendSingleBatch, .error err =>
    if isLabelAlreadyExists err then .calling fallbackIdx probes (.confirmV1 err) else .returned fallbackIdx (.error err)
  | .sendSingleBatch, _ => .returned fallbackIdx (.ok ())
  | .confirmV1 err, .status reply => confirmV1LabelCommitted debug label fallbackIdx probes err reply
  | .confirmV2 cause, .status reply => confirmOrCompleteV2Label debug label fallbackIdx probes cause reply
  | .beginTransaction, .error err =>
    if isLabelAlreadyExists err then .calling fallbackIdx probes (.confirmV2 (.begin err))
    else .returned fallbackIdx (.error err)
  | .beginTransaction, _ => .calling fallbackIdx probes .loadTransactionData
  | .loadTransactionData, .error err => .calling fallbackIdx probes (.rollbackFailed err)
  | .loadTransactionData, _ => .calling fallbackIdx probes .prepareTransaction
  | .prepareTransaction, .error err => .calling fallbackIdx probes (.rollbackFailed err)
  | .prepareTransaction, _ => .calling fallbackIdx probes .commitTransaction
  | .commitTransaction, .error err =>
    if isLabelAlreadyExists err then .calling fallbackIdx probes (.confirmV2 (.commit err))
    else .returned fallbackIdx (.error err)
  | .commitTransaction, _ => .returned fallbackIdx (.ok ())
  | .completeV2 _, .error err =>
    if isLabelAlreadyExists err then .calling fallbackIdx probes .recheckV2 else .returned fallbackIdx (.error err)
  | .completeV2 _, _ => .returned fallbackIdx (.ok ())
  | .recheckV2, .status reply =>
    if isLoadStatusOk reply.status && isLoadStateCommitted reply then .returned fallbackIdx (.ok ())
    else .returned fallbackIdx (.error (uncommittedError debug label "V2" fallbackIdx reply))
  | .rollbackFailed err, _ | .rollbackUncommitted err, _ => .returned fallbackIdx (.error err)
  | .confirmV1 _, .error err | .confirmV2 _, .error err | .recheckV2, .error err => .returned fallbackIdx (.error err)
  | .confirmV1 _, .ok | .confirmV2 _, .ok | .recheckV2, .ok => .idle

end Send

/-- The server, the requests that may still reach it, and the sink: its attempt on the lease and what it remembers
    of the lease in `fallback_attempts`. -/
structure LoadWorld where
  server : List Char → LabelState := fun _ => .absent
  sent : List (Request × List Char) := []
  attempt : Attempt := .idle
  fallbackAttempt : Option Nat := none

inductive LoadAction where
  | start (mode : TransactionMode)
  | send
  | process (index : Nat)
  | accept
  | report (reply : LoadStatus)
  | fail (err : StreamLoadError)
  | finish
  | advance (label : List Char)
  | expire (label : List Char)
  | forget
  | restart

namespace LoadWorld

def setLabel (world : LoadWorld) (label : List Char) (state : LabelState) : LoadWorld :=
  { world with server := Function.update world.server label state }

/-- `label` is the base label of the lease, `display` and `debug` are the texts of errors and optional strings. -/
def step (starRocks : LabelServer) (display : StreamLoadError → String) (debug : DebugText) (label : List Char)
    (world : LoadWorld) :
    LoadAction → Option LoadWorld
  | .start mode =>
    match world.attempt with
    | .idle =>
      some { world with
        attempt := .calling (world.fallbackAttempt.getD 0) 0
          (match mode with | .v1 => .sendSingleBatch | .v2 => .beginTransaction) }
    | _ => none
  | .send =>
    match world.attempt with
    | .calling fallbackIdx _ call =>
      some { world with sent := world.sent ++ [(call.request, activeLabel label fallbackIdx)] }
    | _ => none
  | .process index =>
    world.sent[index]?.map fun sent => world.setLabel sent.2 (starRocks.process (world.server sent.2) sent.1)
  | .accept =>
    match world.attempt with
    | .calling fallbackIdx probes call =>
      (starRocks.accept (world.server (activeLabel label fallbackIdx)) call.request).map fun state =>
        { world.setLabel (activeLabel label fallbackIdx) state with
          attempt := resume debug label fallbackIdx probes call .ok }
    | _ => none
  | .report reply =>
    match world.attempt with
    | .calling fallbackIdx probes call =>
      if call.request = .loadState ∧ (world.server (activeLabel label fallbackIdx)).describedBy reply then
        some { world with attempt := resume debug label fallbackIdx probes call (.status reply) }
      else none
    | _ => none
  | .fail err =>
    match world.attempt with
    | .calling fallbackIdx probes call =>
      if isLabelAlreadyExists err = true → world.server (activeLabel label fallbackIdx) ≠ .absent then
        some { world with attempt := resume debug label fallbackIdx probes call (.error err) }
      else none
    | _ => none
  | .finish =>
    match world.attempt with
    | .returned _ (.ok ()) => some { world with attempt := .idle, fallbackAttempt := none }
    | .returned fallbackIdx (.error err) =>
      some { world with
        attempt := .idle
        fallbackAttempt :=
          if classifyStreamLoadError display err = .transient ∧ fallbackIdx > 0 then some fallbackIdx else none }
    | _ => none
  | .advance name => (world.server name).advance.map (world.setLabel name)
  | .expire name => (world.server name).expire.map (world.setLabel name)
  | .forget => some { world with fallbackAttempt := none }
  | .restart => some { world with attempt := .idle, fallbackAttempt := none }

end LoadWorld

end OtelDatalake.StarRocks
