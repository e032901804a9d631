import OtelDatalake.Foundation.Text
import OtelDatalake.Buffer.Inner

open OtelDatalake.Foundation OtelDatalake.Buffer

namespace OtelDatalake.StarRocks

inductive StreamLoadError where
  | network (cause : List Char)
  | io (cause : List Char)
  | json (cause : List Char)
  | urlParse (cause : List Char)
  | transaction (message : List Char)
  | starRocksFailure (status message : List Char)
  deriving DecidableEq, Repr

/-- A reply of the server to a query for the state of a label. -/
structure LoadStatus where
  status : List Char
  state : Option (List Char)
  existingJobStatus : Option (List Char)
  deriving DecidableEq, Repr

def isLabelAlreadyExists : StreamLoadError → Bool
  | .starRocksFailure status message =>
    eqIgnoreAsciiCase (trim status) "Label Already Exists".toList ||
      eqIgnoreAsciiCase (trim status) "LABEL_ALREADY_EXISTS".toList ||
      containsText (toAsciiLowercase message) "label already exists".toList
  | .transaction message => containsText (toAsciiLowercase message) "label already exists".toList
  | _ => false

/-- The message of a `StarRocksFailure` that is answered with `Transient`. -/
def isTransientMessage (message : List Char) : Bool :=
  ["timeout", "timed out", "service unavailable", "too many versions", "too manyversions", "memory limit exceeded",
    "mem limit exceeded", "no alive backend", "backend not found", "system busy", "overload", "try again", "rpc failed",
    "connection"].any fun pattern => containsText message pattern.toList

def classifyHttpCode (reason : String) (code : Nat) : FailureClass :=
  if code = 401 ∨ code = 403 then .fatal reason
  else if code = 408 ∨ code = 429 ∨ (500 ≤ code ∧ code ≤ 599) then .transient
  else if 400 ≤ code ∧ code ≤ 499 then .rejected reason
  else .transient

/-- `display` is the SDK's text of an error. -/
def classifyStreamLoadError (display : StreamLoadError → String) (err : StreamLoadError) : FailureClass :=
  match err with
  | .network _ | .io _ | .json _ => .transient
  | .urlParse _ => .fatal (display err)
  | .transaction message =>
    let lower := toAsciiLowercase message
    if ["access denied", "unauthorized", "authentication", "https scheme requires",
        "no configured load urls"].any fun pattern => containsText lower pattern.toList then .fatal (display err)
    else if containsText lower "invalid ".toList then .rejected (display err)
    else .transient
  | .starRocksFailure status message =>
    match (firstWord (trim status)).bind (parseUnsigned 65535) with
    | some code => classifyHttpCode (display err) code
    | none =>
      let statusLower := toAsciiLowercase (trim status)
      let messageLower := toAsciiLowercase message
      if ["access denied", "authentication failed", "permission denied", "unauthorized"].any fun pattern =>
          containsText messageLower pattern.toList then .fatal (display err)
      else if statusLower = "publish timeout".toList || statusLower = "internal error".toList ||
          isTransientMessage messageLower then .transient
      else .rejected (display err)

def isLoadStatusOk (status : List Char) : Bool :=
  eqIgnoreAsciiCase (trim status) "Success".toList || eqIgnoreAsciiCase (trim status) "OK".toList

def hasStateName (names : List String) (reply : LoadStatus) : Bool :=
  let named := fun value : List Char => names.any fun name => eqIgnoreAsciiCase (trim value) name.toList
  reply.state.any named || reply.existingJobStatus.any named

def isLoadStateCommitted (reply : LoadStatus) : Bool := hasStateName ["VISIBLE", "COMMITTED", "FINISHED"] reply

def isLoadStatePrepared (reply : LoadStatus) : Bool := hasStateName ["PREPARE", "PREPARED"] reply

def isLoadStateAborted (reply : LoadStatus) : Bool := hasStateName ["ABORTED", "CANCELLED", "CANCELED"] reply

end OtelDatalake.StarRocks
