import OtelDatalake.Buffer.DeadLetter
import OtelDatalake.Elasticsearch.BulkPayload
import OtelDatalake.Foundation.Interleaving
import OtelDatalake.Foundation.Text

open OtelDatalake.Foundation OtelDatalake.Buffer

namespace OtelDatalake.Elasticsearch

/-- `text.trim().trim_end_matches('/')`. -/
def trimEndpoint (text : List Char) : List Char := ((trim text).reverse.dropWhile fun c => c = '/').reverse

/-- What the calls of a client share: its endpoints, the second at which the cooldown of each ends, and the counter of
    the round robin. -/
structure EndpointPool where
  endpoints : List (List Char)
  endpointCooldowns : List Nat
  currentEndpoint : Nat := 0
  deriving DecidableEq, Repr

namespace EndpointPool

/-- `HttpClient::try_new`, without its HTTP client. -/
def tryNew (configured : List (List Char)) : Except ElasticsearchError EndpointPool :=
  if configured.isEmpty then .error (.startupValidation "at least one endpoint must be configured".toList)
  else
    let endpoints := configured.map trimEndpoint
    if endpoints.any List.isEmpty then .error (.startupValidation "endpoint URL cannot be empty".toList)
    else .ok { endpoints, endpointCooldowns := endpoints.map fun _ => 0 }

def count (pool : EndpointPool) : Nat := pool.endpoints.length

def position? (pool : EndpointPool) (trimmed : List Char) : Option Nat :=
  pool.endpoints.findIdx? fun endpoint => endpoint = trimmed

end EndpointPool

structure Scan where
  now : Nat
  ticket : Nat
  offset : Nat := 0
  deriving DecidableEq, Repr

def Scan.candidate (scan : Scan) (count offset : Nat) : Nat := (scan.ticket % count + offset) % count

structure Mark where
  failed : List Char
  position : Nat
  seen : Nat
  deriving DecidableEq, Repr

def Mark.cooldownUntil (mark : Mark) : Nat := saturatingAdd usizeMax mark.seen 10

/-- A call of `next_endpoint`, until it has returned an endpoint without or after a scan, or of `mark_endpoint_failed`,
    until it has stored a cooldown or found no such endpoint. -/
inductive EndpointCall where
  | nextEndpoint
  | fetch (now : Nat)
  | scanning (scan : Scan)
  | single (endpoint : List Char)
  | picked (scan : Scan) (endpoint : List Char)
  | markEndpointFailed (failed : List Char)
  | store (mark : Mark)
  | marked (mark : Mark)
  | unknown
  deriving DecidableEq, Repr

namespace EndpointCall

def isFresh : EndpointCall → Bool
  | .nextEndpoint | .markEndpointFailed _ => true
  | _ => false

def act (pool : EndpointPool) (call : EndpointCall) (clock : Nat) : Option (EndpointPool × EndpointCall) :=
  match call with
  | .nextEndpoint =>
    if pool.count = 0 then some (pool, .single [])
    else if pool.count = 1 then some (pool, .single (pool.endpoints.headD []))
    else some (pool, .fetch clock)
  | .fetch now =>
    -- `fetch_add` wraps around
    some ({ pool with currentEndpoint := (pool.currentEndpoint + 1) % 2 ^ 64 },
      .scanning { now, ticket := pool.currentEndpoint })
  | .scanning scan =>
    if scan.offset < pool.count then
      let candidate := scan.candidate pool.count scan.offset
      if pool.endpointCooldowns.getD candidate 0 ≤ scan.now then
        some (pool, .picked scan (pool.endpoints.getD candidate []))
      else some (pool, .scanning { scan with offset := scan.offset + 1 })
    else some (pool, .picked scan (pool.endpoints.getD (scan.ticket % pool.count) []))
  | .markEndpointFailed failed =>
    match pool.position? (trimEndpoint failed) with
    | some position => some (pool, .store { failed, position, seen := clock })
    | none => some (pool, .unknown)
  | .store mark =>
    some ({ pool with endpointCooldowns := pool.endpointCooldowns.set mark.position mark.cooldownUntil }, .marked mark)
  | .single _ | .picked .. | .marked _ | .unknown => none

def position? (count : Nat) : EndpointCall → Option Nat
  | .picked scan _ => some (scan.candidate count scan.offset)
  | _ => none

def storing? : EndpointCall → Option Mark
  | .store mark => some mark
  | _ => none

def ticket? : EndpointCall → Option Nat
  | .scanning scan | .picked scan _ => some scan.ticket
  | _ => none

end EndpointCall

abbrev EndpointCalls := Interleaved EndpointPool EndpointCall

def EndpointCalls.step : EndpointCalls → Turn EndpointCall Nat → Option EndpointCalls :=
  Interleaved.step EndpointCall.isFresh EndpointCall.act

abbrev EndpointCalls.Reached (configured : List (List Char)) (system : EndpointCalls) : Prop :=
  ∃ pool, EndpointPool.tryNew configured = .ok pool ∧
    Run EndpointCalls.step (fun _ _ => True) ⟨pool, []⟩ system

end OtelDatalake.Elasticsearch
