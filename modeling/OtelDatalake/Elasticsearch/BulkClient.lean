import Mathlib.Data.List.Range
import Mathlib.Data.List.Nodup
import OtelDatalake.Buffer.Config
import OtelDatalake.Elasticsearch.BulkPayload
import OtelDatalake.Foundation.Grouping

open OtelDatalake.Foundation OtelDatalake.Buffer

namespace OtelDatalake.Elasticsearch

structure BulkItemError where
  errorType : String
  reason : String
  deriving DecidableEq, Repr

structure BulkItem where
  status : Nat
  error : Option BulkItemError := none
  deriving DecidableEq, Repr

structure BulkItemWrapper where
  create : Option BulkItem := none
  index : Option BulkItem := none
  update : Option BulkItem := none
  delete : Option BulkItem := none
  deriving DecidableEq, Repr

namespace BulkItemWrapper

def item (wrapper : BulkItemWrapper) : Option BulkItem :=
  wrapper.create.or (wrapper.index.or (wrapper.update.or wrapper.delete))

def status (wrapper : BulkItemWrapper) : Option Nat := wrapper.item.map BulkItem.status

def error (wrapper : BulkItemWrapper) : Option BulkItemError := wrapper.item.bind BulkItem.error

def isRecoverable (wrapper : BulkItemWrapper) : Bool :=
  wrapper.status.any fun status => status == 429 || status == 500 || status == 503

def isUnrecoverable (wrapper : BulkItemWrapper) : Bool :=
  wrapper.status.any fun status => 400 ≤ status && status != 429 && status != 500 && status != 503

def isSuccess (wrapper : BulkItemWrapper) : Bool := wrapper.status.any fun status => status < 400

theorem isSuccess_of_status {wrapper : BulkItemWrapper} (answered : wrapper.status.isSome)
    (settled : wrapper.isRecoverable = false) (accepted : wrapper.isUnrecoverable = false) :
    wrapper.isSuccess = true := by
  obtain ⟨status, found⟩ := Option.isSome_iff_exists.mp answered
  simp only [isRecoverable, isUnrecoverable, isSuccess, found, Option.any_some, Bool.or_eq_false_iff,
    beq_eq_false_iff_ne, Bool.and_eq_false_iff, decide_eq_false_iff_not, bne_eq_false_iff_eq,
    decide_eq_true_eq] at settled accepted ⊢
  omega

end BulkItemWrapper

structure BulkResponse where
  took : Nat
  errors : Bool
  items : List BulkItemWrapper
  deriving DecidableEq, Repr

def BulkResponse.recoverableCount (response : BulkResponse) : Nat :=
  (response.items.filter BulkItemWrapper.isRecoverable).length

structure HttpResponse where
  status : Nat
  text : List Char
  json : Except (List Char) BulkResponse

structure HttpClient where
  maxRetries : Nat
  canonicalReason : Nat → List Char

namespace HttpClient

def displayStatus (client : HttpClient) (status : Nat) : List Char :=
  "HTTP ".toList ++ Nat.toDigits 10 status ++ " ".toList ++ client.canonicalReason status

def isTransientHttpStatus (status : Nat) : Bool :=
  status == 500 || status == 429 || status == 503 || status == 502 || status == 504

def isSuccessStatus (status : Nat) : Bool := 200 ≤ status && status < 300

def checkBulkStatus (client : HttpClient) (response : HttpResponse) (attempt : Nat) :
    Except ElasticsearchError HttpResponse :=
  if response.status = 401 ∨ response.status = 403 then
    .error (.authenticationFailed (client.displayStatus response.status ++ ": ".toList ++ response.text))
  else if isSuccessStatus response.status then .ok response
  else .error (.bulkFailed attempt (client.displayStatus response.status ++ ": ".toList ++ response.text))

def mergeRetryItems (finalItems : List BulkItemWrapper) (activeIndices : List Nat)
    (retryItems : List BulkItemWrapper) : List BulkItemWrapper :=
  (activeIndices.zip retryItems).foldl (fun items entry => items.set entry.1 entry.2) finalItems

/-- The positions in the sub-batch of the items that are sent again. -/
def inspectActiveItems (finalItems : List BulkItemWrapper) (activeIndices : List Nat) : List Nat :=
  (List.range activeIndices.length).filter fun subIdx =>
    ((activeIndices[subIdx]?).bind fun origIdx => finalItems[origIdx]?).any BulkItemWrapper.isRecoverable

def prepareSubPayloadRetry (currentPayload : List UInt8) (finalItems : List BulkItemWrapper)
    (activeIndices : List Nat) : Except ElasticsearchError (Option (List UInt8 × List Nat)) :=
  let recoverable := inspectActiveItems finalItems activeIndices
  if recoverable = [] then .ok none
  else (extractSubPayload currentPayload recoverable).map fun nextPayload =>
    some (nextPayload, recoverable.filterMap fun subIdx => activeIndices[subIdx]?)

/-- A bulk response that was read: the request, the numbers of its documents in the chunk and the items. -/
structure Exchange where
  rows : List Nat
  payload : List UInt8
  items : List BulkItemWrapper
  deriving DecidableEq, Repr

/-- The variables of the loop of `send_bulk`, and the responses that it has read. -/
structure SendState where
  attempt : Nat := 0
  currentPayload : List UInt8
  activeIndices : List Nat := []
  finalItems : List BulkItemWrapper := []
  totalTook : Nat := 0
  exchanges : List Exchange := []

/-- The end of a turn of the loop: a return, or another attempt, with the error that is returned instead when the
    attempts are used up. -/
inductive Turn where
  | finished (result : Except ElasticsearchError BulkResponse) (exchanges : List Exchange)
  | again (exhausted : ElasticsearchError) (next : SendState)

def readItems (client : HttpClient) (state : SendState) : Turn :=
  match prepareSubPayloadRetry state.currentPayload state.finalItems state.activeIndices with
  | .error err => .finished (.error err) state.exchanges
  | .ok none =>
    .finished (.ok ⟨state.totalTook, state.finalItems.any BulkItemWrapper.isUnrecoverable, state.finalItems⟩)
      state.exchanges
  | .ok (some (nextPayload, nextIndices)) =>
    .again (.bulkFailed client.maxRetries (Nat.toDigits 10 nextIndices.length ++
        " items failed with recoverable status (429/500/503) after ".toList ++ Nat.toDigits 10 client.maxRetries ++
          " retries".toList))
      { state with attempt := state.attempt + 1, currentPayload := nextPayload, activeIndices := nextIndices }

/-- A bulk response is the first one, or is merged into the items of the earlier ones. -/
def readResponse (client : HttpClient) (state : SendState) (response : BulkResponse) : Turn :=
  let totalTook := min (state.totalTook + response.took) u64Max
  let rows := if state.finalItems = [] then List.range response.items.length else state.activeIndices
  let exchanges := state.exchanges ++ [⟨rows, state.currentPayload, response.items⟩]
  if state.finalItems = [] then
    if response.errors = false then .finished (.ok response) exchanges
    else
      client.readItems
        { state with
          totalTook := totalTook
          finalItems := response.items
          activeIndices := List.range response.items.length
          exchanges := exchanges }
  else
    client.readItems
      { state with
        totalTook := totalTook
        finalItems := mergeRetryItems state.finalItems state.activeIndices response.items
        exchanges := exchanges }

def turn (client : HttpClient) (state : SendState) (reply : Except ElasticsearchError HttpResponse) : Turn :=
  let attempts := Nat.toDigits 10 (state.attempt + 1)
  match reply with
  | .error err =>
    .again (.bulkFailed client.maxRetries ("network error after ".toList ++ attempts ++ " attempts: ".toList ++
        err.display))
      { state with attempt := state.attempt + 1 }
  | .ok response =>
    if isTransientHttpStatus response.status then
      .again (.bulkFailed client.maxRetries (client.displayStatus response.status ++ " after ".toList ++ attempts ++
          " attempts".toList))
        { state with attempt := state.attempt + 1 }
    else
      match client.checkBulkStatus response state.attempt with
      | .error err => .finished (.error err) state.exchanges
      | .ok checked =>
        match checked.json with
        | .error cause => .finished (.error (.http cause)) state.exchanges
        | .ok bulk => client.readResponse state bulk

/-- The answers to `post_bulk_request`, by the number of earlier attempts. -/
abbrev Transport := (attempt : Nat) → (payload : List UInt8) → Except ElasticsearchError HttpResponse

/-- The loop of `send_bulk`; `remaining` is how often another turn may follow, `max_attempts` less those made. -/
def sendLoop (client : HttpClient) (transport : Transport) : (remaining : Nat) → SendState →
    Except ElasticsearchError BulkResponse × List Exchange
  | remaining, state =>
    match client.turn state (transport state.attempt state.currentPayload) with
    | .finished result exchanges => (result, exchanges)
    | .again exhausted next =>
      match remaining with
      | 0 => (.error exhausted, next.exchanges)
      | remaining + 1 => sendLoop client transport remaining next

def sendBulk (client : HttpClient) (transport : Transport) (payload : List UInt8) :
    Except ElasticsearchError BulkResponse × List Exchange :=
  client.sendLoop transport client.maxRetries { currentPayload := payload }

/-- The items of the responses, each with the number of its document. -/
def verdicts (exchanges : List Exchange) : List (Nat × BulkItemWrapper) :=
  exchanges.flatMap fun exchange => exchange.rows.zip exchange.items

def lastVerdict (exchanges : List Exchange) (row : Nat) : Option BulkItemWrapper :=
  (verdicts exchanges).reverse.lookup row

theorem lastVerdict_append (exchanges : List Exchange) (exchange : Exchange) (row : Nat) :
    lastVerdict (exchanges ++ [exchange]) row =
      ((exchange.rows.zip exchange.items).reverse.lookup row).or (lastVerdict exchanges row) := by
  simp [lastVerdict, verdicts, List.lookup_append]

/-- Each successful bulk response has one item with a status for each submitted document. -/
def AnswersEach (transport : Transport) : Prop :=
  ∀ (attempt : Nat) (documents : List (List UInt8)) (response : HttpResponse) (bulk : BulkResponse),
    (∀ document ∈ documents, IsDocument document) →
    transport attempt documents.flatten = .ok response → isSuccessStatus response.status = true →
      response.json = .ok bulk →
        bulk.items.length = documents.length ∧ ∀ item ∈ bulk.items, item.status.isSome

theorem mergeRetryItems_getElem? (activeIndices : List Nat) (finalItems retryItems : List BulkItemWrapper) {row : Nat}
    (bound : row < finalItems.length) :
    (mergeRetryItems finalItems activeIndices retryItems)[row]? =
      ((activeIndices.zip retryItems).reverse.lookup row).or finalItems[row]? := by
  unfold mergeRetryItems
  generalize activeIndices.zip retryItems = entries
  induction entries generalizing finalItems with
  | nil => simp
  | cons entry rest ih =>
    obtain ⟨position, item⟩ := entry
    rw [List.foldl_cons, ih (finalItems.set position item) (by simpa using bound), List.reverse_cons,
      List.lookup_append, Option.or_assoc]
    congr 1
    by_cases same : row = position
    · subst same
      simp [bound]
    · have differs : (row == position) = false := by simpa using same
      simp [List.lookup_cons, differs, List.getElem?_set_ne (Ne.symm same)]

theorem mergeRetryItems_length (activeIndices : List Nat) (finalItems retryItems : List BulkItemWrapper) :
    (mergeRetryItems finalItems activeIndices retryItems).length = finalItems.length := by
  unfold mergeRetryItems
  generalize activeIndices.zip retryItems = entries
  induction entries generalizing finalItems with
  | nil => rfl
  | cons entry rest ih => rw [List.foldl_cons, ih, List.length_set]

theorem lookup_range_zip (items : List BulkItemWrapper) (row : Nat) :
    ((List.range items.length).zip items).reverse.lookup row = items[row]? := by
  induction items using List.reverseRecOn with
  | nil => rfl
  | append_singleton items last ih =>
    have zipped : (List.range (items ++ [last]).length).zip (items ++ [last]) =
        (List.range items.length).zip items ++ [(items.length, last)] := by
      rw [List.length_append, List.length_singleton, List.range_succ, List.zip_append (by simp)]
      rfl
    rw [zipped, List.reverse_append, List.reverse_singleton, List.singleton_append, List.lookup_cons]
    by_cases same : row = items.length
    · simp [same]
    · have differs : (row == items.length) = false := by simpa using same
      rw [differs, ih]
      by_cases inside : row < items.length
      · rw [List.getElem?_append_left inside]
      · rw [List.getElem?_eq_none (by omega), List.getElem?_eq_none (by simp; omega)]

def pick (documents : List (List UInt8)) (rows : List Nat) : List (List UInt8) :=
  rows.map fun row => documents.getD row []

theorem pick_range (documents : List (List UInt8)) : pick documents (List.range documents.length) = documents := by
  apply List.ext_getElem
  · simp [pick]
  · intro position inRange inDocuments
    simp [pick, List.getElem?_eq_getElem inDocuments]

theorem pick_isDocument {documents : List (List UInt8)} (valid : ∀ document ∈ documents, IsDocument document)
    {rows : List Nat} (bounds : ∀ row ∈ rows, row < documents.length) :
    ∀ document ∈ pick documents rows, IsDocument document := by
  intro document member
  obtain ⟨row, inRows, rfl⟩ := List.mem_map.mp member
  have bound := bounds row inRows
  rw [List.getD_eq_getElem?_getD, List.getElem?_eq_getElem bound]
  exact valid _ (List.getElem_mem bound)

theorem pick_pick (documents : List (List UInt8)) (rows : List Nat) {positions : List Nat}
    (bounds : ∀ position ∈ positions, position < rows.length) :
    pick (pick documents rows) positions = pick documents (positions.filterMap fun position => rows[position]?) := by
  induction positions with
  | nil => rfl
  | cons position rest ih =>
    have bound := bounds position List.mem_cons_self
    have found : rows[position]? = some rows[position] := List.getElem?_eq_getElem bound
    have others := ih fun other member => bounds other (List.mem_cons_of_mem _ member)
    rw [List.filterMap_cons_some found]
    have first : (pick documents rows).getD position [] = documents.getD rows[position] [] := by
      rw [pick, List.getD_eq_getElem?_getD, List.getElem?_map, found]
      rfl
    calc pick (pick documents rows) (position :: rest)
        = (pick documents rows).getD position [] :: pick (pick documents rows) rest := rfl
      _ = documents.getD rows[position] [] :: pick documents (rest.filterMap fun position => rows[position]?) := by
          rw [first, others]

theorem inspectActiveItems_bounds (finalItems : List BulkItemWrapper) (activeIndices : List Nat) :
    ∀ position ∈ inspectActiveItems finalItems activeIndices, position < activeIndices.length := by
  intro position member
  exact List.mem_range.mp (List.mem_of_mem_filter member)

theorem inspectActiveItems_sublist (finalItems : List BulkItemWrapper) (activeIndices : List Nat) :
    ((inspectActiveItems finalItems activeIndices).filterMap fun position => activeIndices[position]?).Sublist
      activeIndices := by
  have chosen : (inspectActiveItems finalItems activeIndices).Sublist (List.range activeIndices.length) :=
    List.filter_sublist
  have all := filterMap_range_getElem? activeIndices
  conv_rhs => rw [← all]
  exact chosen.filterMap _

structure Exchange.Sound (transport : Transport) (documents : List (List UInt8)) (exchange : Exchange) : Prop where
  distinct : exchange.rows.Nodup
  bounds : ∀ row ∈ exchange.rows, row < documents.length
  payload : exchange.payload = (pick documents exchange.rows).flatten
  items : exchange.items.length = exchange.rows.length
  status : ∀ item ∈ exchange.items, item.status.isSome
  answered : ∃ attempt response bulk, transport attempt exchange.payload = .ok response ∧
    response.json = .ok bulk ∧ bulk.items = exchange.items

namespace SendState

def pending (state : SendState) (count : Nat) : List Nat :=
  if state.finalItems = [] then List.range count else state.activeIndices

structure Tracks (transport : Transport) (documents : List (List UInt8)) (state : SendState) : Prop where
  sound : ∀ exchange ∈ state.exchanges, exchange.Sound transport documents
  distinct : (state.pending documents.length).Nodup
  bounds : ∀ row ∈ state.pending documents.length, row < documents.length
  payload : state.currentPayload = (pick documents (state.pending documents.length)).flatten
  items : state.finalItems ≠ [] → state.finalItems.length = documents.length
  verdict : ∀ row < documents.length, lastVerdict state.exchanges row = state.finalItems[row]?

end SendState

structure Answered (transport : Transport) (documents : List (List UInt8))
    (result : Except ElasticsearchError BulkResponse) (exchanges : List Exchange) : Prop where
  sound : ∀ exchange ∈ exchanges, exchange.Sound transport documents
  items : ∀ response, result = .ok response → response.items.length = documents.length
  verdict : ∀ response, result = .ok response → ∀ row < documents.length,
    lastVerdict exchanges row = response.items[row]?

def Turn.Tracks (transport : Transport) (documents : List (List UInt8)) : Turn → Prop
  | .finished result exchanges => Answered transport documents result exchanges
  | .again _ next => next.Tracks transport documents

section Tracking

variable {client : HttpClient} {transport : Transport} {documents : List (List UInt8)} {state : SendState}

theorem Answered.of_error {err : ElasticsearchError} {exchanges : List Exchange}
    (sound : ∀ exchange ∈ exchanges, exchange.Sound transport documents) :
    Answered transport documents (.error err) exchanges where
  sound := sound
  items := by
    intro response failed
    cases failed
  verdict := by
    intro response failed
    cases failed

theorem readItems_tracks (valid : ∀ document ∈ documents, IsDocument document)
    (tracks : state.Tracks transport documents) (answered : state.finalItems ≠ []) :
    (client.readItems state).Tracks transport documents := by
  have active : state.pending documents.length = state.activeIndices := if_neg answered
  have bounds := tracks.bounds
  have distinct := tracks.distinct
  have payload := tracks.payload
  rw [active] at bounds distinct payload
  unfold readItems prepareSubPayloadRetry
  by_cases settled : inspectActiveItems state.finalItems state.activeIndices = []
  · simp only [settled, if_true]
    constructor
    · exact tracks.sound
    · intro response done
      cases done
      exact tracks.items answered
    · intro response done
      cases done
      exact tracks.verdict
  · have inside := inspectActiveItems_bounds state.finalItems state.activeIndices
    have picked : ∀ position ∈ inspectActiveItems state.finalItems state.activeIndices,
        position < (pick documents state.activeIndices).length := by
      intro position member
      rw [pick, List.length_map]
      exact inside position member
    have extracted := extractSubPayload_documents (pick_isDocument valid bounds) picked
    rw [← payload] at extracted
    simp only [if_neg settled, extracted, Except.map]
    have sub := inspectActiveItems_sublist state.finalItems state.activeIndices
    constructor
    · exact tracks.sound
    · simp only [SendState.pending, if_neg answered]
      exact distinct.sublist sub
    · simp only [SendState.pending, if_neg answered]
      intro row member
      exact bounds row (sub.subset member)
    · simp only [SendState.pending, if_neg answered]
      rw [← pick_pick documents state.activeIndices inside]
      rfl
    · exact tracks.items
    · exact tracks.verdict

theorem readResponse_tracks (nonempty : documents ≠ []) (valid : ∀ document ∈ documents, IsDocument document)
    (tracks : state.Tracks transport documents) {response : HttpResponse} {bulk : BulkResponse}
    (received : transport state.attempt state.currentPayload = .ok response) (parsed : response.json = .ok bulk)
    (each : bulk.items.length = (state.pending documents.length).length)
    (statuses : ∀ item ∈ bulk.items, item.status.isSome) :
    (client.readResponse state bulk).Tracks transport documents := by
  have recorded : ∀ rows, rows = state.pending documents.length → ∀ exchange ∈ state.exchanges ++
      [⟨rows, state.currentPayload, bulk.items⟩], exchange.Sound transport documents := by
    rintro rows rfl exchange member
    rcases List.mem_append.mp member with old | new
    · exact tracks.sound exchange old
    · rw [List.mem_singleton.mp new]
      exact ⟨tracks.distinct, tracks.bounds, tracks.payload, each, statuses, _, response, bulk, received, parsed, rfl⟩
  unfold readResponse
  by_cases first : state.finalItems = []
  · have all : state.pending documents.length = List.range documents.length := if_pos first
    have count : bulk.items.length = documents.length := by rw [each, all, List.length_range]
    have sound := recorded (List.range bulk.items.length) (by rw [all, count])
    have verdict : ∀ row < documents.length, lastVerdict (state.exchanges ++
        [⟨List.range bulk.items.length, state.currentPayload, bulk.items⟩]) row = bulk.items[row]? := by
      intro row bound
      rw [lastVerdict_append, lookup_range_zip, List.getElem?_eq_getElem (count ▸ bound), Option.some_or]
    simp only [if_pos first]
    by_cases clean : bulk.errors = false
    · simp only [if_pos clean]
      constructor
      · exact sound
      · intro response done
        cases done
        exact count
      · intro response done
        cases done
        exact verdict
    · simp only [if_neg clean]
      have filled : bulk.items ≠ [] := by
        intro none
        rw [none, List.length_nil] at count
        exact nonempty (List.length_eq_zero_iff.mp count.symm)
      apply readItems_tracks valid _ filled
      constructor
      · exact sound
      · simp only [SendState.pending, if_neg filled]
        exact List.nodup_range
      · simp only [SendState.pending, if_neg filled, List.mem_range, count]
        exact fun _ bound => bound
      · simp only [SendState.pending, if_neg filled, count]
        rw [← all]
        exact tracks.payload
      · exact fun _ => count
      · exact verdict
  · have active : state.pending documents.length = state.activeIndices := if_neg first
    have sound := recorded state.activeIndices active.symm
    simp only [if_neg first]
    have size := mergeRetryItems_length state.activeIndices state.finalItems bulk.items
    have filled : mergeRetryItems state.finalItems state.activeIndices bulk.items ≠ [] := by
      intro none
      rw [none, List.length_nil] at size
      exact first (List.length_eq_zero_iff.mp size.symm)
    apply readItems_tracks valid _ filled
    constructor
    · exact sound
    · simp only [SendState.pending, if_neg filled]
      exact active ▸ tracks.distinct
    · simp only [SendState.pending, if_neg filled]
      exact active ▸ tracks.bounds
    · simp only [SendState.pending, if_neg filled]
      exact active ▸ tracks.payload
    · exact fun _ => size.trans (tracks.items first)
    · intro row bound
      rw [lastVerdict_append, tracks.verdict row bound]
      exact (mergeRetryItems_getElem? _ _ _ (by rw [tracks.items first]; exact bound)).symm

theorem SendState.Tracks.retried (tracks : state.Tracks transport documents) :
    ({ state with attempt := state.attempt + 1 } : SendState).Tracks transport documents :=
  ⟨tracks.sound, tracks.distinct, tracks.bounds, tracks.payload, tracks.items, tracks.verdict⟩

theorem turn_tracks (answers : AnswersEach transport) (nonempty : documents ≠ [])
    (valid : ∀ document ∈ documents, IsDocument document) (tracks : state.Tracks transport documents) :
    (client.turn state (transport state.attempt state.currentPayload)).Tracks transport documents := by
  cases received : transport state.attempt state.currentPayload with
  | error err => exact tracks.retried
  | ok response =>
    simp only [turn]
    by_cases transient : isTransientHttpStatus response.status = true
    · rw [if_pos transient]
      exact tracks.retried
    · rw [if_neg transient]
      unfold checkBulkStatus
      by_cases unauthorized : response.status = 401 ∨ response.status = 403
      · rw [if_pos unauthorized]
        exact Answered.of_error tracks.sound
      · rw [if_neg unauthorized]
        by_cases success : isSuccessStatus response.status = true
        · simp only [if_pos success]
          cases parsed : response.json with
          | error cause => exact Answered.of_error tracks.sound
          | ok bulk =>
            have submitted := received
            rw [tracks.payload] at submitted
            obtain ⟨each, statuses⟩ := answers state.attempt _ response bulk
              (pick_isDocument valid tracks.bounds) submitted success parsed
            rw [pick, List.length_map] at each
            exact readResponse_tracks nonempty valid tracks received parsed each statuses
        · simp only [if_neg success]
          exact Answered.of_error tracks.sound

theorem sendLoop_answered (answers : AnswersEach transport) (nonempty : documents ≠ [])
    (valid : ∀ document ∈ documents, IsDocument document) (remaining : Nat)
    (tracks : state.Tracks transport documents) :
    Answered transport documents (client.sendLoop transport remaining state).1
      (client.sendLoop transport remaining state).2 := by
  induction remaining generalizing state with
  | zero =>
    have turned : (client.turn state _).Tracks transport documents := turn_tracks answers nonempty valid tracks
    unfold sendLoop
    cases outcome : client.turn state (transport state.attempt state.currentPayload) with
    | finished result exchanges =>
      rw [outcome] at turned
      exact turned
    | again exhausted next =>
      rw [outcome] at turned
      exact Answered.of_error turned.sound
  | succ remaining ih =>
    have turned : (client.turn state _).Tracks transport documents := turn_tracks answers nonempty valid tracks
    unfold sendLoop
    cases outcome : client.turn state (transport state.attempt state.currentPayload) with
    | finished result exchanges =>
      rw [outcome] at turned
      exact turned
    | again exhausted next =>
      rw [outcome] at turned
      exact ih turned

theorem sendBulk_answered (answers : AnswersEach transport) (nonempty : documents ≠ [])
    (valid : ∀ document ∈ documents, IsDocument document) :
    Answered transport documents (client.sendBulk transport documents.flatten).1
      (client.sendBulk transport documents.flatten).2 := by
  apply sendLoop_answered answers nonempty valid
  constructor
  · simp
  · exact List.nodup_range
  · exact fun row member => List.mem_range.mp member
  · simp [SendState.pending, pick_range]
  · simp
  · simp [lastVerdict, verdicts]

theorem Answered.status {exchanges : List Exchange} {response : BulkResponse}
    (answered : Answered transport documents (.ok response) exchanges) :
    ∀ item ∈ response.items, item.status.isSome := by
  intro item member
  obtain ⟨row, bound, rfl⟩ := List.getElem_of_mem member
  have inside : row < documents.length := answered.items response rfl ▸ bound
  have last := answered.verdict response rfl row inside
  rw [List.getElem?_eq_getElem bound, lastVerdict] at last
  obtain ⟨later, earlier, split, -⟩ := List.lookup_eq_some_iff.mp last
  have logged : (row, response.items[row]) ∈ verdicts exchanges := by
    rw [← List.mem_reverse, split]
    simp
  obtain ⟨exchange, inLog, paired⟩ := List.mem_flatMap.mp logged
  exact (answered.sound exchange inLog).status _ (List.of_mem_zip paired).2

end Tracking

end HttpClient

end OtelDatalake.Elasticsearch
