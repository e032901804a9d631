import OtelDatalake.Elasticsearch.BulkClient
import OtelDatalake.Foundation.Outcome

open OtelDatalake.Foundation OtelDatalake.Buffer

namespace OtelDatalake.Elasticsearch.HttpClient

def parsed (client : HttpClient) (attempt : Nat) (reply : Except ElasticsearchError HttpResponse) : Option BulkResponse :=
  match reply with
  | .error _ => none
  | .ok response =>
    if isTransientHttpStatus response.status then none
    else
      match client.checkBulkStatus response attempt with
      | .error _ => none
      | .ok checked => checked.json.toOption

/-- A request: the numbers of its documents in the chunk, its payload, and the bulk response if one was read. -/
structure Request where
  rows : List Nat
  payload : List UInt8
  response : Option BulkResponse

def SendState.request (client : HttpClient) (transport : Transport) (count : Nat) (state : SendState) : Request :=
  ⟨state.pending count, state.currentPayload,
    client.parsed state.attempt (transport state.attempt state.currentPayload)⟩

/-- The requests that the loop of `send_bulk` makes for a payload of `count` documents, by the turns that it takes. -/
def requests (client : HttpClient) (transport : Transport) (count : Nat) : (remaining : Nat) → SendState → List Request
  | remaining, state =>
    state.request client transport count ::
      match client.turn state (transport state.attempt state.currentPayload) with
      | .finished _ _ => []
      | .again _ next =>
        match remaining with
        | 0 => []
        | remaining + 1 => requests client transport count remaining next

def sendRequests (client : HttpClient) (transport : Transport) (documents : List (List UInt8)) : List Request :=
  client.requests transport documents.length client.maxRetries { currentPayload := documents.flatten }

/-- Each bulk response that is read has one item for each submitted document. -/
def AnswersInOrder (transport : Transport) : Prop :=
  ∀ (attempt : Nat) (documents : List (List UInt8)) (response : HttpResponse) (bulk : BulkResponse),
    (∀ document ∈ documents, IsDocument document) → transport attempt documents.flatten = .ok response →
      isSuccessStatus response.status = true → response.json = .ok bulk → bulk.items.length = documents.length

/-- The items behind a response: its own at first, else those of the earlier ones with its own merged in. -/
def SendState.absorb (state : SendState) (bulk : BulkResponse) : List BulkItemWrapper :=
  if state.finalItems = [] then bulk.items else mergeRetryItems state.finalItems state.activeIndices bulk.items

/-- What the loop keeps for the documents of a chunk: the payload is the documents of the pending rows in ascending
    order, and a row that is no longer pending has an item that is not retryable. -/
structure SendState.Keeps (documents : List (List UInt8)) (state : SendState) : Prop where
  ascending : (state.pending documents.length).Pairwise (· < ·)
  bounds : ∀ row ∈ state.pending documents.length, row < documents.length
  payload : state.currentPayload = (pick documents (state.pending documents.length)).flatten
  items : state.finalItems ≠ [] → state.finalItems.length = documents.length
  settled : ∀ row < documents.length, row ∉ state.pending documents.length →
    ∃ item, state.finalItems[row]? = some item ∧ item.isRecoverable = false

section Turns

variable {client : HttpClient} {transport : Transport} {documents : List (List UInt8)} {state : SendState}

theorem turn_unread {reply : Except ElasticsearchError HttpResponse} (unread : client.parsed state.attempt reply = none) :
    (∃ error exchanges, client.turn state reply = .finished (.error error) exchanges) ∨
      ∃ exhausted, client.turn state reply = .again exhausted { state with attempt := state.attempt + 1 } := by
  cases reply with
  | error error => exact .inr ⟨_, rfl⟩
  | ok response =>
    rw [parsed] at unread
    rw [turn]
    by_cases transient : isTransientHttpStatus response.status = true
    · rw [if_pos transient]
      exact .inr ⟨_, rfl⟩
    · rw [if_neg transient] at unread ⊢
      cases checked : client.checkBulkStatus response state.attempt with
      | error error => exact .inl ⟨_, _, rfl⟩
      | ok accepted =>
        rw [checked] at unread
        dsimp only at unread ⊢
        cases read : accepted.json with
        | error cause => exact .inl ⟨_, _, rfl⟩
        | ok bulk =>
          rw [read] at unread
          cases unread

theorem turn_read (client : HttpClient) (state : SendState) {reply : Except ElasticsearchError HttpResponse}
    {bulk : BulkResponse}
    (read : client.parsed state.attempt reply = some bulk) :
    client.turn state reply = client.readResponse state bulk ∧
      ∃ response, reply = .ok response ∧ isSuccessStatus response.status = true ∧ response.json = .ok bulk := by
  cases reply with
  | error error => cases read
  | ok response =>
    rw [parsed] at read
    rw [turn]
    by_cases transient : isTransientHttpStatus response.status = true
    · rw [if_pos transient] at read
      cases read
    · rw [if_neg transient] at read ⊢
      rw [checkBulkStatus] at read ⊢
      by_cases unauthorized : response.status = 401 ∨ response.status = 403
      · rw [if_pos unauthorized] at read
        cases read
      · rw [if_neg unauthorized] at read ⊢
        by_cases success : isSuccessStatus response.status = true
        · rw [if_pos success] at read ⊢
          dsimp only at read ⊢
          cases json : response.json with
          | error cause =>
            rw [json] at read
            cases read
          | ok other =>
            rw [json] at read
            cases read
            exact ⟨rfl, response, rfl, success, json⟩
        · rw [if_neg success] at read
          cases read

theorem SendState.Keeps.answered (keeps : state.Keeps documents) (answers : AnswersInOrder transport)
    (valid : ∀ document ∈ documents, IsDocument document) {bulk : BulkResponse}
    (read : client.parsed state.attempt (transport state.attempt state.currentPayload) = some bulk) :
    bulk.items.length = (state.pending documents.length).length := by
  obtain ⟨_, response, received, success, json⟩ := turn_read client state read
  rw [keeps.payload] at received
  have each := answers state.attempt _ response bulk (pick_isDocument valid keeps.bounds) received success json
  rwa [pick, List.length_map] at each

theorem retried_eq_filter (finalItems : List BulkItemWrapper) (activeIndices : List Nat) :
    ((inspectActiveItems finalItems activeIndices).filterMap fun subIdx => activeIndices[subIdx]?) =
      activeIndices.filter fun row => finalItems[row]?.any BulkItemWrapper.isRecoverable := by
  conv_rhs => rw [← filterMap_range_getElem? activeIndices]
  rw [inspectActiveItems, List.filter_filterMap, List.filterMap_filter]
  apply List.filterMap_congr
  intro subIdx _
  cases activeIndices[subIdx]? with
  | none => simp
  | some row => simp [Option.filter]

theorem lookup_reverse_of_mem {rows : List Nat} {items : List BulkItemWrapper} (distinct : rows.Nodup)
    (each : items.length = rows.length) {entry : Nat × BulkItemWrapper} (found : entry ∈ rows.zip items) :
    (rows.zip items).reverse.lookup entry.1 = some entry.2 := by
  have keys : ((rows.zip items).map Prod.fst).Nodup := by
    rwa [List.map_fst_zip (Nat.le_of_eq each.symm)]
  cases looked : (rows.zip items).reverse.lookup entry.1 with
  | none =>
    have absent := List.lookup_eq_none_iff.mp looked entry (List.mem_reverse.mpr found)
    simp at absent
  | some item =>
    obtain ⟨later, earlier, split, _⟩ := List.lookup_eq_some_iff.mp looked
    have other : (entry.1, item) ∈ rows.zip items := by
      rw [← List.mem_reverse, split]
      exact List.mem_append_right later List.mem_cons_self
    have same := List.inj_on_of_nodup_map keys other found rfl
    rw [← same]

namespace SendState.Keeps

variable {bulk : BulkResponse}

theorem distinct (keeps : state.Keeps documents) : (state.pending documents.length).Nodup :=
  keeps.ascending.imp fun below => Nat.ne_of_lt below

theorem absorb_length (keeps : state.Keeps documents)
    (each : bulk.items.length = (state.pending documents.length).length) :
    (state.absorb bulk).length = documents.length := by
  rw [absorb]
  split
  · rename_i first
    rw [each, pending, if_pos first, List.length_range]
  · rename_i later
    rw [mergeRetryItems_length, keeps.items later]

theorem absorb_pending (keeps : state.Keeps documents)
    (each : bulk.items.length = (state.pending documents.length).length) {entry : Nat × BulkItemWrapper}
    (found : entry ∈ (state.pending documents.length).zip bulk.items) : (state.absorb bulk)[entry.1]? = some entry.2 := by
  have looked := lookup_reverse_of_mem keeps.distinct each found
  have bound := keeps.bounds entry.1 (List.of_mem_zip found).1
  rw [absorb]
  split
  · rename_i first
    rw [pending, if_pos first] at looked each
    rw [List.length_range] at each
    rwa [← each, lookup_range_zip] at looked
  · rename_i later
    rw [mergeRetryItems_getElem? _ _ _ (by rw [keeps.items later]; exact bound)]
    rw [pending, if_neg later] at looked
    rw [looked, Option.some_or]

theorem absorb_other (keeps : state.Keeps documents) {row : Nat} (bound : row < documents.length)
    (settled : row ∉ state.pending documents.length) : (state.absorb bulk)[row]? = state.finalItems[row]? := by
  rw [absorb]
  split
  · rename_i first
    rw [pending, if_pos first] at settled
    exact absurd (List.mem_range.mpr bound) settled
  · rename_i later
    rw [mergeRetryItems_getElem? _ _ _ (by rw [keeps.items later]; exact bound)]
    rw [pending, if_neg later] at settled
    have absent : (state.activeIndices.zip bulk.items).reverse.lookup row = none := by
      rw [List.lookup_eq_none_iff]
      intro entry found
      have listed := (List.of_mem_zip (List.mem_reverse.mp found)).1
      simp only [bne_iff_ne, ne_eq]
      intro same
      exact settled (same ▸ listed)
    rw [absent, Option.none_or]

def absorbed (state : SendState) (count : Nat) (bulk : BulkResponse) (totalTook : Nat) (exchanges : List Exchange) :
    SendState :=
  { state with
    finalItems := state.absorb bulk
    activeIndices := state.pending count
    totalTook := totalTook
    exchanges := exchanges }

theorem readResponse_cases (client : HttpClient)
    (each : bulk.items.length = (state.pending documents.length).length) :
    (state.finalItems = [] ∧ bulk.errors = false ∧
        ∃ exchanges, client.readResponse state bulk = .finished (.ok bulk) exchanges) ∨
      ∃ totalTook exchanges, client.readResponse state bulk =
        client.readItems (absorbed state documents.length bulk totalTook exchanges) := by
  rw [readResponse]
  by_cases first : state.finalItems = []
  · have all : state.pending documents.length = List.range bulk.items.length := by
      rw [pending, if_pos first, List.length_range] at each
      rw [pending, if_pos first, each]
    rw [if_pos first, if_pos first]
    by_cases clean : bulk.errors = false
    · rw [if_pos clean]
      exact .inl ⟨first, clean, _, rfl⟩
    · rw [if_neg clean]
      refine .inr ⟨min (state.totalTook + bulk.took) u64Max, state.exchanges ++
        [⟨List.range bulk.items.length, state.currentPayload, bulk.items⟩], ?_⟩
      rw [absorbed, all, absorb, if_pos first]
  · rw [if_neg first, if_neg first]
    refine .inr ⟨min (state.totalTook + bulk.took) u64Max, state.exchanges ++
      [⟨state.activeIndices, state.currentPayload, bulk.items⟩], ?_⟩
    rw [absorbed, pending, if_neg first, absorb, if_neg first]

/-- The rows with a retryable item are pending again, and the call ends where there are none. -/
theorem readItems_cases (client : HttpClient) (keeps : state.Keeps documents)
    (valid : ∀ document ∈ documents, IsDocument document)
    (each : bulk.items.length = (state.pending documents.length).length) (totalTook : Nat) (exchanges : List Exchange) :
    (∃ response ended, client.readItems (absorbed state documents.length bulk totalTook exchanges) =
        .finished (.ok response) ended ∧ response.items = state.absorb bulk ∧
          ∀ item ∈ response.items, item.isRecoverable = false) ∨
      ∃ exhausted next,
        client.readItems (absorbed state documents.length bulk totalTook exchanges) = .again exhausted next ∧
        next.Keeps documents ∧ next.finalItems = state.absorb bulk ∧ next.finalItems ≠ [] ∧
        next.pending documents.length =
          (state.pending documents.length).filter fun row =>
          (state.absorb bulk)[row]?.any BulkItemWrapper.isRecoverable := by
  have retried := retried_eq_filter (state.absorb bulk) (state.pending documents.length)
  have size := keeps.absorb_length each
  -- The item of a row that is settled now, or was before.
  have settled : ∀ row < documents.length,
      row ∉ (state.pending documents.length).filter (fun row =>
        (state.absorb bulk)[row]?.any BulkItemWrapper.isRecoverable) →
      ∃ item, (state.absorb bulk)[row]? = some item ∧ item.isRecoverable = false := by
    intro row bound gone
    by_cases active : row ∈ state.pending documents.length
    · obtain ⟨item, found⟩ : ∃ item, (state.absorb bulk)[row]? = some item :=
        ⟨_, List.getElem?_eq_getElem (size ▸ bound)⟩
      refine ⟨item, found, ?_⟩
      rw [List.mem_filter, found, Option.any_some] at gone
      exact Bool.eq_false_iff.mpr fun recoverable => gone ⟨active, recoverable⟩
    · rw [keeps.absorb_other bound active]
      exact keeps.settled row bound active
  have ascending := keeps.ascending
  have bounds := keeps.bounds
  have payload := keeps.payload
  rw [readItems]
  simp only [absorbed]
  generalize state.pending documents.length = active at *
  by_cases none : inspectActiveItems (state.absorb bulk) active = []
  · rw [none, List.filterMap_nil] at retried
    have nothing : prepareSubPayloadRetry state.currentPayload (state.absorb bulk) active = .ok Option.none := if_pos none
    rw [nothing]
    refine .inl ⟨_, _, rfl, rfl, ?_⟩
    intro item found
    obtain ⟨row, bound, rfl⟩ := List.getElem_of_mem found
    obtain ⟨item, same, final⟩ := settled row (size ▸ bound) (retried ▸ List.not_mem_nil)
    rw [List.getElem?_eq_getElem bound] at same
    rwa [Option.some.inj same]
  · have inside := inspectActiveItems_bounds (state.absorb bulk) active
    have picked : ∀ position ∈ inspectActiveItems (state.absorb bulk) active,
        position < (pick documents active).length := by
      intro position member
      rw [pick, List.length_map]
      exact inside position member
    have extracted := extractSubPayload_documents (pick_isDocument valid bounds) picked
    have chosen := pick_pick documents active inside
    rw [← payload] at extracted
    rw [pick] at chosen
    rw [chosen, retried] at extracted
    have filled : state.absorb bulk ≠ [] := by
      intro empty
      obtain ⟨position, member⟩ := List.exists_mem_of_ne_nil _ none
      rw [inspectActiveItems, empty, List.mem_filter] at member
      simp at member
    have again : prepareSubPayloadRetry state.currentPayload (state.absorb bulk) active = .ok (some
        ((pick documents (active.filter fun row =>
          (state.absorb bulk)[row]?.any BulkItemWrapper.isRecoverable)).flatten,
          active.filter fun row => (state.absorb bulk)[row]?.any BulkItemWrapper.isRecoverable)) := by
      rw [← retried]
      exact (if_neg none).trans (by rw [extracted, ← retried]; rfl)
    rw [again]
    refine .inr ⟨_, _, rfl, ?_, rfl, filled, if_neg filled⟩
    constructor
    · simp only [pending, if_neg filled]
      exact ascending.filter _
    · simp only [pending, if_neg filled]
      exact fun row member => bounds row (List.mem_of_mem_filter member)
    · simp only [pending, if_neg filled]
    · exact fun _ => size
    · simp only [pending, if_neg filled]
      exact settled

end SendState.Keeps

end Turns

def LastItem (log : List Request) (row : Nat) (item : BulkItemWrapper) : Prop :=
  ∃ before request after bulk, log = before ++ request :: after ∧ request.response = some bulk ∧
    (row, item) ∈ request.rows.zip bulk.items ∧ ∀ later ∈ after, row ∉ later.rows

structure Request.Submits (documents : List (List UInt8)) (request : Request) : Prop where
  ascending : request.rows.Pairwise (· < ·)
  bounds : ∀ row ∈ request.rows, row < documents.length
  payload : request.payload = (pick documents request.rows).flatten

/-- No later request holds a document that an earlier one answered with an item that is not retryable. -/
def NeverAgain (earlier later : Request) : Prop :=
  ∀ bulk, earlier.response = some bulk → ∀ entry ∈ earlier.rows.zip bulk.items, entry.2.isRecoverable = false →
    entry.1 ∉ later.rows

structure Retries (documents : List (List UInt8)) (state : SendState) (result : Except ElasticsearchError BulkResponse)
    (log : List Request) : Prop where
  submits : ∀ request ∈ log, request.Submits documents
  pending : ∀ request ∈ log, request.rows ⊆ state.pending documents.length
  final : log.Pairwise NeverAgain
  count : ∀ response, result = .ok response → response.items.length = documents.length
  active : ∀ response, result = .ok response → ∀ row ∈ state.pending documents.length,
    ∃ item, response.items[row]? = some item ∧ LastItem log row item
  others : ∀ response, result = .ok response → ∀ row < documents.length, row ∉ state.pending documents.length →
    response.items[row]? = state.finalItems[row]?
  settled : ∀ response, result = .ok response → (∀ item ∈ response.items, item.isRecoverable = false) ∨
    state.finalItems = [] ∧ (log.filterMap Request.response).head? = some response ∧ response.errors = false

section Runs

variable {client : HttpClient} {transport : Transport} {documents : List (List UInt8)} {state next : SendState}
  {result : Except ElasticsearchError BulkResponse} {log : List Request} {request : Request} {bulk : BulkResponse}

theorem LastItem.cons {row : Nat} {item : BulkItemWrapper} (last : LastItem log row item) :
    LastItem (request :: log) row item := by
  obtain ⟨before, found, after, bulk, rfl, answered, paired, none⟩ := last
  exact ⟨request :: before, found, after, bulk, rfl, answered, paired, none⟩

theorem LastItem.head {row : Nat} {item : BulkItemWrapper} (answered : request.response = some bulk)
    (paired : (row, item) ∈ request.rows.zip bulk.items) (none : ∀ later ∈ log, row ∉ later.rows) :
    LastItem (request :: log) row item :=
  ⟨[], request, log, bulk, rfl, answered, paired, none⟩

theorem exists_paired {rows : List Nat} {items : List BulkItemWrapper} (each : items.length = rows.length) {row : Nat}
    (found : row ∈ rows) : ∃ item, (row, item) ∈ rows.zip items := by
  rw [← List.map_fst_zip (Nat.le_of_eq each.symm)] at found
  obtain ⟨entry, paired, rfl⟩ := List.mem_map.mp found
  exact ⟨entry.2, paired⟩

theorem SendState.Keeps.submits (keeps : state.Keeps documents) :
    (state.request client transport documents.length).Submits documents :=
  ⟨keeps.ascending, keeps.bounds, keeps.payload⟩

namespace Retries

theorem failed (keeps : state.Keeps documents) (error : ElasticsearchError) :
    Retries documents state (.error error) [state.request client transport documents.length] where
  submits := by
    rw [List.forall_mem_singleton]
    exact keeps.submits
  pending := by
    rw [List.forall_mem_singleton]
    exact fun _ found => found
  final := List.pairwise_singleton _ _
  count _ done := nomatch done
  active _ done := nomatch done
  others _ done := nomatch done
  settled _ done := nomatch done

theorem finished (keeps : state.Keeps documents)
    (read : client.parsed state.attempt (transport state.attempt state.currentPayload) = some bulk)
    (each : bulk.items.length = (state.pending documents.length).length) {response : BulkResponse}
    (items : response.items = state.absorb bulk)
    (settled : (∀ item ∈ response.items, item.isRecoverable = false) ∨
      state.finalItems = [] ∧ bulk = response ∧ response.errors = false) :
    Retries documents state (.ok response) [state.request client transport documents.length] where
  submits := by
    rw [List.forall_mem_singleton]
    exact keeps.submits
  pending := by
    rw [List.forall_mem_singleton]
    exact fun _ found => found
  final := List.pairwise_singleton _ _
  count := by
    rintro _ ⟨⟩
    rw [items, keeps.absorb_length each]
  active := by
    rintro _ ⟨⟩ row found
    obtain ⟨item, paired⟩ := exists_paired each found
    refine ⟨item, ?_, LastItem.head read paired fun _ later => absurd later List.not_mem_nil⟩
    rw [items]
    exact keeps.absorb_pending each paired
  others := by
    rintro _ ⟨⟩ row bound gone
    rw [items, keeps.absorb_other bound gone]
  settled := by
    rintro _ ⟨⟩
    rcases settled with none | ⟨first, same, clean⟩
    · exact .inl none
    · refine .inr ⟨first, ?_, clean⟩
      rw [List.filterMap_cons_some (show (state.request client transport documents.length).response = some bulk from read),
        List.head?_cons, same]

theorem unread (keeps : state.Keeps documents)
    (nothing : client.parsed state.attempt (transport state.attempt state.currentPayload) = none)
    (rest : Retries documents { state with attempt := state.attempt + 1 } result log) :
    Retries documents state result (state.request client transport documents.length :: log) where
  submits := List.forall_mem_cons.mpr ⟨keeps.submits, rest.submits⟩
  pending := List.forall_mem_cons.mpr ⟨fun _ found => found, rest.pending⟩
  final := by
    refine List.pairwise_cons.mpr ⟨fun later _ bulk read => ?_, rest.final⟩
    exact absurd (nothing.symm.trans read) (by simp)
  count := rest.count
  active response done row found := by
    obtain ⟨item, same, last⟩ := rest.active response done row found
    exact ⟨item, same, last.cons⟩
  others := rest.others
  settled response done := by
    rw [List.filterMap_cons_none (show (state.request client transport documents.length).response = none from nothing)]
    exact rest.settled response done

theorem read (keeps : state.Keeps documents)
    (read : client.parsed state.attempt (transport state.attempt state.currentPayload) = some bulk)
    (each : bulk.items.length = (state.pending documents.length).length)
    (items : next.finalItems = state.absorb bulk) (filled : next.finalItems ≠ [])
    (kept : next.pending documents.length =
      (state.pending documents.length).filter fun row => (state.absorb bulk)[row]?.any BulkItemWrapper.isRecoverable)
    (rest : Retries documents next result log) :
    Retries documents state result (state.request client transport documents.length :: log) where
  submits := List.forall_mem_cons.mpr ⟨keeps.submits, rest.submits⟩
  pending := by
    refine List.forall_mem_cons.mpr ⟨fun _ found => found, fun request later row found => ?_⟩
    have still := rest.pending request later found
    rw [kept] at still
    exact List.mem_of_mem_filter still
  final := by
    refine List.pairwise_cons.mpr ⟨fun later listed other answered entry paired ended found => ?_, rest.final⟩
    obtain rfl : bulk = other := Option.some.inj (read.symm.trans answered)
    have still := rest.pending later listed found
    rw [kept, List.mem_filter, keeps.absorb_pending each paired, Option.any_some, ended] at still
    exact absurd still.2 Bool.false_ne_true
  count := rest.count
  active response done row found := by
    by_cases still : row ∈ next.pending documents.length
    · obtain ⟨item, same, last⟩ := rest.active response done row still
      exact ⟨item, same, last.cons⟩
    · obtain ⟨item, paired⟩ := exists_paired each found
      refine ⟨item, ?_, LastItem.head read paired fun later listed again => still (rest.pending later listed again)⟩
      rw [rest.others response done row (keeps.bounds row found) still, items]
      exact keeps.absorb_pending each paired
  others response done row bound gone := by
    have still : row ∉ next.pending documents.length := by
      rw [kept]
      exact fun found => gone (List.mem_of_mem_filter found)
    rw [rest.others response done row bound still, items, keeps.absorb_other bound gone]
  settled response done := by
    rcases rest.settled response done with none | ⟨empty, _⟩
    · exact .inl none
    · exact absurd empty filled

end Retries

theorem turn_outcome (client : HttpClient) (answers : AnswersInOrder transport)
    (valid : ∀ document ∈ documents, IsDocument document)
    (keeps : state.Keeps documents) :
    (∃ result exchanges, client.turn state (transport state.attempt state.currentPayload) = .finished result exchanges ∧
        Retries documents state result [state.request client transport documents.length]) ∨
      ∃ exhausted next, client.turn state (transport state.attempt state.currentPayload) = .again exhausted next ∧
        next.Keeps documents ∧ ∀ result log, Retries documents next result log →
          Retries documents state result (state.request client transport documents.length :: log) := by
  cases read : client.parsed state.attempt (transport state.attempt state.currentPayload) with
  | none =>
    rcases turn_unread read with ⟨error, exchanges, ended⟩ | ⟨exhausted, again⟩
    · exact .inl ⟨_, _, ended, .failed keeps error⟩
    · exact .inr ⟨_, _, again, ⟨keeps.ascending, keeps.bounds, keeps.payload, keeps.items, keeps.settled⟩,
        fun _ _ rest => .unread keeps read rest⟩
  | some bulk =>
    have each := keeps.answered answers valid read
    rw [(turn_read client state read).1]
    rcases SendState.Keeps.readResponse_cases client each with ⟨first, clean, exchanges, ended⟩ | ⟨took, exchanges, looked⟩
    · have items : bulk.items = state.absorb bulk := by rw [SendState.absorb, if_pos first]
      exact .inl ⟨_, _, ended, .finished keeps read each items (.inr ⟨first, rfl, clean⟩)⟩
    · rw [looked]
      rcases keeps.readItems_cases client valid each took exchanges with
        ⟨response, final, ended, items, none⟩ | ⟨exhausted, next, again, kept, items, filled, pending⟩
      · exact .inl ⟨_, _, ended, .finished keeps read each items (.inl none)⟩
      · exact .inr ⟨_, _, again, kept, fun _ _ rest => .read keeps read each items filled pending rest⟩

theorem sendLoop_retries (client : HttpClient) (answers : AnswersInOrder transport)
    (valid : ∀ document ∈ documents, IsDocument document)
    (remaining : Nat) (keeps : state.Keeps documents) :
    Retries documents state (client.sendLoop transport remaining state).1
      (client.requests transport documents.length remaining state) := by
  induction remaining generalizing state with
  | zero =>
    rw [sendLoop, requests]
    rcases turn_outcome client answers valid keeps with ⟨result, exchanges, ended, rest⟩ | ⟨exhausted, next, again, _⟩
    · rw [ended]
      exact rest
    · rw [again]
      exact .failed keeps exhausted
  | succ remaining ih =>
    rw [sendLoop, requests]
    rcases turn_outcome client answers valid keeps with
      ⟨result, exchanges, ended, rest⟩ | ⟨exhausted, next, again, kept, rest⟩
    · rw [ended]
      exact rest
    · rw [again]
      exact rest _ _ (ih kept)

theorem requests_length_le (count remaining : Nat) (state : SendState) :
    (client.requests transport count remaining state).length ≤ remaining + 1 := by
  induction remaining generalizing state with
  | zero =>
    rw [requests]
    cases client.turn state (transport state.attempt state.currentPayload) <;> simp
  | succ remaining ih =>
    rw [requests]
    cases client.turn state (transport state.attempt state.currentPayload) with
    | finished result exchanges => simp
    | again exhausted next =>
      rw [List.length_cons]
      exact Nat.succ_le_succ (ih next)

end Runs

structure Bookkeeping (client : HttpClient) (documents : List (List UInt8))
    (result : Except ElasticsearchError BulkResponse) (log : List Request) : Prop where
  submits : ∀ request ∈ log, request.Submits documents
  final : log.Pairwise NeverAgain
  attempts : log.length ≤ client.maxRetries + 1
  items : ∀ response, result = .ok response → response.items.length = documents.length ∧
    ∀ row < documents.length, ∃ item, response.items[row]? = some item ∧ LastItem log row item
  settled : ∀ response, result = .ok response → (∀ item ∈ response.items, item.isRecoverable = false) ∨
    (log.filterMap Request.response).head? = some response ∧ response.errors = false

/-- The retries of a call keep each document with its item, whatever the server answers to each request. -/
theorem sendBulk_bookkeeping (client : HttpClient) {transport : Transport} (answers : AnswersInOrder transport)
    {documents : List (List UInt8)} (valid : ∀ document ∈ documents, IsDocument document) :
    Bookkeeping client documents (client.sendBulk transport documents.flatten).1
      (client.sendRequests transport documents) := by
  have begun : SendState.Keeps documents { currentPayload := documents.flatten } := by
    refine ⟨List.pairwise_lt_range, fun row found => List.mem_range.mp found, ?_, fun filled => absurd rfl filled, ?_⟩
    · simp only [SendState.pending, if_true, pick_range]
    · exact fun row bound gone => absurd (List.mem_range.mpr bound) gone
  have run := sendLoop_retries client answers valid client.maxRetries begun
  refine ⟨run.submits, run.final, requests_length_le _ _ _, fun response done => ⟨run.count response done, ?_⟩,
    fun response done => ?_⟩
  · exact fun row bound => run.active response done row (List.mem_range.mpr bound)
  · exact (run.settled response done).imp_right And.right

/-- A server that answers the documents of a payload with a status by the attempt and the position, and is unavailable at
    the second attempt. -/
def positionServer (errors : Nat → Bool) (status : (attempt position : Nat) → Nat) : Transport := fun attempt payload =>
  if attempt = 1 then .ok { status := 503, text := [], json := .error [] }
  else
    .ok
      { status := 200
        text := []
        json := .ok
          { took := 1
            errors := errors attempt
            items := (List.range ((lineRanges payload).length / 2)).map fun position =>
              { create := some { status := status attempt position } } } }

theorem positionServer_answers (errors : Nat → Bool) (status : (attempt position : Nat) → Nat) :
    AnswersInOrder (positionServer errors status) := by
  intro attempt documents response bulk valid received success parsed
  obtain ⟨paired, _⟩ := scanLines_documents valid 0
  rw [positionServer] at received
  split at received
  · cases received
    cases parsed
  · cases received
    cases parsed
    rw [List.length_map, List.length_range, lineRanges, paired, Nat.mul_div_cancel_left _ Nat.two_pos]

def emptyDocument : List UInt8 := bulkAction ++ ascii "\x7b\x7d\n"

theorem emptyDocument_isDocument : IsDocument emptyDocument :=
  ⟨ascii "\x7b\"create\":\x7b\x7d\x7d", ascii "\x7b\x7d", by decide, by decide, by decide, by decide, by decide⟩

theorem emptyDocuments_isDocument (count : Nat) :
    ∀ document ∈ List.replicate count emptyDocument, IsDocument document := by
  intro document found
  rw [List.eq_of_mem_replicate found]
  exact emptyDocument_isDocument

/-- The second of three documents is answered with 429, so it is sent again, twice because of the unavailable server. -/
theorem sendBulk_bookkeeping_busy :
    (sendRequests ⟨3, fun _ => []⟩ (positionServer (· == 0) fun attempt position =>
        if attempt = 0 ∧ position = 1 then 429 else 201) (List.replicate 3 emptyDocument)).map Request.rows =
          [[0, 1, 2], [1], [1]] ∧
      Bookkeeping ⟨3, fun _ => []⟩ (List.replicate 3 emptyDocument)
        (.ok ⟨2, false, List.replicate 3 { create := some { status := 201 } }⟩)
        (sendRequests ⟨3, fun _ => []⟩ (positionServer (· == 0) fun attempt position =>
          if attempt = 0 ∧ position = 1 then 429 else 201) (List.replicate 3 emptyDocument)) := by
  refine ⟨by decide +kernel, ?_⟩
  have kept := sendBulk_bookkeeping ⟨3, fun _ => []⟩ (positionServer_answers (· == 0) fun attempt position =>
    if attempt = 0 ∧ position = 1 then 429 else 201) (emptyDocuments_isDocument 3)
  have returned : (sendBulk ⟨3, fun _ => []⟩ (positionServer (· == 0) fun attempt position =>
      if attempt = 0 ∧ position = 1 then 429 else 201) (List.replicate 3 emptyDocument).flatten).1 =
        .ok ⟨2, false, List.replicate 3 { create := some { status := 201 } }⟩ := by decide +kernel
  rwa [returned] at kept

/-- A first response that says that it holds no errors is returned as it is, with its retryable item. -/
theorem sendBulk_trusts_errors :
    ¬∀ (client : HttpClient) (transport : Transport) (documents : List (List UInt8)), AnswersInOrder transport →
      (∀ document ∈ documents, IsDocument document) →
        ∀ response, (client.sendBulk transport documents.flatten).1 = .ok response →
          (∀ item ∈ response.items, item.isRecoverable = false) ∨
            (client.sendRequests transport documents).length = client.maxRetries + 1 := by
  intro all
  have settled := all ⟨3, fun _ => []⟩ (positionServer (fun _ => false) fun _ _ => 429) [emptyDocument]
    (positionServer_answers _ _) (emptyDocuments_isDocument 1) ⟨1, false, [{ create := some { status := 429 } }]⟩
    (by decide +kernel)
  rcases settled with none | exhausted
  · exact absurd (none _ List.mem_cons_self) (by decide)
  · exact absurd exhausted (by decide +kernel)

end OtelDatalake.Elasticsearch.HttpClient
