import Tremor.Http.SurfClients
import Tremor.Value.Basic
import Tremor.Prelude

namespace tremor_runtime.http

open tremor_value

/-- The runtime's `Error` (`crate::errors`, outside src) as this connector meets it. -/
inductive Error where
  /-- `async_std::future::TimeoutError`, passed on by `?`. -/
  | Timeout
  /-- `async_std::channel::RecvError`: the channel is closed and drained. -/
  | RecvError
  | MissingConfiguration (name : String)
  /-- An error of a collaborator outside src, passed on by `?`. -/
  | Other (msg : String)
  deriving DecidableEq, Repr

/-- `tremor_pipeline::EventOriginUri`. -/
structure EventOriginUri where
  scheme : String
  host : String
  port : Option UInt16
  path : List String
  deriving DecidableEq, Repr

/-- An inbound event: its transactional id and its payload. -/
structure Event where
  id : Nat
  data : Value

/-- The URL of a request. -/
structure Url where
  scheme : String
  host : String
  port : Option UInt16
  path : List String
  deriving DecidableEq, Repr

/-- A `surf::Request`; only its URL is looked at here. -/
structure Request where
  url : Url
  deriving DecidableEq, Repr

/-- A `SourceReply::Structured`: origin, the payload's value and meta, stream and port. -/
structure SourceReply where
  origin_uri : EventOriginUri
  value : Value
  meta : Value
  stream : Nat
  port : Option String

/-- `tremor_pipeline::DEFAULT_STREAM_ID`; its value is outside src, and nothing proved here
    depends on it. -/
def DEFAULT_STREAM_ID : Nat := 0

/-- What `HttpResponseMeta::invoke` makes of a response it got. -/
inductive ResponseEventCont where
  | Valid (source_replies : List SourceReply)
  | CodecError

/-- The two `SinkReply`s `on_event` returns (`SinkReply::default()` is `NONE`). -/
inductive SinkReply where
  | NONE
  | FAIL
  deriving DecidableEq, Repr

/-- Modelled from the spec: the flow-control signals `ConcurrencyCap` sends upstream on the sink
    manager's `reply_tx` (the spec's §4.1): `Close` makes upstream pause, `Restore` resumes it. -/
inductive CbAction where
  | Close
  | Restore
  deriving DecidableEq, Repr

/-- Modelled from the spec: `ConcurrencyCap` (`connectors/sink/concurrency_cap.rs`) is not
    under src. A counter of reserved slots, bounded by `max` (the spec's §4.1). -/
structure ConcurrencyCap where
  max : Nat
  counter : Nat
  deriving DecidableEq, Repr

/-- Modelled from the spec: the permit guard, with the ordinal of its slot. -/
structure CounterGuard where
  num : Nat
  deriving DecidableEq, Repr

/-- Modelled from the spec: `ConcurrencyCap::new`. -/
def ConcurrencyCap.new (max : Nat) : ConcurrencyCap := { max, counter := 0 }

/-- Modelled from the spec: `inc_for` reserves a free slot at once and returns its guard, with
    the signals it sends: the reservation that takes the last free slot reaches the bound and
    sends `Close`. At the bound the caller suspends (`none`) until a slot is freed. Saturation
    is no error. -/
def ConcurrencyCap.inc_for (self : ConcurrencyCap) (_event : Event) :
    Option (CounterGuard × ConcurrencyCap × List CbAction) :=
  if self.counter < self.max then
    some (⟨self.counter⟩, { self with counter := self.counter + 1 },
      if self.counter + 1 = self.max then [.Close] else [])
  else none

/-- Modelled from the spec: dropping a guard frees its slot; freeing a slot of a cap at its bound
    makes capacity available again and sends `Restore`. -/
def ConcurrencyCap.drop (self : ConcurrencyCap) (_guard : CounterGuard) :
    ConcurrencyCap × List CbAction :=
  ({ self with counter := self.counter - 1 }, if self.counter = self.max then [.Restore] else [])

/-- `HttpRequestMeta` (`http/meta.rs`, outside src) as far as `on_event` reads it: `process`
    builds the request and its correlation metadata from an event, and the names of the
    processors every exchange gets. -/
structure HttpRequestMeta where
  process : Event → Except Error (Request × Value)
  preprocessors : List String
  postprocessors : List String

/-- `preprocessor::lookup` and `postprocessor::lookup` (outside src): a known name or an
    error. -/
structure Registry where
  preprocessor : String → Except Error Unit
  postprocessor : String → Except Error Unit

/-- The program points of an exchange task. -/
inductive TaskStage where
  /-- `HttpResponseMeta::invoke` has not returned. -/
  | invoking
  /-- `invoke` returned `outcome`; `pending` are the sends still to make. -/
  | sending (outcome : Except Error ResponseEventCont) (pending : List SourceReply)
  /-- The `async move` block has returned. -/
  | finished (outcome : Except Error ResponseEventCont)

/-- A task spawned by `on_event`, with what its `async move` block captured; neither the event
    nor the guard is among them, and `event` is kept only to state what the task belongs to. -/
structure Task where
  event : Event
  name : String
  client : SurfClient
  request : Request
  request_meta : Value
  origin_uri : EventOriginUri
  stage : TaskStage

/-- The reply a task sends for `ResponseEventCont::CodecError`: payload `{"status": 415}`,
    meta `{"request": request_meta}`. -/
def codec_error_reply (origin_uri : EventOriginUri) (request_meta : Value) : SourceReply :=
  { origin_uri
    value := .object [("status", .static (.i64 415))]
    meta := .object [("request", request_meta)]
    stream := DEFAULT_STREAM_ID
    port := none }

/-- The sends of the task body, in order, for what `invoke` returned: every decoded reply, the
    one 415 reply, or nothing (an error is only logged). -/
def Task.sends (self : Task) : Except Error ResponseEventCont → List SourceReply
  | .ok (.Valid source_replies) => source_replies
  | .ok .CodecError => [codec_error_reply self.origin_uri self.request_meta]
  | .error _ => []

/-- The sink. `clients_rx` holds the lists waiting on the clients channel; `cb_replies` are the
    flow-control signals the cap has sent on the sink manager's `reply_tx`, oldest first;
    `response_tx` is a handle with no state of its own. -/
structure HttpRequestSink where
  clients : SurfClients
  clients_rx : List (List SurfClient)
  concurrency_cap : ConcurrencyCap
  cb_replies : List CbAction
  origin_uri : EventOriginUri
  http_meta : HttpRequestMeta

/-- `HttpRequestSink::new`: an empty pool, and an origin the comment says `on_event` replaces. -/
def HttpRequestSink.new (clients_rx : List (List SurfClient)) (max_in_flight_requests : Nat)
    (http_meta : HttpRequestMeta) : HttpRequestSink :=
  { clients := SurfClients.new []
    clients_rx
    concurrency_cap := ConcurrencyCap.new max_in_flight_requests
    cb_replies := []
    origin_uri := { scheme := "rest_client", host := "dummy", port := none, path := [] }
    http_meta }

/-- `refresh_clients`: swap in the whole pool when a list waits on the channel (`try_recv`). -/
def HttpRequestSink.refresh_clients (self : HttpRequestSink) : HttpRequestSink :=
  match self.clients_rx with
  | new_clients :: rest => { self with clients := SurfClients.new new_clients, clients_rx := rest }
  | [] => self

@[simp] theorem HttpRequestSink.refresh_clients_origin_uri (self : HttpRequestSink) :
    self.refresh_clients.origin_uri = self.origin_uri := by
  unfold HttpRequestSink.refresh_clients
  split <;> rfl

@[simp] theorem HttpRequestSink.refresh_clients_http_meta (self : HttpRequestSink) :
    self.refresh_clients.http_meta = self.http_meta := by
  unfold HttpRequestSink.refresh_clients
  split <;> rfl

@[simp] theorem HttpRequestSink.refresh_clients_concurrency_cap (self : HttpRequestSink) :
    self.refresh_clients.concurrency_cap = self.concurrency_cap := by
  unfold HttpRequestSink.refresh_clients
  split <;> rfl

@[simp] theorem HttpRequestSink.refresh_clients_cb_replies (self : HttpRequestSink) :
    self.refresh_clients.cb_replies = self.cb_replies := by
  unfold HttpRequestSink.refresh_clients
  split <;> rfl

/-- `refresh_clients` takes the oldest waiting list off the clients channel, if there is one. -/
@[simp] theorem HttpRequestSink.refresh_clients_clients_rx (self : HttpRequestSink) :
    self.refresh_clients.clients_rx = self.clients_rx.tail := by
  unfold HttpRequestSink.refresh_clients
  split <;> simp_all

/-- What `on_event` leaves when it returns: its result, the sink, and the task it spawned. -/
structure Dispatch where
  reply : Except Error SinkReply
  sink : HttpRequestSink
  task : Option Task

/-- Looking up names that are all known succeeds. -/
theorem forM_lookup_ok {names : List String} {lookup : String → Except Error Unit}
    (h : ∀ name ∈ names, lookup name = .ok ()) : names.forM lookup = .ok () := by
  induction names with
  | nil => rfl
  | cons name names ih =>
    show (lookup name >>= fun _ => names.forM lookup) = _
    rw [h name (List.mem_cons_self _ _), Except.ok_bind]
    exact ih fun n hn => h n (List.mem_cons_of_mem _ hn)

/-- `on_event` once it has a client, reading the sink's `http_meta` and `origin_uri`: build
    the request, look the processors up, and spawn the task; `spawn` is what
    `async_std::task::Builder::spawn` returned. -/
def spawn_exchange (http_meta : HttpRequestMeta) (origin_uri : EventOriginUri)
    (registry : Registry) (guard : CounterGuard) (event : Event) (client : SurfClient)
    (spawn : Except Error Unit) : Except Error Task := do
  let (request, request_meta) ← http_meta.process event
  http_meta.preprocessors.forM registry.preprocessor
  http_meta.postprocessors.forM registry.postprocessor
  spawn
  pure
    { event
      name := "Rest Connector #" ++ toString guard.num
      client
      request
      request_meta
      origin_uri
      stage := .invoking }

/-- `HttpRequestSink::on_event`, `none` while it is suspended in `inc_for`. The guard is not
    moved into the task: it is dropped when `on_event` returns, on every path. -/
def HttpRequestSink.on_event (self : HttpRequestSink) (registry : Registry) (event : Event)
    (spawn : Except Error Unit) : Option Dispatch := do
  let self := self.refresh_clients
  let (guard, concurrency_cap, closing) ← self.concurrency_cap.inc_for event
  let self := { self with concurrency_cap, cb_replies := self.cb_replies ++ closing }
  let (client, clients) := self.clients.next
  let self := { self with clients }
  let (reply, task) : Except Error SinkReply × Option Task :=
    match client with
    | none => (.ok .FAIL, none)
    | some client =>
      match spawn_exchange self.http_meta self.origin_uri registry guard event client spawn with
      | .ok task => (.ok .NONE, some task)
      | .error e => (.error e, none)
  let (concurrency_cap, restoring) := self.concurrency_cap.drop guard
  pure ⟨reply, { self with concurrency_cap, cb_replies := self.cb_replies ++ restoring }, task⟩

/-- With a request built and every processor name known, a spawn that succeeds hands out the
    task. -/
theorem spawn_exchange_eq_ok {http_meta : HttpRequestMeta} {origin_uri : EventOriginUri}
    {registry : Registry} {guard : CounterGuard} {event : Event} {client : SurfClient}
    {request : Request} {request_meta : Value}
    (hprocess : http_meta.process event = .ok (request, request_meta))
    (hpre : ∀ name ∈ http_meta.preprocessors, registry.preprocessor name = .ok ())
    (hpost : ∀ name ∈ http_meta.postprocessors, registry.postprocessor name = .ok ()) :
    spawn_exchange http_meta origin_uri registry guard event client (.ok ()) =
      .ok { event, name := "Rest Connector #" ++ toString guard.num, client, request,
            request_meta, origin_uri, stage := .invoking } := by
  simp only [spawn_exchange, hprocess, forM_lookup_ok hpre, forM_lookup_ok hpost, Except.ok_bind]
  rfl

/-- A task `spawn_exchange` returns starts at `invoke`, with the request and metadata `process`
    built from its own event, and the sink's origin. -/
theorem spawn_exchange_ok {http_meta : HttpRequestMeta} {origin_uri : EventOriginUri}
    {registry : Registry} {guard : CounterGuard} {event : Event} {client : SurfClient}
    {spawn : Except Error Unit} {t : Task}
    (h : spawn_exchange http_meta origin_uri registry guard event client spawn = .ok t) :
    http_meta.process event = .ok (t.request, t.request_meta) ∧ t.event = event ∧
      t.origin_uri = origin_uri ∧ t.client = client ∧ t.stage = .invoking := by
  unfold spawn_exchange at h
  cases hp : http_meta.process event with
  | error e => simp [hp] at h
  | ok p =>
    cases hpre : http_meta.preprocessors.forM registry.preprocessor <;>
    cases hpost : http_meta.postprocessors.forM registry.postprocessor <;>
    cases spawn <;> simp only [hp, hpre, hpost, Except.ok_bind, Except.error_bind, Except.map_ok,
      Except.map_error, Except.pure_eq_ok, Except.ok.injEq, reduceCtorEq] at h
    subst h
    simp

@[simp] theorem HttpRequestSink.refresh_clients_of_nil {self : HttpRequestSink}
    (h : self.clients_rx = []) : self.refresh_clients = self := by
  simp [HttpRequestSink.refresh_clients, h]

/-- Below the bound `on_event` is admitted and returns. -/
theorem HttpRequestSink.on_event_admits {self : HttpRequestSink} (registry : Registry)
    (event : Event) (spawn : Except Error Unit)
    (h : self.concurrency_cap.counter < self.concurrency_cap.max) :
    ∃ d, self.on_event registry event spawn = some d := by
  simp [HttpRequestSink.on_event, ConcurrencyCap.inc_for, h]

/-- Everything `on_event` can do, once: it returns only past `inc_for`, leaves the sink
    refreshed with the pool's cursor moved on, the slot freed again and, when its reservation
    reached the bound, `Close` and then `Restore` sent upstream; and it answers `FAIL` without
    a client, the task with `NONE`, or the error that stopped it. -/
theorem HttpRequestSink.on_event_some {self : HttpRequestSink} {registry : Registry}
    {event : Event} {spawn : Except Error Unit} {d : Dispatch}
    (h : self.on_event registry event spawn = some d) :
    self.concurrency_cap.counter < self.concurrency_cap.max ∧
    d.sink = { self.refresh_clients with
      clients := self.refresh_clients.clients.next.2
      cb_replies := self.cb_replies ++
        if self.concurrency_cap.counter + 1 = self.concurrency_cap.max then [.Close, .Restore]
        else [] } ∧
    match self.refresh_clients.clients.next.1 with
    | none => d.reply = .ok .FAIL ∧ d.task = none
    | some client =>
      match spawn_exchange self.http_meta self.origin_uri registry ⟨self.concurrency_cap.counter⟩
          event client spawn with
      | .ok t => d.reply = .ok .NONE ∧ d.task = some t
      | .error e => d.reply = .error e ∧ d.task = none := by
  unfold HttpRequestSink.on_event ConcurrencyCap.inc_for at h
  simp only [HttpRequestSink.refresh_clients_concurrency_cap] at h
  split at h
  · rename_i hlt
    refine ⟨hlt, ?_⟩
    simp only [Option.pure_def, Option.bind_eq_bind, Option.some_bind, Option.some.injEq] at h
    subst h
    refine ⟨?_, ?_⟩
    · simp only [ConcurrencyCap.drop, Nat.add_sub_cancel]
      by_cases hmax : self.concurrency_cap.counter + 1 = self.concurrency_cap.max <;> simp [hmax]
    · rcases self.refresh_clients.clients.next with ⟨_ | client, clients⟩
      · simp
      · simp only
        split <;> simp_all
  · simp at h

/-- A task `on_event` hands out comes from `spawn_exchange` with the sink's own configuration,
    and holds the client the pool's cursor stood on. -/
theorem HttpRequestSink.on_event_task {self : HttpRequestSink} {registry : Registry}
    {event : Event} {spawn : Except Error Unit} {d : Dispatch} {t : Task}
    (h : self.on_event registry event spawn = some d) (ht : d.task = some t) :
    self.refresh_clients.clients.next.1 = some t.client ∧
      spawn_exchange self.http_meta self.origin_uri registry
        ⟨self.concurrency_cap.counter⟩ event t.client spawn = .ok t := by
  obtain ⟨-, -, hd⟩ := HttpRequestSink.on_event_some h
  split at hd
  · simp [ht] at hd
  · rename_i client hnext
    split at hd
    · rename_i t' hx
      rw [ht, Option.some.injEq] at hd
      obtain rfl := hd.2
      obtain rfl := (spawn_exchange_ok hx).2.2.2.1
      exact ⟨hnext, hx⟩
    · simp [ht] at hd

/-- `HttpRequestSink::on_signal`: only the pool refresh. -/
def HttpRequestSink.on_signal (self : HttpRequestSink) : HttpRequestSink × SinkReply :=
  (self.refresh_clients, .NONE)

/-- The HTTP client connector, as far as `connect` and the sink read it. -/
structure HttpClient where
  max_concurrency : Nat
  codec_name : String
  deriving DecidableEq, Repr

/-- The parsed `config` block (`Config::new`, outside src), as far as `from_config` reads it. -/
structure Config where
  concurrency : Nat
  deriving DecidableEq, Repr

/-- What `from_config` reads of the connector's configuration: the codec's name and the raw
    `config` value. -/
structure ConnectorConfig where
  codec : Option String
  config : Option Value

/-- The parsers `from_config` calls, both outside src: `Config::new` on the `config` value, and
    `structurize::<MimeCodecMap>` on its `codec_map` entry. -/
structure ConfigParsers where
  config_new : Value → Except Error Config
  structurize_codec_map : Value → Except Error Unit

/-- `connector_config.config.get(key)`: the entry of an object, `None` for any other value. -/
def config_get (config : Value) (key : String) : Option Value :=
  match config with
  | .object entries => entries.lookup key
  | _ => none

/-- `Builder::from_config`: the codec defaults to `json`; without a `config` block it is a
    `MissingConfiguration` error, and otherwise `Config::new` and a `codec_map` entry, if there is
    one, must parse. The two channels are created here; the connector model starts with them
    empty. -/
def Builder.from_config (parsers : ConfigParsers) (connector_config : ConnectorConfig) :
    Except Error HttpClient :=
  let codec_name := connector_config.codec.getD "json"
  match connector_config.config with
  | some raw => do
    let config ← parsers.config_new raw
    match config_get raw "codec_map" with
    | some codec_map => parsers.structurize_codec_map codec_map
    | none => pure ()
    pure { max_concurrency := config.concurrency, codec_name }
  | none => .error (.MissingConfiguration "HttpClient")

/-- `from_config` builds the connector exactly when there is a `config` block that
    `Config::new` accepts and whose `codec_map` entry, if any, structurizes; the connector then
    has the parsed concurrency and the codec named, `json` by default. -/
theorem Builder.from_config_eq_ok {parsers : ConfigParsers} {connector_config : ConnectorConfig}
    {client : HttpClient} :
    Builder.from_config parsers connector_config = .ok client ↔
      ∃ raw config, connector_config.config = some raw ∧ parsers.config_new raw = .ok config ∧
        (∀ codec_map, config_get raw "codec_map" = some codec_map →
          parsers.structurize_codec_map codec_map = .ok ()) ∧
        client = { max_concurrency := config.concurrency,
                   codec_name := connector_config.codec.getD "json" } := by
  unfold Builder.from_config
  rcases connector_config with ⟨codec, _ | raw⟩
  · simp
  · cases hconfig : parsers.config_new raw with
    | error e => simp [hconfig]
    | ok config =>
      cases hmap : config_get raw "codec_map" with
      | none => simp [hconfig, hmap, eq_comm]
      | some codec_map =>
        cases hparse : parsers.structurize_codec_map codec_map with
        | error e => simp [hconfig, hmap, hparse]
        | ok u => simp [hconfig, hmap, hparse, eq_comm]

/-- `HttpClient::connect`: the list it sends on `clients_tx`, one client for each turn of
    `for _i in 1..self.max_concurrency`. `surf::client()` makes a new client on every turn: the
    clients are numbered on from `made`, the number of clients made before this call. -/
def HttpClient.connect (self : HttpClient) (made : Nat) : List SurfClient :=
  (List.range' made (self.max_concurrency - 1)).map SurfClient.mk

/-- The receiving end of a channel: the messages in it, and whether all senders are gone. -/
structure Receiver (α : Type) where
  queue : List α
  closed : Bool

/-- `HttpRequestSource::pull_data`: `rx.recv().timeout(SOURCE_RECV_TIMEOUT).await?`. A reply
    queued by the time the timeout fires comes out first in, first out; on an empty open
    channel the timeout fires and `?` returns its error; on an empty closed one `recv` fails. -/
def HttpRequestSource.pull_data {α : Type} (rx : Receiver α) : Except Error α × Receiver α :=
  match rx.queue with
  | reply :: rest => (.ok reply, { rx with queue := rest })
  | [] => if rx.closed then (.error .RecvError, rx) else (.error .Timeout, rx)

end tremor_runtime.http
