import Tremor.Http.Client

namespace tremor_runtime.http

/-- The capacity of both channels, `bounded(128)` in `from_config`. -/
def CHANNEL_CAPACITY : Nat := 128

/-- A running HTTP client connector: the sink, every task it spawned (by spawn order), and the
    response channel. The clients channel is the sink's `clients_rx`. Each reply in
    `responses` is tagged with the index of the task that sent it; the tags, `sent` (every
    send), `pulled` (every reply `pull_data` returned) and `connected` (every list `connect`
    sent) are kept for the proofs only. -/
structure Connector where
  client : HttpClient
  sink : HttpRequestSink
  tasks : List Task
  responses : List (Nat × SourceReply)
  sent : List (Nat × SourceReply)
  pulled : List (Nat × SourceReply)
  connected : List (List SurfClient)

/-- The connector right after `create_sink`, before any `connect`. -/
def Connector.init (client : HttpClient) (http_meta : HttpRequestMeta) : Connector :=
  { client
    sink := HttpRequestSink.new [] client.max_concurrency http_meta
    tasks := []
    responses := []
    sent := []
    pulled := []
    connected := [] }

/-- One step of one party. What the environment decides rides on the action: the result of
    spawning, and what `invoke` made of the response. -/
inductive Action where
  /-- `HttpClient::connect` sends a client list. -/
  | connect
  /-- The sink manager calls `on_event`. -/
  | event (event : Event) (spawn : Except Error Unit)
  /-- The sink manager calls `on_signal`. -/
  | signal
  /-- Task `task`'s `invoke` returns. -/
  | invoke (task : Nat) (outcome : Except Error ResponseEventCont)
  /-- Task `task` completes its next `response_tx.send`. -/
  | send (task : Nat)
  /-- Task `task`'s block returns. -/
  | finish (task : Nat)
  /-- The source manager calls `pull_data`. -/
  | pull

/-- The step function: `none` where the action cannot happen now (a party suspended, or no
    such task at that point). Both channels stay open: the connector holds a sender and a
    receiver of each, so a send waits while its channel is full. -/
def Connector.step (registry : Registry) (s : Connector) : Action → Option Connector
  | .connect =>
    if s.sink.clients_rx.length < CHANNEL_CAPACITY then
      let clients := s.client.connect s.connected.flatten.length
      some { s with
        sink := { s.sink with clients_rx := s.sink.clients_rx ++ [clients] }
        connected := s.connected ++ [clients] }
    else none
  | .event event spawn =>
    (s.sink.on_event registry event spawn).map fun d =>
      { s with sink := d.sink, tasks := s.tasks ++ d.task.toList }
  | .signal => some { s with sink := s.sink.on_signal.1 }
  | .invoke i outcome =>
    match s.tasks[i]? with
    | some t =>
      match t.stage with
      | .invoking =>
        some { s with tasks := s.tasks.set i { t with stage := .sending outcome (t.sends outcome) } }
      | _ => none
    | none => none
  | .send i =>
    match s.tasks[i]? with
    | some t =>
      match t.stage with
      | .sending outcome (reply :: rest) =>
        if s.responses.length < CHANNEL_CAPACITY then
          some { s with
            tasks := s.tasks.set i { t with stage := .sending outcome rest }
            responses := s.responses ++ [(i, reply)]
            sent := s.sent ++ [(i, reply)] }
        else none
      | _ => none
    | none => none
  | .finish i =>
    match s.tasks[i]? with
    | some t =>
      match t.stage with
      | .sending outcome [] => some { s with tasks := s.tasks.set i { t with stage := .finished outcome } }
      | _ => none
    | none => none
  | .pull =>
    let (reply, rx) := HttpRequestSource.pull_data ⟨s.responses, false⟩
    some { s with responses := rx.queue, pulled := s.pulled ++ reply.toOption.toList }

/-- The states reachable from `init` through any interleaving of steps. -/
inductive Reachable (registry : Registry) (init : Connector) : Connector → Prop
  | init : Reachable registry init init
  | step {s s' : Connector} (a : Action) (hs : Reachable registry init s)
      (hstep : s.step registry a = some s') : Reachable registry init s'

/-- The steps of a list of actions, in order. -/
def Connector.run (registry : Registry) : Connector → List Action → Option Connector
  | s, [] => some s
  | s, a :: rest => (s.step registry a).bind fun s' => s'.run registry rest

/-- Running two lists of actions in a row is running the first, then the second. -/
theorem Connector.run_append (registry : Registry) (s : Connector) (xs ys : List Action) :
    s.run registry (xs ++ ys) = (s.run registry xs).bind fun s' => s'.run registry ys := by
  induction xs generalizing s with
  | nil => rfl
  | cons a rest ih => cases h : s.step registry a <;> simp [Connector.run, h, ih]

theorem Connector.run_append_some {registry : Registry} {s s₁ s₂ : Connector}
    {xs ys : List Action} (h₁ : s.run registry xs = some s₁) (h₂ : s₁.run registry ys = some s₂) :
    s.run registry (xs ++ ys) = some s₂ := by
  rw [Connector.run_append, h₁, Option.some_bind, h₂]

/-- A run of actions from a reachable state ends in a reachable state. -/
theorem Reachable.run {registry : Registry} {init : Connector} :
    ∀ {s s' : Connector} {actions : List Action}, Reachable registry init s →
      s.run registry actions = some s' → Reachable registry init s'
  | _, _, [], hs, h => Option.some.inj h ▸ hs
  | s, _, a :: rest, hs, h => by
    cases hstep : s.step registry a with
    | none => simp [Connector.run, hstep] at h
    | some s₁ =>
      simp only [Connector.run, hstep, Option.some_bind] at h
      exact Reachable.run (.step a hs hstep) h

section
variable {registry : Registry} {s s' : Connector}

theorem Connector.step_connect (h : s.step registry .connect = some s') :
    s.sink.clients_rx.length < CHANNEL_CAPACITY ∧
      s' = { s with
        sink := { s.sink with
          clients_rx := s.sink.clients_rx ++ [s.client.connect s.connected.flatten.length] }
        connected := s.connected ++ [s.client.connect s.connected.flatten.length] } := by
  simp only [Connector.step] at h
  split at h
  · exact ⟨‹_›, (Option.some.inj h).symm⟩
  · cases h

theorem Connector.step_event {event : Event} {spawn : Except Error Unit}
    (h : s.step registry (.event event spawn) = some s') :
    ∃ d, s.sink.on_event registry event spawn = some d ∧
      s' = { s with sink := d.sink, tasks := s.tasks ++ d.task.toList } := by
  simp only [Connector.step, Option.map_eq_some'] at h
  obtain ⟨d, hd, rfl⟩ := h
  exact ⟨d, hd, rfl⟩

theorem Connector.step_event_eq {event : Event} {spawn : Except Error Unit} {d : Dispatch}
    (h : s.sink.on_event registry event spawn = some d) :
    s.step registry (.event event spawn) =
      some { s with sink := d.sink, tasks := s.tasks ++ d.task.toList } := by
  simp [Connector.step, h]

theorem Connector.step_signal (h : s.step registry .signal = some s') :
    s' = { s with sink := s.sink.refresh_clients } :=
  (Option.some.inj h).symm

theorem Connector.step_invoke {i : Nat} {outcome : Except Error ResponseEventCont}
    (h : s.step registry (.invoke i outcome) = some s') :
    ∃ t, s.tasks[i]? = some t ∧ t.stage = .invoking ∧
      s' = { s with tasks := s.tasks.set i { t with stage := .sending outcome (t.sends outcome) } } := by
  simp only [Connector.step] at h
  split at h
  · rename_i t ht
    split at h
    · exact ⟨t, ht, ‹_›, (Option.some.inj h).symm⟩
    · cases h
  · cases h

theorem Connector.step_send {i : Nat} (h : s.step registry (.send i) = some s') :
    ∃ t outcome reply rest, s.tasks[i]? = some t ∧ t.stage = .sending outcome (reply :: rest) ∧
      s.responses.length < CHANNEL_CAPACITY ∧
      s' = { s with
        tasks := s.tasks.set i { t with stage := .sending outcome rest }
        responses := s.responses ++ [(i, reply)]
        sent := s.sent ++ [(i, reply)] } := by
  simp only [Connector.step] at h
  split at h
  · rename_i t ht
    split at h
    · split at h
      · exact ⟨t, _, _, _, ht, ‹_›, ‹_›, (Option.some.inj h).symm⟩
      · cases h
    · cases h
  · cases h

theorem Connector.step_finish {i : Nat} (h : s.step registry (.finish i) = some s') :
    ∃ t outcome, s.tasks[i]? = some t ∧ t.stage = .sending outcome [] ∧
      s' = { s with tasks := s.tasks.set i { t with stage := .finished outcome } } := by
  simp only [Connector.step] at h
  split at h
  · rename_i t ht
    split at h
    · exact ⟨t, _, ht, ‹_›, (Option.some.inj h).symm⟩
    · cases h
  · cases h

theorem Connector.step_pull (h : s.step registry .pull = some s') :
    (s.responses = [] ∧ s' = s) ∨
      ∃ reply rest, s.responses = reply :: rest ∧
        s' = { s with responses := rest, pulled := s.pulled ++ [reply] } := by
  simp only [Connector.step, HttpRequestSource.pull_data, Option.some.injEq] at h
  subst h
  rcases s with ⟨client, sink, tasks, _ | ⟨reply, rest⟩, sent, pulled⟩
  · exact .inl ⟨rfl, by simp [Except.toOption]⟩
  · exact .inr ⟨reply, rest, rfl, by simp [Except.toOption]⟩

/-- Every step keeps the connector's client and the sink's request configuration, origin and
    permit count. -/
theorem Connector.step_frame {a : Action} (h : s.step registry a = some s') :
    s'.client = s.client ∧ s'.sink.http_meta = s.sink.http_meta ∧
      s'.sink.origin_uri = s.sink.origin_uri ∧
      s'.sink.concurrency_cap = s.sink.concurrency_cap := by
  cases a with
  | connect => obtain ⟨-, rfl⟩ := Connector.step_connect h; exact ⟨rfl, rfl, rfl, rfl⟩
  | event event spawn =>
    obtain ⟨d, hd, rfl⟩ := Connector.step_event h
    obtain ⟨-, hsink, -⟩ := HttpRequestSink.on_event_some hd
    simp [hsink]
  | signal => rw [Connector.step_signal h]; simp
  | invoke i outcome =>
    obtain ⟨t, -, -, rfl⟩ := Connector.step_invoke h; exact ⟨rfl, rfl, rfl, rfl⟩
  | send i =>
    obtain ⟨t, _, _, _, -, -, -, rfl⟩ := Connector.step_send h; exact ⟨rfl, rfl, rfl, rfl⟩
  | finish i =>
    obtain ⟨t, _, -, -, rfl⟩ := Connector.step_finish h; exact ⟨rfl, rfl, rfl, rfl⟩
  | pull =>
    rcases Connector.step_pull h with ⟨-, rfl⟩ | ⟨_, _, -, rfl⟩ <;> exact ⟨rfl, rfl, rfl, rfl⟩

/-- Task `j` after task `i` was replaced: the replacement, or task `j` as it was. -/
theorem getElem?_set_eq_some {tasks : List Task} {i j : Nat} {t t' : Task}
    (h : (tasks.set i t')[j]? = some t) : (j = i ∧ t = t') ∨ (j ≠ i ∧ tasks[j]? = some t) := by
  by_cases hij : i = j
  · subst hij
    have hi : i < tasks.length := by simpa using (List.getElem?_eq_some_iff.1 h).1
    rw [List.getElem?_set_self hi, Option.some.injEq] at h
    exact .inl ⟨rfl, h.symm⟩
  · rw [List.getElem?_set_ne hij] at h
    exact .inr ⟨Ne.symm hij, h⟩

/-- Changing one task's stage leaves every task what it was, up to its stage. -/
theorem set_stage_getElem? {tasks : List Task} {i j : Nat} {t t' : Task} {stage : TaskStage}
    (ht : tasks[i]? = some t) (ht' : (tasks.set i { t with stage })[j]? = some t') :
    ∃ t₀ stage, tasks[j]? = some t₀ ∧ t' = { t₀ with stage } := by
  rcases getElem?_set_eq_some ht' with ⟨rfl, rfl⟩ | ⟨-, ht'⟩
  · exact ⟨t, _, ht, rfl⟩
  · exact ⟨t', _, ht', rfl⟩

/-- A task of the next state is a task of this one with only its stage changed, or the task
    `on_event` has just spawned, placed last. -/
theorem Connector.step_task {a : Action} (h : s.step registry a = some s') {j : Nat} {t' : Task}
    (ht' : s'.tasks[j]? = some t') :
    (∃ t stage, s.tasks[j]? = some t ∧ t' = { t with stage }) ∨
      (j = s.tasks.length ∧ ∃ guard event client spawn,
        spawn_exchange s.sink.http_meta s.sink.origin_uri registry guard event client spawn =
          .ok t') := by
  cases a with
  | connect => obtain ⟨-, rfl⟩ := Connector.step_connect h; exact .inl ⟨t', _, ht', rfl⟩
  | signal => rw [Connector.step_signal h] at ht'; exact .inl ⟨t', _, ht', rfl⟩
  | pull =>
    rcases Connector.step_pull h with ⟨-, rfl⟩ | ⟨_, _, -, rfl⟩ <;> exact .inl ⟨t', _, ht', rfl⟩
  | invoke i outcome =>
    obtain ⟨t, ht, -, rfl⟩ := Connector.step_invoke h
    exact .inl (set_stage_getElem? ht ht')
  | send i =>
    obtain ⟨t, _, _, _, ht, -, -, rfl⟩ := Connector.step_send h
    exact .inl (set_stage_getElem? ht ht')
  | finish i =>
    obtain ⟨t, _, ht, -, rfl⟩ := Connector.step_finish h
    exact .inl (set_stage_getElem? ht ht')
  | event event spawn =>
    obtain ⟨d, hd, rfl⟩ := Connector.step_event h
    by_cases hj : j < s.tasks.length
    · rw [List.getElem?_append_left hj] at ht'
      exact .inl ⟨t', _, ht', rfl⟩
    · rw [List.getElem?_append_right (by omega)] at ht'
      cases htask : d.task with
      | none => simp [htask] at ht'
      | some t =>
        rw [htask, Option.toList_some] at ht'
        obtain ⟨hk, rfl⟩ := List.getElem?_eq_some_iff.1 ht'
        rw [List.length_singleton] at hk
        obtain ⟨-, hx⟩ := HttpRequestSink.on_event_task hd htask
        exact .inr ⟨by omega, _, _, _, _, by rwa [List.getElem_singleton]⟩

end

/-- The origin `HttpRequestSink::new` puts in the sink, which its comment says `on_event`
    replaces. -/
def HttpRequestSink.placeholder_origin_uri : EventOriginUri :=
  { scheme := "rest_client", host := "dummy", port := none, path := [] }

section
variable {client : HttpClient} {http_meta : HttpRequestMeta} {registry : Registry} {s : Connector}

/-- Along every run the client, the request configuration, the origin and the permit count
    stay what `create_sink` set: no step ever holds a permit past its own return. -/
theorem Connector.reachable_frame (hs : Reachable registry (Connector.init client http_meta) s) :
    s.client = client ∧ s.sink.http_meta = http_meta ∧
      s.sink.origin_uri = HttpRequestSink.placeholder_origin_uri ∧
      s.sink.concurrency_cap = ConcurrencyCap.new client.max_concurrency := by
  induction hs with
  | init => exact ⟨rfl, rfl, rfl, rfl⟩
  | step a _ hstep ih =>
    obtain ⟨h1, h2, h3, h4⟩ := Connector.step_frame hstep
    exact ⟨h1.trans ih.1, h2.trans ih.2.1, h3.trans ih.2.2.1, h4.trans ih.2.2.2⟩

/-- Every task of a run holds the request and metadata `process` built from its own event,
    and the placeholder origin. -/
theorem Connector.reachable_task (hs : Reachable registry (Connector.init client http_meta) s)
    {i : Nat} {t : Task} (ht : s.tasks[i]? = some t) :
    http_meta.process t.event = .ok (t.request, t.request_meta) ∧
      t.origin_uri = HttpRequestSink.placeholder_origin_uri := by
  induction hs generalizing i t with
  | init => cases ht
  | step a hs hstep ih =>
    rcases Connector.step_task hstep ht with ⟨t₀, stage, ht₀, rfl⟩ | ⟨-, _, _, _, _, hx⟩
    · exact ih (t := t₀) ht₀
    · obtain ⟨-, hmeta, horigin, -⟩ := Connector.reachable_frame hs
      obtain ⟨hp, rfl, ho, -⟩ := spawn_exchange_ok hx
      exact ⟨hmeta ▸ hp, ho.trans horigin⟩

end

end tremor_runtime.http
