import Tremor.Http.Dispatch

namespace tremor_runtime.http

/-- The replies of task `i` in a log of tagged replies, in log order. -/
def replies_of (log : List (Nat × SourceReply)) (i : Nat) : List SourceReply :=
  (log.filter fun p => p.1 == i).map Prod.snd

@[simp] theorem replies_of_nil (i : Nat) : replies_of [] i = [] := rfl

@[simp] theorem replies_of_append (log₁ log₂ : List (Nat × SourceReply)) (i : Nat) :
    replies_of (log₁ ++ log₂) i = replies_of log₁ i ++ replies_of log₂ i := by
  simp [replies_of]

@[simp] theorem replies_of_singleton (j i : Nat) (reply : SourceReply) :
    replies_of [(j, reply)] i = if j = i then [reply] else [] := by
  by_cases h : j = i <;> simp [replies_of, h]

theorem replies_of_eq_nil {log : List (Nat × SourceReply)} {i : Nat}
    (h : ∀ p ∈ log, p.1 ≠ i) : replies_of log i = [] := by
  simpa [replies_of, List.filter_eq_nil_iff] using h

/-- What task `t` has sent, by its stage: nothing while `invoke` runs, then the replies its
    outcome calls for up to `pending`, and all of them once its block has returned. -/
def Task.SentSoFar (t : Task) (sent : List SourceReply) : Prop :=
  match t.stage with
  | .invoking => sent = []
  | .sending outcome pending => sent ++ pending = t.sends outcome
  | .finished outcome => sent = t.sends outcome

/-- The delivery invariant: the channel holds exactly the sent replies not yet pulled, in send
    order; every reply names a spawned task; and each task has sent what its stage says. -/
structure DeliveryInv (s : Connector) : Prop where
  fifo : s.sent = s.pulled ++ s.responses
  tagged : ∀ p ∈ s.sent, p.1 < s.tasks.length
  progress : ∀ i (t : Task), s.tasks[i]? = some t → t.SentSoFar (replies_of s.sent i)

section
variable {registry : Registry} {s s' : Connector}

/-- Every step keeps the delivery invariant. -/
theorem DeliveryInv.step {a : Action} (hi : DeliveryInv s) (h : s.step registry a = some s') :
    DeliveryInv s' := by
  cases a with
  | connect =>
    obtain ⟨-, rfl⟩ := Connector.step_connect h; exact ⟨hi.fifo, hi.tagged, hi.progress⟩
  | signal => rw [Connector.step_signal h]; exact ⟨hi.fifo, hi.tagged, hi.progress⟩
  | event event spawn =>
    obtain ⟨d, hd, rfl⟩ := Connector.step_event h
    refine ⟨hi.fifo, fun p hp => by simpa using Nat.lt_add_right _ (hi.tagged p hp),
      fun j t ht => ?_⟩
    by_cases hj : j < s.tasks.length
    · rw [List.getElem?_append_left hj] at ht
      exact hi.progress j t ht
    · rcases Connector.step_task h ht with ⟨t₀, _, ht₀, -⟩ | ⟨rfl, _, _, _, _, hx⟩
      · exact absurd (List.getElem?_eq_some_iff.1 ht₀).1 hj
      · rw [Task.SentSoFar, (spawn_exchange_ok hx).2.2.2.2,
          replies_of_eq_nil fun p hp => (hi.tagged p hp).ne]
  | invoke i outcome =>
    obtain ⟨t, ht, hstage, rfl⟩ := Connector.step_invoke h
    refine ⟨hi.fifo, by simpa using hi.tagged, fun j t' ht' => ?_⟩
    rcases getElem?_set_eq_some ht' with ⟨rfl, rfl⟩ | ⟨-, ht'⟩
    · have h0 := hi.progress j t ht
      rw [Task.SentSoFar, hstage] at h0
      show replies_of s.sent j ++ t.sends outcome = t.sends outcome
      rw [h0, List.nil_append]
    · exact hi.progress j t' ht'
  | send i =>
    obtain ⟨t, outcome, reply, rest, ht, hstage, -, rfl⟩ := Connector.step_send h
    have hlt : i < s.tasks.length := (List.getElem?_eq_some_iff.1 ht).1
    refine ⟨by simp [hi.fifo], fun p hp => ?_, fun j t' ht' => ?_⟩
    · rcases List.mem_append.1 hp with hp | hp
      · simpa using hi.tagged p hp
      · rw [List.mem_singleton.1 hp]; simpa using hlt
    · rcases getElem?_set_eq_some ht' with ⟨rfl, rfl⟩ | ⟨hji, ht'⟩
      · have h0 := hi.progress j t ht
        rw [Task.SentSoFar, hstage] at h0
        show replies_of (s.sent ++ [(j, reply)]) j ++ rest = t.sends outcome
        simpa using h0
      · have h0 := hi.progress j t' ht'
        show t'.SentSoFar (replies_of (s.sent ++ [(i, reply)]) j)
        rwa [replies_of_append, replies_of_singleton, if_neg (Ne.symm hji), List.append_nil]
  | finish i =>
    obtain ⟨t, outcome, ht, hstage, rfl⟩ := Connector.step_finish h
    refine ⟨hi.fifo, by simpa using hi.tagged, fun j t' ht' => ?_⟩
    rcases getElem?_set_eq_some ht' with ⟨rfl, rfl⟩ | ⟨-, ht'⟩
    · have h0 := hi.progress j t ht
      simp only [Task.SentSoFar, hstage, List.append_nil] at h0
      exact h0
    · exact hi.progress j t' ht'
  | pull =>
    rcases Connector.step_pull h with ⟨-, rfl⟩ | ⟨reply, rest, hq, rfl⟩
    · exact hi
    · exact ⟨by rw [hi.fifo, hq]; simp, hi.tagged, hi.progress⟩

/-- The delivery invariant holds along every run. -/
theorem Connector.reachable_delivery {client : HttpClient} {http_meta : HttpRequestMeta}
    (hs : Reachable registry (Connector.init client http_meta) s) : DeliveryInv s := by
  induction hs with
  | init => exact ⟨rfl, fun _ h => (nomatch h), fun _ _ h => (nomatch h)⟩
  | step a _ hstep ih => exact ih.step hstep

/-- Pulling as many times as replies are queued returns all of them, oldest first, and changes
    nothing else. -/
theorem Connector.run_drain (registry : Registry) (s : Connector) :
    s.run registry (List.replicate s.responses.length .pull) =
      some { s with responses := [], pulled := s.pulled ++ s.responses } := by
  obtain ⟨client, sink, tasks, responses, sent, pulled, connected⟩ := s
  induction responses generalizing pulled with
  | nil => simp [Connector.run]
  | cons reply rest ih =>
    simpa [List.replicate_succ, Connector.run, Connector.step, HttpRequestSource.pull_data]
      using ih (pulled ++ [reply])

end

/-- Two slots; one event, whose response does not decode; its 415 reply is sent and pulled. -/
def codec_error_run : List Action :=
  [.connect, .signal, .event ping (.ok ()), .invoke 0 (.ok .CodecError), .send 0, .finish 0, .pull]

/-- What `invoke` returned to a task at this stage, or `outcome` while it still runs. -/
def TaskStage.outcome_or :
    TaskStage → Except Error ResponseEventCont → Except Error ResponseEventCont
  | .invoking, outcome => outcome
  | .sending outcome _, _ => outcome
  | .finished outcome, _ => outcome

theorem Task.with_stage_self {t : Task} {stage : TaskStage} (h : t.stage = stage) :
    { t with stage } = t := by
  cases t; cases h; rfl

/-- A task whose block has returned has sent exactly what its outcome calls for. -/
theorem Task.SentSoFar.finished {t : Task} {sent : List SourceReply}
    {outcome : Except Error ResponseEventCont} (h : t.SentSoFar sent)
    (hstage : t.stage = .finished outcome) : sent = t.sends outcome := by
  rwa [Task.SentSoFar, hstage] at h

/-- The actions of task `i` itself (its `invoke` returning, its sends, its return) and the
    source's pulls: what the task needs to run to its end while no other party moves. -/
def Action.serves (i : Nat) : Action → Bool
  | .invoke j _ | .send j | .finish j => j == i
  | .pull => true
  | .connect | .event _ _ | .signal => false

theorem Action.serves_replicate_pull (i n : Nat) :
    ∀ a ∈ List.replicate n Action.pull, a.serves i :=
  fun _ ha => List.eq_of_mem_replicate ha ▸ rfl

section
variable {registry : Registry} {i : Nat} {t : Task} {outcome : Except Error ResponseEventCont}

/-- A task can make all the sends it has left by its own steps: before each, pulls empty a
    full channel. -/
theorem Connector.run_sends :
    ∀ (pending : List SourceReply) (s : Connector),
      s.tasks[i]? = some { t with stage := .sending outcome pending } →
      ∃ actions : List Action, (∀ a ∈ actions, a.serves i) ∧ ∃ s',
        s.run registry actions = some s' ∧
        s'.tasks[i]? = some { t with stage := .sending outcome [] }
  | [], s, ht => ⟨[], fun _ h => (nomatch h), s, rfl, ht⟩
  | reply :: rest, s, ht => by
    have hstep : ({ s with responses := [], pulled := s.pulled ++ s.responses } : Connector).step
        registry (.send i) = some { s with
          tasks := s.tasks.set i { t with stage := .sending outcome rest }
          responses := [(i, reply)]
          sent := s.sent ++ [(i, reply)]
          pulled := s.pulled ++ s.responses } := by
      simp [Connector.step, ht, CHANNEL_CAPACITY]
    obtain ⟨actions, hserves, s', hrun, ht'⟩ := Connector.run_sends rest { s with
          tasks := s.tasks.set i { t with stage := .sending outcome rest }
          responses := [(i, reply)]
          sent := s.sent ++ [(i, reply)]
          pulled := s.pulled ++ s.responses }
      (List.getElem?_set_self (List.getElem?_eq_some_iff.1 ht).1)
    refine ⟨List.replicate s.responses.length .pull ++ .send i :: actions,
      List.forall_mem_append.2 ⟨Action.serves_replicate_pull i _,
        List.forall_mem_cons.2 ⟨by simp [Action.serves], hserves⟩⟩, s',
      Connector.run_append_some (Connector.run_drain registry s) ?_, ht'⟩
    rw [Connector.run, hstep, Option.some_bind]
    exact hrun

/-- A task that has `invoke`'s outcome can return by its own steps and pulls. -/
theorem Connector.run_finish {pending : List SourceReply} {s : Connector}
    (ht : s.tasks[i]? = some { t with stage := .sending outcome pending }) :
    ∃ actions : List Action, (∀ a ∈ actions, a.serves i) ∧ ∃ s',
      s.run registry actions = some s' ∧
      s'.tasks[i]? = some { t with stage := .finished outcome } := by
  obtain ⟨actions, hserves, s₁, hrun, ht₁⟩ := Connector.run_sends pending s ht
  have hstep : s₁.step registry (.finish i) =
      some { s₁ with tasks := s₁.tasks.set i { t with stage := .finished outcome } } := by
    simp [Connector.step, ht₁]
  exact ⟨actions ++ [.finish i], List.forall_mem_append.2 ⟨hserves, by simp [Action.serves]⟩, _,
    Connector.run_append_some hrun (by rw [Connector.run, hstep]; rfl),
    List.getElem?_set_self (List.getElem?_eq_some_iff.1 ht₁).1⟩

end

/-- No exchange is ever stuck: from every state of a run, each task can return by its own
    steps and `pull_data` calls alone, whatever its `invoke` still to come yields, and by then
    every reply its outcome calls for has been pulled. -/
theorem Connector.task_completes {client : HttpClient} {http_meta : HttpRequestMeta}
    {registry : Registry} {s : Connector}
    (hs : Reachable registry (Connector.init client http_meta) s) {i : Nat} {t : Task}
    (ht : s.tasks[i]? = some t) (outcome : Except Error ResponseEventCont) :
    ∃ actions : List Action, (∀ a ∈ actions, a.serves i) ∧ ∃ s',
      s.run registry actions = some s' ∧
      s'.tasks[i]? = some { t with stage := .finished (t.stage.outcome_or outcome) } ∧
      replies_of s'.pulled i = t.sends (t.stage.outcome_or outcome) := by
  obtain ⟨actions, hserves, s₁, hrun, ht₁⟩ : ∃ actions : List Action,
      (∀ a ∈ actions, a.serves i) ∧ ∃ s₁, s.run registry actions = some s₁ ∧
      s₁.tasks[i]? = some { t with stage := .finished (t.stage.outcome_or outcome) } := by
    cases hstage : t.stage with
    | finished o =>
      exact ⟨[], fun _ h => (nomatch h), s, rfl,
        ht.trans (congrArg some (Task.with_stage_self hstage).symm)⟩
    | sending o pending =>
      exact Connector.run_finish (ht.trans (congrArg some (Task.with_stage_self hstage).symm))
    | invoking =>
      have hstep : s.step registry (.invoke i outcome) = some { s with
          tasks := s.tasks.set i { t with stage := .sending outcome (t.sends outcome) } } := by
        simp [Connector.step, ht, hstage]
      obtain ⟨actions, hserves, s₁, hrun, ht₁⟩ := Connector.run_finish
        (s := { s with
          tasks := s.tasks.set i { t with stage := .sending outcome (t.sends outcome) } })
        (List.getElem?_set_self (List.getElem?_eq_some_iff.1 ht).1)
      exact ⟨.invoke i outcome :: actions,
        List.forall_mem_cons.2 ⟨by simp [Action.serves], hserves⟩, s₁,
        by rw [Connector.run, hstep, Option.some_bind]; exact hrun, ht₁⟩
  have hi := Connector.reachable_delivery (Reachable.run hs hrun)
  refine ⟨actions ++ List.replicate s₁.responses.length .pull,
    List.forall_mem_append.2 ⟨hserves, Action.serves_replicate_pull i _⟩,
    { s₁ with responses := [], pulled := s₁.pulled ++ s₁.responses },
    Connector.run_append_some hrun (Connector.run_drain registry s₁), ht₁, ?_⟩
  show replies_of (s₁.pulled ++ s₁.responses) i = _
  rw [← hi.fifo]
  exact hi.progress i _ ht₁

/-- Right after its dispatch, the task can return by its own steps and pulls, and its 415
    reply is pulled. -/
theorem Connector.task_completes_after_dispatch :
    ∃ s t, (Connector.init ⟨2, "json"⟩ local_meta).run all_known (codec_error_run.take 3) =
        some s ∧ s.tasks[0]? = some t ∧
      ∃ actions : List Action, (∀ a ∈ actions, a.serves 0) ∧ ∃ s',
        s.run all_known actions = some s' ∧
        s'.tasks[0]? = some { t with stage := .finished (t.stage.outcome_or (.ok .CodecError)) } ∧
        replies_of s'.pulled 0 = t.sends (t.stage.outcome_or (.ok .CodecError)) :=
  ⟨_, _, rfl, rfl, Connector.task_completes (@Reachable.run all_known
    (Connector.init ⟨2, "json"⟩ local_meta) _ _ (codec_error_run.take 3) .init rfl) rfl _⟩

/-- Along every run, with the response channel open, the pulls have returned exactly the sent
    replies that left the channel, in send order, and the rest are queued: no reply is dropped,
    lost to a pull that timed out, or returned twice, and pulling as often as replies are
    queued returns them all and changes nothing else. Each task's replies come out in the order
    it sent them; it has sent, by its stage, a prefix of what its `invoke` outcome calls for,
    and once it has returned exactly that: the replies `rs` of `Valid(rs)`, the one reply with
    payload `{"status": 415}` and meta `{"request": m}` for `CodecError`, with `m` the metadata
    `process` made of the task's own event, and nothing for an error. -/
theorem Connector.delivery_exactly_once {client : HttpClient} {http_meta : HttpRequestMeta}
    {registry : Registry} {s : Connector}
    (hs : Reachable registry (Connector.init client http_meta) s) :
    s.sent = s.pulled ++ s.responses ∧
    s.run registry (List.replicate s.responses.length .pull) =
      some { s with responses := [], pulled := s.sent } ∧
    ∀ i t, s.tasks[i]? = some t →
      replies_of s.pulled i ++ replies_of s.responses i = replies_of s.sent i ∧
      http_meta.process t.event = .ok (t.request, t.request_meta) ∧
      t.SentSoFar (replies_of s.sent i) ∧
      (∀ rs, t.stage = .finished (.ok (.Valid rs)) → replies_of s.sent i = rs) ∧
      (t.stage = .finished (.ok .CodecError) → ∃ reply, replies_of s.sent i = [reply] ∧
        reply.value = .object [("status", .static (.i64 415))] ∧
        reply.meta = .object [("request", t.request_meta)]) ∧
      (∀ e, t.stage = .finished (.error e) → replies_of s.sent i = []) := by
  have hi := Connector.reachable_delivery hs
  refine ⟨hi.fifo, hi.fifo ▸ Connector.run_drain registry s, fun i t ht => ?_⟩
  have hsent := hi.progress i t ht
  exact ⟨by rw [hi.fifo, replies_of_append], (Connector.reachable_task hs ht).1, hsent,
    fun _ hstage => hsent.finished hstage, fun hstage => ⟨_, hsent.finished hstage, rfl, rfl⟩,
    fun _ hstage => hsent.finished hstage⟩

/-- After the run above, the one reply is delivered and the task has sent exactly it. -/
theorem Connector.delivery_exactly_once_codec_error :
    ∃ s, (Connector.init ⟨2, "json"⟩ local_meta).run all_known codec_error_run = some s ∧
      s.pulled.length = 1 ∧
      (s.sent = s.pulled ++ s.responses ∧
      s.run all_known (List.replicate s.responses.length .pull) =
        some { s with responses := [], pulled := s.sent } ∧
      ∀ i t, s.tasks[i]? = some t →
        replies_of s.pulled i ++ replies_of s.responses i = replies_of s.sent i ∧
        local_meta.process t.event = .ok (t.request, t.request_meta) ∧
        t.SentSoFar (replies_of s.sent i) ∧
        (∀ rs, t.stage = .finished (.ok (.Valid rs)) → replies_of s.sent i = rs) ∧
        (t.stage = .finished (.ok .CodecError) → ∃ reply, replies_of s.sent i = [reply] ∧
          reply.value = .object [("status", .static (.i64 415))] ∧
          reply.meta = .object [("request", t.request_meta)]) ∧
        (∀ e, t.stage = .finished (.error e) → replies_of s.sent i = [])) :=
  ⟨_, rfl, rfl, Connector.delivery_exactly_once
    (@Reachable.run all_known (Connector.init ⟨2, "json"⟩ local_meta) _ _ codec_error_run .init
      rfl)⟩

/-- `pull_data` returns the oldest queued reply and removes it from the channel; on an empty
    channel it returns an error and leaves the channel as it was: the timeout's error while the
    channel is open, `RecvError` once it is closed. -/
theorem HttpRequestSource.pull_data_spec {α : Type} (rx : Receiver α) :
    (∀ reply, (HttpRequestSource.pull_data rx).1 = .ok reply ↔ rx.queue.head? = some reply) ∧
    (HttpRequestSource.pull_data rx).2 = { rx with queue := rx.queue.tail } ∧
    (rx.queue = [] → (HttpRequestSource.pull_data rx).1 =
      .error (if rx.closed then .RecvError else .Timeout)) := by
  rcases rx with ⟨_ | ⟨reply, rest⟩, closed⟩ <;> cases closed <;>
    simp [HttpRequestSource.pull_data]

/-- On an open, empty channel `pull_data` returns an error. -/
theorem HttpRequestSource.pull_data_open_empty :
    (HttpRequestSource.pull_data (⟨[], false⟩ : Receiver SourceReply)).1 = .error .Timeout :=
  rfl

/-- Every task whose response did not decode has sent one reply, with the placeholder origin
    `HttpRequestSink::new` set, whatever URL `process` built for its request. -/
theorem Connector.codec_error_reply_origin {client : HttpClient} {http_meta : HttpRequestMeta}
    {registry : Registry} {s : Connector}
    (hs : Reachable registry (Connector.init client http_meta) s) {i : Nat} {t : Task}
    (ht : s.tasks[i]? = some t) (hstage : t.stage = .finished (.ok .CodecError)) :
    replies_of s.sent i =
        [codec_error_reply HttpRequestSink.placeholder_origin_uri t.request_meta] ∧
      http_meta.process t.event = .ok (t.request, t.request_meta) := by
  have h := (Connector.reachable_delivery hs).progress i t ht
  simp only [Task.SentSoFar, hstage] at h
  obtain ⟨hprocess, horigin⟩ := Connector.reachable_task hs ht
  rw [h, Task.sends, horigin]
  exact ⟨rfl, hprocess⟩

/-- A request to `localhost` whose response does not decode yields a 415 reply from `dummy`. -/
theorem Connector.codec_error_reply_origin_localhost :
    ∃ s t, (Connector.init ⟨2, "json"⟩ local_meta).run all_known codec_error_run = some s ∧
      s.tasks[0]? = some t ∧ t.request.url.host = "localhost" ∧
      t.stage = .finished (.ok .CodecError) ∧
      (s.pulled.map fun p => p.2.origin_uri.host) = ["dummy"] ∧
      (replies_of s.sent 0 =
          [codec_error_reply HttpRequestSink.placeholder_origin_uri t.request_meta] ∧
        local_meta.process t.event = .ok (t.request, t.request_meta)) :=
  ⟨_, _, rfl, rfl, rfl, rfl, rfl,
    Connector.codec_error_reply_origin
      (@Reachable.run all_known (Connector.init ⟨2, "json"⟩ local_meta) _ _ codec_error_run .init rfl)
      rfl rfl⟩

end tremor_runtime.http
