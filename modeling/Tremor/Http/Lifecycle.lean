import Tremor.Http.Delivery

namespace tremor_runtime.http

/-- Along every run `on_event` waits in `inc_for` exactly when the connector has no slot at
    all: the permit count is back at zero whenever `on_event` returns, however many events were
    dispatched before and however many of their tasks are still in flight, so with one slot or
    more every event is admitted at once, and with `max_concurrency = 0` every event waits for
    good. -/
theorem Connector.reachable_event_admitted {client : HttpClient} {http_meta : HttpRequestMeta}
    {registry : Registry} {s : Connector}
    (hs : Reachable registry (Connector.init client http_meta) s) (event : Event)
    (spawn : Except Error Unit) :
    (∃ s', s.step registry (.event event spawn) = some s') ↔ 0 < client.max_concurrency := by
  have hcap := (Connector.reachable_frame hs).2.2.2
  constructor
  · rintro ⟨s', h⟩
    obtain ⟨d, hd, -⟩ := Connector.step_event h
    have hlt := (HttpRequestSink.on_event_some hd).1
    rwa [hcap] at hlt
  · intro hpos
    obtain ⟨d, hd⟩ := HttpRequestSink.on_event_admits registry event spawn (by rwa [hcap])
    exact ⟨_, Connector.step_event_eq hd⟩

/-- With two slots and three exchanges dispatched and still in flight, a fourth event is
    admitted. -/
theorem Connector.reachable_event_admitted_after_three :
    ∃ s, (Connector.init ⟨2, "json"⟩ local_meta).run all_known
        [.connect, .signal, .event ping (.ok ()), .event ping (.ok ()), .event ping (.ok ())] =
        some s ∧ s.in_flight = 3 ∧
      ((∃ s', s.step all_known (.event ping (.ok ())) = some s') ↔
        0 < HttpClient.max_concurrency ⟨2, "json"⟩) :=
  ⟨_, rfl, rfl, Connector.reachable_event_admitted
    (@Reachable.run all_known (Connector.init ⟨2, "json"⟩ local_meta) _ _
      [.connect, .signal, .event ping (.ok ()), .event ping (.ok ()), .event ping (.ok ())] .init
      rfl)
    ping (.ok ())⟩

/-- The client `next` hands out is one of the pool's. -/
theorem SurfClients.next_mem {self : SurfClients} {c : SurfClient} (h : self.next.1 = some c) :
    c ∈ self.clients := by
  by_cases hpos : 0 < self.clients.length
  · rw [SurfClients.next_of_pos _ hpos, Option.some.injEq] at h
    exact h ▸ List.get_mem _ _ _
  · rw [SurfClients.next_of_nil _ (List.length_eq_zero.1 (Nat.eq_zero_of_not_pos hpos))] at h
    cases h

/-- A task past the old ones was spawned by this step's `on_event`, with a client of the pool
    the step leaves installed. -/
theorem Connector.step_new_task {registry : Registry} {s s' : Connector} {a : Action}
    (h : s.step registry a = some s') {t : Task} (ht : s'.tasks[s.tasks.length]? = some t) :
    t.client ∈ s'.sink.clients.clients := by
  have hout : s'.tasks.length ≤ s.tasks.length → False := fun hle =>
    absurd (List.getElem?_eq_some_iff.1 ht).1 (by omega)
  cases a with
  | event event spawn =>
    obtain ⟨d, hd, rfl⟩ := Connector.step_event h
    rw [List.getElem?_append_right (Nat.le_refl _), Nat.sub_self] at ht
    cases htask : d.task with
    | none => simp [htask] at ht
    | some t' =>
      rw [htask, Option.toList_some, List.getElem?_cons_zero, Option.some.injEq] at ht
      subst ht
      obtain ⟨-, hsink, -⟩ := HttpRequestSink.on_event_some hd
      simp only [hsink, SurfClients.next_clients]
      exact SurfClients.next_mem (HttpRequestSink.on_event_task hd htask).1
  | connect => obtain ⟨-, rfl⟩ := Connector.step_connect h; exact (hout (Nat.le_refl _)).elim
  | signal => rw [Connector.step_signal h] at hout; exact (hout (Nat.le_refl _)).elim
  | invoke i outcome =>
    obtain ⟨t, -, -, rfl⟩ := Connector.step_invoke h; exact (hout (List.length_set ..).le).elim
  | send i =>
    obtain ⟨t, _, _, _, -, -, -, rfl⟩ := Connector.step_send h
    exact (hout (List.length_set ..).le).elim
  | finish i =>
    obtain ⟨t, _, -, -, rfl⟩ := Connector.step_finish h; exact (hout (List.length_set ..).le).elim
  | pull =>
    rcases Connector.step_pull h with ⟨-, rfl⟩ | ⟨_, _, -, rfl⟩ <;>
      exact (hout (Nat.le_refl _)).elim

/-- A client of the pool belongs to the last list taken off the clients channel. -/
theorem Connector.ClientsFifo.mem_installed {s : Connector} (hi : s.ClientsFifo) {c : SurfClient}
    (h : c ∈ s.sink.clients.clients) : ∃ pool ∈ s.installed, c ∈ pool := by
  rw [hi.pool] at h
  cases hlast : s.installed.getLast? with
  | none => rw [hlast] at h; cases h
  | some pool => rw [hlast] at h; exact ⟨pool, List.mem_of_getLast?_eq_some hlast, h⟩

/-- Every task of a run holds a client of a list already taken off the clients channel. -/
theorem Connector.reachable_task_installed {client : HttpClient} {http_meta : HttpRequestMeta}
    {registry : Registry} {s : Connector}
    (hs : Reachable registry (Connector.init client http_meta) s) {i : Nat} {t : Task}
    (ht : s.tasks[i]? = some t) : ∃ pool ∈ s.installed, t.client ∈ pool := by
  induction hs generalizing i t with
  | init => cases ht
  | @step s s' a hs hstep ih =>
    have hstep' := (Connector.reachable_clientsFifo hs).step hstep
    rcases Connector.step_task hstep ht with ⟨t₀, stage, ht₀, rfl⟩ | ⟨rfl, -⟩
    · obtain ⟨pool, hpool, hmem⟩ := ih ht₀
      exact ⟨pool, hstep'.2.subset hpool, hmem⟩
    · exact hstep'.1.mem_installed (Connector.step_new_task hstep ht)

/-- Along every run the clients `connect` made are pairwise distinct, also across calls; the
    lists it sent are, in order, those `refresh_clients` has taken off the channel and then
    those still waiting; and every exchange goes out on a client of a list already taken off:
    never on one that was not sent, and never before a pool was installed. -/
theorem Connector.reachable_task_client {client : HttpClient} {http_meta : HttpRequestMeta}
    {registry : Registry} {s : Connector}
    (hs : Reachable registry (Connector.init client http_meta) s) :
    s.connected.flatten.Nodup ∧ s.installed ++ s.sink.clients_rx = s.connected ∧
      ∀ (i : Nat) (t : Task), s.tasks[i]? = some t → ∃ pool ∈ s.installed, t.client ∈ pool := by
  have hi := Connector.reachable_clientsFifo hs
  obtain ⟨pre, hpre⟩ := hi.fifo
  refine ⟨?_, by rw [Connector.installed_of_append hpre.symm, hpre],
    fun _ _ ht => Connector.reachable_task_installed hs ht⟩
  rw [hi.fresh]
  exact (List.nodup_range _).map fun _ _ => SurfClient.mk.inj

/-- With three slots and two lists sent before the first event, the event's refresh installs
    the second, and the task holds client 2 of the second `connect`. -/
theorem Connector.reachable_task_client_second_connect :
    ∃ s, (Connector.init ⟨3, "json"⟩ local_meta).run all_known
        [.connect, .connect, .signal, .event ping (.ok ())] = some s ∧
      s.installed = [[⟨0⟩, ⟨1⟩], [⟨2⟩, ⟨3⟩]] ∧ s.tasks.map (·.client) = [⟨2⟩] ∧
      (s.connected.flatten.Nodup ∧ s.installed ++ s.sink.clients_rx = s.connected ∧
        ∀ (i : Nat) (t : Task), s.tasks[i]? = some t → ∃ pool ∈ s.installed, t.client ∈ pool) :=
  ⟨_, rfl, rfl, rfl, Connector.reachable_task_client
    (@Reachable.run all_known (Connector.init ⟨3, "json"⟩ local_meta) _ _
      [.connect, .connect, .signal, .event ping (.ok ())] .init rfl)⟩

/-- Task `t` moves on from stage `a` to stage `b` and sends `new` on the way: `invoke` returns
    at most once and its outcome stays, the replies the outcome calls for are sent in order,
    each once, and the block returns only after the last of them. -/
def Task.Advances (t : Task) : TaskStage → List SourceReply → TaskStage → Prop
  | .invoking, new, .invoking => new = []
  | .invoking, new, .sending outcome pending => new ++ pending = t.sends outcome
  | .invoking, new, .finished outcome => new = t.sends outcome
  | .sending outcome pending, new, .sending outcome' pending' =>
    outcome' = outcome ∧ new ++ pending' = pending
  | .sending outcome pending, new, .finished outcome' => outcome' = outcome ∧ new = pending
  | .sending _ _, _, .invoking => False
  | .finished outcome, new, b => b = .finished outcome ∧ new = []

/-- What a task has captured besides its stage fixes its sends. -/
@[simp] theorem Task.advances_with_stage {t : Task} {stage a b : TaskStage}
    {new : List SourceReply} : ({ t with stage } : Task).Advances a new b ↔ t.Advances a new b :=
  Iff.rfl

theorem Task.Advances.refl (t : Task) : ∀ a : TaskStage, t.Advances a [] a
  | .invoking => rfl
  | .sending _ _ => ⟨rfl, rfl⟩
  | .finished _ => ⟨rfl, rfl⟩

theorem Task.Advances.trans {t : Task} :
    ∀ {a b c : TaskStage} {new₁ new₂ : List SourceReply},
      t.Advances a new₁ b → t.Advances b new₂ c → t.Advances a (new₁ ++ new₂) c
  | .invoking, .invoking, _, _, _, rfl, h₂ => h₂
  | .invoking, .sending _ _, .sending _ _, _, _, h₁, ⟨rfl, h₂⟩ => by
    show _ ++ _ = _
    rw [List.append_assoc, h₂, h₁]
  | .invoking, .sending _ _, .finished _, _, _, h₁, ⟨rfl, rfl⟩ => h₁
  | .invoking, .sending _ _, .invoking, _, _, _, h₂ => h₂.elim
  | .invoking, .finished _, _, _, _, h₁, ⟨rfl, rfl⟩ => (List.append_nil _).trans h₁
  | .sending _ _, .sending _ _, .sending _ _, _, _, ⟨rfl, h₁⟩, ⟨rfl, h₂⟩ =>
    ⟨rfl, by rw [List.append_assoc, h₂, h₁]⟩
  | .sending _ _, .sending _ _, .finished _, _, _, ⟨rfl, h₁⟩, ⟨rfl, rfl⟩ => ⟨rfl, h₁⟩
  | .sending _ _, .sending _ _, .invoking, _, _, _, h₂ => h₂.elim
  | .sending _ _, .finished _, _, _, _, ⟨rfl, rfl⟩, ⟨rfl, rfl⟩ => ⟨rfl, List.append_nil _⟩
  | .sending _ _, .invoking, _, _, _, h₁, _ => h₁.elim
  | .finished _, _, _, _, _, ⟨rfl, rfl⟩, ⟨rfl, rfl⟩ => ⟨rfl, rfl⟩

section
variable {registry : Registry} {s s' : Connector}

/-- Moving task `j` on, sending `new`, moves every task `i` on: task `j` sending `new`, any
    other sending nothing. -/
theorem set_stage_advances {tasks : List Task} {i j : Nat} {t t₀ : Task} {stage : TaskStage}
    {new : List SourceReply} (ht₀ : tasks[j]? = some t₀) (hstage : t₀.Advances t₀.stage new stage)
    (ht : tasks[i]? = some t) :
    ∃ stage', (tasks.set j { t₀ with stage })[i]? = some { t with stage := stage' } ∧
      t.Advances t.stage (if j = i then new else []) stage' := by
  by_cases hij : j = i
  · subst hij
    obtain rfl := Option.some.inj (ht₀.symm.trans ht)
    exact ⟨stage, List.getElem?_set_self (List.getElem?_eq_some_iff.1 ht₀).1, by rwa [if_pos rfl]⟩
  · refine ⟨t.stage, ?_, by rw [if_neg hij]; exact .refl t _⟩
    rw [List.getElem?_set_ne hij, ht, Task.with_stage_self rfl]

/-- One step moves every task on: it keeps what the task captured, its stage can only advance,
    and what it sends on the way is exactly what the step adds to its replies. -/
theorem Connector.step_stage {a : Action} (h : s.step registry a = some s') {i : Nat} {t : Task}
    (ht : s.tasks[i]? = some t) :
    ∃ stage new, s'.tasks[i]? = some { t with stage } ∧
      replies_of s'.sent i = replies_of s.sent i ++ new ∧ t.Advances t.stage new stage := by
  have hsame : s'.tasks[i]? = s.tasks[i]? → s'.sent = s.sent → ∃ stage new,
      s'.tasks[i]? = some { t with stage } ∧ replies_of s'.sent i = replies_of s.sent i ++ new ∧
      t.Advances t.stage new stage := fun htasks hsent =>
    ⟨t.stage, [], by rw [htasks, ht, Task.with_stage_self rfl], by rw [hsent, List.append_nil],
      .refl t _⟩
  cases a with
  | connect => obtain ⟨-, rfl⟩ := Connector.step_connect h; exact hsame rfl rfl
  | signal => obtain rfl := Connector.step_signal h; exact hsame rfl rfl
  | pull => rcases Connector.step_pull h with ⟨-, rfl⟩ | ⟨_, _, -, rfl⟩ <;> exact hsame rfl rfl
  | event event spawn =>
    obtain ⟨d, hd, rfl⟩ := Connector.step_event h
    exact hsame (List.getElem?_append_left (List.getElem?_eq_some_iff.1 ht).1) rfl
  | invoke j outcome =>
    obtain ⟨t₀, ht₀, hstage, rfl⟩ := Connector.step_invoke h
    have hadv : t₀.Advances t₀.stage [] (.sending outcome (t₀.sends outcome)) := by
      rw [hstage]; exact List.nil_append _
    obtain ⟨stage, ht', hadv'⟩ := set_stage_advances ht₀ hadv ht
    exact ⟨stage, [], ht', (List.append_nil _).symm, by rwa [ite_self] at hadv'⟩
  | send j =>
    obtain ⟨t₀, outcome, reply, rest, ht₀, hstage, -, rfl⟩ := Connector.step_send h
    have hadv : t₀.Advances t₀.stage [reply] (.sending outcome rest) := by
      rw [hstage]; exact ⟨rfl, rfl⟩
    obtain ⟨stage, ht', hadv'⟩ := set_stage_advances ht₀ hadv ht
    exact ⟨stage, _, ht', by rw [replies_of_append, replies_of_singleton], hadv'⟩
  | finish j =>
    obtain ⟨t₀, outcome, ht₀, hstage, rfl⟩ := Connector.step_finish h
    have hadv : t₀.Advances t₀.stage [] (.finished outcome) := by
      rw [hstage]; exact ⟨rfl, rfl⟩
    obtain ⟨stage, ht', hadv'⟩ := set_stage_advances ht₀ hadv ht
    exact ⟨stage, [], ht', (List.append_nil _).symm, by rwa [ite_self] at hadv'⟩

/-- Over any run, from any state, every task stays in its place with what it captured (event,
    client, request, metadata, origin, name), and its stage only moves forward, with what it
    sends on the way: `invoke` returns at most once and its outcome is never replaced, the
    replies the outcome calls for are sent in order, none twice and none skipped, and the block
    returns only after the last of them and never runs again. -/
theorem Connector.run_task_stage :
    ∀ (actions : List Action) {s s' : Connector}, s.run registry actions = some s' →
      ∀ {i : Nat} {t : Task}, s.tasks[i]? = some t →
        ∃ stage new, s'.tasks[i]? = some { t with stage } ∧
          replies_of s'.sent i = replies_of s.sent i ++ new ∧ t.Advances t.stage new stage
  | [], _, _, h, _, t, ht => by
    cases h
    exact ⟨t.stage, [], by rw [ht, Task.with_stage_self rfl], (List.append_nil _).symm, .refl t _⟩
  | a :: rest, s, _, h, i, t, ht => by
    cases hstep : s.step registry a with
    | none => simp [Connector.run, hstep] at h
    | some s₁ =>
      rw [Connector.run, hstep, Option.some_bind] at h
      obtain ⟨stage₁, new₁, ht₁, hsent₁, hadv₁⟩ := Connector.step_stage hstep ht
      obtain ⟨stage, new, ht', hsent, hadv⟩ := Connector.run_task_stage rest h ht₁
      exact ⟨stage, new₁ ++ new, ht', by rw [hsent, hsent₁, List.append_assoc],
        hadv₁.trans (Task.advances_with_stage.1 hadv)⟩

end

/-- The task of the 415 run, from the point where `invoke` has returned to the pull of its
    reply: the one send it had left is made, and the block returns. -/
theorem Connector.run_task_stage_codec_error :
    ∃ s s' t, (Connector.init ⟨2, "json"⟩ local_meta).run all_known (codec_error_run.take 4) =
        some s ∧ s.run all_known (codec_error_run.drop 4) = some s' ∧ s.tasks[0]? = some t ∧
      ∃ stage new, s'.tasks[0]? = some { t with stage } ∧
        replies_of s'.sent 0 = replies_of s.sent 0 ++ new ∧ t.Advances t.stage new stage := by
  refine ⟨_, _, _, rfl, rfl, rfl, ?_⟩
  exact @Connector.run_task_stage all_known (codec_error_run.drop 4)
    (((Connector.init ⟨2, "json"⟩ local_meta).run all_known (codec_error_run.take 4)).getD
      (Connector.init ⟨2, "json"⟩ local_meta)) _ rfl _ _ rfl

section
variable {registry : Registry} {s s' : Connector}

end

end tremor_runtime.http
