import Tremor.Http.Connector

namespace tremor_runtime.http

open tremor_value

/-- A task is in flight until its block returns. -/
def Task.live (t : Task) : Bool :=
  match t.stage with
  | .finished _ => false
  | _ => true

/-- The exchanges in flight: the spawned tasks whose block has not returned. -/
def Connector.in_flight (s : Connector) : Nat := s.tasks.countP Task.live

/-- A configuration that requests every event to `http://localhost:8080/`, with the event's
    payload as the request's metadata, and names no processor. -/
def local_meta : HttpRequestMeta :=
  { process := fun event =>
      .ok (⟨{ scheme := "http", host := "localhost", port := some 8080, path := [] }⟩, event.data)
    preprocessors := []
    postprocessors := [] }

/-- A registry that knows every processor name. -/
def all_known : Registry := ⟨fun _ => .ok (), fun _ => .ok ()⟩

/-- An event with a `null` payload. -/
def ping : Event := ⟨0, .static .null⟩

/-- `on_event` spawns a task exactly when it answers `NONE`, and answers `FAIL` exactly when
    the refreshed pool has no client. It leaves the permit count where it found it on every
    exit, and as a step of the connector it adds its task, if any, and no reply. -/
theorem HttpRequestSink.on_event_spawns_iff_none {self : HttpRequestSink} {registry : Registry}
    {event : Event} {spawn : Except Error Unit} {d : Dispatch}
    (h : self.on_event registry event spawn = some d) :
    (d.reply = .ok .NONE ↔ d.task.isSome) ∧
    (d.reply = .ok .FAIL ↔ self.refresh_clients.clients.next.1 = none) ∧
    d.sink.concurrency_cap = self.concurrency_cap ∧
    ∀ s : Connector, s.sink = self → s.step registry (.event event spawn) =
      some { s with sink := d.sink, tasks := s.tasks ++ d.task.toList } := by
  obtain ⟨-, hsink, hd⟩ := HttpRequestSink.on_event_some h
  refine ⟨?_, ?_, by simp [hsink], fun s hs => Connector.step_event_eq (hs ▸ h)⟩ <;>
  cases hnext : self.refresh_clients.clients.next.1 with
  | none => simp only [hnext] at hd; simp [hd]
  | some client =>
    simp only [hnext] at hd
    split at hd <;> simp [hd]

/-- On an empty pool `on_event` answers `FAIL`, spawns nothing and keeps the count. -/
theorem HttpRequestSink.on_event_spawns_iff_none_empty_pool :
    ∃ d, (HttpRequestSink.new [] 2 local_meta).on_event all_known ping (.ok ()) = some d ∧
      d.reply = .ok .FAIL ∧ d.task = none ∧
      ((d.reply = .ok .NONE ↔ d.task.isSome) ∧
      (d.reply = .ok .FAIL ↔
        (HttpRequestSink.new [] 2 local_meta).refresh_clients.clients.next.1 = none) ∧
      d.sink.concurrency_cap = (HttpRequestSink.new [] 2 local_meta).concurrency_cap ∧
      ∀ s : Connector, s.sink = HttpRequestSink.new [] 2 local_meta →
        s.step all_known (.event ping (.ok ())) =
          some { s with sink := d.sink, tasks := s.tasks ++ d.task.toList }) :=
  ⟨_, rfl, rfl, rfl, HttpRequestSink.on_event_spawns_iff_none rfl⟩

/-- `connect` makes one client for each of `1..max_concurrency`, one short of the bound. -/
@[simp] theorem HttpClient.connect_length (self : HttpClient) (made : Nat) :
    (self.connect made).length = self.max_concurrency - 1 := by
  simp [HttpClient.connect]

/-- The clients `connect` makes are numbered on from those made before. -/
theorem HttpClient.range_append_connect (self : HttpClient) (made : Nat) :
    (List.range made).map SurfClient.mk ++ self.connect made =
      (List.range (made + (self.max_concurrency - 1))).map SurfClient.mk := by
  rw [List.range_add, List.map_append, HttpClient.connect, List.range'_eq_map_range,
    List.map_map]

/-- The lists `refresh_clients` has taken off the clients channel, oldest first: those `connect`
    sent, less those still waiting. -/
def Connector.installed (s : Connector) : List (List SurfClient) :=
  s.connected.take (s.connected.length - s.sink.clients_rx.length)

theorem Connector.installed_of_append {s : Connector} {pre : List (List SurfClient)}
    (h : s.connected = pre ++ s.sink.clients_rx) : s.installed = pre := by
  rw [Connector.installed, h, List.length_append, Nat.add_sub_cancel, List.take_left]

/-- Sending a list on the channel leaves the lists taken off it as they were. -/
theorem Connector.installed_of_send {s s' : Connector} {sent : List (List SurfClient)}
    (hconnected : s'.connected = s.connected ++ sent)
    (hrx : s'.sink.clients_rx = s.sink.clients_rx ++ sent) : s'.installed = s.installed := by
  rw [Connector.installed, Connector.installed, hconnected, hrx, List.length_append,
    List.length_append, Nat.add_sub_add_right, List.take_append_of_le_length (Nat.sub_le _ _)]

/-- The clients channel as a FIFO of what `connect` sent: the lists waiting are the last ones
    sent, and the pool is the last list taken off, or empty before the first. Every list holds
    one client per turn of `connect`'s loop, and the clients are numbered in the order `connect`
    made them. -/
structure Connector.ClientsFifo (s : Connector) : Prop where
  fifo : List.IsSuffix s.sink.clients_rx s.connected
  pool : s.sink.clients.clients = s.installed.getLast?.getD []
  sizes : ∀ pool ∈ s.connected, pool.length = s.client.max_concurrency - 1
  fresh : s.connected.flatten = (List.range s.connected.flatten.length).map SurfClient.mk

/-- A refresh takes the oldest waiting list, which becomes both the pool and the last list
    taken off. -/
theorem HttpRequestSink.refresh_clients_fifo {self : HttpRequestSink}
    {pre : List (List SurfClient)} (hpool : self.clients.clients = pre.getLast?.getD []) :
    ∃ pre', pre ++ self.clients_rx = pre' ++ self.refresh_clients.clients_rx ∧
      self.refresh_clients.clients.clients = pre'.getLast?.getD [] ∧ List.IsPrefix pre pre' := by
  unfold HttpRequestSink.refresh_clients
  split
  · rename_i new_clients rest heq
    exact ⟨pre ++ [new_clients], by simp [heq], by simp [SurfClients.new], List.prefix_append _ _⟩
  · exact ⟨pre, rfl, hpool, List.prefix_refl _⟩

section
variable {registry : Registry} {s s' : Connector}

/-- A step whose sink is `self.refresh_clients` up to the pool's cursor and the signals, and that
    sends no list, keeps the clients channel a FIFO and takes at most one list off it. -/
theorem Connector.ClientsFifo.refresh (hi : s.ClientsFifo) (hconnected : s'.connected = s.connected)
    (hclient : s'.client = s.client) (hrx : s'.sink.clients_rx = s.sink.refresh_clients.clients_rx)
    (hpool : s'.sink.clients.clients = s.sink.refresh_clients.clients.clients) :
    s'.ClientsFifo ∧ List.IsPrefix s.installed s'.installed := by
  obtain ⟨pre, hpre⟩ := hi.fifo
  obtain ⟨pre', happ, hpool', hprefix⟩ := HttpRequestSink.refresh_clients_fifo
    (hi.pool.trans (by rw [Connector.installed_of_append hpre.symm]))
  have hpre' : s'.connected = pre' ++ s'.sink.clients_rx := by rw [hconnected, hrx, ← happ, hpre]
  rw [Connector.installed_of_append hpre', Connector.installed_of_append hpre.symm]
  exact ⟨⟨⟨pre', hpre'.symm⟩, by rw [Connector.installed_of_append hpre', hpool, hpool'],
    hconnected ▸ hclient ▸ hi.sizes, hconnected ▸ hi.fresh⟩, hprefix⟩

/-- Every step keeps the clients channel a FIFO of what `connect` sent; the lists taken off it
    only grow. -/
theorem Connector.ClientsFifo.step {a : Action} (hi : s.ClientsFifo)
    (h : s.step registry a = some s') :
    s'.ClientsFifo ∧ List.IsPrefix s.installed s'.installed := by
  cases a with
  | connect =>
    obtain ⟨-, hs'⟩ := Connector.step_connect h
    have hsend : s'.installed = s.installed :=
      Connector.installed_of_send (by rw [hs']) (by rw [hs'])
    subst hs'
    obtain ⟨pre, hpre⟩ := hi.fifo
    refine ⟨⟨⟨pre, by simp [← hpre]⟩, by rw [hsend]; exact hi.pool, ?_, ?_⟩,
      hsend ▸ List.prefix_refl _⟩
    · intro pool hmem
      rcases List.mem_append.1 hmem with hmem | hmem
      · exact hi.sizes pool hmem
      · rw [List.mem_singleton.1 hmem, HttpClient.connect_length]
    · simp only [List.flatten_append, List.flatten_cons, List.flatten_nil, List.append_nil,
        List.length_append, HttpClient.connect_length]
      rw [hi.fresh, List.length_map, List.length_range, HttpClient.range_append_connect]
  | event event spawn =>
    obtain ⟨d, hd, rfl⟩ := Connector.step_event h
    obtain ⟨-, hsink, -⟩ := HttpRequestSink.on_event_some hd
    exact hi.refresh rfl rfl (by simp [hsink]) (by simp [hsink])
  | signal =>
    rw [Connector.step_signal h]
    exact hi.refresh rfl rfl rfl rfl
  | invoke i outcome =>
    obtain ⟨t, -, -, rfl⟩ := Connector.step_invoke h
    exact ⟨⟨hi.fifo, hi.pool, hi.sizes, hi.fresh⟩, List.prefix_refl _⟩
  | send i =>
    obtain ⟨t, _, _, _, -, -, -, rfl⟩ := Connector.step_send h
    exact ⟨⟨hi.fifo, hi.pool, hi.sizes, hi.fresh⟩, List.prefix_refl _⟩
  | finish i =>
    obtain ⟨t, _, -, -, rfl⟩ := Connector.step_finish h
    exact ⟨⟨hi.fifo, hi.pool, hi.sizes, hi.fresh⟩, List.prefix_refl _⟩
  | pull =>
    rcases Connector.step_pull h with ⟨-, rfl⟩ | ⟨_, _, -, rfl⟩
    · exact ⟨hi, List.prefix_refl _⟩
    · exact ⟨⟨hi.fifo, hi.pool, hi.sizes, hi.fresh⟩, List.prefix_refl _⟩

end

/-- Along every run the clients channel is a FIFO of the lists `connect` sent. -/
theorem Connector.reachable_clientsFifo {client : HttpClient} {http_meta : HttpRequestMeta}
    {registry : Registry} {s : Connector}
    (hs : Reachable registry (Connector.init client http_meta) s) : s.ClientsFifo := by
  induction hs with
  | init => exact ⟨List.suffix_refl _, rfl, fun _ h => (nomatch h), rfl⟩
  | step a _ hstep ih => exact (ih.step hstep).1

/-- The pool is one of the lists `connect` sent, or empty. -/
theorem Connector.ClientsFifo.pool_mem {s : Connector} (hi : s.ClientsFifo) :
    s.sink.clients.clients = [] ∨ s.sink.clients.clients ∈ s.connected := by
  rw [hi.pool]
  cases hlast : s.installed.getLast? with
  | none => exact .inl rfl
  | some pool =>
    exact .inr (List.take_subset _ _ (List.mem_of_getLast?_eq_some hlast))

/-- The pool after a refresh is one of the lists `connect` sent, or empty. -/
theorem Connector.ClientsFifo.refresh_pool_mem {s : Connector} (hi : s.ClientsFifo) :
    s.sink.refresh_clients.clients.clients = [] ∨
      s.sink.refresh_clients.clients.clients ∈ s.connected := by
  unfold HttpRequestSink.refresh_clients
  split
  · rename_i new_clients rest heq
    exact .inr (hi.fifo.subset (by rw [heq]; exact List.mem_cons_self _ _))
  · exact hi.pool_mem

/-- With `max_concurrency = 1` the list `connect` sends is empty, so no pool of any run ever
    holds a client: every `on_event` of every run is admitted and answers `FAIL` with no
    task. -/
theorem Connector.single_slot_never_dispatches {client : HttpClient} {http_meta : HttpRequestMeta}
    {registry : Registry} {s : Connector} (hN : client.max_concurrency = 1)
    (hs : Reachable registry (Connector.init client http_meta) s) (event : Event)
    (spawn : Except Error Unit) :
    (∀ made, client.connect made = []) ∧ ∃ d, s.sink.on_event registry event spawn = some d ∧
      d.reply = .ok .FAIL ∧ d.task = none := by
  have hnil : ∀ made, client.connect made = [] := fun made =>
    List.eq_nil_of_length_eq_zero (by simp [hN])
  obtain ⟨hclient, -, -, hcap⟩ := Connector.reachable_frame hs
  obtain ⟨d, hd⟩ := @HttpRequestSink.on_event_admits s.sink registry event spawn
    (by simp [hcap, ConcurrencyCap.new, hN])
  have hfifo := Connector.reachable_clientsFifo hs
  have hempty : s.sink.refresh_clients.clients.clients = [] := by
    rcases hfifo.refresh_pool_mem with h | h
    · exact h
    · exact List.eq_nil_of_length_eq_zero (by rw [hfifo.sizes _ h, hclient, hN])
  obtain ⟨-, -, hreply⟩ := HttpRequestSink.on_event_some hd
  rw [SurfClients.next_of_nil _ hempty] at hreply
  exact ⟨hnil, d, hd, hreply⟩

/-- Once `connect` has run with `max_concurrency = 1`, the next event is answered `FAIL`. -/
theorem Connector.single_slot_never_dispatches_after_connect :
    ∃ s, Reachable all_known (Connector.init ⟨1, "json"⟩ local_meta) s ∧
      s.sink.clients_rx = [[]] ∧
      ((∀ made, HttpClient.connect ⟨1, "json"⟩ made = []) ∧
        ∃ d, s.sink.on_event all_known ping (.ok ()) = some d ∧
        d.reply = .ok .FAIL ∧ d.task = none) :=
  ⟨_, .step .connect .init rfl, rfl,
    Connector.single_slot_never_dispatches rfl (.step .connect .init rfl) ping (.ok ())⟩

/-- Below the bound, with a pool installed and no list waiting, an event whose request is
    built and whose processors are all known spawns a task in flight and leaves the pool and
    the clients channel as they were. -/
theorem Connector.step_event_spawns {registry : Registry} {s : Connector} {event : Event}
    {request : Request} {request_meta : Value}
    (hcap : s.sink.concurrency_cap.counter < s.sink.concurrency_cap.max)
    (hrx : s.sink.clients_rx = []) (hpool : 0 < s.sink.clients.clients.length)
    (hprocess : s.sink.http_meta.process event = .ok (request, request_meta))
    (hpre : ∀ name ∈ s.sink.http_meta.preprocessors, registry.preprocessor name = .ok ())
    (hpost : ∀ name ∈ s.sink.http_meta.postprocessors, registry.postprocessor name = .ok ()) :
    ∃ s' t, s.step registry (.event event (.ok ())) = some s' ∧ s'.tasks = s.tasks ++ [t] ∧
      t.live = true ∧ s'.sink.clients_rx = [] ∧
      s'.sink.clients.clients = s.sink.clients.clients := by
  obtain ⟨d, hd⟩ := HttpRequestSink.on_event_admits registry event (.ok ()) hcap
  obtain ⟨-, hsink, hreply⟩ := HttpRequestSink.on_event_some hd
  rw [HttpRequestSink.refresh_clients_of_nil hrx] at hsink hreply
  simp only [SurfClients.next_of_pos _ hpool, spawn_exchange_eq_ok hprocess hpre hpost] at hreply
  obtain ⟨-, htask⟩ := hreply
  exact ⟨_, _, Connector.step_event_eq hd, by rw [htask]; rfl, by rfl, by simp [hsink, hrx],
    by simp [hsink]⟩

/-- The cap bounds nothing: with two slots or more and collaborators that accept every
    event, some run has any number of exchanges in flight at once, while the permit count
    reads zero. -/
theorem Connector.in_flight_unbounded (client : HttpClient) (http_meta : HttpRequestMeta)
    (registry : Registry) (hN : 2 ≤ client.max_concurrency)
    (hprocess : ∀ event, ∃ r, http_meta.process event = .ok r)
    (hpre : ∀ name ∈ http_meta.preprocessors, registry.preprocessor name = .ok ())
    (hpost : ∀ name ∈ http_meta.postprocessors, registry.postprocessor name = .ok ()) :
    ∀ k, ∃ s, Reachable registry (Connector.init client http_meta) s ∧ s.in_flight = k ∧
      s.sink.concurrency_cap.counter = 0 := by
  suffices h : ∀ k, ∃ s, Reachable registry (Connector.init client http_meta) s ∧
      s.sink.clients_rx = [] ∧ 0 < s.sink.clients.clients.length ∧ s.in_flight = k by
    intro k
    obtain ⟨s, hs, -, -, hk⟩ := h k
    exact ⟨s, hs, hk, by rw [(Connector.reachable_frame hs).2.2.2]; rfl⟩
  intro k
  induction k with
  | zero =>
    refine ⟨_, .step .signal (.step .connect .init rfl) rfl, rfl, ?_, rfl⟩
    show 0 < (client.connect 0).length
    simp only [HttpClient.connect_length]
    omega
  | succ k ih =>
    obtain ⟨s, hs, hrx, hpool, hk⟩ := ih
    obtain ⟨-, hmeta, -, hcap⟩ := Connector.reachable_frame hs
    obtain ⟨r, hr⟩ := hprocess ping
    obtain ⟨s', t, hstep, htasks, hlive, hrx', hpool'⟩ := Connector.step_event_spawns
      (by rw [hcap]; show 0 < client.max_concurrency; omega) hrx hpool (hmeta ▸ hr)
      (hmeta ▸ hpre) (hmeta ▸ hpost)
    refine ⟨s', .step _ hs hstep, hrx', hpool' ▸ hpool, ?_⟩
    simp [Connector.in_flight, htasks, List.countP_append, hlive, ← hk]

/-- With two slots, three exchanges are in flight at once. -/
theorem Connector.in_flight_unbounded_three :
    ∃ s, Reachable all_known (Connector.init ⟨2, "json"⟩ local_meta) s ∧ s.in_flight = 3 ∧
      s.sink.concurrency_cap.counter = 0 :=
  Connector.in_flight_unbounded ⟨2, "json"⟩ local_meta all_known (by decide)
    (fun _ => ⟨_, rfl⟩) (by simp [local_meta]) (by simp [local_meta]) 3

/-- One dispatch with no list waiting, on a pool of one client or more: the cursor moves on by
    one, and the task spawned, if any, holds the client that stood under it. -/
theorem Connector.step_event_cursor {registry : Registry} {s s' : Connector} {event : Event}
    {spawn : Except Error Unit} (hrx : s.sink.clients_rx = [])
    (hpool : 0 < s.sink.clients.clients.length)
    (h : s.step registry (.event event spawn) = some s') :
    ∃ task : Option Task, s'.tasks = s.tasks ++ task.toList ∧
      (∀ t, task = some t → t.client = s.sink.clients.clients.get
        ⟨s.sink.clients.idx.toNat % s.sink.clients.clients.length, Nat.mod_lt _ hpool⟩) ∧
      s'.sink.clients = { s.sink.clients with idx := s.sink.clients.idx + 1 } ∧
      s'.sink.clients_rx = [] := by
  obtain ⟨d, hd, rfl⟩ := Connector.step_event h
  obtain ⟨-, hsink, -⟩ := HttpRequestSink.on_event_some hd
  rw [HttpRequestSink.refresh_clients_of_nil hrx] at hsink
  refine ⟨d.task, rfl, fun t ht => ?_, by simp [hsink, SurfClients.next_of_pos _ hpool],
    by simp [hsink, hrx]⟩
  have hnext := (HttpRequestSink.on_event_task hd ht).1
  rw [HttpRequestSink.refresh_clients_of_nil hrx, SurfClients.next_of_pos _ hpool,
    Option.some.injEq] at hnext
  exact hnext.symm

/-- A run of dispatches with no list waiting, from the pool `clients` with its cursor at `j`:
    the `k`-th call spawns nothing or a task with the client at `(j + k) mod M`, in call order,
    and the cursor ends one position on per call. -/
theorem Connector.run_events_cursor {registry : Registry} (clients : List SurfClient)
    (hpool : 0 < clients.length) :
    ∀ (calls : List (Event × Except Error Unit)) {s s' : Connector} (j : UInt64),
      s.sink.clients_rx = [] → s.sink.clients = ⟨clients, j⟩ → j.toNat + calls.length < 2 ^ 64 →
      s.run registry (calls.map fun call => .event call.1 call.2) = some s' →
      ∃ spawned : List (Option Task), spawned.length = calls.length ∧
        s'.tasks = s.tasks ++ spawned.filterMap id ∧
        (∀ k t, spawned[k]? = some (some t) →
          t.client = clients.get ⟨(j.toNat + k) % clients.length, Nat.mod_lt _ hpool⟩) ∧
        s'.sink.clients.clients = clients ∧ s'.sink.clients.idx.toNat = j.toNat + calls.length
  | [], s, _, j, _, hcl, _, h => by
    cases h
    exact ⟨[], rfl, by simp, by simp, by rw [hcl], by rw [hcl]; rfl⟩
  | (event, spawn) :: calls, s, _, j, hrx, hcl, hk, h => by
    simp only [List.map_cons, Connector.run] at h
    cases hstep : s.step registry (.event event spawn) with
    | none => simp [hstep] at h
    | some s₁ =>
      rw [hstep, Option.some_bind] at h
      obtain ⟨task, htasks, hclient, hcl₁, hrx₁⟩ :=
        Connector.step_event_cursor hrx (by rw [hcl]; exact hpool) hstep
      have hj := cursor_toNat_succ (j := j) (by simp at hk; omega)
      obtain ⟨spawned, hlen, htasks', hcli, hcl', hidx'⟩ := Connector.run_events_cursor clients
        hpool calls (j + 1) hrx₁ (by rw [hcl₁, hcl]) (by simp at hk; omega) h
      refine ⟨task :: spawned, by simp [hlen], ?_, fun k t hkt => ?_, hcl', ?_⟩
      · cases task <;> simp [htasks', htasks]
      · cases k with
        | zero =>
          obtain rfl : task = some t := by simpa using hkt
          simp [hclient t rfl, hcl]
        | succ k =>
          rw [hcli k t (by simpa using hkt), hj, Nat.add_right_comm, Nat.add_assoc]
      · rw [hidx', hj, List.length_cons]
        omega

/-- Between two pool installs dispatches use the pool in rotation, one position per call: from a
    pool of `M` clients with its cursor at `j`, the `k`-th of a run of calls either spawns
    nothing or spawns a task with the client at `(j + k) mod M`; the tasks come in call order,
    and the cursor ends `calls.length` positions on, so a call that spawns nothing still moves it
    on. -/
theorem Connector.dispatch_round_robin {registry : Registry} {s s' : Connector}
    (hrx : s.sink.clients_rx = []) (hpool : 0 < s.sink.clients.clients.length)
    (calls : List (Event × Except Error Unit))
    (hk : s.sink.clients.idx.toNat + calls.length < 2 ^ 64)
    (hrun : s.run registry (calls.map fun call => .event call.1 call.2) = some s') :
    ∃ spawned : List (Option Task), spawned.length = calls.length ∧
      s'.tasks = s.tasks ++ spawned.filterMap id ∧
      (∀ k t, spawned[k]? = some (some t) →
        t.client = s.sink.clients.clients.get
          ⟨(s.sink.clients.idx.toNat + k) % s.sink.clients.clients.length, Nat.mod_lt _ hpool⟩) ∧
      s'.sink.clients.clients = s.sink.clients.clients ∧
      s'.sink.clients.idx.toNat = s.sink.clients.idx.toNat + calls.length :=
  Connector.run_events_cursor _ hpool calls _ hrx rfl hk hrun

/-- With three slots `connect` installs two clients; of three dispatches the second fails to
    spawn, and the third still takes the client after the one it skipped. -/
theorem Connector.dispatch_round_robin_skip :
    ∃ s s', (Connector.init ⟨3, "json"⟩ local_meta).run all_known [.connect, .signal] = some s ∧
      s.run all_known ([(ping, .ok ()), (ping, .error (.Other "spawn")), (ping, .ok ())].map
        fun call => .event call.1 call.2) = some s' ∧
      s'.tasks.map (·.client) = [⟨0⟩, ⟨0⟩] ∧
      ∃ hpool : 0 < s.sink.clients.clients.length,
      ∃ spawned : List (Option Task), spawned.length = 3 ∧
        s'.tasks = s.tasks ++ spawned.filterMap id ∧
        (∀ k t, spawned[k]? = some (some t) →
          t.client = s.sink.clients.clients.get
            ⟨(s.sink.clients.idx.toNat + k) % s.sink.clients.clients.length, Nat.mod_lt _ hpool⟩) ∧
        s'.sink.clients.clients = s.sink.clients.clients ∧
        s'.sink.clients.idx.toNat = s.sink.clients.idx.toNat + 3 :=
  ⟨_, _, rfl, rfl, rfl, by decide, @Connector.dispatch_round_robin all_known _ _ rfl (by decide)
    [(ping, .ok ()), (ping, .error (.Other "spawn")), (ping, .ok ())] (by decide) rfl⟩

end tremor_runtime.http
