import Mathlib.Data.List.Rotate
import Mathlib.Data.UInt

namespace tremor_runtime.http

/-- A `surf::Client`; a clone is the same client. -/
structure SurfClient where
  client : Nat
  deriving DecidableEq, Repr

/-- The transport pool: the clients and the rotation cursor, a `usize` of a 64-bit target. -/
structure SurfClients where
  clients : List SurfClient
  idx : UInt64
  deriving DecidableEq, Repr

def SurfClients.new (clients : List SurfClient) : SurfClients := { clients, idx := 0 }

/-- `SurfClients::next`: a clone of the client under the cursor, taken modulo the length, with
    the cursor moved on; `None` for an empty pool. -/
def SurfClients.next (self : SurfClients) : Option SurfClient × SurfClients :=
  let len := self.clients.length
  if len > 0 then
    let idx := self.idx.toNat % len
    let self := { self with idx := self.idx + 1 }
    match self.clients[idx]? with
    | some client => (some client, self)
    | none => (none, self)
  else (none, self)

@[simp] theorem SurfClients.next_clients (self : SurfClients) : self.next.2.clients = self.clients := by
  unfold SurfClients.next
  dsimp only
  split
  · split <;> rfl
  · rfl

/-- `k` calls of `next` in a row, with no replacement of the pool between them. -/
def SurfClients.next_n (self : SurfClients) : Nat → List (Option SurfClient) × SurfClients
  | 0 => ([], self)
  | k + 1 =>
    let (client, self) := self.next
    let (rest, self) := self.next_n k
    (client :: rest, self)

theorem SurfClients.next_n_succ_fst (self : SurfClients) (k : Nat) :
    (self.next_n (k + 1)).1 = self.next.1 :: (self.next.2.next_n k).1 := rfl

theorem SurfClients.next_of_nil (self : SurfClients) (h : self.clients = []) :
    self.next = (none, self) := by
  simp [SurfClients.next, h]

/-- On a nonempty pool `next` returns the client at the cursor modulo the length, so the
    fallback `None` after `clients.get` is never reached. -/
theorem SurfClients.next_of_pos (self : SurfClients) (h : 0 < self.clients.length) :
    self.next = (some (self.clients.get ⟨self.idx.toNat % self.clients.length, Nat.mod_lt _ h⟩),
      { self with idx := self.idx + 1 }) := by
  simp [SurfClients.next, h, List.getElem?_eq_getElem (Nat.mod_lt _ h)]

theorem SurfClients.next_n_of_nil (self : SurfClients) (h : self.clients = []) :
    ∀ k, (self.next_n k).1 = List.replicate k none
  | 0 => rfl
  | k + 1 => by
    simp [SurfClients.next_n, SurfClients.next_of_nil self h, SurfClients.next_n_of_nil self h k,
      List.replicate_succ]

/-- Moving the cursor on does not wrap below `2^64`. -/
theorem cursor_toNat_succ {j : UInt64} (h : j.toNat + 1 < 2 ^ 64) :
    (j + 1).toNat = j.toNat + 1 := by
  show (j.toBitVec + 1).toNat = j.toBitVec.toNat + 1
  rw [BitVec.toNat_add]
  exact Nat.mod_eq_of_lt (by simpa using h)

/-- From cursor `j`, the `i`-th of `k` calls returns the client at `(j + i) mod M`, while the
    cursor stays below `2^64`. -/
theorem SurfClients.next_n_of_pos (clients : List SurfClient) (h : 0 < clients.length) :
    ∀ (k : Nat) (j : UInt64), j.toNat + k < 2 ^ 64 →
      (SurfClients.next_n ⟨clients, j⟩ k).1 =
        (List.range' j.toNat k).map fun i => some (clients.get ⟨i % clients.length, Nat.mod_lt _ h⟩)
  | 0, _, _ => rfl
  | k + 1, j, hk => by
    have hj := cursor_toNat_succ (j := j) (by omega)
    have ih := SurfClients.next_n_of_pos clients h k (j + 1) (by omega)
    rw [hj] at ih
    simp only [SurfClients.next_n, SurfClients.next_of_pos ⟨clients, j⟩ h, ih, List.range'_succ,
      List.map_cons]

/-- Any `M` consecutive results of the rotation are the `M` clients once each, in list order
    from the position the window starts at. -/
theorem rotation_window (clients : List SurfClient) (h : 0 < clients.length) (k j : Nat)
    (hj : j + clients.length ≤ k) :
    (((List.range k).map fun i => some (clients.get ⟨i % clients.length, Nat.mod_lt _ h⟩)).drop
      j).take clients.length = (clients.rotate (j % clients.length)).map some := by
  apply List.ext_getElem
  · simp only [List.length_take, List.length_drop, List.length_map, List.length_range,
      List.length_rotate]
    omega
  · intro t h₁ h₂
    simp only [List.getElem_take, List.getElem_drop, List.getElem_map, List.getElem_range,
      List.getElem_rotate, List.get_eq_getElem, Option.some.injEq]
    congr 1
    rw [Nat.add_mod_mod, Nat.add_comm]

/-- Round robin from a fresh pool, for any number of calls below `2^64`: with no clients every
    call returns `None`; otherwise the `i`-th call returns the client at `i mod M`, and any `M`
    consecutive calls return each client once, in list order from where they start. -/
theorem SurfClients.new_next_n_round_robin (clients : List SurfClient) (k : Nat)
    (hk : k < 2 ^ 64) :
    (clients = [] → ((SurfClients.new clients).next_n k).1 = List.replicate k none) ∧
    ∀ h : 0 < clients.length,
      ((SurfClients.new clients).next_n k).1 =
        (List.range k).map (fun i => some (clients.get ⟨i % clients.length, Nat.mod_lt _ h⟩)) ∧
      ∀ j, j + clients.length ≤ k →
        ((((SurfClients.new clients).next_n k).1.drop j).take clients.length) =
          (clients.rotate (j % clients.length)).map some := by
  refine ⟨fun hnil => SurfClients.next_n_of_nil _ hnil k, fun h => ?_⟩
  have hrun : ((SurfClients.new clients).next_n k).1 =
      (List.range k).map (fun i => some (clients.get ⟨i % clients.length, Nat.mod_lt _ h⟩)) := by
    rw [List.range_eq_range']
    exact SurfClients.next_n_of_pos clients h k 0 (by simpa using hk)
  exact ⟨hrun, fun j hj => hrun ▸ rotation_window clients h k j hj⟩

theorem SurfClients.new_next_n_round_robin_three :
    3 < 2 ^ 64 ∧ ((SurfClients.new [⟨7⟩, ⟨8⟩]).next_n 3).1 = [some ⟨7⟩, some ⟨8⟩, some ⟨7⟩] :=
  ⟨by decide, by
    simpa using ((SurfClients.new_next_n_round_robin [⟨7⟩, ⟨8⟩] 3 (by decide)).2 (by decide)).1⟩

end tremor_runtime.http
