import Tremor.Value.Se

namespace tremor_value

/-- The parts of a node that its serializer hands on: to `to_value`, or for a map key to
    `MapKeySerializer`. -/
def Data.children : Data → List Data
  | .some v | .newtype_struct v | .newtype_variant _ v => [v]
  | .seq es | .tuple es | .tuple_struct es | .tuple_variant _ es => es
  | .map entries => entries.flatMap fun e => [e.1, e.2]
  | .struct fields | .struct_variant _ fields => fields.map Prod.snd
  | _ => []

/-- `n` occurs in `d` at any depth, `d` itself included. -/
inductive Data.Occurs (n : Data) : Data → Prop
  | refl : Data.Occurs n n
  | child {c d : Data} (hc : c ∈ d.children) (hn : Data.Occurs n c) : Data.Occurs n d

/-- A node `to_value` rejects whatever its parts are: a 128-bit integer, or a map with an
    entry whose key `MapKeySerializer` rejects. -/
def Data.rejected : Data → Bool
  | .i128 _ | .u128 _ => true
  | .map entries => entries.any fun e => !(MapKeySerializer.serialize e.1).isOk
  | _ => false

/-- Some node of `d`, at any depth, is rejected. -/
def Data.HasRejected (d : Data) : Prop := ∃ n : Data, n.Occurs d ∧ n.rejected = true

theorem Data.hasRejected_iff {d : Data} :
    d.HasRejected ↔ d.rejected = true ∨ ∃ c ∈ d.children, c.HasRejected := by
  constructor
  · rintro ⟨n, hocc, hn⟩
    cases hocc with
    | refl => exact .inl hn
    | child hc hocc => exact .inr ⟨_, hc, n, hocc, hn⟩
  · rintro (hd | ⟨c, hc, n, hocc, hn⟩)
    · exact ⟨d, .refl, hd⟩
    · exact ⟨n, .child hc hocc, hn⟩

/-- A key `MapKeySerializer` accepts holds no rejected node: it is a chain of newtype
    structs around a string or a unit variant. -/
theorem not_hasRejected_of_key_ok : ∀ {k : Data},
    (MapKeySerializer.serialize k).isOk = true → ¬k.HasRejected
  | .str _, _ | .unit_variant _, _ => by
    rw [Data.hasRejected_iff]
    simp [Data.rejected, Data.children]
  | .newtype_struct v, hk => by
    have hv := not_hasRejected_of_key_ok (k := v) (by simpa [MapKeySerializer.serialize] using hk)
    rw [Data.hasRejected_iff]
    simpa [Data.rejected, Data.children] using hv
  | .bool _, hk | .i8 _, hk | .i16 _, hk | .i32 _, hk | .i64 _, hk | .i128 _, hk | .u8 _, hk
  | .u16 _, hk | .u32 _, hk | .u64 _, hk | .u128 _, hk | .f32 _, hk | .f64 _, hk | .char _, hk
  | .bytes _, hk | .none, hk | .some _, hk | .unit, hk | .unit_struct, hk
  | .newtype_variant _ _, hk | .seq _, hk | .tuple _, hk | .tuple_struct _, hk
  | .tuple_variant _ _, hk | .map _, hk | .struct _, hk | .struct_variant _ _, hk => by
    simp [MapKeySerializer.serialize, Except.isOk, Except.toBool] at hk

theorem MapKeySerializer.serialize_ne_panic (msg : String) : ∀ {k : Data},
    MapKeySerializer.serialize k ≠ .error (.panic msg)
  | .newtype_struct v => by
    simpa [MapKeySerializer.serialize] using MapKeySerializer.serialize_ne_panic msg (k := v)
  | .str _ | .unit_variant _ | .bool _ | .i8 _ | .i16 _ | .i32 _ | .i64 _ | .i128 _ | .u8 _
  | .u16 _ | .u32 _ | .u64 _ | .u128 _ | .f32 _ | .f64 _ | .char _ | .bytes _ | .none | .some _
  | .unit | .unit_struct | .newtype_variant _ _ | .seq _ | .tuple _ | .tuple_struct _
  | .tuple_variant _ _ | .map _ | .struct _ | .struct_variant _ _ => by
    simp [MapKeySerializer.serialize, i128_not_supported, u128_not_supported]

theorem Data.hasRejected_iff_children {d : Data} (hr : d.rejected = false) :
    d.HasRejected ↔ ∃ c ∈ d.children, c.HasRejected := by
  rw [Data.hasRejected_iff, hr]
  simp

/-- The map case: a map holds a rejected node exactly when an entry's key is rejected or its
    value holds one, since an accepted key holds none. -/
theorem Data.hasRejected_map (entries : List (Data × Data)) :
    (Data.map entries).HasRejected ↔
      ∃ e ∈ entries, (MapKeySerializer.serialize e.1).isOk = false ∨ e.2.HasRejected := by
  rw [Data.hasRejected_iff]
  simp only [Data.rejected, Data.children, List.any_eq_true, Bool.not_eq_true', List.mem_flatMap,
    List.mem_cons, List.not_mem_nil, or_false]
  constructor
  · rintro (⟨e, he, hk⟩ | ⟨c, ⟨e, he, rfl | rfl⟩, hc⟩)
    · exact ⟨e, he, .inl hk⟩
    · refine ⟨e, he, .inl ?_⟩
      by_contra hk
      exact not_hasRejected_of_key_ok (by simpa using hk) hc
    · exact ⟨e, he, .inr hc⟩
  · rintro ⟨e, he, hk | hv⟩
    · exact .inl ⟨e, he, hk⟩
    · exact .inr ⟨e.2, ⟨e, he, .inr rfl⟩, hv⟩

/-- `r` is `Ok` when `bad` fails and `Err` when it holds, and in neither case a panic. -/
def Outcome {α : Type} (r : Except Fault α) (bad : Prop) : Prop :=
  (¬bad ∧ ∃ a, r = .ok a) ∨ (bad ∧ ∃ e, r = .error (.error e))

theorem Outcome.pure {α : Type} (a : α) : Outcome (.ok a : Except Fault α) False :=
  .inl ⟨not_false, a, rfl⟩

theorem Outcome.bind {α β : Type} {x : Except Fault α} {f : α → Except Fault β} {P Q : Prop}
    (hx : Outcome x P) (hf : ∀ a, x = .ok a → Outcome (f a) Q) : Outcome (x >>= f) (P ∨ Q) := by
  rcases hx with ⟨hp, a, rfl⟩ | ⟨hp, e, rfl⟩
  · rcases hf a rfl with ⟨hq, b, hb⟩ | ⟨hq, e, he⟩
    · exact .inl ⟨by tauto, b, hb⟩
    · exact .inr ⟨.inr hq, e, he⟩
  · exact .inr ⟨.inl hp, e, rfl⟩

theorem Outcome.congr {α : Type} {r : Except Fault α} {P Q : Prop} (h : Outcome r P)
    (hPQ : P ↔ Q) : Outcome r Q := by
  unfold Outcome at *
  rwa [← hPQ]

/-- A node that is not rejected itself: its outcome is that of its parts. -/
theorem Outcome.node {α : Type} {r : Except Fault α} {d : Data} {P : Prop} (h : Outcome r P)
    (hr : d.rejected = false) (hP : P ↔ ∃ c ∈ d.children, c.HasRejected) :
    Outcome r d.HasRejected :=
  h.congr (hP.trans (Data.hasRejected_iff_children hr).symm)

theorem Outcome.leaf {α : Type} {r : Except Fault α} {d : Data} {a : α} (hc : d.children = [])
    (hr : d.rejected = false) (h : r = .ok a) : Outcome r d.HasRejected :=
  .inl ⟨by simp [Data.hasRejected_iff_children hr, hc], a, h⟩

theorem Outcome.rejected {α : Type} {r : Except Fault α} {d : Data} {e : Error}
    (hr : d.rejected = true) (h : r = .error (.error e)) : Outcome r d.HasRejected :=
  .inr ⟨⟨d, .refl, hr⟩, e, h⟩

private theorem exists_mem_map_snd {fields : List (String × Data)} {P : Data → Prop} :
    (∃ f ∈ fields, P f.2) ↔ ∃ c ∈ fields.map Prod.snd, P c := by
  simp only [List.mem_map]
  exact ⟨fun ⟨f, hf, hp⟩ => ⟨f.2, ⟨f, hf, rfl⟩, hp⟩, fun ⟨_, ⟨f, hf, rfl⟩, hp⟩ => ⟨f, hf, hp⟩⟩

section
variable (collect : List UInt8 → Value)

/-- One step of a list walker: the element's outcome, then the rest's. -/
theorem Outcome.cons {α β γ : Type} {x : Except Fault α} {f : α → Except Fault γ} {P : Prop}
    {Q : β → Prop} {b : β} {bs : List β} (hx : Outcome x P) (hb : P ↔ Q b)
    (hf : ∀ a, x = .ok a → Outcome (f a) (∃ c ∈ bs, Q c)) :
    Outcome (x >>= f) (∃ c ∈ b :: bs, Q c) :=
  (hx.bind hf).congr (by simp [hb])

mutual
/-- What every node of `to_value` ends in. -/
theorem to_value_outcome : ∀ d : Data, Outcome (to_value collect d) d.HasRejected
  | .bool _ | .i8 _ | .i16 _ | .i32 _ | .i64 _ | .u8 _ | .u16 _ | .u32 _ | .u64 _ | .f32 _
  | .f64 _ | .char _ | .str _ | .bytes _ | .none | .unit | .unit_struct | .unit_variant _ =>
    Outcome.leaf rfl rfl rfl
  | .i128 _ | .u128 _ => Outcome.rejected rfl rfl
  | .some v | .newtype_struct v => (to_value_outcome v).node rfl (by simp [Data.children])
  | .newtype_variant _ v =>
    ((to_value_outcome v).bind fun _ _ => Outcome.pure _).node rfl (by simp [Data.children])
  | .seq es | .tuple es | .tuple_struct es =>
    ((elements_outcome _ es).bind fun _ _ => Outcome.pure _).node rfl (by simp [Data.children])
  | .tuple_variant _ es =>
    ((tuple_fields_outcome _ es).bind fun _ _ => Outcome.pure _).node rfl
      (by simp [Data.children])
  | .map entries =>
    ((entries_outcome _ entries).bind fun _ _ => Outcome.pure _).congr
      (by simp [Data.hasRejected_map])
  | .struct fields =>
    ((fields_outcome _ fields).bind fun _ _ => Outcome.pure _).node rfl
      (by rw [or_false]; exact exists_mem_map_snd)
  | .struct_variant _ fields =>
    ((variant_fields_outcome _ fields).bind fun _ _ => Outcome.pure _).node rfl
      (by rw [or_false]; exact exists_mem_map_snd)

theorem elements_outcome : ∀ (self : SerializeVec) (es : List Data),
    Outcome (serialize_elements collect self es) (∃ e ∈ es, e.HasRejected)
  | self, [] => (Outcome.pure self).congr (by simp)
  | self, e :: es => by
    rw [serialize_elements]
    refine Outcome.cons (Q := Data.HasRejected) (to_value_outcome e) Iff.rfl fun v _ => ?_
    exact elements_outcome _ es

theorem tuple_fields_outcome : ∀ (self : SerializeTupleVariant) (es : List Data),
    Outcome (serialize_tuple_fields collect self es) (∃ e ∈ es, e.HasRejected)
  | self, [] => (Outcome.pure self).congr (by simp)
  | self, e :: es => by
    rw [serialize_tuple_fields]
    refine Outcome.cons (Q := Data.HasRejected) (to_value_outcome e) Iff.rfl fun v _ => ?_
    exact tuple_fields_outcome _ es

theorem entries_outcome : ∀ (self : SerializeMap) (entries : List (Data × Data)),
    Outcome (serialize_entries collect self entries)
      (∃ e ∈ entries, (MapKeySerializer.serialize e.1).isOk = false ∨ e.2.HasRejected)
  | self, [] => (Outcome.pure self).congr (by simp)
  | self, (k, v) :: rest => by
    cases hk : MapKeySerializer.serialize k with
    | ok key =>
      simp only [serialize_entries, SerializeMap.serialize_key, SerializeMap.take_key, hk,
        Except.ok_bind, Except.pure_eq_ok]
      refine Outcome.cons (b := (k, v))
        (Q := fun e => (MapKeySerializer.serialize e.1).isOk = false ∨ e.2.HasRejected)
        (to_value_outcome v) (by simp [hk, Except.isOk, Except.toBool]) fun w _ => ?_
      exact entries_outcome _ rest
    | error f =>
      cases f with
      | panic msg => exact absurd hk (MapKeySerializer.serialize_ne_panic msg)
      | error e =>
        refine .inr ⟨⟨(k, v), List.mem_cons_self _ _, .inl (by simp [hk, Except.isOk,
          Except.toBool])⟩, e, ?_⟩
        simp [serialize_entries, SerializeMap.serialize_key, hk]

theorem fields_outcome : ∀ (self : SerializeMap) (fields : List (String × Data)),
    Outcome (serialize_fields collect self fields) (∃ f ∈ fields, f.2.HasRejected)
  | self, [] => (Outcome.pure self).congr (by simp)
  | self, (k, v) :: rest => by
    simp only [serialize_fields, SerializeMap.serialize_key, SerializeMap.take_key,
      MapKeySerializer.serialize, Except.ok_bind, Except.pure_eq_ok]
    refine Outcome.cons (b := (k, v)) (Q := fun f => f.2.HasRejected) (to_value_outcome v)
      Iff.rfl fun w _ => ?_
    exact fields_outcome _ rest

theorem variant_fields_outcome : ∀ (self : SerializeStructVariant) (fields : List (String × Data)),
    Outcome (serialize_variant_fields collect self fields) (∃ f ∈ fields, f.2.HasRejected)
  | self, [] => (Outcome.pure self).congr (by simp)
  | self, (k, v) :: rest => by
    rw [serialize_variant_fields]
    refine Outcome.cons (b := (k, v)) (Q := fun f => f.2.HasRejected) (to_value_outcome v)
      Iff.rfl fun w _ => ?_
    exact variant_fields_outcome _ rest
end

end

/-- `to_value` returns `Err` exactly when some node, at any depth, is a 128-bit integer or a
    map with an entry whose key `MapKeySerializer` rejects; otherwise it returns `Ok`. Map
    entries are driven key then value, so the `expect` of `serialize_value` never panics. -/
theorem to_value_err_iff_rejected_node (collect : List UInt8 → Value) (d : Data) :
    ((∃ e, to_value collect d = .error (.error e)) ↔ ∃ n : Data, n.Occurs d ∧ n.rejected = true) ∧
    ((∃ v, to_value collect d = .ok v) ↔ ¬∃ n : Data, n.Occurs d ∧ n.rejected = true) ∧
    ∀ msg, to_value collect d ≠ .error (.panic msg) := by
  rcases to_value_outcome collect d with ⟨hd, v, hv⟩ | ⟨hd, e, he⟩
  · simp only [hv]
    exact ⟨⟨fun ⟨_, h⟩ => (nomatch h), fun h => absurd h hd⟩, ⟨fun _ => hd, fun _ => ⟨v, rfl⟩⟩,
      fun _ h => nomatch h⟩
  · simp only [he]
    exact ⟨⟨fun _ => hd, fun _ => ⟨e, rfl⟩⟩, ⟨fun ⟨_, h⟩ => (nomatch h), fun h => absurd hd h⟩,
      fun _ h => nomatch h⟩

end tremor_value
