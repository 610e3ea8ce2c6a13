import Tremor.Value.Se

namespace tremor_value

theorem lookup_cons_of_ne {k k' : String} {v : Value} {rest : List (String × Value)}
    (h : k ≠ k') : ((k', v) :: rest).lookup k = rest.lookup k := by
  simp [List.lookup_cons, beq_false_of_ne h]

/-- Reading a key back after `Object.insert`: the inserted value under its key, every other
    key as before. -/
@[simp] theorem Object.lookup_insert (entries : List (String × Value)) (key k : String)
    (value : Value) :
    (Object.insert entries key value).lookup k = if k = key then some value else entries.lookup k := by
  induction entries with
  | nil => by_cases hk : k = key <;> simp [Object.insert, List.lookup_cons, hk, beq_false_of_ne]
  | cons entry rest ih =>
    obtain ⟨k', v⟩ := entry
    by_cases hkey : k' = key
    · subst hkey
      by_cases hk : k = k' <;> simp [Object.insert, List.lookup_cons, hk, beq_false_of_ne]
    · by_cases hk : k = k'
      · subst hk
        simp [Object.insert, List.lookup_cons, hkey]
      · simp [Object.insert, hkey, lookup_cons_of_ne hk, ih]

/-- What a serde map gives key `k`: the value of its last entry whose key `MapKeySerializer`
    turns into `k`. -/
def value_for (k : String) : List (Data × Data) → Option Data
  | [] => none
  | (key, value) :: rest =>
    (value_for k rest).or
      (if (MapKeySerializer.serialize key).toOption = some k then some value else none)

section
variable (collect : List UInt8 → Value)

/-- `serialize_key` then `take_key` hand back the key's string and leave the map as it was. -/
theorem SerializeMap.serialize_key_take_key {self self₁ self₂ : SerializeMap} {key : Data}
    {key' : String} (hkey : self.serialize_key key = .ok self₁)
    (htake : self₁.take_key = .ok (key', self₂)) :
    MapKeySerializer.serialize key = .ok key' ∧ self₂.map = self.map := by
  obtain ⟨ks, hks, hself₁⟩ := Except.bind_eq_ok.1 hkey
  cases hself₁
  cases htake
  exact ⟨hks, rfl⟩

/-- The map walker answers a key with the value of the last entry under it, and otherwise
    as the map it started from. -/
theorem serialize_entries_lookup (k : String) :
    ∀ (entries : List (Data × Data)) (self r : SerializeMap),
      serialize_entries collect self entries = .ok r →
      r.map.lookup k = match value_for k entries with
        | some d => (to_value collect d).toOption
        | none => self.map.lookup k
  | [], self, r, h => by
    rw [serialize_entries] at h
    cases h
    rfl
  | (key, value) :: rest, self, r, h => by
    rw [serialize_entries] at h
    obtain ⟨self₁, hkey, h⟩ := Except.bind_eq_ok.1 h
    obtain ⟨⟨key', self₂⟩, htake, h⟩ := Except.bind_eq_ok.1 h
    obtain ⟨v, hv, h⟩ := Except.bind_eq_ok.1 h
    obtain ⟨hks, hmap⟩ := SerializeMap.serialize_key_take_key hkey htake
    rw [serialize_entries_lookup k rest _ r h]
    simp only [value_for, hks, Except.toOption, SerializeMap.insert, Object.lookup_insert, hmap]
    cases value_for k rest with
    | some d => rfl
    | none =>
      by_cases hk : k = key'
      · subst hk; simp [hv]
      · simp [hk, Ne.symm hk]

/-- A map serializes to an object that answers each key with the value of the map's last entry
    under it, as the hash map's `insert` lets a later entry replace an earlier one, and that has
    no key no entry gave. -/
theorem to_value_map_lookup {entries : List (Data × Data)} {m : List (String × Value)}
    (h : to_value collect (.map entries) = .ok (.object m)) (k : String) :
    m.lookup k = (value_for k entries).bind fun d => (to_value collect d).toOption := by
  rw [to_value] at h
  obtain ⟨map, hmap, hend⟩ := Except.bind_eq_ok.1 h
  simp only [Serializer.serialize_map, Except.pure_eq_ok, Except.ok.injEq, SerializeMap.end,
    Value.object.injEq] at hend
  subst hend
  rw [serialize_entries_lookup collect k entries _ map hmap]
  cases value_for k entries <;> rfl

/-- Two entries under `a`: the object keeps the second. -/
theorem to_value_map_lookup_last :
    to_value (fun _ => .array []) (.map [(.str "a", .u8 1), (.str "a", .u8 2)]) =
        .ok (.object [("a", .static (.i64 2))]) ∧
      [("a", Value.static (.i64 2))].lookup "a" =
        (value_for "a" [(.str "a", .u8 1), (.str "a", .u8 2)]).bind
          fun d => (to_value (fun _ => .array []) d).toOption :=
  have h : to_value (fun _ => .array []) (.map [(.str "a", .u8 1), (.str "a", .u8 2)]) =
      .ok (.object [("a", .static (.i64 2))]) := rfl
  ⟨h, to_value_map_lookup _ h "a"⟩

/-- A key `MapKeySerializer` accepts comes out of `Serializer` as the same string: an object's
    key reads as what the key's own `Serialize` impl makes of it as a value. -/
theorem to_value_of_key_ok : ∀ {key : Data} {k : String},
    MapKeySerializer.serialize key = .ok k → to_value collect key = .ok (.string k)
  | .newtype_struct inner, _, h => by
    rw [to_value]
    exact to_value_of_key_ok h
  | .str _, _, h | .unit_variant _, _, h => by cases h; rfl
  | .bool _, _, h | .i8 _, _, h | .i16 _, _, h | .i32 _, _, h | .i64 _, _, h | .i128 _, _, h
  | .u8 _, _, h | .u16 _, _, h | .u32 _, _, h | .u64 _, _, h | .u128 _, _, h | .f32 _, _, h
  | .f64 _, _, h | .char _, _, h | .bytes _, _, h | .none, _, h | .some _, _, h | .unit, _, h
  | .unit_struct, _, h | .newtype_variant _ _, _, h | .seq _, _, h | .tuple _, _, h
  | .tuple_struct _, _, h | .tuple_variant _ _, _, h | .map _, _, h | .struct _, _, h
  | .struct_variant _ _, _, h => nomatch h

/-- A unit variant inside a newtype struct is the key `Get`, and serializes to `"Get"`. -/
theorem to_value_of_key_ok_newtype :
    MapKeySerializer.serialize (.newtype_struct (.unit_variant "Get")) = .ok "Get" ∧
      to_value (fun _ => .array []) (.newtype_struct (.unit_variant "Get")) = .ok (.string "Get") :=
  ⟨rfl, to_value_of_key_ok _ rfl⟩

/-- `SerializeSeq::serialize_element` pushes onto the vector it is given: the walker is `mapM`
    of `to_value` after what was already pushed. -/
theorem serialize_elements_eq_mapM : ∀ (acc : List Value) (elements : List Data),
    serialize_elements collect ⟨acc⟩ elements =
      (elements.mapM (to_value collect)).map fun vs => ⟨acc ++ vs⟩
  | acc, [] => by
    rw [serialize_elements, List.mapM_nil]
    simp [Except.map]
  | acc, value :: rest => by
    rw [serialize_elements, List.mapM_cons]
    cases to_value collect value with
    | error e => rfl
    | ok v =>
      simp only [Except.ok_bind, serialize_elements_eq_mapM (acc ++ [v]) rest]
      cases rest.mapM (to_value collect) <;> simp [Except.map]

/-- A sequence serializes its elements in order, stops at the first that fails, and otherwise
    is the array of their values. -/
theorem to_value_seq (elements : List Data) :
    to_value collect (.seq elements) = (elements.mapM (to_value collect)).map .array := by
  rw [to_value, Serializer.serialize_seq, serialize_elements_eq_mapM]
  cases elements.mapM (to_value collect) <;> rfl

/-- `SerializeTupleVariant` keeps its name and pushes as `SerializeSeq` does. -/
theorem serialize_tuple_fields_eq (name : String) : ∀ (acc : List Value) (fields : List Data),
    serialize_tuple_fields collect ⟨name, acc⟩ fields =
      (serialize_elements collect ⟨acc⟩ fields).map fun sv => ⟨name, sv.vec⟩
  | acc, [] => rfl
  | acc, value :: rest => by
    rw [serialize_tuple_fields, serialize_elements]
    cases to_value collect value with
    | error e => rfl
    | ok v => exact serialize_tuple_fields_eq name (acc ++ [v]) rest

/-- `SerializeStructVariant` inserts each field as `SerializeStruct` does, without the trip of
    the field's name through `MapKeySerializer`. -/
theorem serialize_variant_fields_eq (name : String) :
    ∀ (map : List (String × Value)) (fields : List (String × Data)),
      serialize_variant_fields collect ⟨name, map⟩ fields =
        (serialize_fields collect ⟨map, .none⟩ fields).map fun sm => ⟨name, sm.map⟩
  | map, [] => rfl
  | map, (key, value) :: rest => by
    rw [serialize_variant_fields, serialize_fields]
    cases to_value collect value with
    | error e => rfl
    | ok v => exact serialize_variant_fields_eq name (Object.insert map key v) rest

/-- Externally tagged tuple variants: `{variant: [fields...]}`, the one-key object from the
    variant's name to what its fields make as a sequence. -/
theorem to_value_tuple_variant (variant : String) (fields : List Data) :
    to_value collect (.tuple_variant variant fields) =
      to_value collect (.newtype_variant variant (.seq fields)) := by
  rw [to_value, to_value, to_value, Serializer.serialize_tuple_variant, Serializer.serialize_seq,
    serialize_tuple_fields_eq]
  cases serialize_elements collect ⟨[]⟩ fields <;> rfl

/-- Externally tagged struct variants: `{variant: {fields...}}`, the one-key object from the
    variant's name to what its fields make as a struct. -/
theorem to_value_struct_variant (variant : String) (fields : List (String × Data)) :
    to_value collect (.struct_variant variant fields) =
      to_value collect (.newtype_variant variant (.struct fields)) := by
  rw [to_value, to_value, to_value, Serializer.serialize_struct_variant, Serializer.serialize_struct,
    Serializer.serialize_map, serialize_variant_fields_eq]
  cases serialize_fields collect ⟨[], .none⟩ fields <;> rfl

end

end tremor_value
