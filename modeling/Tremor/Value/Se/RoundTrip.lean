import Tremor.Value.Se

namespace tremor_value

section
variable (collect : List UInt8 → Value)

mutual
/-- What `to_value` makes of a value's own `Serialize` calls: every node as it was, except a
    `U64`, which comes back as the `I64` of the same bits (`value as i64`), and bytes, which
    come back as whatever `collect` builds of them. -/
def Value.as_serialized : Value → Value
  | .static (.u64 i) => .static (.i64 i)
  | .static node => .static node
  | .string s => .string s
  | .array values => .array (Value.all_as_serialized values)
  | .object entries => .object (Value.entries_as_serialized entries)
  | .bytes b => collect b

def Value.all_as_serialized : List Value → List Value
  | [] => []
  | v :: vs => v.as_serialized :: Value.all_as_serialized vs

def Value.entries_as_serialized : List (String × Value) → List (String × Value)
  | [] => []
  | (k, v) :: rest => (k, v.as_serialized) :: Value.entries_as_serialized rest
end

mutual
/-- A value whose objects have distinct keys, as hash maps do, comes back from `to_value` as
    `as_serialized` says. -/
theorem to_value_serialize : ∀ v : Value, v.keys_unique = true →
    to_value collect v.serialize = .ok (v.as_serialized collect)
  | .static .null, _ | .static (.bool _), _ | .static (.i64 _), _ | .static (.u64 _), _
  | .static (.f64 _), _ | .string _, _ | .bytes _, _ => rfl
  | .array values, h => by
    have hvs := serialize_elements_serialize values [] (by simpa [Value.keys_unique] using h)
    simp only [Value.serialize, to_value, Serializer.serialize_seq, hvs, Except.ok_bind,
      Except.pure_eq_ok, SerializeVec.end, List.nil_append, Value.as_serialized]
  | .object entries, h => by
    simp only [Value.keys_unique, Bool.and_eq_true, decide_eq_true_eq] at h
    have hes := serialize_entries_serialize entries [] h.1 (by simp) h.2
    simp only [Value.serialize, to_value, Serializer.serialize_map, hes, Except.ok_bind,
      Except.pure_eq_ok, SerializeMap.end, List.nil_append, Value.as_serialized]

theorem serialize_elements_serialize : ∀ (values acc : List Value),
    Value.all_keys_unique values = true →
    serialize_elements collect ⟨acc⟩ (Value.serialize_elements values) =
      .ok ⟨acc ++ Value.all_as_serialized collect values⟩
  | [], acc, _ => by simp [Value.serialize_elements, serialize_elements, Value.all_as_serialized]
  | v :: vs, acc, h => by
    simp only [Value.all_keys_unique, Bool.and_eq_true] at h
    simp only [Value.serialize_elements, serialize_elements, to_value_serialize v h.1,
      Except.ok_bind, serialize_elements_serialize vs _ h.2, Value.all_as_serialized,
      List.append_assoc, List.singleton_append]

theorem serialize_entries_serialize : ∀ (entries acc : List (String × Value)),
    (entries.map Prod.fst).Nodup → (∀ k ∈ entries.map Prod.fst, k ∉ acc.map Prod.fst) →
    Value.entries_keys_unique entries = true →
    serialize_entries collect ⟨acc, .none⟩ (Value.serialize_entries entries) =
      .ok ⟨acc ++ Value.entries_as_serialized collect entries, .none⟩
  | [], acc, _, _, _ => by
    simp [Value.serialize_entries, serialize_entries, Value.entries_as_serialized]
  | (k, v) :: rest, acc, hnodup, hfresh, h => by
    simp only [Value.entries_keys_unique, Bool.and_eq_true] at h
    simp only [List.map_cons, List.nodup_cons] at hnodup
    have hk : k ∉ acc.map Prod.fst := hfresh k (List.mem_cons_self _ _)
    have hrest : ∀ k' ∈ rest.map Prod.fst, k' ∉ (acc ++ [(k, v.as_serialized collect)]).map Prod.fst := by
      intro k' hk'
      simp only [List.map_append, List.map_cons, List.map_nil, List.mem_append, List.mem_singleton,
        not_or]
      exact ⟨hfresh k' (List.mem_cons_of_mem _ hk'), fun heq => hnodup.1 (heq ▸ hk')⟩
    simp only [Value.serialize_entries, serialize_entries, SerializeMap.serialize_key,
      MapKeySerializer.serialize, SerializeMap.take_key, Except.ok_bind, Except.pure_eq_ok,
      to_value_serialize v h.1, SerializeMap.insert, Object.insert_of_not_mem hk,
      serialize_entries_serialize rest _ hnodup.2 hrest h.2, Value.entries_as_serialized,
      List.append_assoc, List.singleton_append]
end

end

/-- An array with one `U64` node per byte: the `collect` the concrete cases below use (the
    impl it stands for is outside src). -/
def collect_u64 (b : List UInt8) : Value := .array (b.map fun x => .static (.u64 (BitVec.ofNat 64 x.toNat)))

theorem to_value_serialize_object :
    (Value.object [("n", .static (.u64 5)), ("s", .string "x")]).keys_unique = true ∧
    to_value collect_u64 (Value.serialize (.object [("n", .static (.u64 5)), ("s", .string "x")])) =
      .ok (.object [("n", .static (.i64 5)), ("s", .string "x")]) :=
  ⟨by decide, to_value_serialize _ _ (by decide)⟩

/-- A `U64` above `i64::MAX` does not come back as the integer it was: `as i64` reads the bits
    of `2^63` as a negative number. -/
theorem to_value_u64_wraps :
    to_value collect_u64 (Value.serialize (.static (.u64 (BitVec.ofNat 64 9223372036854775808)))) =
      .ok (.static (.i64 (BitVec.ofNat 64 9223372036854775808))) ∧
    (BitVec.ofNat 64 9223372036854775808).toInt ≠
      ((BitVec.ofNat 64 9223372036854775808).toNat : Int) :=
  ⟨rfl, by decide⟩

end tremor_value
