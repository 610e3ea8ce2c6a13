import Mathlib.Data.List.Nodup

namespace tremor_value

/-- The scalar nodes of a value (`simd_json::StaticNode`) with the `128bit` feature off.
    Integers keep their 64 bits, and an `f64` its IEEE bits. -/
inductive StaticNode where
  | null
  | bool (value : Bool)
  | i64 (value : BitVec 64)
  | u64 (value : BitVec 64)
  | f64 (bits : BitVec 64)
  deriving DecidableEq, Repr

/-- A tremor `Value`. An object is a hash map; it is listed in its iteration order. -/
inductive Value where
  | static (node : StaticNode)
  | string (value : String)
  | array (values : List Value)
  | object (entries : List (String × Value))
  | bytes (value : List UInt8)
  deriving Repr

/-- `Object::insert` of the hash map behind an object: the value under an existing key is
    replaced in place, a new key is added. -/
def Object.insert : List (String × Value) → String → Value → List (String × Value)
  | [], key, value => [(key, value)]
  | (k, v) :: rest, key, value =>
    if k = key then (key, value) :: rest else (k, v) :: Object.insert rest key value

/-- The crate's `Error`, as far as the serializer builds one: `Error::Serde` and what the
    `serde::ser::Error::custom` impl (outside src) makes of a message. -/
inductive Error where
  | Serde (msg : String)
  | custom (msg : String)
  deriving DecidableEq, Repr

mutual
/-- Every object inside the value has pairwise distinct keys, as a hash map has. -/
def Value.keys_unique : Value → Bool
  | .array values => Value.all_keys_unique values
  | .object entries => decide (entries.map Prod.fst).Nodup && Value.entries_keys_unique entries
  | _ => true

def Value.all_keys_unique : List Value → Bool
  | [] => true
  | v :: vs => v.keys_unique && Value.all_keys_unique vs

def Value.entries_keys_unique : List (String × Value) → Bool
  | [] => true
  | (_, v) :: rest => v.keys_unique && Value.entries_keys_unique rest
end

theorem Object.insert_of_not_mem {key : String} {value : Value} :
    ∀ {entries : List (String × Value)}, key ∉ entries.map Prod.fst →
      Object.insert entries key value = entries ++ [(key, value)]
  | [], _ => rfl
  | (k, v) :: rest, hkey => by
    have hne : k ≠ key := fun h => hkey (by simp [h])
    simp only [List.map_cons, List.mem_cons, not_or] at hkey
    simp [Object.insert, hne, Object.insert_of_not_mem hkey.2]

end tremor_value
