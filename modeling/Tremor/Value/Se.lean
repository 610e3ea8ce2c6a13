import Tremor.Value.Basic
import Tremor.Prelude

namespace tremor_value

/-- serde's data model: the calls a `Serialize` impl makes on a serializer, as a tree.
    Length hints, type names and variant indices are left out, since no serializer here
    reads them. An `f32` is given by the bits of its exact widening `f64::from`, the value
    `serialize_f32` passes on. -/
inductive Data where
  | bool (v : Bool)
  | i8 (v : BitVec 8)
  | i16 (v : BitVec 16)
  | i32 (v : BitVec 32)
  | i64 (v : BitVec 64)
  | i128 (v : BitVec 128)
  | u8 (v : BitVec 8)
  | u16 (v : BitVec 16)
  | u32 (v : BitVec 32)
  | u64 (v : BitVec 64)
  | u128 (v : BitVec 128)
  | f32 (widened : BitVec 64)
  | f64 (v : BitVec 64)
  | char (v : Char)
  | str (v : String)
  | bytes (v : List UInt8)
  | none
  | some (value : Data)
  | unit
  | unit_struct
  | unit_variant (variant : String)
  | newtype_struct (value : Data)
  | newtype_variant (variant : String) (value : Data)
  | seq (elements : List Data)
  | tuple (elements : List Data)
  | tuple_struct (fields : List Data)
  | tuple_variant (variant : String) (fields : List Data)
  | map (entries : List (Data × Data))
  | struct (fields : List (String × Data))
  | struct_variant (variant : String) (fields : List (String × Data))
  deriving Repr

mutual
/-- `impl Serialize for Value`: the calls it makes on a serializer. An object's keys go
    through `serialize_entry` as `&str`. -/
def Value.serialize : Value → Data
  | .static .null => .unit
  | .static (.bool b) => .bool b
  | .static (.f64 f) => .f64 f
  | .static (.u64 i) => .u64 i
  | .static (.i64 i) => .i64 i
  | .string s => .str s
  | .array values => .seq (Value.serialize_elements values)
  | .object entries => .map (Value.serialize_entries entries)
  | .bytes b => .bytes b

def Value.serialize_elements : List Value → List Data
  | [] => []
  | v :: rest => v.serialize :: Value.serialize_elements rest

def Value.serialize_entries : List (String × Value) → List (Data × Data)
  | [] => []
  | (k, v) :: rest => (.str k, v.serialize) :: Value.serialize_entries rest
end

/-- How a call into a serializer ends when it does not return `Ok`: with an `Err`, or with a
    panic of an `expect`. -/
inductive Fault where
  | error (e : Error)
  | panic (msg : String)
  deriving DecidableEq, Repr

/-- serde's default `serialize_i128`, which `Serializer` keeps with `arbitrary_precision` off. -/
def i128_not_supported : Fault := .error (.custom "i128 is not supported")

/-- serde's default `serialize_u128`. -/
def u128_not_supported : Fault := .error (.custom "u128 is not supported")

section
variable (collect : List UInt8 → Value)

namespace Serializer

@[simp] def serialize_bool (value : Bool) : Except Fault Value := .ok (.static (.bool value))

@[simp] def serialize_i64 (value : BitVec 64) : Except Fault Value := .ok (.static (.i64 value))

@[simp] def serialize_i8 (value : BitVec 8) := serialize_i64 (value.signExtend 64)

@[simp] def serialize_i16 (value : BitVec 16) := serialize_i64 (value.signExtend 64)

@[simp] def serialize_i32 (value : BitVec 32) := serialize_i64 (value.signExtend 64)

/-- `value as i64` keeps the 64 bits and reads them as two's complement. -/
@[simp] def serialize_u64 (value : BitVec 64) : Except Fault Value := .ok (.static (.i64 value))

@[simp] def serialize_u8 (value : BitVec 8) := serialize_u64 (value.zeroExtend 64)

@[simp] def serialize_u16 (value : BitVec 16) := serialize_u64 (value.zeroExtend 64)

@[simp] def serialize_u32 (value : BitVec 32) := serialize_u64 (value.zeroExtend 64)

@[simp] def serialize_f64 (value : BitVec 64) : Except Fault Value := .ok (.static (.f64 value))

@[simp] def serialize_f32 (widened : BitVec 64) := serialize_f64 widened

@[simp] def serialize_str (value : String) : Except Fault Value := .ok (.string value)

@[simp] def serialize_char (value : Char) := serialize_str ("".push value)

/-- `value.iter().cloned().collect()`: the `FromIterator` impl of `Value` is outside src, so
    what it builds from the bytes is the parameter `collect`. -/
@[simp] def serialize_bytes (value : List UInt8) : Except Fault Value := .ok (collect value)

@[simp] def serialize_unit : Except Fault Value := .ok (.static .null)

@[simp] def serialize_unit_struct := serialize_unit

@[simp] def serialize_unit_variant (variant : String) := serialize_str variant

@[simp] def serialize_none := serialize_unit

end Serializer

end

structure SerializeVec where
  vec : List Value

structure SerializeTupleVariant where
  name : String
  vec : List Value

/-- `SerializeMap::Map`, the only variant with `arbitrary_precision` and `raw_value` off. -/
structure SerializeMap where
  map : List (String × Value)
  next_key : Option String

structure SerializeStructVariant where
  name : String
  map : List (String × Value)

namespace Serializer

@[simp] def serialize_seq : SerializeVec := ⟨[]⟩

@[simp] def serialize_tuple := serialize_seq

@[simp] def serialize_tuple_struct := serialize_seq

@[simp] def serialize_tuple_variant (variant : String) : SerializeTupleVariant := ⟨variant, []⟩

@[simp] def serialize_map : SerializeMap := ⟨[], .none⟩

@[simp] def serialize_struct := serialize_map

@[simp] def serialize_struct_variant (variant : String) : SerializeStructVariant := ⟨variant, []⟩

end Serializer

def key_must_be_a_string : Error := .Serde "Key must be a String."

/-- `MapKeySerializer`: a key is a string, a unit variant's name, or a newtype struct around
    such a key; every other method returns `key_must_be_a_string` (compound ones before
    looking at their contents), and the 128-bit ones keep serde's defaults. -/
def MapKeySerializer.serialize : Data → Except Fault String
  | .str value => .ok value
  | .unit_variant variant => .ok variant
  | .newtype_struct value => MapKeySerializer.serialize value
  | .i128 _ => .error i128_not_supported
  | .u128 _ => .error u128_not_supported
  | _ => .error (.error key_must_be_a_string)

/-- `SerializeMap::serialize_key`: `*next_key = Some(stry!(key.serialize(MapKeySerializer)))`. -/
def SerializeMap.serialize_key (self : SerializeMap) (key : Data) : Except Fault SerializeMap := do
  let key ← MapKeySerializer.serialize key
  pure { self with next_key := .some key }

/-- The part of `SerializeMap::serialize_value` before its `to_value`: `next_key.take()` and
    the `expect` on it. -/
def SerializeMap.take_key (self : SerializeMap) : Except Fault (String × SerializeMap) :=
  match self.next_key with
  | .none => .error (.panic "serialize_value called before serialize_key")
  | .some key => .ok (key, { self with next_key := .none })

@[simp] def SerializeMap.insert (self : SerializeMap) (key : String) (value : Value) : SerializeMap :=
  { self with map := Object.insert self.map key value }

@[simp] def SerializeVec.end (self : SerializeVec) : Value := .array self.vec

@[simp] def SerializeTupleVariant.end (self : SerializeTupleVariant) : Value :=
  .object (Object.insert [] self.name (.array self.vec))

@[simp] def SerializeMap.end (self : SerializeMap) : Value := .object self.map

@[simp] def SerializeStructVariant.end (self : SerializeStructVariant) : Value :=
  .object (Object.insert [] self.name (.object self.map))

section
variable (collect : List UInt8 → Value)

mutual
/-- `to_value`: drive `Serializer` with the calls of a `Serialize` impl. Each compound
    serializer runs `to_value` on its parts and stops at the first `Err` (`stry!`). -/
def to_value : Data → Except Fault Value
  | .bool v => Serializer.serialize_bool v
  | .i8 v => Serializer.serialize_i8 v
  | .i16 v => Serializer.serialize_i16 v
  | .i32 v => Serializer.serialize_i32 v
  | .i64 v => Serializer.serialize_i64 v
  | .i128 _ => .error i128_not_supported
  | .u8 v => Serializer.serialize_u8 v
  | .u16 v => Serializer.serialize_u16 v
  | .u32 v => Serializer.serialize_u32 v
  | .u64 v => Serializer.serialize_u64 v
  | .u128 _ => .error u128_not_supported
  | .f32 v => Serializer.serialize_f32 v
  | .f64 v => Serializer.serialize_f64 v
  | .char v => Serializer.serialize_char v
  | .str v => Serializer.serialize_str v
  | .bytes v => Serializer.serialize_bytes collect v
  | .none => Serializer.serialize_none
  | .some value => to_value value
  | .unit => Serializer.serialize_unit
  | .unit_struct => Serializer.serialize_unit_struct
  | .unit_variant variant => Serializer.serialize_unit_variant variant
  | .newtype_struct value => to_value value
  | .newtype_variant variant value => do
    let v ← to_value value
    pure (.object (Object.insert [] variant v))
  | .seq elements => do
    let seq ← serialize_elements Serializer.serialize_seq elements
    pure seq.end
  | .tuple elements => do
    let seq ← serialize_elements Serializer.serialize_tuple elements
    pure seq.end
  | .tuple_struct fields => do
    let seq ← serialize_elements Serializer.serialize_tuple_struct fields
    pure seq.end
  | .tuple_variant variant fields => do
    let tv ← serialize_tuple_fields (Serializer.serialize_tuple_variant variant) fields
    pure tv.end
  | .map entries => do
    let map ← serialize_entries Serializer.serialize_map entries
    pure map.end
  | .struct fields => do
    let map ← serialize_fields Serializer.serialize_struct fields
    pure map.end
  | .struct_variant variant fields => do
    let sv ← serialize_variant_fields (Serializer.serialize_struct_variant variant) fields
    pure sv.end

/-- `SerializeSeq::serialize_element` over the elements: `vec.push(stry!(to_value(&value)))`. -/
def serialize_elements : SerializeVec → List Data → Except Fault SerializeVec
  | self, [] => .ok self
  | self, value :: rest => do
    let v ← to_value value
    serialize_elements ⟨self.vec ++ [v]⟩ rest

/-- `SerializeTupleVariant::serialize_field` over the fields. -/
def serialize_tuple_fields : SerializeTupleVariant → List Data → Except Fault SerializeTupleVariant
  | self, [] => .ok self
  | self, value :: rest => do
    let v ← to_value value
    serialize_tuple_fields { self with vec := self.vec ++ [v] } rest

/-- serde's default `serialize_entry` over the entries: `serialize_key`, then
    `serialize_value`. -/
def serialize_entries : SerializeMap → List (Data × Data) → Except Fault SerializeMap
  | self, [] => .ok self
  | self, (key, value) :: rest => do
    let self ← self.serialize_key key
    let (key, self) ← self.take_key
    let v ← to_value value
    serialize_entries (self.insert key v) rest

/-- `SerializeStruct::serialize_field`: `serialize_key` with the field's name, then
    `serialize_value`. -/
def serialize_fields : SerializeMap → List (String × Data) → Except Fault SerializeMap
  | self, [] => .ok self
  | self, (key, value) :: rest => do
    let self ← self.serialize_key (.str key)
    let (key, self) ← self.take_key
    let v ← to_value value
    serialize_fields (self.insert key v) rest

/-- `SerializeStructVariant::serialize_field`: `map.insert(key, stry!(to_value(&value)))`. -/
def serialize_variant_fields :
    SerializeStructVariant → List (String × Data) → Except Fault SerializeStructVariant
  | self, [] => .ok self
  | self, (key, value) :: rest => do
    let v ← to_value value
    serialize_variant_fields { self with map := Object.insert self.map key v } rest
end

end

end tremor_value
