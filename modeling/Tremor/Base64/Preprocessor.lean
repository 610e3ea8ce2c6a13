import Tremor.Base64.Engine
import Tremor.Prelude

namespace base64

theorem ofNat_eq_of_toNat {x : UInt8} {n : Nat} (h : n = x.toNat) : UInt8.ofNat n = x :=
  h ▸ UInt8.ofNat_toNat_eq x

/-- Three bytes come back from the values of their four symbols. -/
theorem quad_bytes_encode (a b c : UInt8) :
    quad_bytes (a.toNat / 4) (a.toNat % 4 * 16 + b.toNat / 16) (b.toNat % 16 * 4 + c.toNat / 64)
      (c.toNat % 64) = [a, b, c] := by
  have ha : a.toNat < 256 := a.toNat_lt_size
  have hb : b.toNat < 256 := b.toNat_lt_size
  have hc : c.toNat < 256 := c.toNat_lt_size
  simp only [quad_bytes, List.cons.injEq, and_true]
  refine ⟨ofNat_eq_of_toNat ?_, ofNat_eq_of_toNat ?_, ofNat_eq_of_toNat ?_⟩ <;> omega

/-- One byte comes back from the values of its two symbols. -/
theorem quad_bytes_encode_one (a : UInt8) :
    (quad_bytes (a.toNat / 4) (a.toNat % 4 * 16) 0 0).take 1 = [a] := by
  have ha : a.toNat < 256 := a.toNat_lt_size
  simp only [quad_bytes, List.take_succ_cons, List.take_zero, List.cons.injEq, and_true]
  exact ofNat_eq_of_toNat (by omega)

/-- Two bytes come back from the values of their three symbols. -/
theorem quad_bytes_encode_two (a b : UInt8) :
    (quad_bytes (a.toNat / 4) (a.toNat % 4 * 16 + b.toNat / 16) (b.toNat % 16 * 4) 0).take 2 =
      [a, b] := by
  have ha : a.toNat < 256 := a.toNat_lt_size
  have hb : b.toNat < 256 := b.toNat_lt_size
  simp only [quad_bytes, List.take_succ_cons, List.take_zero, List.cons.injEq, and_true]
  exact ⟨ofNat_eq_of_toNat (by omega), ofNat_eq_of_toNat (by omega)⟩

/-- Three bytes come back from their four symbols. -/
theorem decode_group_encode (offset : Nat) (a b c : UInt8) :
    decode_group offset (encode_symbol (a.toNat / 4))
      (encode_symbol (a.toNat % 4 * 16 + b.toNat / 16))
      (encode_symbol (b.toNat % 16 * 4 + c.toNat / 64)) (encode_symbol (c.toNat % 64)) =
      .ok [a, b, c] := by
  have ha : a.toNat < 256 := a.toNat_lt_size
  have hb : b.toNat < 256 := b.toNat_lt_size
  have hc : c.toNat < 256 := c.toNat_lt_size
  simp only [decode_group, symbol_at_encode_symbol _ (show a.toNat / 4 < 64 by omega),
    symbol_at_encode_symbol _ (show a.toNat % 4 * 16 + b.toNat / 16 < 64 by omega),
    symbol_at_encode_symbol _ (show b.toNat % 16 * 4 + c.toNat / 64 < 64 by omega),
    symbol_at_encode_symbol _ (show c.toNat % 64 < 64 by omega), Except.ok_bind,
    Except.pure_eq_ok, quad_bytes_encode]

/-- The encoding has four symbols for every three bytes or part of three. -/
theorem encode_bytes_length : ∀ input : List UInt8,
    (encode_bytes input).length = 4 * ((input.length + 2) / 3)
  | [] | [_] | [_, _] => by simp [encode_bytes]
  | _ :: _ :: _ :: rest => by
    simp only [encode_bytes, List.length_append, encode_bytes_length rest, List.length_cons,
      List.length_nil]
    omega

/-- Whole groups of three bytes are encoded on their own. -/
theorem encode_bytes_append : ∀ (pre suf : List UInt8), pre.length % 3 = 0 →
    encode_bytes (pre ++ suf) = encode_bytes pre ++ encode_bytes suf
  | [], _, _ => rfl
  | [_], _, h | [_, _], _, h => by simp at h
  | _ :: _ :: _ :: rest, suf, h => by
    simp only [List.cons_append, encode_bytes, List.append_assoc, List.append_eq, List.nil_append,
      encode_bytes_append rest suf (by simp only [List.length_cons] at h; omega)]

/-- The fast loops give back every whole group of three bytes. -/
theorem decode_chunks_encode : ∀ (input : List UInt8) (offset : Nat), input.length % 3 = 0 →
    decode_chunks offset (encode_bytes input) = .ok input
  | [], _, _ => rfl
  | [_], _, h | [_, _], _, h => by simp at h
  | a :: b :: c :: rest, offset, h => by
    simp only [encode_bytes, List.cons_append, List.nil_append, List.append_eq, decode_chunks,
      decode_group_encode, Except.ok_bind,
      decode_chunks_encode rest (offset + 4) (by simp only [List.length_cons] at h; omega),
      Except.pure_eq_ok]

/-- A symbol read before any padding is taken. -/
theorem leftover_loop_symbol {start i n : Nat} {morsels : List Nat} {last_symbol : UInt8}
    {rest : List UInt8} (h : n < 64) :
    leftover_loop start ⟨morsels, last_symbol, none⟩ i (encode_symbol n :: rest) =
      leftover_loop start ⟨morsels ++ [n], encode_symbol n, none⟩ (i + 1) rest := by
  simp only [leftover_loop, leftover_step, encode_symbol_ne_PAD h, if_false,
    decode_encode_symbol h, Except.ok_bind]

/-- Padding third or fourth in its quad is passed over. -/
theorem leftover_loop_PAD {start i : Nat} {st : Leftovers} {rest : List UInt8} (hi : 2 ≤ i % 4) :
    leftover_loop start st i (PAD :: rest) =
      leftover_loop start { st with first_padding_index := some (st.first_padding_index.getD i) }
        (i + 1) rest := by
  simp only [leftover_loop, leftover_step, if_true, if_neg (show ¬i % 4 < 2 by omega),
    Except.ok_bind]

/-- The values of the symbols `base64::encode` writes, before its padding. -/
def encode_values : List UInt8 → List Nat
  | [] => []
  | [a] => [a.toNat / 4, a.toNat % 4 * 16]
  | [a, b] => [a.toNat / 4, a.toNat % 4 * 16 + b.toNat / 16, b.toNat % 16 * 4]
  | a :: b :: c :: rest =>
    [a.toNat / 4, a.toNat % 4 * 16 + b.toNat / 16, b.toNat % 16 * 4 + c.toNat / 64,
      c.toNat % 64] ++ encode_values rest

/-- How many padding bytes `base64::encode` ends with. -/
def encode_padding : List UInt8 → Nat
  | [] => 0
  | [_] => 2
  | [_, _] => 1
  | _ :: _ :: _ :: rest => encode_padding rest

/-- The encoding is its symbols, then its padding; every value fits in six bits, and the
    padding fills the third and fourth, or only the fourth, place of the last quad. -/
theorem encode_bytes_eq : ∀ input : List UInt8,
    encode_bytes input =
        (encode_values input).map encode_symbol ++ List.replicate (encode_padding input) PAD ∧
      (∀ v ∈ encode_values input, v < 64) ∧
      ∀ j < encode_padding input, 2 ≤ ((encode_values input).length + j) % 4
  | [] => ⟨rfl, fun _ h => (nomatch h), fun _ h => (nomatch h)⟩
  | [a] => by
    have ha : a.toNat < 256 := a.toNat_lt_size
    refine ⟨rfl, ?_, fun j hj => ?_⟩
    · simp only [encode_values, List.mem_cons, List.not_mem_nil, or_false]
      rintro v (rfl | rfl) <;> omega
    · simp only [encode_padding] at hj
      simp only [encode_values, List.length_cons, List.length_nil]
      omega
  | [a, b] => by
    have ha : a.toNat < 256 := a.toNat_lt_size
    have hb : b.toNat < 256 := b.toNat_lt_size
    refine ⟨rfl, ?_, fun j hj => ?_⟩
    · simp only [encode_values, List.mem_cons, List.not_mem_nil, or_false]
      rintro v (rfl | rfl | rfl) <;> omega
    · simp only [encode_padding] at hj
      simp only [encode_values, List.length_cons, List.length_nil]
      omega
  | a :: b :: c :: rest => by
    have ha : a.toNat < 256 := a.toNat_lt_size
    have hb : b.toNat < 256 := b.toNat_lt_size
    have hc : c.toNat < 256 := c.toNat_lt_size
    obtain ⟨heq, hlt, hpad⟩ := encode_bytes_eq rest
    refine ⟨?_, ?_, fun j hj => ?_⟩
    · rw [encode_bytes, heq, encode_values, encode_padding]
      simp only [List.cons_append, List.nil_append, List.map_cons, List.append_assoc]
    · simp only [encode_values, List.cons_append, List.nil_append, List.mem_cons]
      rintro v (rfl | rfl | rfl | rfl | hv)
      iterate 4 omega
      exact hlt v hv
    · have := hpad j hj
      simp only [encode_values, List.length_append, List.length_cons, List.length_nil]
      omega

/-- The values of the symbols of an encoding make its bytes again. -/
theorem morsels_bytes_encode : ∀ input : List UInt8,
    morsels_bytes (encode_values input) = some input
  | [] => rfl
  | [a] => by
    rw [encode_values, morsels_bytes, if_pos (Nat.mul_mod_left _ _), quad_bytes_encode_one]
  | [a, b] => by
    rw [encode_values, morsels_bytes, if_pos (Nat.mul_mod_left _ _), quad_bytes_encode_two]
  | a :: b :: c :: rest => by
    rw [encode_values, List.cons_append, List.cons_append, List.cons_append, List.cons_append,
      List.nil_append, morsels_bytes, morsels_bytes_encode rest, quad_bytes_encode]
    rfl

/-- Symbols read before any padding are taken in order. -/
theorem leftover_loop_symbols (start : Nat) (rest : List UInt8) :
    ∀ (values morsels : List Nat) (last_symbol : UInt8) (i : Nat), (∀ v ∈ values, v < 64) →
      ∃ last_symbol', leftover_loop start ⟨morsels, last_symbol, none⟩ i
          (values.map encode_symbol ++ rest) =
        leftover_loop start ⟨morsels ++ values, last_symbol', none⟩ (i + values.length) rest
  | [], morsels, last_symbol, i, _ => ⟨last_symbol, by rw [List.append_nil]; rfl⟩
  | v :: values, morsels, last_symbol, i, h => by
    obtain ⟨last_symbol', hloop⟩ := leftover_loop_symbols start rest values (morsels ++ [v])
      (encode_symbol v) (i + 1) fun w hw => h w (List.mem_cons_of_mem _ hw)
    refine ⟨last_symbol', ?_⟩
    rw [List.map_cons, List.cons_append, leftover_loop_symbol (h v (List.mem_cons_self _ _)),
      hloop, List.append_assoc, List.singleton_append, List.length_cons, Nat.add_assoc,
      Nat.add_comm 1]

/-- Padding that stands third or fourth in its quad is passed over to the end. -/
theorem leftover_loop_pads (start : Nat) :
    ∀ (p : Nat) (st : Leftovers) (i : Nat), (∀ j < p, 2 ≤ (i + j) % 4) →
      ∃ first_padding_index, leftover_loop start st i (List.replicate p PAD) =
        .ok { st with first_padding_index }
  | 0, st, _, _ => ⟨st.first_padding_index, rfl⟩
  | p + 1, st, i, h => by
    obtain ⟨first_padding_index, hloop⟩ := leftover_loop_pads start p _ (i + 1)
      fun j hj => by rw [Nat.add_assoc, Nat.add_comm 1]; exact h (j + 1) (by omega)
    refine ⟨first_padding_index, ?_⟩
    rw [List.replicate_succ, leftover_loop_PAD (by simpa using h 0 (Nat.succ_pos p)), hloop]

/-- The leftover loop gives back every encoding, padded or not. -/
theorem leftover_encode (start : Nat) (input : List UInt8) :
    ∃ st, leftover_loop start ⟨[], 0, none⟩ 0 (encode_bytes input) = .ok st ∧
      leftovers_finish start st = .ok input := by
  obtain ⟨heq, hlt, hpad⟩ := encode_bytes_eq input
  obtain ⟨last_symbol, hsyms⟩ := leftover_loop_symbols start _ _ [] 0 0 hlt
  rw [List.nil_append, Nat.zero_add] at hsyms
  obtain ⟨first_padding_index, hpads⟩ := leftover_loop_pads start _
    ⟨encode_values input, last_symbol, none⟩ _ hpad
  refine ⟨⟨encode_values input, last_symbol, first_padding_index⟩,
    by rw [heq, hsyms, hpads], ?_⟩
  simp only [leftovers_finish, morsels_bytes_encode]

/-- `base64::decode` gives back every byte string `base64::encode` got: the fast loops take
    the whole groups before the last chunk, and the leftover loop the one or two groups
    after. -/
theorem decode_encode_bytes (input : List UInt8) : decode (encode_bytes input) = .ok input := by
  have hlen := encode_bytes_length input
  have hcheck : check_length (encode_bytes input) = .ok () := by
    rw [check_length, if_neg (by omega)]
  obtain ⟨m, hm⟩ : ∃ m, m = start_of_leftovers (encode_bytes input).length / 4 * 3 := ⟨_, rfl⟩
  rw [start_of_leftovers, hlen] at hm
  have hle : m ≤ input.length := by omega
  have hstart : start_of_leftovers (encode_bytes input).length =
      (encode_bytes (input.take m)).length := by
    rw [encode_bytes_length (input.take m), List.length_take_of_le hle, start_of_leftovers, hlen]
    omega
  have hwhole : (input.take m).length % 3 = 0 := by
    rw [List.length_take_of_le hle]
    omega
  obtain ⟨st, hloop, hfinish⟩ := leftover_encode (encode_bytes (input.take m)).length
    (input.drop m)
  have hsplit :
      encode_bytes input = encode_bytes (input.take m) ++ encode_bytes (input.drop m) := by
    rw [← encode_bytes_append _ _ hwhole, List.take_append_drop]
  simp only [decode, hcheck, Except.ok_bind, hstart]
  rw [hsplit, List.take_left, List.drop_left, decode_chunks_encode _ 0 hwhole, Except.ok_bind,
    hloop, Except.ok_bind, hfinish, Except.ok_bind, Except.pure_eq_ok, List.take_append_drop]

end base64

namespace tremor_runtime.preprocessor

/-- `Base64::process`: the input decoded, as one chunk. -/
def Base64.process (data : List UInt8) : Except base64.DecodeError (List (List UInt8)) := do
  let decoded ← base64.decode data
  pure [decoded]

/-- The preprocessor gives back, as one chunk, every byte string `base64::encode` got. -/
theorem Base64.process_encode (input : List UInt8) :
    Base64.process (base64.encode_bytes input) = .ok [input] := by
  rw [Base64.process, base64.decode_encode_bytes, Except.ok_bind, Except.pure_eq_ok]

end tremor_runtime.preprocessor
