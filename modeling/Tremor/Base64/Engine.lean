import Tremor.Prelude

namespace base64

/-- The `STANDARD` alphabet's symbol for a 6-bit value: `A`-`Z`, `a`-`z`, `0`-`9`, `+`, `/`. -/
def encode_symbol (n : Nat) : UInt8 :=
  if n < 26 then UInt8.ofNat (n + 65)
  else if n < 52 then UInt8.ofNat (n + 71)
  else if n < 62 then UInt8.ofNat (n - 4)
  else if n = 62 then 43
  else 47

/-- `=`, the padding of the `STANDARD` config. -/
def PAD : UInt8 := 61

/-- The value of a symbol of the `STANDARD` alphabet, and `none` for any other byte. -/
def decode_symbol (b : UInt8) : Option Nat :=
  if 65 ≤ b.toNat ∧ b.toNat < 91 then some (b.toNat - 65)
  else if 97 ≤ b.toNat ∧ b.toNat < 123 then some (b.toNat - 71)
  else if 48 ≤ b.toNat ∧ b.toNat < 58 then some (b.toNat + 4)
  else if b.toNat = 43 then some 62
  else if b.toNat = 47 then some 63
  else none

/-- The symbols of `base64::encode` with the `STANDARD` config: three bytes make four
    symbols of six bits each, and a last group of one or two bytes is padded to four. -/
def encode_bytes : List UInt8 → List UInt8
  | [] => []
  | [a] => [encode_symbol (a.toNat / 4), encode_symbol (a.toNat % 4 * 16), PAD, PAD]
  | [a, b] =>
    [encode_symbol (a.toNat / 4), encode_symbol (a.toNat % 4 * 16 + b.toNat / 16),
      encode_symbol (b.toNat % 16 * 4), PAD]
  | a :: b :: c :: rest =>
    [encode_symbol (a.toNat / 4), encode_symbol (a.toNat % 4 * 16 + b.toNat / 16),
      encode_symbol (b.toNat % 16 * 4 + c.toNat / 64), encode_symbol (c.toNat % 64)] ++
      encode_bytes rest

/-- `base64::encode`: the symbols as a `String`. -/
def encode (input : List UInt8) : String :=
  ⟨(encode_bytes input).map fun b => Char.ofNat b.toNat⟩

/-- `base64::encode_config_buf(input, STANDARD, buf)`: the encoding appended to `buf`. -/
def encode_config_buf (input : List UInt8) (buf : String) : String := buf ++ encode input

/-- `base64::DecodeError`. -/
inductive DecodeError where
  | InvalidByte (offset : Nat) (byte : UInt8)
  | InvalidLength
  | InvalidLastSymbol (offset : Nat) (byte : UInt8)
  deriving DecidableEq, Repr

/-- The value of the symbol at `offset`, or the error naming it. -/
def symbol_at (offset : Nat) (b : UInt8) : Except DecodeError Nat :=
  match decode_symbol b with
  | some n => .ok n
  | none => .error (.InvalidByte offset b)

/-- Four symbol values make three bytes, six bits from each value. -/
def quad_bytes (a b c d : Nat) : List UInt8 :=
  [UInt8.ofNat (a * 4 + b / 16), UInt8.ofNat (b % 16 * 16 + c / 4), UInt8.ofNat (c % 4 * 64 + d)]

/-- Four symbols make three bytes; padding is not a symbol. -/
def decode_group (offset : Nat) (a b c d : UInt8) : Except DecodeError (List UInt8) := do
  let sa ← symbol_at offset a
  let sb ← symbol_at (offset + 1) b
  let sc ← symbol_at (offset + 2) c
  let sd ← symbol_at (offset + 3) d
  pure (quad_bytes sa sb sc sd)

/-- `decode_helper`'s length check: `4k + 1` bytes cannot be decoded, and the last byte is
    named when it is neither padding nor a symbol, as trailing whitespace is common. -/
def check_length (input : List UInt8) : Except DecodeError Unit :=
  if input.length % 4 = 1 then
    match input.getLast? with
    | some b =>
      if b ≠ PAD ∧ decode_symbol b = none then .error (.InvalidByte (input.length - 1) b)
      else .error .InvalidLength
    | none => .error .InvalidLength
  else .ok ()

/-- Where the last chunk of eight input bytes starts: the fast loops decode every chunk before
    it, and the leftover loop the last one. -/
def start_of_leftovers (len : Nat) : Nat := (len - 1) / 8 * 8

/-- The fast loops over the chunks before the last: every byte must be a symbol. -/
def decode_chunks : Nat → List UInt8 → Except DecodeError (List UInt8)
  | offset, a :: b :: c :: d :: rest => do
    let group ← decode_group offset a b c d
    let tail ← decode_chunks (offset + 4) rest
    pure (group ++ tail)
  | _, _ => .ok []

/-- The leftover loop's state: the values of the symbols read (`leftover_bits` and
    `morsels_in_leftover`), the last symbol, and where the first padding byte stood once one has
    been read (`padding_bytes > 0`). -/
structure Leftovers where
  morsels : List Nat
  last_symbol : UInt8
  first_padding_index : Option Nat

/-- One byte of the last chunk, at index `i` of it: padding may only stand third or fourth in a
    quad, and only padding may follow it. -/
def leftover_step (start : Nat) (st : Leftovers) (i : Nat) (b : UInt8) :
    Except DecodeError Leftovers :=
  if b = PAD then
    if i % 4 < 2 then .error (.InvalidByte (start + st.first_padding_index.getD i) b)
    else .ok { st with first_padding_index := some (st.first_padding_index.getD i) }
  else
    match st.first_padding_index with
    | some first_padding_index => .error (.InvalidByte (start + first_padding_index) PAD)
    | none =>
      match decode_symbol b with
      | some morsel => .ok { st with morsels := st.morsels ++ [morsel], last_symbol := b }
      | none => .error (.InvalidByte (start + i) b)

/-- The leftover loop over the last chunk, from its index `i` on. -/
def leftover_loop (start : Nat) : Leftovers → Nat → List UInt8 → Except DecodeError Leftovers
  | st, _, [] => .ok st
  | st, i, b :: rest => do
    let st ← leftover_step start st i b
    leftover_loop start st (i + 1) rest

/-- The bytes of the leftover symbols: four make three, and a last two or three make one or
    two, provided the last symbol sets no bit past the last whole byte (`STANDARD` does not
    allow trailing bits). A single one left over, which the loop never leaves
    (`leftover_loop_morsels_length`), is the source's `unreachable!`. -/
def morsels_bytes : List Nat → Option (List UInt8)
  | [] => some []
  | [a, b] => if b % 16 = 0 then some ((quad_bytes a b 0 0).take 1) else none
  | [a, b, c] => if c % 4 = 0 then some ((quad_bytes a b c 0).take 2) else none
  | a :: b :: c :: d :: rest => (morsels_bytes rest).map (quad_bytes a b c d ++ ·)
  | [_] => none

/-- The output of the leftover loop, or the error naming its last symbol. -/
def leftovers_finish (start : Nat) (st : Leftovers) : Except DecodeError (List UInt8) :=
  match morsels_bytes st.morsels with
  | some bytes => .ok bytes
  | none => .error (.InvalidLastSymbol (start + st.morsels.length - 1) st.last_symbol)

/-- `base64::decode` with the `STANDARD` config (`decode_helper` of base64 0.13). Padding is
    optional; where it stands it ends the input and fills the third or fourth place of a quad.
    The fast loops take every chunk of eight bytes but the last, where any byte that is not a
    symbol is reported, and the leftover loop takes the last chunk. -/
def decode (input : List UInt8) : Except DecodeError (List UInt8) := do
  check_length input
  let start := start_of_leftovers input.length
  let head ← decode_chunks 0 (input.take start)
  let st ← leftover_loop start ⟨[], 0, none⟩ 0 (input.drop start)
  let tail ← leftovers_finish start st
  pure (head ++ tail)

/-- `"YQ"` decodes unpadded, `"YQ="` with one padding byte, and in `"YWJj\n"` the line feed is
    named. -/
example : decode [89, 81] = .ok [97] := rfl
example : decode [89, 81, 61] = .ok [97] := rfl
example : decode [89, 87, 74, 106, 10] = .error (.InvalidByte 4 10) := rfl

/-- One step of the leftover loop keeps the count of symbols at the index of the first padding
    byte, if one has been read, and that byte third or fourth in its quad. -/
theorem leftover_step_morsels {start i : Nat} {st st₁ : Leftovers} {b : UInt8}
    (hlen : st.morsels.length = st.first_padding_index.getD i)
    (hpad : ∀ f, st.first_padding_index = some f → 2 ≤ f % 4)
    (h : leftover_step start st i b = .ok st₁) :
    st₁.morsels.length = st₁.first_padding_index.getD (i + 1) ∧
      ∀ f, st₁.first_padding_index = some f → 2 ≤ f % 4 := by
  unfold leftover_step at h
  by_cases hb : b = PAD
  · by_cases hi : i % 4 < 2
    · rw [if_pos hb, if_pos hi] at h
      cases h
    · rw [if_pos hb, if_neg hi] at h
      cases h
      refine ⟨hlen, fun f hf => ?_⟩
      cases hfp : st.first_padding_index with
      | none => simp only [hfp, Option.getD_none, Option.some.injEq] at hf; omega
      | some f' =>
        simp only [hfp, Option.getD_some, Option.some.injEq] at hf
        exact hf ▸ hpad f' hfp
  · rw [if_neg hb] at h
    cases hfp : st.first_padding_index with
    | some f => rw [hfp] at h; cases h
    | none =>
      rw [hfp] at h hlen
      cases hsym : decode_symbol b with
      | none => rw [hsym] at h; cases h
      | some morsel =>
        rw [hsym] at h
        cases h
        simp only [List.length_append, List.length_singleton, hfp, Option.getD_none]
        exact ⟨by rw [hlen, Option.getD_none], fun _ hf => (nomatch hf)⟩

/-- The loop leaves as many symbols as bytes came before the first padding byte, and that
    padding byte stood third or fourth in its quad. -/
theorem leftover_loop_morsels (start : Nat) :
    ∀ (bytes : List UInt8) (st st' : Leftovers) (i : Nat),
      st.morsels.length = st.first_padding_index.getD i →
      (∀ f, st.first_padding_index = some f → 2 ≤ f % 4) →
      leftover_loop start st i bytes = .ok st' →
      st'.morsels.length = st'.first_padding_index.getD (i + bytes.length) ∧
        ∀ f, st'.first_padding_index = some f → 2 ≤ f % 4
  | [], st, st', i, hlen, hpad, h => by
    cases h
    exact ⟨hlen, hpad⟩
  | b :: rest, st, st', i, hlen, hpad, h => by
    rw [leftover_loop] at h
    cases hstep : leftover_step start st i b with
    | error e => rw [hstep] at h; cases h
    | ok st₁ =>
      rw [hstep, Except.ok_bind] at h
      obtain ⟨hlen₁, hpad₁⟩ := leftover_step_morsels hlen hpad hstep
      rw [List.length_cons, ← Nat.add_assoc, Nat.add_right_comm]
      exact leftover_loop_morsels start rest st₁ st' (i + 1) hlen₁ hpad₁ h

/-- Once the length check has passed, the leftover loop never leaves a single symbol after its
    quads: the `unreachable!` of `decode_helper` is not reached. -/
theorem leftover_loop_morsels_length {input : List UInt8} {st : Leftovers}
    (hcheck : check_length input = .ok ())
    (h : leftover_loop (start_of_leftovers input.length) ⟨[], 0, none⟩ 0
      (input.drop (start_of_leftovers input.length)) = .ok st) :
    st.morsels.length % 4 ≠ 1 := by
  have hmod : input.length % 4 ≠ 1 := fun h1 => by
    rw [check_length, if_pos h1] at hcheck
    split at hcheck <;> (try split at hcheck) <;> cases hcheck
  obtain ⟨hlen, hpad⟩ := leftover_loop_morsels _ _ ⟨[], 0, none⟩ st 0 rfl (fun _ h => (nomatch h)) h
  cases hf : st.first_padding_index with
  | none =>
    rw [hf, Option.getD_none, List.length_drop, start_of_leftovers] at hlen
    omega
  | some f =>
    have := hpad f hf
    rw [hf, Option.getD_some] at hlen
    omega

/-- Each symbol decodes to the value it encodes. -/
theorem decode_encode_symbol {n : Nat} (h : n < 64) :
    decode_symbol (encode_symbol n) = some n := by
  unfold encode_symbol
  split_ifs with h1 h2 h3 h4
  · rw [decode_symbol, UInt8.toNat_ofNat_of_lt (by show _ < 256; omega), if_pos (by omega)]
    simp
  · rw [decode_symbol, UInt8.toNat_ofNat_of_lt (by show _ < 256; omega), if_neg (by omega), if_pos (by omega)]
    simp
  · rw [decode_symbol, UInt8.toNat_ofNat_of_lt (by show _ < 256; omega), if_neg (by omega), if_neg (by omega),
      if_pos (by omega)]
    simp
    omega
  · subst h4
    rfl
  · obtain rfl : n = 63 := by omega
    rfl

theorem symbol_at_encode_symbol (offset : Nat) {n : Nat} (h : n < 64) :
    symbol_at offset (encode_symbol n) = .ok n := by
  simp [symbol_at, decode_encode_symbol h]

/-- No symbol is the padding byte. -/
theorem encode_symbol_ne_PAD {n : Nat} (h : n < 64) : encode_symbol n ≠ PAD := fun heq => by
  have hdec := decode_encode_symbol h
  rw [heq, show decode_symbol PAD = none from rfl] at hdec
  cases hdec

theorem encode_symbol_lt_128 (n : Nat) : (encode_symbol n).toNat < 128 := by
  unfold encode_symbol
  split_ifs <;> first
    | decide
    | (rw [UInt8.toNat_ofNat_of_lt (by show _ < 256; omega)]; omega)

/-- The encoding is ASCII. -/
theorem encode_bytes_ascii : ∀ (input : List UInt8), ∀ b ∈ encode_bytes input, b.toNat < 128
  | [] => by simp [encode_bytes]
  | [_] | [_, _] => by
    simp only [encode_bytes, List.mem_cons, List.not_mem_nil, or_false]
    rintro b (rfl | rfl | rfl | rfl) <;> first | decide | exact encode_symbol_lt_128 _
  | _ :: _ :: _ :: rest => by
    simp only [encode_bytes, List.cons_append, List.nil_append, List.mem_cons]
    rintro b (rfl | rfl | rfl | rfl | hb)
    iterate 4 exact encode_symbol_lt_128 _
    exact encode_bytes_ascii rest b hb

/-- The bytes of `base64::encode`'s string are the symbols. -/
theorem as_bytes_encode (input : List UInt8) : (encode input).as_bytes = encode_bytes input :=
  String.as_bytes_ascii _ (encode_bytes_ascii input)

/-- Padding only ever stands in the last two places of an encoding. -/
theorem encode_bytes_PAD_last : ∀ (input : List UInt8) (n : Nat),
    (encode_bytes input)[n]? = some PAD → (encode_bytes input).length ≤ n + 2
  | [], _, h => by simp [encode_bytes] at h
  | [a], n, h => by
    have : a.toNat < 256 := a.toNat_lt_size
    rcases n with _ | _ | n <;> simp [encode_bytes] at h ⊢
    all_goals exact absurd h (encode_symbol_ne_PAD (by omega))
  | [a, b], n, h => by
    have : a.toNat < 256 := a.toNat_lt_size
    have : b.toNat < 256 := b.toNat_lt_size
    rcases n with _ | _ | _ | n <;> simp [encode_bytes] at h ⊢
    all_goals exact absurd h (encode_symbol_ne_PAD (by omega))
  | a :: b :: c :: rest, n, h => by
    have : a.toNat < 256 := a.toNat_lt_size
    have : b.toNat < 256 := b.toNat_lt_size
    have : c.toNat < 256 := c.toNat_lt_size
    rcases n with _ | _ | _ | _ | n <;> simp [encode_bytes] at h ⊢
    iterate 4 exact absurd h (encode_symbol_ne_PAD (by omega))
    have := encode_bytes_PAD_last rest n h
    omega

/-- Every nonempty input makes at least one group of four symbols. -/
theorem encode_bytes_length_ge : ∀ {input : List UInt8}, input ≠ [] →
    4 ≤ (encode_bytes input).length
  | [], h => absurd rfl h
  | [_], _ | [_, _], _ => by simp [encode_bytes]
  | _ :: _ :: _ :: _, _ => by simp [encode_bytes]

/-- Symbols that read as the encoding of `input` are its symbols. -/
theorem encode_bytes_of_chars {symbols input : List UInt8} (hs : ∀ b ∈ symbols, b.toNat < 128)
    (h : (symbols.map fun b => Char.ofNat b.toNat) = (encode input).data) :
    symbols = encode_bytes input := by
  rw [← String.as_bytes_ascii symbols hs, ← as_bytes_encode]
  exact congrArg String.as_bytes (String.ext h)

end base64
