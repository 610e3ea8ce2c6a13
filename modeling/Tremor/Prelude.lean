import Mathlib.Data.List.Basic

namespace Except

variable {ε α β : Type}

@[simp] theorem pure_eq_ok (a : α) : (pure a : Except ε α) = .ok a := rfl

@[simp] theorem ok_bind (a : α) (f : α → Except ε β) : (Except.ok a >>= f) = f a := rfl

@[simp] theorem error_bind (e : ε) (f : α → Except ε β) : (Except.error e >>= f) = .error e := rfl

theorem bind_eq_ok {x : Except ε α} {f : α → Except ε β} {b : β} :
    (x >>= f) = .ok b ↔ ∃ a, x = .ok a ∧ f a = .ok b := by
  cases x <;> simp

end Except

/-- The UTF-8 bytes of a string (`str::as_bytes`). -/
def String.as_bytes (s : String) : List UInt8 := s.toUTF8.data.toList

theorem String.utf8EncodeChar_ofNat {n : Nat} (h : n < 128) :
    String.utf8EncodeChar (Char.ofNat n) = [UInt8.ofNat n] := by
  have hv : n.isValidChar := Or.inl (by omega)
  simp only [Char.ofNat, hv, Char.ofNatAux, String.utf8EncodeChar, dif_pos]
  split
  · rfl
  · rename_i hc
    refine absurd ?_ hc
    simp [UInt32.le_def, BitVec.le_def]
    omega

theorem UInt8.ofNat_toNat_eq (b : UInt8) : UInt8.ofNat b.toNat = b :=
  UInt8.toNat.inj (UInt8.toNat_ofNat_of_lt b.toNat_lt_size)

/-- A string of ASCII characters is its bytes. -/
theorem String.as_bytes_ascii : ∀ (bytes : List UInt8), (∀ b ∈ bytes, b.toNat < 128) →
    String.as_bytes ⟨bytes.map fun b => Char.ofNat b.toNat⟩ = bytes
  | [], _ => rfl
  | b :: rest, h => by
    have hrest := String.as_bytes_ascii rest fun x hx => h x (List.mem_cons_of_mem _ hx)
    simp only [String.as_bytes, String.toUTF8, List.map_cons, List.flatMap_cons] at hrest ⊢
    rw [String.utf8EncodeChar_ofNat (h b (List.mem_cons_self _ _)), hrest,
      UInt8.ofNat_toNat_eq]
    rfl

/-- A nonempty string has a nonempty UTF-8 encoding. -/
theorem String.as_bytes_ne_nil {s : String} (h : s ≠ "") : s.as_bytes ≠ [] := by
  obtain ⟨_ | ⟨c, cs⟩⟩ := s
  · exact absurd rfl h
  · intro he
    have := congrArg List.length he
    simp [String.as_bytes, String.toUTF8] at this
    have := Char.utf8Size_pos c
    omega
