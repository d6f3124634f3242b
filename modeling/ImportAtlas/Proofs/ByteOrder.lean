/-!
# Proofs/ByteOrder — texts are ordered as their bytes are

Names are sorted by their characters.  Since an encoded character is never smaller than that of a
smaller one, and none begins another, this is the order of their bytes: `bytesOf_lt`.
-/

namespace ImportAtlas

/-- The bytes of a text. -/
def bytesOf (text : String) : List UInt8 := text.toUTF8.data.toList

theorem bytesOf_eq_flatMap (text : String) :
    bytesOf text = text.toList.flatMap String.utf8EncodeChar := by
  have h : text.toUTF8 = text.toList.utf8Encode := String.utf8Encode_toList.symm
  rw [bytesOf, h, List.utf8Encode, List.toList_data_toByteArray]

/-- Of two characters the smaller one has the smaller bytes, whatever follows. -/
theorem utf8EncodeChar_append_lt {c d : Char} (h : c < d) (xs ys : List UInt8) :
    String.utf8EncodeChar c ++ xs < String.utf8EncodeChar d ++ ys := by
  have hlt : c.val.toNat < d.val.toNat := h
  have hmax : d.val.toNat < 0x110000 := by
    rcases d.valid with h | h <;> omega
  generalize hc : c.val.toNat = v at hlt
  generalize hd : d.val.toNat = w at hlt hmax
  -- Each continuation byte is a digit to the base 64.
  have hdigit (n : Nat) : n / 4096 = n / 64 / 64 ∧ n / 262144 = n / 64 / 64 / 64 := by omega
  have hbyte (n : Nat) : (n % 64 + 128) % 256 = n % 64 + 128 := by omega
  unfold String.utf8EncodeChar
  simp only [hc, hd, hdigit]
  -- One case for each pair of lengths; the first byte decides where they differ.
  repeat' split
  all_goals
    first
    | omega
    | simp only [List.cons_append, List.nil_append, List.cons_lt_cons_iff, UInt8.lt_iff_toNat_lt,
        UInt8.toNat_ofNat', ← UInt8.toNat_inj, Nat.reducePow, hbyte]
      omega

theorem append_lt_append_left {xs ys : List UInt8} (h : xs < ys) (front : List UInt8) :
    front ++ xs < front ++ ys := by
  induction front with
  | nil => exact h
  | cons b front ih => exact List.cons_lt_cons_iff.mpr (Or.inr ⟨rfl, ih⟩)

/-- **The order of texts is the order of their bytes.** -/
theorem bytesOf_lt {a b : String} (h : a < b) : bytesOf a < bytesOf b := by
  rw [bytesOf_eq_flatMap, bytesOf_eq_flatMap]
  replace h : a.toList < b.toList := h
  generalize a.toList = cs, b.toList = ds at h ⊢
  induction h with
  | @nil d ds =>
    have hne : String.utf8EncodeChar d ≠ [] := String.utf8EncodeChar_ne_nil
    obtain ⟨x, xs, hx⟩ := List.exists_cons_of_ne_nil hne
    rw [List.flatMap_cons, hx]
    exact List.nil_lt_cons ..
  | rel h => exact utf8EncodeChar_append_lt h _ _
  | cons _ ih => exact append_lt_append_left ih _

end ImportAtlas
