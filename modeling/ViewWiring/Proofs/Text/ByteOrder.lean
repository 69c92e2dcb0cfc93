import Mathlib.Data.List.Basic

namespace ViewWiring

theorem toNat_byte {digit base offset : Nat} (hbase : 0 < base) (h : base + offset ≤ 256) :
    (UInt8.ofNat (digit % base + offset)).toNat = digit % base + offset := by
  have hm := Nat.mod_lt digit hbase
  rw [UInt8.toNat_ofNat']
  exact Nat.mod_eq_of_lt (by omega)

theorem lt_iff_last_digit (v w : Nat) :
    v < w ↔ v / 64 < w / 64 ∨ v / 64 = w / 64 ∧ v % 64 < w % 64 := by
  omega

theorem toNat_val_lt (c : Char) : c.val.toNat < 0x110000 := by
  have h : c.toNat.isValidChar := c.valid
  change c.toNat < _
  simp only [Nat.isValidChar] at h
  omega

/-- The bytes of a smaller character come first, whatever follows: a longer encoding begins with a
greater byte, and encodings of one length are numbers to the base 64. -/
theorem utf8EncodeChar_append_lt {c d : Char} (h : c < d) (x y : List UInt8) :
    String.utf8EncodeChar c ++ x < String.utf8EncodeChar d ++ y := by
  have hlt : c.val.toNat < d.val.toNat := h
  have hc := toNat_val_lt c
  have hd := toNat_val_lt d
  unfold String.utf8EncodeChar
  generalize c.val.toNat = v at *
  generalize d.val.toNat = w at *
  have h₁ := lt_iff_last_digit v w
  have h₂ := lt_iff_last_digit (v / 64) (w / 64)
  have h₃ := lt_iff_last_digit (v / 4096) (w / 4096)
  simp only [Nat.div_div_eq_div_mul, Nat.reduceMul] at h₂ h₃
  have hv : v / 262144 % 8 = v / 262144 := Nat.mod_eq_of_lt (by omega)
  have hw : w / 262144 % 8 = w / 262144 := Nat.mod_eq_of_lt (by omega)
  have hsmall (n : Nat) (hn : n ≤ 127) : (UInt8.ofNat n).toNat = n := by
    rw [UInt8.toNat_ofNat']
    omega
  dsimp only
  split_ifs <;>
    simp (disch := first | decide | assumption) only [List.cons_append, List.nil_append,
      List.cons_lt_cons_iff, UInt8.lt_iff_toNat_lt, ← UInt8.toNat_inj, toNat_byte, hsmall] <;>
    omega

theorem flatMap_utf8EncodeChar_lt {cs ds : List Char} (h : cs < ds) :
    cs.flatMap String.utf8EncodeChar < ds.flatMap String.utf8EncodeChar := by
  induction cs generalizing ds with
  | nil =>
    cases ds with
    | nil => exact absurd h (List.not_lt_nil _)
    | cons d ds =>
      obtain ⟨b, bs, hb⟩ := List.exists_cons_of_ne_nil (String.utf8EncodeChar_ne_nil (c := d))
      rw [List.flatMap_cons, hb]
      exact List.nil_lt_cons b _
  | cons c cs ih =>
    cases ds with
    | nil => exact absurd h (List.not_lt_nil _)
    | cons d ds =>
      rw [List.flatMap_cons, List.flatMap_cons]
      rcases List.cons_lt_cons_iff.mp h with hcd | ⟨rfl, hrest⟩
      · exact utf8EncodeChar_append_lt hcd _ _
      · exact List.append_left_lt (ih hrest)

theorem data_toUTF8 (text : String) :
    text.toUTF8.data.toList = text.toList.flatMap String.utf8EncodeChar := by
  rw [String.toUTF8, ← String.utf8Encode_toList, List.utf8Encode, List.toList_data_toByteArray]

/-- The order of texts by characters is the one by the bytes of their UTF-8 encoding. -/
theorem toUTF8_lt {text text' : String} (h : text < text') :
    text.toUTF8.data.toList < text'.toUTF8.data.toList := by
  rw [data_toUTF8, data_toUTF8]
  exact flatMap_utf8EncodeChar_lt h

end ViewWiring
