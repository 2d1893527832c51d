import TlaGlyph.Text.Utf8

namespace TlaGlyph.Text

namespace Lossy

-- The first bytes of characters that take one, two, three and four bytes.
theorem lead?_one : ∀ n < 128, lead? (.ofNat n) = some (0, 0x80, 0xBF) := by decide

theorem lead?_two : ∀ n < 32, 2 ≤ n → lead? (.ofNat (n + 192)) = some (1, 0x80, 0xBF) := by decide

theorem lead?_three : ∀ n < 16, lead? (.ofNat (n + 224)) =
    some (2, if n = 0 then 0xA0 else 0x80, if n = 13 then 0x9F else 0xBF) := by decide

theorem lead?_four : ∀ n < 5, lead? (.ofNat (n + 240)) =
    some (3, if n = 0 then 0x90 else 0x80, if n = 4 then 0x8F else 0xBF) := by decide

theorem tail_cons {n count : Nat} {low high : UInt8} (hlow : low.toNat ≤ n + 128)
    (hhigh : n + 128 ≤ high.toNat) (rest : List UInt8) :
    tail low high (count + 1) (.ofNat (n + 128) :: rest) =
      .ofNat (n + 128) :: tail 0x80 0xBF count rest := by
  have hbyte : (UInt8.ofNat (n + 128)).toNat = n + 128 :=
    UInt8.toNat_ofNat_of_lt' (Nat.lt_of_le_of_lt hhigh high.toNat_lt)
  rw [tail, if_pos]
  rw [UInt8.le_iff_toNat_le, UInt8.le_iff_toNat_le, hbyte]
  exact ⟨hlow, hhigh⟩

-- Every byte but the first carries six bits.
theorem tail_six {n count : Nat} (hn : n < 64) (rest : List UInt8) :
    tail 0x80 0xBF (count + 1) (.ofNat (n + 128) :: rest) =
      .ofNat (n + 128) :: tail 0x80 0xBF count rest :=
  tail_cons (Nat.le_add_left _ _) (by change n + 128 ≤ 191; omega) rest

theorem toNat_mod_six {n : Nat} (hn : n < 64) : (UInt8.ofNat (n + 128)).toNat % 64 = n := by
  rw [UInt8.toNat_ofNat_of_lt' (by change n + 128 < 256; omega)]
  omega

end Lossy

theorem decodeLossy_of_lead? {first low high : UInt8} {bytes : List UInt8} (rest : List UInt8)
    (hlead : Lossy.lead? first = some (bytes.length, low, high))
    (htail : Lossy.tail low high bytes.length (bytes ++ rest) = bytes) :
    decodeLossy (first :: bytes ++ rest) = Lossy.join first bytes :: decodeLossy rest := by
  rw [List.cons_append, decodeLossy, hlead]
  simp [htail]

theorem decodeLossy_one {v : Nat} (hv : v ≤ 0x7F) (rest : List UInt8) :
    decodeLossy ([.ofNat v] ++ rest) = .ofNat v :: decodeLossy rest := by
  have hfirst : (UInt8.ofNat v).toNat = v := UInt8.toNat_ofNat_of_lt' (by change v < 256; omega)
  rw [decodeLossy_of_lead? rest (Lossy.lead?_one v (by omega)) rfl, Lossy.join, hfirst]
  rfl

theorem decodeLossy_two {v : Nat} (hlow : 0x7F < v) (hhigh : v ≤ 0x7FF) (rest : List UInt8) :
    decodeLossy ([.ofNat (v / 64 % 32 + 192), .ofNat (v % 64 + 128)] ++ rest) =
      .ofNat v :: decodeLossy rest := by
  have hfirst : (UInt8.ofNat (v / 64 % 32 + 192)).toNat % 32 = v / 64 := by
    rw [UInt8.toNat_ofNat_of_lt' (by change _ < 256; omega)]
    omega
  rw [decodeLossy_of_lead? rest (Lossy.lead?_two _ (by omega) (by omega))
    (Lossy.tail_six (by omega) rest)]
  change Char.ofNat ((UInt8.ofNat _).toNat % 32 * 64 + (UInt8.ofNat _).toNat % 64) :: _ = _
  rw [hfirst, Lossy.toNat_mod_six (by omega), Nat.div_add_mod']

theorem decodeLossy_three {v : Nat} (hlow : 0x7FF < v) (hhigh : v ≤ 0xFFFF)
    (hvalid : v < 0xD800 ∨ 0xDFFF < v) (rest : List UInt8) :
    decodeLossy ([.ofNat (v / 4096 % 16 + 224), .ofNat (v / 64 % 64 + 128),
      .ofNat (v % 64 + 128)] ++ rest) = .ofNat v :: decodeLossy rest := by
  have hfirst : (UInt8.ofNat (v / 4096 % 16 + 224)).toNat % 16 = v / 4096 := by
    rw [UInt8.toNat_ofNat_of_lt' (by change _ < 256; omega)]
    omega
  rw [decodeLossy_of_lead? rest (Lossy.lead?_three _ (by omega))]
  · change Char.ofNat (((UInt8.ofNat _).toNat % 16 * 64 + (UInt8.ofNat _).toNat % 64) * 64 +
      (UInt8.ofNat _).toNat % 64) :: _ = _
    rw [hfirst, Lossy.toNat_mod_six (by omega), Lossy.toNat_mod_six (by omega)]
    congr 2
    omega
  -- the second byte leaves out what two bytes can hold, and the surrogates
  · refine (Lossy.tail_cons ?_ ?_ _).trans (congrArg _ (Lossy.tail_six (by omega) _))
    · split
      · change 160 ≤ _
        omega
      · change 128 ≤ _
        omega
    · split
      · change _ ≤ 159
        omega
      · change _ ≤ 191
        omega

theorem decodeLossy_four {v : Nat} (hlow : 0xFFFF < v) (hhigh : v < 0x110000) (rest : List UInt8) :
    decodeLossy ([.ofNat (v / 262144 % 8 + 240), .ofNat (v / 4096 % 64 + 128),
      .ofNat (v / 64 % 64 + 128), .ofNat (v % 64 + 128)] ++ rest) = .ofNat v :: decodeLossy rest := by
  have hfirst : (UInt8.ofNat (v / 262144 % 8 + 240)).toNat % 8 = v / 262144 := by
    rw [UInt8.toNat_ofNat_of_lt' (by change _ < 256; omega)]
    omega
  rw [decodeLossy_of_lead? rest (Lossy.lead?_four _ (by omega))]
  · change Char.ofNat ((((UInt8.ofNat _).toNat % 8 * 64 + (UInt8.ofNat _).toNat % 64) * 64 +
      (UInt8.ofNat _).toNat % 64) * 64 + (UInt8.ofNat _).toNat % 64) :: _ = _
    rw [hfirst, Lossy.toNat_mod_six (by omega), Lossy.toNat_mod_six (by omega),
      Lossy.toNat_mod_six (by omega)]
    congr 2
    omega
  -- the second byte leaves out what three bytes can hold, and what is above the last character
  · refine (Lossy.tail_cons ?_ ?_ _).trans (congrArg _ ((Lossy.tail_six (by omega) _).trans
      (congrArg _ (Lossy.tail_six (by omega) _))))
    · split
      · change 144 ≤ _
        omega
      · change 128 ≤ _
        omega
    · split
      · change _ ≤ 143
        omega
      · change _ ≤ 191
        omega

theorem decodeLossy_char (c : Char) (rest : List UInt8) :
    decodeLossy (String.utf8EncodeChar c ++ rest) = c :: decodeLossy rest := by
  have hvalid : c.val.toNat < 0xD800 ∨ 0xDFFF < c.val.toNat ∧ c.val.toNat < 0x110000 := c.valid
  have hc : Char.ofNat c.val.toNat = c := Char.ofNat_toNat c
  suffices h : decodeLossy (String.utf8EncodeChar c ++ rest) = .ofNat c.val.toNat :: decodeLossy rest by
    rwa [hc] at h
  rw [String.utf8EncodeChar]
  split
  · next hone => exact decodeLossy_one hone rest
  split
  · next hone htwo => exact decodeLossy_two (Nat.lt_of_not_le hone) htwo rest
  split
  · next _ htwo hthree => exact decodeLossy_three (Nat.lt_of_not_le htwo) hthree (by omega) rest
  · next _ _ hthree => exact decodeLossy_four (Nat.lt_of_not_le hthree) (by omega) rest

theorem decodeLossy_encode (text : Text) : decodeLossy (encode text).data.toList = text := by
  rw [encode, String.toUTF8_eq_toByteArray, String.toByteArray_ofList, List.utf8Encode,
    List.toList_data_toByteArray]
  induction text with
  | nil => rw [List.flatMap_nil, decodeLossy]
  | cons c text ih => rw [List.flatMap_cons, decodeLossy_char, ih]

-- Bytes that are text are read as that text: nothing in them is replaced.
theorem decodeLossy_of_decode? {bytes : ByteArray} {text : Text} (h : decode? bytes = some text) :
    decodeLossy bytes.data.toList = text := by
  rw [← encode_of_decode? h, decodeLossy_encode]

end TlaGlyph.Text
