import CiteStyle.Text.Utf8

/-! # What was written as UTF-8 is read back

`decode` meets no damage in the bytes of a string, and finds its characters (`decode_toUTF8`). The
cases are those of the length of a character: the first byte promises what the bytes after it then
keep. -/

namespace CiteStyle.Text.Utf8

/-! ## The bytes of a string -/

theorem toList_loop_of_drop {bytes : ByteArray} {rest : List UInt8} {i : Nat}
    (h : bytes.data.toList.drop i = rest) (done : List UInt8) :
    ByteArray.toList.loop bytes i done = done.reverse ++ rest := by
  induction rest generalizing i done with
  | nil =>
    have hi : ¬ i < bytes.size := Nat.not_lt.mpr (List.drop_eq_nil_iff.mp h)
    rw [ByteArray.toList.loop, if_neg hi, List.append_nil]
  | cons b rest ih =>
    have hi : i < bytes.data.toList.length := by
      refine Nat.lt_of_not_le fun hle => ?_
      rw [List.drop_eq_nil_of_le hle] at h
      cases h
    rw [List.drop_eq_getElem_cons hi] at h
    obtain ⟨hb, hrest⟩ := List.cons.inj h
    have hget : bytes.get! i = b := by
      rw [← hb]
      exact getElem!_pos bytes.data i hi
    rw [ByteArray.toList.loop, if_pos (show i < bytes.size from hi), hget, ih hrest,
      List.reverse_cons, List.append_assoc]
    rfl

theorem toUTF8_toList (s : String) :
    s.toUTF8.toList = s.toList.flatMap String.utf8EncodeChar := by
  rw [String.toUTF8_eq_toByteArray, ← String.utf8Encode_toList, ByteArray.toList,
    toList_loop_of_drop List.drop_zero]
  exact List.toList_data_toByteArray

/-- A character is written as itself, or all its bytes are beyond those of such characters. -/
theorem utf8EncodeChar_cases (c : Char) :
    c.toNat < 0x80 ∧ String.utf8EncodeChar c = [UInt8.ofNat c.toNat] ∨
      0x80 ≤ c.toNat ∧ ∀ b ∈ String.utf8EncodeChar c, 0x80 ≤ b.toNat ∧ b.toNat < 0xf8 := by
  have hn : c.val.toNat = c.toNat := rfl
  rw [String.utf8EncodeChar.eq_1, hn]
  split
  · exact .inl ⟨by omega, rfl⟩
  · refine .inr ⟨by omega, ?_⟩
    split
    · simp; omega
    · split <;> simp <;> omega

/-! ## First bytes -/

theorem start_of_ascii {n : Nat} (h : n < 0x80) :
    start (UInt8.ofNat n) = .inl (some (Char.ofNat n)) := by
  have hn : (UInt8.ofNat n).toNat = n := by simp; omega
  rw [start, if_pos (UInt8.lt_iff_toNat_lt.mpr (by rw [hn]; exact h)), hn]

theorem start_of_lead {b low high : UInt8} {following : Nat}
    (h : ¬ b < 0x80 ∧ lead? b = some (following, low, high)) :
    start b = .inr ⟨leadBits following b, following, low, high⟩ := by
  rw [start, if_neg h.1, h.2]

theorem start_of_two : ∀ n < 32, 2 ≤ n →
    start (UInt8.ofNat (n + 192)) = .inr ⟨n, 1, 0x80, 0xbf⟩ := by
  intro n hn hlow
  have hbits : ∀ n < 32, leadBits 1 (UInt8.ofNat (n + 192)) = n := by decide
  have hlead : ∀ n < 32, 2 ≤ n → ¬ UInt8.ofNat (n + 192) < 0x80 ∧
      lead? (UInt8.ofNat (n + 192)) = some (1, 0x80, 0xbf) := by decide
  rw [start_of_lead (hlead n hn hlow), hbits n hn]

/-- Three bytes leave out what two can say, and the surrogates. -/
theorem start_of_three : ∀ n < 16, start (UInt8.ofNat (n + 224)) =
    .inr ⟨n, 2, if n = 0 then 0xa0 else 0x80, if n = 13 then 0x9f else 0xbf⟩ := by
  intro n hn
  have hbits : ∀ n < 16, leadBits 2 (UInt8.ofNat (n + 224)) = n := by decide
  have hlead : ∀ n < 16, ¬ UInt8.ofNat (n + 224) < 0x80 ∧ lead? (UInt8.ofNat (n + 224)) =
      some (2, if n = 0 then 0xa0 else 0x80, if n = 13 then 0x9f else 0xbf) := by decide
  rw [start_of_lead (hlead n hn), hbits n hn]

/-- Four bytes leave out what three can say, and what lies beyond the last character. -/
theorem start_of_four : ∀ n < 5, start (UInt8.ofNat (n + 240)) =
    .inr ⟨n, 3, if n = 0 then 0x90 else 0x80, if n = 4 then 0x8f else 0xbf⟩ := by
  intro n hn
  have hbits : ∀ n < 5, leadBits 3 (UInt8.ofNat (n + 240)) = n := by decide
  have hlead : ∀ n < 5, ¬ UInt8.ofNat (n + 240) < 0x80 ∧ lead? (UInt8.ofNat (n + 240)) =
      some (3, if n = 0 then 0x90 else 0x80, if n = 4 then 0x8f else 0xbf) := by decide
  rw [start_of_lead (hlead n hn), hbits n hn]

/-! ## Bytes that follow -/

theorem decodeFrom_following {p : Pending} {k : Nat} {rest : List UInt8} (hk : k < 64)
    (hlow : p.low.toNat ≤ k + 128) (hhigh : k + 128 ≤ p.high.toNat) :
    decodeFrom (some p) (UInt8.ofNat (k + 128) :: rest) =
      if p.missing ≤ 1 then some (Char.ofNat (p.value * 64 + k)) :: decodeFrom none rest
      else decodeFrom (some ⟨p.value * 64 + k, p.missing - 1, 0x80, 0xbf⟩) rest := by
  have hbyte : (UInt8.ofNat (k + 128)).toNat = k + 128 := by simp; omega
  have hbits : (UInt8.ofNat (k + 128)).toNat % 64 = k := by omega
  have hrange : (p.low ≤ UInt8.ofNat (k + 128) && UInt8.ofNat (k + 128) ≤ p.high) = true := by
    simp only [Bool.and_eq_true, decide_eq_true_eq, UInt8.le_iff_toNat_le, hbyte]
    exact ⟨hlow, hhigh⟩
  rw [decodeFrom, if_pos hrange]
  simp only [hbits]

/-- Any byte but the first to follow may be any that follows. -/
theorem decodeFrom_further {value missing k : Nat} {rest : List UInt8} (hk : k < 64) :
    decodeFrom (some ⟨value, missing, 0x80, 0xbf⟩) (UInt8.ofNat (k + 128) :: rest) =
      if missing ≤ 1 then some (Char.ofNat (value * 64 + k)) :: decodeFrom none rest
      else decodeFrom (some ⟨value * 64 + k, missing - 1, 0x80, 0xbf⟩) rest :=
  decodeFrom_following hk (by simp) (by simp; omega)

theorem decodeFrom_start {b : UInt8} {rest : List UInt8} {p : Pending} (h : start b = .inr p) :
    decodeFrom none (b :: rest) = decodeFrom (some p) rest := by
  rw [decodeFrom, h]

/-! ## Whole characters -/

theorem decodeFrom_two {n : Nat} (hlow : 0x80 ≤ n) (hhigh : n < 0x800) (rest : List UInt8) :
    decodeFrom none (UInt8.ofNat (n / 64 % 32 + 192) :: UInt8.ofNat (n % 64 + 128) :: rest) =
      some (Char.ofNat n) :: decodeFrom none rest := by
  have hlead : n / 64 % 32 = n / 64 := by omega
  rw [hlead, decodeFrom_start (start_of_two _ (by omega) (by omega)),
    decodeFrom_further (by omega), if_pos (by simp), Nat.div_add_mod']

theorem decodeFrom_three {n : Nat} (hlow : 0x800 ≤ n) (hhigh : n < 0x10000)
    (hc : n < 0xd800 ∨ 0xdfff < n) (rest : List UInt8) :
    decodeFrom none (UInt8.ofNat (n / 4096 % 16 + 224) :: UInt8.ofNat (n / 64 % 64 + 128) ::
        UInt8.ofNat (n % 64 + 128) :: rest) =
      some (Char.ofNat n) :: decodeFrom none rest := by
  have hlead : n / 4096 % 16 = n / 4096 := by omega
  have hvalue : (n / 4096 * 64 + n / 64 % 64) * 64 + n % 64 = n := by omega
  have hfrom : (if n / 4096 = 0 then 0xa0 else 0x80 : UInt8).toNat ≤ n / 64 % 64 + 128 := by
    split
    · simp; omega
    · simp
  have hto : n / 64 % 64 + 128 ≤ (if n / 4096 = 13 then 0x9f else 0xbf : UInt8).toNat := by
    split
    · simp; omega
    · simp; omega
  rw [hlead, decodeFrom_start (start_of_three _ (by omega)),
    decodeFrom_following (by omega) hfrom hto, if_neg (by simp),
    decodeFrom_further (by omega), if_pos (by simp)]
  simp only [hvalue]

theorem decodeFrom_four {n : Nat} (hlow : 0x10000 ≤ n) (hhigh : n < 0x110000)
    (rest : List UInt8) :
    decodeFrom none (UInt8.ofNat (n / 262144 % 8 + 240) :: UInt8.ofNat (n / 4096 % 64 + 128) ::
        UInt8.ofNat (n / 64 % 64 + 128) :: UInt8.ofNat (n % 64 + 128) :: rest) =
      some (Char.ofNat n) :: decodeFrom none rest := by
  have hlead : n / 262144 % 8 = n / 262144 := by omega
  have hvalue : ((n / 262144 * 64 + n / 4096 % 64) * 64 + n / 64 % 64) * 64 + n % 64 = n := by
    omega
  have hfrom : (if n / 262144 = 0 then 0x90 else 0x80 : UInt8).toNat ≤ n / 4096 % 64 + 128 := by
    split
    · simp; omega
    · simp
  have hto : n / 4096 % 64 + 128 ≤ (if n / 262144 = 4 then 0x8f else 0xbf : UInt8).toNat := by
    split
    · simp; omega
    · simp; omega
  rw [hlead, decodeFrom_start (start_of_four _ (by omega)),
    decodeFrom_following (by omega) hfrom hto, if_neg (by simp),
    decodeFrom_further (by omega), if_neg (by simp),
    decodeFrom_further (by omega), if_pos (by simp)]
  simp only [hvalue]

theorem decodeFrom_utf8EncodeChar (c : Char) (rest : List UInt8) :
    decodeFrom none (String.utf8EncodeChar c ++ rest) = some c :: decodeFrom none rest := by
  have hvalid : c.val.toNat < 0xd800 ∨ 0xdfff < c.val.toNat ∧ c.val.toNat < 0x110000 := c.valid
  have hc : Char.ofNat c.val.toNat = c := Char.ofNat_toNat c
  rw [String.utf8EncodeChar.eq_1]
  generalize c.val.toNat = n at hc hvalid
  subst hc
  split
  · rw [List.singleton_append, decodeFrom, start_of_ascii (by omega)]
  · split
    · exact decodeFrom_two (by omega) (by omega) rest
    · split
      · exact decodeFrom_three (by omega) (by omega) (by omega) rest
      · exact decodeFrom_four (by omega) (by omega) rest

theorem decode_flatMap_utf8EncodeChar (s : List Char) :
    decode (s.flatMap String.utf8EncodeChar) = s.map some := by
  induction s with
  | nil => rfl
  | cons c rest ih =>
    rw [List.flatMap_cons, decode, decodeFrom_utf8EncodeChar, List.map_cons, ← ih, decode]

/-- **A string that was written is read back.** -/
theorem decode_toUTF8 (s : String) : decode s.toUTF8.toList = s.toList.map some := by
  rw [toUTF8_toList, decode_flatMap_utf8EncodeChar]

theorem lenient_toUTF8 (s : String) : lenient s.toUTF8.toList = s.toList := by
  rw [lenient, decode_toUTF8, List.map_map]
  exact List.map_id _

end CiteStyle.Text.Utf8
