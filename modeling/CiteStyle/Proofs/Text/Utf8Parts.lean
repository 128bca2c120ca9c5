import CiteStyle.Proofs.Text.Utf8

/-! # The parts of a byte sequence

Whatever bytes are decoded, every character that is found stands there as it is written, and every
damaged part consists of bytes that no character of one byte is written with (`parts_decode`). The
induction is over the bytes with the sequence that has begun; its invariant says what will have been
read once the sequence is complete. -/

namespace CiteStyle.Text.Utf8

/-! ## Characters from their bytes -/

theorem toNat_ofNat {n : Nat} (h : n.isValidChar) : (Char.ofNat n).val.toNat = n := by
  rw [Char.ofNat, dif_pos h]
  rfl

theorem utf8EncodeChar_one {b : UInt8} (h : b.toNat < 0x80) :
    String.utf8EncodeChar (Char.ofNat b.toNat) = [b] := by
  rw [String.utf8EncodeChar.eq_1, toNat_ofNat (.inl (by omega)), if_pos (by omega),
    UInt8.ofNat_toNat]

theorem utf8EncodeChar_two {a b : UInt8} {n : Nat} (ha : 0xc2 ≤ a.toNat ∧ a.toNat ≤ 0xdf)
    (hb : 0x80 ≤ b.toNat ∧ b.toNat ≤ 0xbf) (hn : n = a.toNat % 32 * 64 + b.toNat % 64) :
    String.utf8EncodeChar (Char.ofNat n) = [a, b] := by
  rw [String.utf8EncodeChar.eq_1, toNat_ofNat (.inl (by omega)), if_neg (by omega),
    if_pos (by omega)]
  simp only [List.cons.injEq, and_true, ← UInt8.toNat_inj, UInt8.toNat_ofNat']
  omega

theorem utf8EncodeChar_three {a b c : UInt8} {n : Nat} (ha : 0xe0 ≤ a.toNat ∧ a.toNat ≤ 0xef)
    (hb : 0x80 ≤ b.toNat ∧ b.toNat ≤ 0xbf) (hc : 0x80 ≤ c.toNat ∧ c.toNat ≤ 0xbf)
    (hlow : a.toNat = 0xe0 → 0xa0 ≤ b.toNat) (hhigh : a.toNat = 0xed → b.toNat ≤ 0x9f)
    (hn : n = (a.toNat % 16 * 64 + b.toNat % 64) * 64 + c.toNat % 64) :
    String.utf8EncodeChar (Char.ofNat n) = [a, b, c] := by
  have hvalid : n.isValidChar := by
    simp only [Nat.isValidChar]
    omega
  rw [String.utf8EncodeChar.eq_1, toNat_ofNat hvalid, if_neg (by omega),
    if_neg (by omega), if_pos (by omega)]
  simp only [List.cons.injEq, and_true, ← UInt8.toNat_inj, UInt8.toNat_ofNat']
  omega

theorem utf8EncodeChar_four {a b c d : UInt8} {n : Nat} (ha : 0xf0 ≤ a.toNat ∧ a.toNat ≤ 0xf4)
    (hb : 0x80 ≤ b.toNat ∧ b.toNat ≤ 0xbf) (hc : 0x80 ≤ c.toNat ∧ c.toNat ≤ 0xbf)
    (hd : 0x80 ≤ d.toNat ∧ d.toNat ≤ 0xbf)
    (hlow : a.toNat = 0xf0 → 0x90 ≤ b.toNat) (hhigh : a.toNat = 0xf4 → b.toNat ≤ 0x8f)
    (hn : n = ((a.toNat % 8 * 64 + b.toNat % 64) * 64 + c.toNat % 64) * 64 + d.toNat % 64) :
    String.utf8EncodeChar (Char.ofNat n) = [a, b, c, d] := by
  have hvalid : n.isValidChar := by
    simp only [Nat.isValidChar]
    omega
  rw [String.utf8EncodeChar.eq_1, toNat_ofNat hvalid, if_neg (by omega),
    if_neg (by omega), if_neg (by omega)]
  simp only [List.cons.injEq, and_true, ← UInt8.toNat_inj, UInt8.toNat_ofNat']
  omega

/-! ## Sequences that have begun -/

/-- What completes a sequence that has begun, with the number that it then stands for. -/
inductive Pending.Completes : Pending → List UInt8 → Nat → Prop
  | last {p : Pending} {b : UInt8} (hm : p.missing ≤ 1) (hb : p.low ≤ b ∧ b ≤ p.high) :
      Completes p [b] (p.value * 64 + b.toNat % 64)
  | more {p : Pending} {b : UInt8} {tail : List UInt8} {n : Nat} (hm : ¬ p.missing ≤ 1)
      (hb : p.low ≤ b ∧ b ≤ p.high)
      (ht : Completes ⟨p.value * 64 + b.toNat % 64, p.missing - 1, 0x80, 0xbf⟩ tail n) :
      Completes p (b :: tail) n

/-- A sequence has begun with some bytes: whatever completes it, these bytes and the further ones are
how the character is written. -/
structure Pending.BegunBy (p : Pending) (begun : List UInt8) : Prop where
  high : ∀ b ∈ begun, 0x80 ≤ b.toNat
  next : 0x80 ≤ p.low.toNat
  whole : ∀ tail n, p.Completes tail n →
    String.utf8EncodeChar (Char.ofNat n) = begun ++ tail

theorem Pending.BegunBy.further {p : Pending} {begun : List UInt8} (h : p.BegunBy begun) {b : UInt8}
    (hb : p.low ≤ b ∧ b ≤ p.high) (hm : ¬ p.missing ≤ 1) :
    (⟨p.value * 64 + b.toNat % 64, p.missing - 1, 0x80, 0xbf⟩ : Pending).BegunBy
      (begun ++ [b]) where
  high := by
    intro c hc
    rcases List.mem_append.mp hc with hc | hc
    · exact h.high c hc
    · rw [List.mem_singleton.mp hc]
      exact Nat.le_trans h.next (UInt8.le_iff_toNat_le.mp hb.1)
  next := by simp
  whole := by
    intro tail n ht
    rw [List.append_assoc]
    exact h.whole _ _ (.more hm hb ht)

/-- What first bytes promise, by the number of bytes that follow. -/
theorem lead?_cases {b low high : UInt8} {following : Nat}
    (h : lead? b = some (following, low, high)) :
    0x80 ≤ low.toNat ∧ high.toNat ≤ 0xbf ∧
      (following = 1 ∧ 0xc2 ≤ b.toNat ∧ b.toNat ≤ 0xdf ∨
        following = 2 ∧ (0xe0 ≤ b.toNat ∧ b.toNat ≤ 0xef) ∧
          (b.toNat = 0xe0 → 0xa0 ≤ low.toNat) ∧ (b.toNat = 0xed → high.toNat ≤ 0x9f) ∨
        following = 3 ∧ (0xf0 ≤ b.toNat ∧ b.toNat ≤ 0xf4) ∧
          (b.toNat = 0xf0 → 0x90 ≤ low.toNat) ∧ (b.toNat = 0xf4 → high.toNat ≤ 0x8f)) := by
  unfold lead? at h
  simp only [Bool.and_eq_true, decide_eq_true_eq, beq_iff_eq, UInt8.le_iff_toNat_le,
    ← UInt8.toNat_inj] at h
  repeat' split at h
  all_goals
    simp only [Option.some.injEq, Prod.mk.injEq, reduceCtorEq] at h
    try
      obtain ⟨rfl, rfl, rfl⟩ := h
      simp at *
      omega

theorem Pending.Completes.of_one {p : Pending} {tail : List UInt8} {n : Nat}
    (h : p.Completes tail n) (hm : p.missing = 1) :
    ∃ b, tail = [b] ∧ (p.low.toNat ≤ b.toNat ∧ b.toNat ≤ p.high.toNat) ∧
      n = p.value * 64 + b.toNat % 64 := by
  cases h with
  | @last _ b _ hb =>
    exact ⟨b, rfl, ⟨UInt8.le_iff_toNat_le.mp hb.1, UInt8.le_iff_toNat_le.mp hb.2⟩, rfl⟩
  | more hmore => omega

theorem Pending.Completes.of_many {p : Pending} {tail : List UInt8} {n k : Nat}
    (h : p.Completes tail n) (hm : p.missing = k + 2) :
    ∃ b rest, tail = b :: rest ∧ (p.low.toNat ≤ b.toNat ∧ b.toNat ≤ p.high.toNat) ∧
      Pending.Completes ⟨p.value * 64 + b.toNat % 64, k + 1, 0x80, 0xbf⟩ rest n := by
  cases h with
  | last hlast => omega
  | @more _ b rest _ _ hb ht =>
    rw [hm] at ht
    exact ⟨b, rest, rfl, ⟨UInt8.le_iff_toNat_le.mp hb.1, UInt8.le_iff_toNat_le.mp hb.2⟩, ht⟩

theorem begunBy_of_start {b : UInt8} {p : Pending} (h : start b = .inr p) : p.BegunBy [b] := by
  unfold start at h
  split at h
  · cases h
  · next hhigh =>
    split at h
    · next following low high hlead =>
      cases h
      obtain ⟨hlow, hto, hcases⟩ := lead?_cases hlead
      refine ⟨?_, hlow, ?_⟩
      · intro c hc
        rw [List.mem_singleton.mp hc]
        exact Nat.le_of_not_lt fun hlt => hhigh (UInt8.lt_iff_toNat_lt.mpr hlt)
      · intro tail n ht
        obtain ⟨rfl, hb⟩ | ⟨rfl, hb, hfirst, hlast⟩ | ⟨rfl, hb, hfirst, hlast⟩ := hcases
        · obtain ⟨x, rfl, hx, rfl⟩ := ht.of_one rfl
          dsimp only at hx
          exact utf8EncodeChar_two hb (by omega) rfl
        · obtain ⟨x, rest, rfl, hx, ht⟩ := ht.of_many rfl
          obtain ⟨y, rfl, hy, rfl⟩ := ht.of_one rfl
          dsimp only at hx hy
          exact utf8EncodeChar_three hb (by omega) hy (by omega) (by omega) rfl
        · obtain ⟨x, rest, rfl, hx, ht⟩ := ht.of_many rfl
          obtain ⟨y, rest, rfl, hy, ht⟩ := ht.of_many rfl
          obtain ⟨z, rfl, hz, rfl⟩ := ht.of_one rfl
          dsimp only at hx hy hz
          exact utf8EncodeChar_four hb (by omega) hy hz (by omega) (by omega) rfl
    · cases h

/-! ## One byte more -/

theorem decodeFrom_none_cons (b : UInt8) (rest : List UInt8) :
    decodeFrom none (b :: rest) =
      match start b with
      | .inl o => o :: decodeFrom none rest
      | .inr p => decodeFrom (some p) rest := by
  cases h : start b <;> simp only [decodeFrom, h]

/-- A byte out of range ends the sequence and is then taken by itself. -/
theorem decodeFrom_some_cons (p : Pending) (b : UInt8) (rest : List UInt8) :
    decodeFrom (some p) (b :: rest) =
      if p.low ≤ b ∧ b ≤ p.high then
        if p.missing ≤ 1 then
          some (Char.ofNat (p.value * 64 + b.toNat % 64)) :: decodeFrom none rest
        else decodeFrom (some ⟨p.value * 64 + b.toNat % 64, p.missing - 1, 0x80, 0xbf⟩) rest
      else none :: decodeFrom none (b :: rest) := by
  simp only [decodeFrom, Bool.and_eq_true, decide_eq_true_eq]
  cases start b <;> rfl

/-! ## Parts -/

/-- What the parts of a byte sequence are: characters as they are written, and damaged parts, which
have no byte in common with characters of one byte. -/
inductive Parts : List UInt8 → List (Option Char) → Prop
  | nil : Parts [] []
  | character (c : Char) {bytes : List UInt8} {found : List (Option Char)}
      (h : Parts bytes found) : Parts (String.utf8EncodeChar c ++ bytes) (some c :: found)
  | damaged {part bytes : List UInt8} {found : List (Option Char)}
      (hp : ∀ b ∈ part, 0x80 ≤ b.toNat) (h : Parts bytes found) :
      Parts (part ++ bytes) (none :: found)

/-- Whether a sequence has begun or not, the parts of it and of the bytes to come are found. -/
structure FindsParts (bytes : List UInt8) : Prop where
  outside : Parts bytes (decodeFrom none bytes)
  inside : ∀ p begun, Pending.BegunBy p begun → Parts (begun ++ bytes) (decodeFrom (some p) bytes)

theorem FindsParts.outside_cons {rest : List UInt8} (h : FindsParts rest) (b : UInt8) :
    Parts (b :: rest) (decodeFrom none (b :: rest)) := by
  rw [decodeFrom_none_cons]
  cases hs : start b with
  | inr p => exact h.inside p [b] (begunBy_of_start hs)
  | inl c =>
    unfold start at hs
    split at hs
    · next hlow =>
      cases hs
      have hone := utf8EncodeChar_one (UInt8.lt_iff_toNat_lt.mp hlow)
      have hparts := Parts.character (Char.ofNat b.toNat) h.outside
      rwa [hone] at hparts
    · next hhigh =>
      split at hs
      · cases hs
      · cases hs
        have hpart : ∀ c ∈ [b], 0x80 ≤ c.toNat := by
          intro c hc
          rw [List.mem_singleton.mp hc]
          exact Nat.le_of_not_lt fun hlt => hhigh (UInt8.lt_iff_toNat_lt.mpr hlt)
        exact .damaged hpart h.outside

theorem findsParts (bytes : List UInt8) : FindsParts bytes := by
  induction bytes with
  | nil =>
    refine ⟨.nil, fun p begun hp => ?_⟩
    rw [decodeFrom]
    exact .damaged hp.high .nil
  | cons b rest ih =>
    refine ⟨ih.outside_cons b, fun p begun hp => ?_⟩
    rw [decodeFrom_some_cons]
    split
    · next hb =>
      rw [List.append_cons]
      split
      · next hm =>
        have hchar := hp.whole _ _ (.last hm hb)
        rw [← hchar]
        exact .character _ ih.outside
      · next hm => exact ih.inside _ _ (hp.further hb hm)
    · exact .damaged hp.high (ih.outside_cons b)

/-- **What is found in bytes was written there.** -/
theorem parts_decode (bytes : List UInt8) : Parts bytes (decode bytes) := (findsParts bytes).outside

/-! ## Runs of parts -/

theorem Parts.of_append {bytes : List UInt8} {before after : List (Option Char)}
    (h : Parts bytes (before ++ after)) :
    ∃ b a, bytes = b ++ a ∧ Parts b before ∧ Parts a after := by
  induction before generalizing bytes with
  | nil => exact ⟨[], bytes, rfl, .nil, h⟩
  | cons o before ih =>
    rw [List.cons_append] at h
    cases h with
    | character c h =>
      obtain ⟨b, a, rfl, hb, ha⟩ := ih h
      exact ⟨_, a, (List.append_assoc ..).symm, .character c hb, ha⟩
    | damaged hp h =>
      obtain ⟨b, a, rfl, hb, ha⟩ := ih h
      exact ⟨_, a, (List.append_assoc ..).symm, .damaged hp hb, ha⟩

theorem Parts.eq_of_map_some {bytes : List UInt8} {s : List Char} (h : Parts bytes (s.map some)) :
    bytes = s.flatMap String.utf8EncodeChar := by
  induction s generalizing bytes with
  | nil =>
    cases h
    rfl
  | cons c s ih =>
    cases h with
    | character _ h => rw [ih h, List.flatMap_cons]

/-- At a character of one byte a sequence that has begun ends, be it unfinished. -/
theorem decodeFrom_append {b : UInt8} (hb : b.toNat < 0x80) (begun : Option Pending)
    (hp : ∀ p ∈ begun, 0x80 ≤ p.low.toNat) (before rest : List UInt8) :
    decodeFrom begun (before ++ b :: rest) =
      decodeFrom begun before ++ decodeFrom none (b :: rest) := by
  induction before generalizing begun with
  | nil =>
    cases begun with
    | none => rfl
    | some p =>
      have hout : ¬ (p.low ≤ b ∧ b ≤ p.high) := by
        have hlow := hp p rfl
        simp only [UInt8.le_iff_toNat_le]
        omega
      rw [List.nil_append, decodeFrom_some_cons, if_neg hout, decodeFrom]
      rfl
  | cons c before ih =>
    -- what follows outside a sequence follows inside one whose next byte is out of range
    have hnone : decodeFrom none (c :: before ++ b :: rest) =
        decodeFrom none (c :: before) ++ decodeFrom none (b :: rest) := by
      rw [List.cons_append, decodeFrom_none_cons, decodeFrom_none_cons c]
      cases hc : start c with
      | inl o => exact congrArg (o :: ·) (ih none (by simp))
      | inr p => exact ih (some p) (by simpa using (begunBy_of_start hc).next)
    cases begun with
    | none => exact hnone
    | some p =>
      rw [List.cons_append, decodeFrom_some_cons, decodeFrom_some_cons p c, ← List.cons_append,
        hnone]
      split
      · split
        · exact congrArg (some _ :: ·) (ih none (by simp))
        · exact ih (some _) (by simp)
      · rfl

theorem decode_flatMap_append (s : List Char) (rest : List UInt8) :
    decode (s.flatMap String.utf8EncodeChar ++ rest) = s.map some ++ decode rest := by
  induction s with
  | nil => rfl
  | cons c s ih =>
    rw [List.flatMap_cons, List.append_assoc, decode, decodeFrom_utf8EncodeChar, ← decode, ih]
    rfl

theorem decode_append {b : UInt8} (hb : b.toNat < 0x80) (before rest : List UInt8) :
    decode (before ++ b :: rest) = decode before ++ decode (b :: rest) :=
  decodeFrom_append hb none (by simp) before rest

end CiteStyle.Text.Utf8
