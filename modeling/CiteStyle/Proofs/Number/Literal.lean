import CiteStyle.Number.Literal
import CiteStyle.Proofs.Text.Trim

/-! # How numbers are spelled

`Spells` is the grammar of numbers: padding, a sign, digits with single underscores between them, a
point, an exponent, and three names. The scanner reads exactly what it describes
(`parse?_eq_some_iff`). It takes the longest run of digits each time and never goes back, which is
right because what follows a run in a number never goes on with it (`Stops`). -/

namespace CiteStyle.Number

open Text (digitValue? digitRows blankCodes isBlank CodeRanges Trims)

/-! ## The grammar -/

/-- Digits with single underscores between them, and their values. -/
inductive DigitPart : List Char → List Nat → Prop
  | last {c : Char} {d : Nat} (h : digitValue? c = some d) : DigitPart [c] [d]
  | next {c : Char} {d : Nat} {s : List Char} {ds : List Nat} (h : digitValue? c = some d)
      (hs : DigitPart s ds) : DigitPart (c :: s) (d :: ds)
  | underscore {c : Char} {d : Nat} {s : List Char} {ds : List Nat} (h : digitValue? c = some d)
      (hs : DigitPart s ds) : DigitPart (c :: '_' :: s) (d :: ds)

/-- A sign that may be missing, and whether it is negative. -/
inductive Signed : List Char → Bool → Prop
  | missing : Signed [] false
  | plus : Signed ['+'] false
  | minus : Signed ['-'] true

/-- Digits with or without a point: those before it and those after it. Some are needed. -/
inductive Mantissa : List Char → List Nat → List Nat → Prop
  | whole {s : List Char} {ds : List Nat} (h : DigitPart s ds) : Mantissa s ds []
  | pointed {s : List Char} {ds : List Nat} (h : DigitPart s ds) : Mantissa (s ++ ['.']) ds []
  | part {s : List Char} {ds : List Nat} (h : DigitPart s ds) : Mantissa ('.' :: s) [] ds
  | both {s t : List Char} {ds es : List Nat} (hs : DigitPart s ds) (ht : DigitPart t es) :
      Mantissa (s ++ '.' :: t) ds es

inductive Exponent : List Char → Int → Prop
  | missing : Exponent [] 0
  | written {c : Char} {s t : List Char} {negative : Bool} {ds : List Nat}
      (hc : c = 'e' ∨ c = 'E') (hs : Signed s negative) (ht : DigitPart t ds) :
      Exponent (c :: (s ++ t)) (if negative then -(valueOf ds : Int) else valueOf ds)

/-- What a text says that spells a number. -/
inductive Reading where
  | finite (negative : Bool) (digits : Nat) (exponent : Int)
  | infinite (negative : Bool)
  | nan

/-- The names of what is no finite number. -/
def names : List String := ["inf", "infinity", "nan"]

/-- A number without padding. Names are written in any case. -/
inductive Literal : List Char → Reading → Prop
  | finite {s m x : List Char} {negative : Bool} {whole part : List Nat} {e : Int}
      (hs : Signed s negative) (hm : Mantissa m whole part) (hx : Exponent x e) :
      Literal (s ++ (m ++ x)) (.finite negative (valueOf (whole ++ part)) (e - part.length))
  | infinite {s name : List Char} {negative : Bool} (hs : Signed s negative)
      (hn : String.ofList (name.map Char.toLower) = "inf" ∨
        String.ofList (name.map Char.toLower) = "infinity") :
      Literal (s ++ name) (.infinite negative)
  | nan {s name : List Char} {negative : Bool} (hs : Signed s negative)
      (hn : String.ofList (name.map Char.toLower) = "nan") : Literal (s ++ name) .nan

/-- A text that spells a number, with or without padding around it. -/
inductive Spells : List Char → Reading → Prop
  | padded {leading content trailing : List Char} {r : Reading} (hl : leading.all isPadding = true)
      (hc : Literal content r) (ht : trailing.all isPadding = true) :
      Spells (leading ++ (content ++ trailing)) r

def Reading.double : Reading → Double
  | finite negative digits exponent => .ofDecimal negative digits exponent
  | infinite negative => .infinite negative
  | nan => .nan

variable {c : Char} {d : Nat} {s t rest : List Char} {ds : List Nat} {negative : Bool}

/-! ## Characters -/

theorem digitRows_has (h : digitValue? c = some d) : digitRows.has c = true := by
  obtain ⟨r, hr, -⟩ := Option.map_eq_some_iff.mp h
  have hin := List.find?_some hr
  exact List.any_eq_true.mpr ⟨r, List.mem_of_find?_eq_some hr, hin⟩

theorem isBlank_of_isPadding (h : isPadding c = true) : isBlank c = true := by
  simp only [isPadding, Bool.or_eq_true, Bool.and_eq_true, beq_iff_eq, decide_eq_true_eq] at h
  obtain (rfl | hlow) | hhigh := h
  · decide
  · exact (CodeRanges.has_iff _ _).mpr ⟨(0x9, 0xd), by decide, hlow⟩
  · exact hhigh.2

theorem toLower_of_apart {ranges : CodeRanges} (h : ∀ r ∈ ranges, r.2 < 0x41 ∨ 0x5a < r.1)
    (hc : ranges.has c = true) : c.toLower = c := by
  have hupper : CodeRanges.has [(0x41, 0x5a)] c = false :=
    CodeRanges.not_has_of_apart (by simpa using h) hc
  unfold Char.toLower
  split
  · next hrange =>
    have : CodeRanges.has [(0x41, 0x5a)] c = true :=
      (CodeRanges.has_iff _ _).mpr ⟨_, List.mem_singleton.mpr rfl, hrange.1, hrange.2⟩
    rw [hupper] at this
    cases this
  · rfl

theorem toLower_of_digit (h : digitValue? c = some d) : c.toLower = c :=
  toLower_of_apart (by decide +kernel) (digitRows_has h)

theorem toLower_of_isPadding (h : isPadding c = true) : c.toLower = c :=
  toLower_of_apart (by decide +kernel) (isBlank_of_isPadding h)

/-! ## Runs of digits -/

/-- A text that does not go on with a run of digits. -/
def Stops (s : List Char) : Prop := ∀ c, s.head? = some c → digitValue? c = none ∧ c ≠ '_'

theorem stops_nil : Stops [] := nofun

theorem digits_cons (h : digitValue? c = some d) (afterDigit : Bool) (rest : List Char) :
    digits afterDigit (c :: rest) = (d :: (digits true rest).1, (digits true rest).2) := by
  rw [digits, h]

theorem DigitPart.head (h : DigitPart s ds) :
    ∃ c d rest, s = c :: rest ∧ digitValue? c = some d := by
  cases h with
  | last h => exact ⟨_, _, _, rfl, h⟩
  | next h hs => exact ⟨_, _, _, rfl, h⟩
  | underscore h hs => exact ⟨_, _, _, rfl, h⟩

theorem digits_underscore (h : digitValue? c = some d) (rest : List Char) :
    digits true ('_' :: c :: rest) = digits false (c :: rest) := by
  have hnone : digitValue? '_' = none := by decide +kernel
  rw [digits, hnone]
  simp [h]

theorem digits_of_stops (h : Stops s) (afterDigit : Bool) : digits afterDigit s = ([], s) := by
  cases s with
  | nil => rfl
  | cons c rest =>
    obtain ⟨hnone, hunderscore⟩ := h c rfl
    rw [digits, hnone]
    simp [hunderscore]

/-- A run is taken as a whole. -/
theorem digits_append (h : DigitPart s ds) (hrest : Stops rest) (afterDigit : Bool) :
    digits afterDigit (s ++ rest) = (ds, rest) := by
  induction h generalizing afterDigit with
  | last h => rw [List.singleton_append, digits_cons h, digits_of_stops hrest]
  | next h hs ih => rw [List.cons_append, digits_cons h, ih]
  | @underscore _ _ s' _ h hs ih =>
    obtain ⟨c', d', rest', rfl, hdigit⟩ := hs.head
    rw [List.cons_append, digits_cons h, List.cons_append, List.cons_append,
      digits_underscore hdigit, ← List.cons_append, ih]

/-- What is taken is nothing or a run; an underscore comes before it only after another digit. -/
theorem digits_split (afterDigit : Bool) (s : List Char) : digits afterDigit s = ([], s) ∨
    ∃ run, DigitPart run (digits afterDigit s).1 ∧
      (s = run ++ (digits afterDigit s).2 ∨
        afterDigit = true ∧ s = '_' :: (run ++ (digits afterDigit s).2)) := by
  induction s generalizing afterDigit with
  | nil => exact .inl rfl
  | cons c rest ih =>
    cases hc : digitValue? c with
    | some d =>
      rw [digits_cons hc]
      right
      obtain hnone | ⟨run, hrun, hsplit | ⟨-, hsplit⟩⟩ := ih true
      · rw [hnone]
        exact ⟨[c], .last hc, .inl rfl⟩
      · exact ⟨c :: run, .next hc hrun, .inl (congrArg (c :: ·) hsplit)⟩
      · exact ⟨c :: '_' :: run, .underscore hc hrun, .inl (congrArg (c :: ·) hsplit)⟩
    | none =>
      rw [digits, hc]
      dsimp only
      split
      · next hcond =>
        simp only [Bool.and_eq_true, beq_iff_eq] at hcond
        obtain ⟨⟨rfl, rfl⟩, hdigit⟩ := hcond
        obtain hnone | ⟨run, hrun, hsplit | ⟨hfalse, -⟩⟩ := ih false
        · cases rest with
          | nil => cases hdigit
          | cons c' rest' =>
            obtain ⟨d', hd'⟩ := Option.isSome_iff_exists.mp (by simpa using hdigit)
            rw [digits_cons hd'] at hnone
            cases hnone
        · exact .inr ⟨run, hrun, .inr ⟨rfl, congrArg ('_' :: ·) hsplit⟩⟩
        · cases hfalse
      · exact .inl rfl

/-- A run of digits that may be missing. -/
inductive Run : List Char → List Nat → Prop
  | missing : Run [] []
  | present {s : List Char} {ds : List Nat} (h : DigitPart s ds) : Run s ds

theorem digits_run (h : Run s ds) (hrest : Stops rest) : digits false (s ++ rest) = (ds, rest) := by
  cases h with
  | missing => exact digits_of_stops hrest false
  | present h => exact digits_append h hrest false

theorem exists_run (s : List Char) :
    ∃ run, Run run (digits false s).1 ∧ s = run ++ (digits false s).2 := by
  obtain hnone | ⟨run, hrun, hsplit | ⟨hfalse, -⟩⟩ := digits_split false s
  · rw [hnone]
    exact ⟨[], .missing, rfl⟩
  · exact ⟨run, .present hrun, hsplit⟩
  · cases hfalse

theorem DigitPart.isEmpty_eq_false (h : DigitPart s ds) : ds.isEmpty = false := by
  cases h <;> rfl

/-- All of a text is taken, and something, exactly if it is a run. -/
theorem digits_whole_iff : digits false s = (ds, []) ∧ ds ≠ [] ↔ DigitPart s ds := by
  constructor
  · rintro ⟨hdigits, hne⟩
    obtain ⟨run, hrun, hs⟩ := exists_run s
    rw [hdigits] at hrun hs
    obtain rfl : s = run := by rw [hs, List.append_nil]
    cases hrun with
    | missing => exact absurd rfl hne
    | present hrun => exact hrun
  · intro h
    refine ⟨?_, by rintro rfl; cases h⟩
    rw [← List.append_nil s]
    exact digits_append h stops_nil false

/-! ## Signs and exponents -/

theorem sign_append (h : Signed s negative) (hminus : rest.head? ≠ some '-')
    (hplus : rest.head? ≠ some '+') : sign (s ++ rest) = (negative, rest) := by
  cases h with
  | plus => rfl
  | minus => rfl
  | missing =>
    rw [List.nil_append]
    unfold sign
    split
    · exact absurd rfl hminus
    · exact absurd rfl hplus
    · rfl

theorem sign_split (s : List Char) : ∃ t, Signed t (sign s).1 ∧ s = t ++ (sign s).2 := by
  unfold sign
  split
  · exact ⟨['-'], .minus, rfl⟩
  · exact ⟨['+'], .plus, rfl⟩
  · exact ⟨[], .missing, rfl⟩

def BeginsDigits (s : List Char) : Prop :=
  ∃ c rest, s = c :: rest ∧ (c = '.' ∨ ∃ d, digitValue? c = some d)

theorem DigitPart.begins (h : DigitPart s ds) : BeginsDigits s := by
  obtain ⟨c, d, rest, rfl, hd⟩ := h.head
  exact ⟨c, rest, rfl, .inr ⟨d, hd⟩⟩

theorem BeginsDigits.append (h : BeginsDigits s) (rest : List Char) : BeginsDigits (s ++ rest) := by
  obtain ⟨c, rest', rfl, hc⟩ := h
  exact ⟨c, rest' ++ rest, rfl, hc⟩

theorem BeginsDigits.head?_ne (h : BeginsDigits s) {e : Char} (he : digitValue? e = none)
    (hp : e ≠ '.') : s.head? ≠ some e := by
  obtain ⟨c, rest, rfl, rfl | ⟨d, hd⟩⟩ := h
  · simpa using hp.symm
  · rintro ⟨⟩
    rw [he] at hd
    cases hd

theorem BeginsDigits.sign_append (h : BeginsDigits t) (hs : Signed s negative) :
    sign (s ++ t) = (negative, t) :=
  Number.sign_append hs (h.head?_ne (by decide +kernel) (by decide))
    (h.head?_ne (by decide +kernel) (by decide))

theorem exponent?_eq_some_iff {e : Int} : exponent? s = some e ↔ Exponent s e := by
  constructor
  · intro h
    cases s with
    | nil =>
      obtain rfl := Option.some.inj h
      exact .missing
    | cons c rest =>
      obtain ⟨t, hsigned, hrest⟩ := sign_split rest
      simp only [exponent?, Bool.or_eq_true, beq_iff_eq] at h
      generalize sign rest = signed at hsigned hrest h
      obtain ⟨negative, body⟩ := signed
      subst hrest
      split at h
      · next hc =>
        split at h
        · cases h
        · next ds hne hdigits =>
          obtain rfl := Option.some.inj h
          exact .written hc hsigned (digits_whole_iff.mp ⟨hdigits, hne⟩)
        · cases h
      · cases h
  · intro h
    cases h with
    | missing => rfl
    | written hc hs ht =>
      rw [exponent?, if_pos (by simpa using hc), ht.begins.sign_append hs]
      dsimp only
      rw [(digits_whole_iff.mpr ht).1]
      cases ht <;> rfl

theorem Exponent.stops {e : Int} (h : Exponent s e) : Stops s ∧ s.head? ≠ some '.' := by
  cases h with
  | missing => exact ⟨nofun, nofun⟩
  | written hc hs ht =>
    obtain rfl | rfl := hc
    · refine ⟨?_, by simp⟩
      rintro c ⟨⟩
      exact ⟨by decide +kernel, by decide⟩
    · refine ⟨?_, by simp⟩
      rintro c ⟨⟩
      exact ⟨by decide +kernel, by decide⟩

/-! ## Finite numbers -/

theorem finite?_of_point {whole : List Nat} (h : digits false s = (whole, '.' :: rest)) :
    finite? negative s =
      if whole.isEmpty && (digits false rest).1.isEmpty then none
      else (exponent? (digits false rest).2).map fun e =>
        .ofDecimal negative (valueOf (whole ++ (digits false rest).1))
          (e - (digits false rest).1.length) := by
  unfold finite?
  rw [h]
  rfl

theorem finite?_of_no_point {whole : List Nat} (h : digits false s = (whole, rest))
    (hp : rest.head? ≠ some '.') :
    finite? negative s =
      if whole.isEmpty then none
      else (exponent? rest).map fun e => .ofDecimal negative (valueOf whole) e := by
  unfold finite?
  rw [h]
  dsimp only
  split
  · exact absurd rfl hp
  · simp

theorem mantissa_iff {m : List Char} {whole part : List Nat} : Mantissa m whole part ↔
    DigitPart m whole ∧ part = [] ∨ ∃ s t, m = s ++ '.' :: t ∧ Run s whole ∧ Run t part ∧
      (whole.isEmpty && part.isEmpty) = false := by
  constructor
  · intro h
    cases h with
    | whole h => exact .inl ⟨h, rfl⟩
    | pointed h => exact .inr ⟨_, [], rfl, .present h, .missing, by rw [h.isEmpty_eq_false]; rfl⟩
    | part h => exact .inr ⟨[], _, rfl, .missing, .present h, by rw [h.isEmpty_eq_false]; rfl⟩
    | both hs ht =>
      exact .inr ⟨_, _, rfl, .present hs, .present ht, by rw [hs.isEmpty_eq_false]; rfl⟩
  · rintro (⟨h, rfl⟩ | ⟨s, t, rfl, hs, ht, hne⟩)
    · exact .whole h
    · cases hs with
      | missing =>
        cases ht with
        | missing => cases hne
        | present ht => exact .part ht
      | present hs =>
        cases ht with
        | missing => exact .pointed hs
        | present ht => exact .both hs ht

theorem stops_point (rest : List Char) : Stops ('.' :: rest) := by
  rintro c ⟨⟩
  exact ⟨by decide +kernel, by decide⟩

/-- Digits with or without a point, and then a power of ten. -/
theorem finite?_eq_some_iff {x : Double} : finite? negative s = some x ↔
    ∃ m after whole part e, s = m ++ after ∧ Mantissa m whole part ∧ Exponent after e ∧
      x = .ofDecimal negative (valueOf (whole ++ part)) (e - part.length) := by
  constructor
  · intro h
    obtain ⟨start, hstart, hs⟩ := exists_run s
    rcases hdigits : digits false s with ⟨whole, rest⟩
    rw [hdigits] at hstart hs
    by_cases hp : rest.head? = some '.'
    · obtain ⟨r, rfl⟩ := List.head?_eq_some_iff.mp hp
      obtain ⟨run, hrun, hr⟩ := exists_run r
      rw [finite?_of_point hdigits] at h
      split at h
      · cases h
      · next hne =>
        obtain ⟨e, he, rfl⟩ := Option.map_eq_some_iff.mp h
        have hm := mantissa_iff.mpr (.inr ⟨start, run, rfl, hstart, hrun, by simpa using hne⟩)
        refine ⟨_, _, _, _, e, ?_, hm, exponent?_eq_some_iff.mp he, rfl⟩
        rw [List.append_assoc, List.cons_append, ← hr]
        exact hs
    · rw [finite?_of_no_point hdigits hp] at h
      split at h
      · cases h
      · next hne =>
        obtain ⟨e, he, rfl⟩ := Option.map_eq_some_iff.mp h
        cases hstart with
        | missing => exact absurd rfl hne
        | present hstart =>
          exact ⟨start, rest, whole, [], e, hs, .whole hstart, exponent?_eq_some_iff.mp he, by simp⟩
  · rintro ⟨m, after, whole, part, e, rfl, hm, hx, rfl⟩
    obtain ⟨hstops, hpoint⟩ := hx.stops
    have he := exponent?_eq_some_iff.mpr hx
    obtain ⟨hwhole, rfl⟩ | ⟨start, run, rfl, hstart, hrun, hne⟩ := mantissa_iff.mp hm
    · rw [finite?_of_no_point (digits_append hwhole hstops false) hpoint, hwhole.isEmpty_eq_false,
        he]
      simp
    · have hdigits : digits false (start ++ '.' :: run ++ after) =
          (whole, '.' :: (run ++ after)) := by
        rw [List.append_assoc, List.cons_append]
        exact digits_run hstart (stops_point _)
      rw [finite?_of_point hdigits, digits_run hrun hstops, hne, he]
      rfl

/-! ## Names and padding -/

theorem isPadding_of_digit (h : digitValue? c = some d) : isPadding c = false := by
  have hblank : isBlank c = false :=
    CodeRanges.not_has_of_apart (by decide +kernel) (digitRows_has h)
  rw [Bool.eq_false_iff]
  intro hp
  rw [isBlank_of_isPadding hp] at hblank
  cases hblank

theorem Signed.unpadded (h : Signed s negative) : ∀ c ∈ s, isPadding c = false := by
  cases h with
  | missing => exact nofun
  | plus => simpa using (show isPadding '+' = false by decide)
  | minus => simpa using (show isPadding '-' = false by decide)

theorem DigitPart.unpadded (h : DigitPart s ds) : ∀ c ∈ s, isPadding c = false := by
  have hunderscore : isPadding '_' = false := by decide +kernel
  induction h with
  | last h => simpa using isPadding_of_digit h
  | next h hs ih => simpa using ⟨isPadding_of_digit h, ih⟩
  | underscore h hs ih => simpa using ⟨isPadding_of_digit h, hunderscore, ih⟩

theorem Mantissa.unpadded {whole part : List Nat} (h : Mantissa s whole part) :
    ∀ c ∈ s, isPadding c = false := by
  have hpoint : isPadding '.' = false := by decide +kernel
  cases h with
  | whole h => exact h.unpadded
  | pointed h => simpa [or_imp, forall_and, hpoint] using h.unpadded
  | part h => simpa [hpoint] using h.unpadded
  | both hs ht => simpa [or_imp, forall_and, hpoint] using ⟨hs.unpadded, ht.unpadded⟩

theorem Exponent.unpadded {e : Int} (h : Exponent s e) : ∀ c ∈ s, isPadding c = false := by
  cases h with
  | missing => exact nofun
  | @written c s t negative ds hc hs ht =>
    have hletter : isPadding c = false := by obtain rfl | rfl := hc <;> decide +kernel
    simpa [or_imp, forall_and, hletter] using ⟨hs.unpadded, ht.unpadded⟩

/-- No character of a name in any case is anything else than its letters. -/
theorem ne_of_name {name : List Char} {text : String}
    (h : String.ofList (name.map Char.toLower) = text) {e : Char} (he : e.toLower ∉ text.toList) :
    e ∉ name := by
  intro hmem
  rw [← h, String.toList_ofList] at he
  exact he (List.mem_map_of_mem hmem)

/-- The letters of names are neither padding, nor do numbers begin with them or with a sign. -/
theorem letter_of_names {text : String} (ht : text ∈ names) {e : Char} (he : e ∈ text.toList) :
    isPadding e = false ∧ digitValue? e = none ∧ e ≠ '.' ∧ e ≠ '-' ∧ e ≠ '+' := by
  have hall : names.all (fun t => t.toList.all fun e => !isPadding e &&
      ((digitValue? e).isNone && (e != '.' && (e != '-' && e != '+')))) = true := by
    decide +kernel
  simpa using List.all_eq_true.mp (List.all_eq_true.mp hall text ht) e he

theorem unpadded_of_name {name : List Char} {text : String}
    (h : String.ofList (name.map Char.toLower) = text) (ht : text ∈ names) :
    ∀ c ∈ name, isPadding c = false := by
  intro c hc
  rw [Bool.eq_false_iff]
  intro hp
  refine ne_of_name h (e := c) ?_ hc
  rw [toLower_of_isPadding hp]
  intro hmem
  rw [(letter_of_names ht hmem).1] at hp
  cases hp

theorem Literal.unpadded {r : Reading} (h : Literal s r) : ∀ c ∈ s, isPadding c = false := by
  cases h with
  | finite hs hm hx =>
    simpa [or_imp, forall_and] using ⟨hs.unpadded, hm.unpadded, hx.unpadded⟩
  | infinite hs hn =>
    have hname := hn.elim (unpadded_of_name · (by decide)) (unpadded_of_name · (by decide))
    simpa [or_imp, forall_and] using ⟨hs.unpadded, hname⟩
  | nan hs hn =>
    simpa [or_imp, forall_and] using ⟨hs.unpadded, unpadded_of_name hn (by decide)⟩

theorem strip_eq {leading content trailing : List Char}
    (h : Trims isPadding s leading content trailing) : strip s = content := by
  rw [strip, h.dropWhile_eq, h.drop_leading.reverse.dropWhile_eq]
  simp

theorem strip_of_all_padding (h : s.all isPadding = true) : strip s = [] := by
  have hdrop : (s ++ []).dropWhile isPadding = [] :=
    List.dropWhile_append_of_pos (List.all_eq_true.mp h)
  rw [List.append_nil] at hdrop
  rw [strip, hdrop]
  rfl

/-! ## Reading -/

theorem Mantissa.begins {m : List Char} {whole part : List Nat} (h : Mantissa m whole part) :
    BeginsDigits m := by
  cases h with
  | whole h => exact h.begins
  | pointed h => exact h.begins.append _
  | part h => exact ⟨'.', _, rfl, .inl rfl⟩
  | both hs ht => exact hs.begins.append _

theorem BeginsDigits.no_name (h : BeginsDigits s) {text : String} (ht : text ∈ names) :
    String.ofList (s.map Char.toLower) ≠ text := by
  obtain ⟨c, rest, rfl, hc⟩ := h
  intro hname
  refine ne_of_name hname (e := c) (fun hmem => ?_) List.mem_cons_self
  obtain ⟨-, hdigit, hpoint, -⟩ := letter_of_names ht hmem
  obtain rfl | ⟨d, hd⟩ := hc
  · exact hpoint rfl
  · rw [toLower_of_digit hd, hd] at hdigit
    cases hdigit

theorem parse?_of_begins (h : BeginsDigits t) (hs : sign (strip s) = (negative, t)) :
    parse? s = finite? negative t := by
  have hnone : ¬ (String.ofList (t.map Char.toLower) = "inf" ∨
      String.ofList (t.map Char.toLower) = "infinity") :=
    not_or.mpr ⟨h.no_name (by decide), h.no_name (by decide)⟩
  unfold parse?
  rw [hs]
  dsimp only
  rw [if_neg (by simpa using hnone), if_neg (h.no_name (by decide))]

theorem parse?_of_name {name : List Char} (hs : strip s = t ++ name) (ht : Signed t negative)
    {text : String} (hn : String.ofList (name.map Char.toLower) = text) (htext : text ∈ names) :
    parse? s = if text = "nan" then some .nan else some (.infinite negative) := by
  have hminus : '-' ∉ name := ne_of_name hn fun h => (letter_of_names htext h).2.2.2.1 rfl
  have hplus : '+' ∉ name := ne_of_name hn fun h => (letter_of_names htext h).2.2.2.2 rfl
  have hsign := sign_append ht (fun h => hminus (List.mem_of_head? h))
    fun h => hplus (List.mem_of_head? h)
  unfold parse?
  rw [hs, hsign]
  dsimp only
  rw [hn]
  simp only [names, List.mem_cons, List.not_mem_nil, or_false] at htext
  obtain rfl | rfl | rfl := htext <;> rfl

theorem parse?_eq_some_iff_literal {x : Double} :
    parse? s = some x ↔ ∃ r, Literal (strip s) r ∧ r.double = x := by
  constructor
  · intro h
    obtain ⟨t, ht, hstrip⟩ := sign_split (strip s)
    rw [hstrip]
    unfold parse? at h
    dsimp only at h
    split at h
    · next hname =>
      obtain rfl := Option.some.inj h
      exact ⟨_, .infinite ht (by simpa using hname), rfl⟩
    · split at h
      · next hname =>
        obtain rfl := Option.some.inj h
        exact ⟨_, .nan ht hname, rfl⟩
      · obtain ⟨m, after, whole, part, e, hbody, hm, hx, rfl⟩ := finite?_eq_some_iff.mp h
        rw [hbody]
        exact ⟨_, .finite ht hm hx, rfl⟩
  · rintro ⟨r, h, rfl⟩
    generalize hs : strip s = content at h
    cases h with
    | infinite ht hn =>
      obtain hn | hn := hn
      · exact parse?_of_name hs ht hn (by decide)
      · exact parse?_of_name hs ht hn (by decide)
    | nan ht hn => exact parse?_of_name hs ht hn (by decide)
    | @finite t m after negative whole part e ht hm hx =>
      have hbegins := hm.begins.append after
      rw [parse?_of_begins hbegins (hs ▸ hbegins.sign_append ht)]
      exact finite?_eq_some_iff.mpr ⟨m, after, whole, part, e, rfl, hm, hx, rfl⟩

theorem strip_padded {leading content trailing : List Char} (hl : leading.all isPadding = true)
    (hc : ∀ c ∈ content, isPadding c = false) (ht : trailing.all isPadding = true) :
    strip (leading ++ (content ++ trailing)) = content := by
  by_cases hne : content = []
  · rw [hne, List.nil_append]
    exact strip_of_all_padding (by rw [List.all_append, hl, ht]; rfl)
  · exact strip_eq ⟨rfl, hl, ht,
      ⟨_, List.head?_eq_some_head hne, hc _ (List.head_mem hne)⟩,
      ⟨_, List.getLast?_eq_some_getLast hne, hc _ (List.getLast_mem hne)⟩⟩

/-- **Reading a number.** A text is read as a number exactly if it spells one, and as the number
that it spells. -/
theorem parse?_eq_some_iff {x : Double} :
    parse? s = some x ↔ ∃ r, Spells s r ∧ r.double = x := by
  rw [parse?_eq_some_iff_literal]
  constructor
  · rintro ⟨r, hr, rfl⟩
    refine ⟨r, ?_, rfl⟩
    cases h : s.all isPadding with
    | true =>
      rw [strip_of_all_padding h] at hr
      have hnone : ([] : List Char).all isPadding = true := rfl
      simpa using Spells.padded h hr hnone
    | false =>
      obtain ⟨leading, content, trailing, ht⟩ := Text.exists_trims h
      rw [strip_eq ht] at hr
      rw [ht.parts]
      exact .padded ht.leading hr ht.trailing
  · rintro ⟨r, ⟨hl, hc, ht⟩, rfl⟩
    refine ⟨r, ?_, rfl⟩
    rw [strip_padded hl hc.unpadded ht]
    exact hc

end CiteStyle.Number
