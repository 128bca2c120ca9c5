import CiteStyle.Proofs.Declaration
import CiteStyle.Proofs.Xml.Writing

/-! # Parts of written trees

Every part of the text of a tree is read back whatever follows it, as long as it can tell where the
part ends: names, characters and references, attributes, and tags. These are the pieces of content
(`token_character`, `token_opening`, `token_closing`) from which a tree is built. -/

namespace CiteStyle

namespace Xml

open Text (isHexDigit numeral)

variable {s r : List Char} {c : Char}

/-! ## Names -/

theorem takeWhile_append_of_stop {p : Char → Bool} (hs : ∀ c ∈ s, p c = true)
    (hr : ∀ c ∈ r.head?, p c = false) : (s ++ r).takeWhile p = s := by
  have hstop : r.takeWhile p = [] := by
    cases r with
    | nil => rfl
    | cons c r => simp [hr c rfl]
  rw [List.takeWhile_append_of_pos hs, hstop, List.append_nil]

theorem dropWhile_append_of_stop {p : Char → Bool} (hs : ∀ c ∈ s, p c = true)
    (hr : ∀ c ∈ r.head?, p c = false) : (s ++ r).dropWhile p = r := by
  rw [List.dropWhile_append_of_pos hs]
  cases r with
  | nil => rfl
  | cons c r => simp [hr c rfl]

/-- A text in which no name goes on. -/
def EndsName (r : List Char) : Prop := ∀ c ∈ r.head?, (isNamePart c || c == ':') = false

theorem endsName_cons (c : Char) (r : List Char) (h : (isNamePart c || c == ':') = false) :
    EndsName (c :: r) := by
  intro d hd
  exact Option.some.inj hd ▸ h

theorem isName_iff : isName s = true ↔
    ∃ c t, s = c :: t ∧ isNameStart c = true ∧ ∀ d ∈ t, isNamePart d = true := by
  cases s with
  | nil => simp [isName]
  | cons c t => simp [isName]

/-- A text that begins with a name begins with nothing else. -/
theorem name_append_ne {t : List Char} (hs : isName s = true) (hc : isNameStart c = false) :
    s ++ r ≠ c :: t := by
  obtain ⟨d, n, rfl, hd, -⟩ := isName_iff.mp hs
  intro h
  rw [(List.cons.inj h).1, hc] at hd
  cases hd

theorem plainName?_append (hs : isName s = true) (hr : EndsName r) :
    plainName? (s ++ r) = some (s, r) := by
  obtain ⟨c, t, rfl, hc, ht⟩ := isName_iff.mp hs
  have hstop : ∀ d ∈ r.head?, isNamePart d = false := fun d hd =>
    (Bool.or_eq_false_iff.mp (hr d hd)).1
  rw [List.cons_append, plainName?, if_pos hc, takeWhile_append_of_stop ht hstop,
    dropWhile_append_of_stop ht hstop]

theorem name?_append (hs : isName s = true) (hr : EndsName r) : name? (s ++ r) = some (s, r) := by
  obtain ⟨c, t, rfl, hc, ht⟩ := isName_iff.mp hs
  have hpart : ∀ d ∈ t, (isNamePart d || d == ':') = true := by
    intro d hd
    rw [ht d hd, Bool.true_or]
  rw [List.cons_append, name?, hc, Bool.true_or, if_pos rfl, takeWhile_append_of_stop hpart hr,
    dropWhile_append_of_stop hpart hr]

theorem qualifiedName_append (hs : isName s = true) (hr : EndsName r) :
    qualifiedName (s ++ r) = .ok (⟨none, String.ofList s⟩, r) := by
  unfold qualifiedName
  rw [plainName?_append hs hr]
  split
  · next h => cases h
  · next h =>
    cases h
    exact absurd (hr ':' rfl) (by decide)
  · next h =>
    cases h
    rfl

/-! ## References -/

/-- What a reference stands for, be it a character or an entity that every document knows. -/
def Reference.Means (x : Reference) (c : Char) : Prop :=
  x = .character c ∨ ∃ name, x = .entity name ∧ predefined? name = some c

theorem Reference.Means.token {x : Reference} (h : x.Means c) : x.token = .text [c] := by
  rcases h with rfl | ⟨name, rfl, hname⟩
  · rfl
  · rw [Reference.token, hname]

theorem Reference.Means.text? {x : Reference} (h : x.Means c) (entities : Entities) :
    x.text? entities.attributeText? = some [c] := by
  rcases h with rfl | ⟨name, rfl, hname⟩
  · rfl
  · rw [Reference.text?, Entities.attributeText?, Entities.expansion?, hname]

theorem numeric_append {base : Nat} {digit : Char → Bool} {digits : List Char}
    (hdigits : ∀ d ∈ digits, digit d = true) (hend : digit ';' = false)
    (hvalue : numeral base digits = c.toNat) (hc : isChar c = true) :
    numeric base digit (digits ++ ';' :: r) = .ok (.character c, r) := by
  have hstop : ∀ d ∈ (';' :: r).head?, digit d = false := by
    intro d hd
    exact Option.some.inj hd ▸ hend
  rw [numeric, dropWhile_append_of_stop hdigits hstop, takeWhile_append_of_stop hdigits hstop]
  simp only [hvalue, Char.ofNat_toNat, hc, if_true]

theorem isName_of_predefined? {name : String} (h : predefined? name = some c) :
    isName name.toList = true := by
  unfold predefined? at h
  split at h
  · next hn => rw [hn]; decide
  · split at h
    · next hn => rw [hn]; decide
    · split at h
      · next hn => rw [hn]; decide
      · split at h
        · next hn => rw [hn]; decide
        · split at h
          · next hn => rw [hn]; decide
          · cases h

theorem reference_name (hs : isName s = true) :
    reference (s ++ ';' :: r) = .ok (.entity (String.ofList s), r) := by
  have hname := name?_append hs (endsName_cons ';' r (by decide))
  unfold reference
  split
  · next h => exact absurd h (name_append_ne hs (by decide))
  · next h => exact absurd h (name_append_ne hs (by decide))
  · rw [hname]
    rfl

theorem reference_decimal {digits : List Char} (hdigits : ∀ d ∈ digits, d.isDigit = true) :
    reference ('#' :: (digits ++ ';' :: r)) = numeric 10 Char.isDigit (digits ++ ';' :: r) := by
  unfold reference
  split
  · next t h =>
    obtain ⟨-, h⟩ := List.cons.inj h
    cases digits with
    | nil => exact absurd (List.cons.inj h).1 (by decide)
    | cons d digits =>
      have hd := hdigits d List.mem_cons_self
      rw [(List.cons.inj h).1] at hd
      exact absurd hd (by decide)
  · next h => rw [(List.cons.inj h).2]
  · next h => exact absurd rfl (h _)

/-- A written character is read as itself or as a reference that means it. -/
theorem CharWritten.cases {p : List Char} (h : CharWritten c p) (hc : isChar c = true) :
    (p = [c] ∧ c ∉ reservedCharacters) ∨
      ∃ q x, p = '&' :: q ∧ Reference.Means x c ∧ ∀ r, reference (q ++ r) = .ok (x, r) := by
  cases h with
  | plain h => exact .inl ⟨rfl, h⟩
  | @named name h =>
    refine .inr ⟨_, _, rfl, .inr ⟨name, rfl, h⟩, fun r => ?_⟩
    rw [List.append_assoc, List.singleton_append, reference_name (isName_of_predefined? h),
      String.ofList_toList]
  | decimal h hvalue =>
    refine .inr ⟨_, _, rfl, .inl rfl, fun r => ?_⟩
    rw [List.cons_append, List.append_assoc, List.singleton_append, reference_decimal h,
      numeric_append h (by decide) hvalue hc]
  | hexadecimal h hvalue =>
    refine .inr ⟨_, _, rfl, .inl rfl, fun r => ?_⟩
    rw [List.cons_append, List.cons_append, List.append_assoc, List.singleton_append]
    exact numeric_append h (by decide) hvalue hc

/-! ## Attributes -/

/-- What is left to do at a piece of an attribute value. -/
theorem attributeText_cons (resolve : String → Option (List Char)) (mark : Option Char) (c : Char)
    (r : List Char) : attributeText resolve mark (c :: r) =
      if mark = some c then .ok ([], r)
      else
        match attributePiece resolve (c :: r) with
        | .error e => .error e
        | .ok (piece, t) =>
          match attributeText resolve mark t with
          | .error e => .error e
          | .ok (v, u) => .ok (piece ++ v, u) := by
  rw [attributeText]
  split
  · rfl
  · split
    · next h => rw [h]
    · next h => grind

theorem attributePiece_written {p : List Char} (entities : Entities) (h : CharWritten c p)
    (hc : isChar c = true) :
    attributePiece entities.attributeText? (p ++ r) = .ok ([c], r) := by
  rcases h.cases hc with ⟨rfl, hplain⟩ | ⟨q, x, rfl, hx, href⟩
  · simp only [reservedCharacters, List.mem_cons, List.not_mem_nil, or_false, not_or] at hplain
    obtain ⟨hamp, hless, -, -, htab, hfeed, hreturn⟩ := hplain
    -- White space becomes a space in a value; only the space itself is written as it is.
    by_cases hspace : c = ' '
    · rw [hspace]
      rfl
    · have hno : isSpace c = false := by simp [isSpace, hspace, htab, hfeed, hreturn]
      rw [List.singleton_append]
      unfold attributePiece
      split
      · next h => cases h
      · next h => exact absurd (List.cons.inj h).1 hamp
      · next h =>
        cases h
        simp [hless, hc, hno]
  · rw [List.cons_append, attributePiece, href r]
    dsimp only
    rw [hx.text?]

theorem CharWritten.begins {p : List Char} (h : CharWritten c p) :
    ∃ d q, p = d :: q ∧ d ∉ ['"', '<', '>'] := by
  cases h with
  | plain h =>
    refine ⟨c, [], rfl, fun hc => h ?_⟩
    simp only [reservedCharacters, List.mem_cons, List.not_mem_nil, or_false] at hc ⊢
    rcases hc with rfl | rfl | rfl <;> simp
  | named _ => exact ⟨'&', _, rfl, by decide⟩
  | decimal _ _ => exact ⟨'&', _, rfl, by decide⟩
  | hexadecimal _ _ => exact ⟨'&', _, rfl, by decide⟩

/-- A value is read up to the mark behind it. -/
theorem attributeText_written {written : List Char} (entities : Entities)
    (h : TextWritten s written) (hs : ∀ c ∈ s, isChar c = true) :
    attributeText entities.attributeText? (some '"') (written ++ '"' :: r) = .ok (s, r) := by
  induction h with
  | nil =>
    rw [List.nil_append, attributeText_cons]
    exact if_pos rfl
  | @cons c s p written hp _ ih =>
    obtain ⟨hc, hs⟩ := List.forall_mem_cons.mp hs
    have hpiece := attributePiece_written (r := written ++ '"' :: r) entities hp hc
    obtain ⟨d, q, rfl, hd⟩ := hp.begins
    have hmark : some '"' ≠ some d := by
      rintro h
      exact hd (Option.some.inj h ▸ by decide)
    rw [List.append_assoc]
    rw [List.cons_append] at hpiece ⊢
    rw [attributeText_cons, if_neg hmark, hpiece]
    dsimp only
    rw [ih hs]
    rfl

/-! ## Tags -/

theorem isSpace_of_isFiller (h : isFiller c = true) : isSpace c = true := by
  rw [isSpace, Bool.or_eq_true]
  exact .inl h

theorem isSpace_of_isNameStart (h : isNameStart c = true) : isSpace c = false := by
  rw [Bool.eq_false_iff]
  intro hspace
  simp only [isSpace, Bool.or_eq_true, beq_iff_eq] at hspace
  rcases hspace with ((rfl | rfl) | rfl) | rfl <;> exact absurd h (by decide)

/-- White space before a name is passed over, and the name is not. -/
theorem skipSpace_name {space : List Char} (hspace : ∀ c ∈ space, isFiller c = true)
    (hs : isName s = true) : skipSpace (space ++ (s ++ r)) = s ++ r := by
  obtain ⟨c, t, rfl, hc, -⟩ := isName_iff.mp hs
  rw [skipSpace_append fun d hd => isSpace_of_isFiller (hspace d hd)]
  exact List.dropWhile_cons_of_neg (by rw [isSpace_of_isNameStart hc]; exact Bool.false_ne_true)

def unqualified (a : String × String) : Attribute := ⟨⟨none, a.1⟩, a.2⟩

theorem singleAttribute_written {name value : String} {written : List Char} (entities : Entities)
    (hname : isName name.toList = true) (h : TextWritten value.toList written)
    (hvalue : ∀ c ∈ value.toList, isChar c = true) :
    singleAttribute entities (name.toList ++ '=' :: '"' :: (written ++ '"' :: r)) =
      .ok (unqualified (name, value), r) := by
  have hequals : skipSpace ('=' :: '"' :: (written ++ '"' :: r)) =
      '=' :: '"' :: (written ++ '"' :: r) := rfl
  have hmark : skipSpace ('"' :: (written ++ '"' :: r)) = '"' :: (written ++ '"' :: r) := rfl
  rw [singleAttribute, qualifiedName_append hname (endsName_cons '=' _ (by decide))]
  simp only [hequals, hmark, BEq.rfl, Bool.true_or, if_true]
  simp only [attributeText_written entities h hvalue, String.ofList_toList]
  rfl

/-- What is left to do at an attribute that declares nothing. -/
theorem tagRest_attribute {entities : Entities} {space name t : List Char} {a : Attribute}
    (hspace : ∀ c ∈ space, isFiller c = true) (hsome : space ≠ []) (hname : isName name = true)
    (ha : singleAttribute entities (name ++ t) = .ok (a, r)) (hplain : a.name.declared? = none)
    (earlier : List QName) : tagRest entities earlier (space ++ (name ++ t)) =
      match tagRest entities (a.name :: earlier) r with
      | .error e => .error e
      | .ok ((rest, closed), u) => .ok ((a :: rest, closed), u) := by
  have hskip := skipSpace_name (r := t) hspace hname
  have hlength : (name ++ t).length ≠ (space ++ (name ++ t)).length := by
    have hpos := List.length_pos_iff.mpr hsome
    have hall : (space ++ (name ++ t)).length = space.length + (name ++ t).length :=
      List.length_append
    omega
  have hmay : mayDeclare earlier a = true := by rw [mayDeclare, hplain]
  rw [tagRest]
  split
  · next h => exact absurd (hskip.symm.trans h) (name_append_ne hname (by decide))
  · next h => exact absurd (hskip.symm.trans h) (name_append_ne hname (by decide))
  · rw [hskip, if_neg hlength]
    split
    · next h =>
      rw [ha] at h
      cases h
    · next h =>
      rw [ha] at h
      cases h
      exact if_pos hmay

theorem declared?_unqualified {name : String} (h : name ≠ "xmlns") :
    QName.declared? ⟨none, name⟩ = none := if_neg h

theorem tagRest_written {entries : List (String × String)} {written : List Char}
    (entities : Entities) (h : AttributesWritten entries written)
    (hnames : ∀ a ∈ entries, isName a.1.toList = true ∧ a.1 ≠ "xmlns")
    (hvalues : ∀ a ∈ entries, ∀ c ∈ a.2.toList, isChar c = true) (closed : Bool)
    (earlier : List QName) :
    tagRest entities earlier (written ++ (tagEnd closed ++ r)) =
      .ok ((entries.map unqualified, closed), r) := by
  induction h generalizing earlier with
  | nil hspace =>
    have hskip := skipSpace_append (fun c hc => isSpace_of_isFiller (hspace c hc))
      (tagEnd closed ++ r)
    rw [tagRest]
    split
    · next h =>
      rw [hskip] at h
      cases closed <;> cases h
      rfl
    · next h =>
      rw [hskip] at h
      cases closed <;> cases h
      rfl
    · next hopen hclosed =>
      exfalso
      cases closed with
      | false => exact hopen _ hskip
      | true => exact hclosed _ hskip
  | @cons name value entries space spelled rest hspace hsome hvalue _ ih =>
    obtain ⟨⟨hname, hdeclares⟩, hnames⟩ := List.forall_mem_cons.mp hnames
    obtain ⟨hchars, hvalues⟩ := List.forall_mem_cons.mp hvalues
    have ha := singleAttribute_written (r := rest ++ (tagEnd closed ++ r)) entities hname hvalue
      hchars
    simp only [List.append_assoc, List.cons_append]
    rw [tagRest_attribute hspace hsome hname ha (declared?_unqualified hdeclares), ih hnames hvalues]
    rfl

/-- A name ends at white space, and at what follows where there is none. -/
theorem endsName_append {space : List Char} (hspace : ∀ c ∈ space, isFiller c = true)
    (hr : space = [] → EndsName r) : EndsName (space ++ r) := by
  cases space with
  | nil => exact hr rfl
  | cons c space =>
    have hc := hspace c List.mem_cons_self
    simp only [isFiller, Bool.or_eq_true, beq_iff_eq] at hc
    refine endsName_cons c _ ?_
    rcases hc with (rfl | rfl) | rfl <;> decide

theorem endsName_tagEnd (closed : Bool) : EndsName (tagEnd closed ++ r) := by
  cases closed with
  | false => exact endsName_cons '>' _ (by decide)
  | true => exact endsName_cons '/' _ (by decide)

theorem startTag_written {e : Element} {written : List Char} (entities : Entities)
    (he : e.PlainTag) (h : AttributesWritten e.attributes.entries written) (closed : Bool) :
    startTag entities (e.tag.toList ++ (written ++ (tagEnd closed ++ r))) =
      .ok ((⟨none, e.tag⟩, e.attributes.entries.map unqualified, closed), r) := by
  have hrest := tagRest_written (r := r) entities h he.names he.values closed []
  have hend : EndsName (written ++ (tagEnd closed ++ r)) := by
    generalize e.attributes.entries = entries at h
    cases h with
    | nil hspace => exact endsName_append hspace fun _ => endsName_tagEnd closed
    | cons hspace hsome _ _ =>
      rw [List.append_assoc]
      exact endsName_append hspace fun h => absurd h hsome
  rw [startTag, qualifiedName_append he.tag hend]
  simp only [hrest, String.ofList_toList]

/-! ## Pieces of content -/

theorem token_opening {e : Element} {written : List Char} (entities : Entities) (he : e.PlainTag)
    (h : AttributesWritten e.attributes.entries written) (closed : Bool) :
    token entities (openingTag e.tag written closed ++ r) =
      .ok (.opening ⟨none, e.tag⟩ (e.attributes.entries.map unqualified) closed, r) := by
  have hstart := startTag_written (r := r) entities he h closed
  rw [openingTag, List.cons_append, List.append_assoc, List.append_assoc, token]
  unfold markup
  split
  · next h => exact absurd h (name_append_ne he.tag (by decide))
  · next h => exact absurd h (name_append_ne he.tag (by decide))
  · next h => exact absurd h (name_append_ne he.tag (by decide))
  · next h => exact absurd h (name_append_ne he.tag (by decide))
  · rw [hstart]
    rfl

theorem token_closing {tag : String} (entities : Entities) (htag : isName tag.toList = true) :
    token entities (closingTag tag ++ r) = .ok (.closing tag, r) := by
  have hname := name?_append htag (endsName_cons '>' r (by decide))
  have hend : endTag (tag.toList ++ '>' :: r) = .ok (tag, r) := by
    rw [endTag, hname]
    show Except.ok (String.ofList tag.toList, r) = _
    rw [String.ofList_toList]
  rw [closingTag, List.cons_append, List.cons_append, List.append_assoc, List.singleton_append,
    token, markup, hend]
  rfl

/-- A character is read as itself where it does not begin the end of a section. -/
theorem token_character {p : List Char} (entities : Entities) (h : CharWritten c p)
    (hc : isChar c = true) (hr : ∀ t, r ≠ ']' :: '>' :: t) :
    token entities (p ++ r) = .ok (.text [c], r) := by
  rcases h.cases hc with ⟨rfl, hplain⟩ | ⟨q, x, rfl, hx, href⟩
  · simp only [reservedCharacters, List.mem_cons, List.not_mem_nil, or_false, not_or] at hplain
    obtain ⟨hamp, hless, -, -, -, -, hreturn⟩ := hplain
    rw [List.singleton_append]
    unfold token
    split
    · next h => cases h
    · next h => exact absurd (List.cons.inj h).1 hless
    · next h => exact absurd (List.cons.inj h).1 hamp
    · next h => exact absurd (List.cons.inj h).2 (hr _)
    · next h =>
      cases h
      simp [hc, lineFeed, hreturn]
  · rw [List.cons_append, token, href r, ← hx.token]
    rfl

theorem token_filler (entities : Entities) (h : isFiller c = true) :
    token entities (c :: r) = .ok (.text [c], r) := by
  simp only [isFiller, Bool.or_eq_true, beq_iff_eq] at h
  rcases h with (rfl | rfl) | rfl <;> rfl

/-- No section ends behind a written character. -/
theorem TextWritten.no_sectionEnd {written : List Char} (h : TextWritten s written) (t : List Char) :
    written ++ '<' :: r ≠ ']' :: '>' :: t := by
  have hbracket {s written : List Char} (h : TextWritten s written) :
      written ++ '<' :: r ≠ '>' :: t := by
    intro heq
    cases h with
    | nil => exact absurd (List.cons.inj heq).1 (by decide)
    | cons hc _ =>
      obtain ⟨d, q, rfl, hd⟩ := hc.begins
      obtain ⟨rfl, -⟩ := List.cons.inj heq
      exact hd (by decide)
  intro heq
  cases h with
  | nil => exact absurd (List.cons.inj heq).1 (by decide)
  | cons hc hs =>
    cases hc with
    | plain _ => exact hbracket hs (List.cons.inj heq).2
    | named _ => exact absurd (List.cons.inj heq).1 (by decide)
    | decimal _ _ => exact absurd (List.cons.inj heq).1 (by decide)
    | hexadecimal _ _ => exact absurd (List.cons.inj heq).1 (by decide)

end Xml

end CiteStyle
