import CiteStyle.Proofs.Xml.Parts
import Mathlib.Data.List.TakeWhile

/-! # How far readers look

What a reader takes off the front of a text, it takes whatever follows, as long as it can tell where
that ends. A tag or a section ends by itself, a name or white space before any character that does
not belong to it. So a piece of content needs no more than itself (`taken_of_token`). -/

namespace CiteStyle

namespace Xml

variable {α : Type} {s r : List Char}

/-! ## Texts that begin alike -/

def Anything (_ _ : List Char) : Prop := True

def SameHead (r r' : List Char) : Prop := r.head? = r'.head?

/-- Two texts that are the same up to some closing bracket, with no less behind it in the second. -/
def Agree (r r' : List Char) : Prop :=
  ∃ w u u', r = w ++ '>' :: u ∧ r' = w ++ '>' :: u' ∧ u.length ≤ u'.length

theorem SameHead.append {r' : List Char} (h : SameHead r r') (t : List Char) :
    SameHead (t ++ r) (t ++ r') := by
  cases t with
  | nil => exact h
  | cons c t => rfl

theorem sameHead_append_of_ne_nil {t : List Char} (ht : t ≠ []) (r r' : List Char) :
    SameHead (t ++ r) (t ++ r') := by
  cases t with
  | nil => exact absurd rfl ht
  | cons c t => rfl

theorem Agree.append {r' : List Char} (h : Agree r r') (t : List Char) :
    Agree (t ++ r) (t ++ r') := by
  obtain ⟨w, u, u', rfl, rfl, hlength⟩ := h
  exact ⟨t ++ w, u, u', (List.append_assoc ..).symm, (List.append_assoc ..).symm, hlength⟩

theorem agree_append_of_mem {t r' : List Char} (ht : '>' ∈ t) (hlength : r.length ≤ r'.length) :
    Agree (t ++ r) (t ++ r') := by
  obtain ⟨a, b, rfl⟩ := List.append_of_mem ht
  exact ⟨a, b ++ r, b ++ r', by simp, by simp, by simpa using hlength⟩

theorem Agree.length_le {r' : List Char} (h : Agree r r') : r.length ≤ r'.length := by
  obtain ⟨w, u, u', rfl, rfl, hlength⟩ := h
  simpa using hlength

theorem Agree.sameHead {r' : List Char} (h : Agree r r') : SameHead r r' := by
  obtain ⟨w, u, u', rfl, rfl, -⟩ := h
  cases w with
  | nil => rfl
  | cons c w => rfl

/-- What a reader takes off the front of `s` to leave `r` it takes as well before any text that is
related to `r`, and leaves that. -/
def Taken (related : List Char → List Char → Prop) (read : List Char → α) (s r : List Char)
    (result : List Char → α) : Prop :=
  ∃ t, s = t ++ r ∧ ∀ r', related r r' → read (t ++ r') = result r'

variable {read result : List Char → α}

theorem Taken.sameHead (h : Taken Anything read s r result) : Taken SameHead read s r result := by
  obtain ⟨t, hs, ht⟩ := h
  exact ⟨t, hs, fun r' _ => ht r' trivial⟩

theorem Taken.agree (h : Taken SameHead read s r result) : Taken Agree read s r result := by
  obtain ⟨t, hs, ht⟩ := h
  exact ⟨t, hs, fun r' hr => ht r' hr.sameHead⟩

/-! ## Characters and names -/

theorem skip?_append (beginning : List Char) : skip? beginning (beginning ++ r) = some r :=
  skip?_eq_some_iff.mpr rfl

theorem taken_of_skip? {beginning : List Char} (h : skip? beginning s = some r) :
    Taken Anything (skip? beginning) s r some :=
  ⟨beginning, skip?_eq_some_iff.mp h, fun _ _ => skip?_append beginning⟩

/-- A beginning in which a closing bracket can only stand at the end is seen before the next closing
bracket. -/
theorem Agree.skip?_eq_none {r' beginning : List Char} (h : Agree r r')
    (hb : '>' ∉ beginning.dropLast) (hr : skip? beginning r = none) :
    skip? beginning r' = none := by
  obtain ⟨w, u, u', rfl, rfl, -⟩ := h
  induction beginning generalizing w with
  | nil => cases hr
  | cons c beginning ih =>
    cases w with
    | nil =>
      rw [List.nil_append, skip?] at hr ⊢
      split at hr
      · next hc =>
        -- the bracket is the end of the beginning, so that is there
        cases beginning with
        | nil => cases hr
        | cons d beginning => exact absurd (hc ▸ List.mem_cons_self) hb
      · next hc => rw [if_neg hc]
    | cons d w =>
      rw [List.cons_append, skip?] at hr ⊢
      split at hr
      · next hc =>
        rw [if_pos hc]
        refine ih (fun hm => hb ?_) w hr
        cases beginning with
        | nil => cases hm
        | cons e beginning => exact List.mem_cons_of_mem c hm
      · next hc => rw [if_neg hc]

theorem Agree.not_begins {r' : List Char} (h : Agree r r') (beginning : List Char)
    (hb : '>' ∉ beginning.dropLast) (hr : ∀ t, r = beginning ++ t → False) (t : List Char) :
    r' = beginning ++ t → False := by
  have hnone : skip? beginning r = none := by
    cases hs : skip? beginning r with
    | none => rfl
    | some u => exact (hr u (skip?_eq_some_iff.mp hs)).elim
  intro ht
  have hsome := (h.skip?_eq_none hb hnone).symm.trans (skip?_eq_some_iff.mpr ht)
  cases hsome

theorem taken_of_expect {beginning : List Char} (h : expect beginning s = .ok r) :
    Taken Anything (expect beginning) s r .ok := by
  unfold expect at h
  split at h
  · next hs =>
    cases h
    refine ⟨beginning, skip?_eq_some_iff.mp hs, fun r' _ => ?_⟩
    rw [expect, skip?_append]
  · cases h

/-- The characters of one kind at the front of a text end where another one follows. -/
theorem span_append {p : Char → Bool} {r' : List Char}
    (hr : SameHead (s.dropWhile p) r') :
    (s.takeWhile p ++ r').takeWhile p = s.takeWhile p ∧
      (s.takeWhile p ++ r').dropWhile p = r' := by
  have hs : ∀ c ∈ s.takeWhile p, p c = true := fun c hc => List.mem_takeWhile_imp hc
  have hstop : ∀ c ∈ r'.head?, p c = false := by
    intro c hc
    rw [← hr] at hc
    simpa [Option.mem_def.mp hc] using List.head?_dropWhile_not p s
  exact ⟨takeWhile_append_of_stop hs hstop, dropWhile_append_of_stop hs hstop⟩

theorem taken_skipSpace (s : List Char) : Taken SameHead skipSpace s (skipSpace s) id :=
  ⟨s.takeWhile isSpace, List.takeWhile_append_dropWhile.symm, fun _ hr => (span_append hr).2⟩

theorem taken_of_skipSpace_eq (h : skipSpace s = r) : Taken SameHead skipSpace s r id :=
  h ▸ taken_skipSpace s

theorem taken_of_expectSpace (h : expectSpace s = .ok r) :
    Taken SameHead expectSpace s r .ok := by
  unfold expectSpace at h
  split at h
  · next c t =>
    split at h
    · next hc =>
      cases h
      obtain ⟨u, ht, hu⟩ := taken_skipSpace t
      refine ⟨c :: u, congrArg (c :: ·) ht, fun r' hr => ?_⟩
      rw [List.cons_append, expectSpace, if_pos hc, hu r' hr]
      rfl
    · cases h
  · cases h

theorem taken_of_plainName? {n : List Char} (h : plainName? s = some (n, r)) :
    Taken SameHead plainName? s r fun r' => some (n, r') := by
  unfold plainName? at h
  split at h
  · cases h
  · next c t =>
    split at h
    · next hc =>
      cases h
      refine ⟨c :: t.takeWhile isNamePart,
        congrArg (c :: ·) List.takeWhile_append_dropWhile.symm, fun r' hr => ?_⟩
      obtain ⟨htake, hdrop⟩ := span_append hr
      rw [List.cons_append, plainName?, if_pos hc, htake, hdrop]
    · cases h

theorem taken_of_name? {n : List Char} (h : name? s = some (n, r)) :
    Taken SameHead name? s r fun r' => some (n, r') := by
  unfold name? at h
  split at h
  · cases h
  · next c t =>
    dsimp only at h
    split at h
    · next hc =>
      cases h
      refine ⟨c :: t.takeWhile fun c => isNamePart c || c == ':',
        congrArg (c :: ·) List.takeWhile_append_dropWhile.symm, fun r' hr => ?_⟩
      obtain ⟨htake, hdrop⟩ := span_append hr
      rw [List.cons_append, name?, if_pos hc, htake, hdrop]
    · cases h

theorem taken_of_literal {accepted : Char → Bool} {v : List Char}
    (h : literal accepted s = .ok (v, r)) :
    Taken Anything (literal accepted) s r fun r' => .ok (v, r') := by
  unfold literal at h
  split at h
  · cases h
  · next q t =>
    split at h
    · next hq =>
      dsimp only at h
      split at h
      · next c u hu =>
        split at h
        · next hc =>
          cases h
          have hall := List.takeWhile_append_dropWhile (p := fun c => accepted c && c != q) (l := t)
          rw [hu] at hall
          refine ⟨q :: (t.takeWhile (fun c => accepted c && c != q) ++ [c]), by simp [hall],
            fun r' _ => ?_⟩
          have hhead : SameHead (t.dropWhile fun c => accepted c && c != q) (c :: r') := by
            rw [hu]
            rfl
          obtain ⟨htake, hdrop⟩ := span_append hhead
          rw [List.cons_append, literal, if_pos hq, List.append_assoc, List.singleton_append]
          dsimp only
          rw [hdrop, htake]
          exact if_pos hc
        · cases h
      · cases h
    · cases h

/-! ## Sections -/

/-- Before another text the first characters are the same unless all are gone. -/
theorem taken_cons {β : Type} {c : Char} {t : List Char} (h : Taken Anything read t r result)
    {read' result' : List Char → β}
    (hc : ∀ u r', t = u ++ r → read (u ++ r') = result r' → read' (c :: (u ++ r')) = result' r') :
    Taken Anything read' (c :: t) r result' := by
  obtain ⟨u, ht, hu⟩ := h
  exact ⟨c :: u, congrArg (c :: ·) ht, fun r' hr => hc u r' ht (hu r' hr)⟩

theorem taken_of_comment (h : comment s = .ok r) : Taken Anything comment s r .ok := by
  fun_induction comment s with
  | case1 t =>
    cases h
    exact ⟨['-', '-', '>'], rfl, fun _ _ => rfl⟩
  | case2 => cases h
  | case3 c t hend hhyphens hc ih =>
    refine taken_cons (ih h) fun u r' ht hu => ?_
    have hother : ∀ v, c = '-' → u ++ r' = '-' :: v → False := by
      rintro v rfl hv
      cases u with
      | nil =>
        have hlength := length_of_comment hu
        exact absurd hlength (Nat.lt_irrefl _)
      | cons d u =>
        obtain ⟨rfl, -⟩ := List.cons.inj hv
        exact hhyphens _ rfl ht
    rw [comment.eq_3 _ _ (fun v hc' hv => hother _ hc' hv) hother, if_pos hc, hu]
  | case4 => cases h
  | case5 => cases h

theorem taken_of_instructionBody (h : instructionBody s = .ok r) :
    Taken Anything instructionBody s r .ok := by
  fun_induction instructionBody s with
  | case1 t =>
    cases h
    exact ⟨['?', '>'], rfl, fun _ _ => rfl⟩
  | case2 c t hend hc ih =>
    refine taken_cons (ih h) fun u r' ht hu => ?_
    have hother : ∀ v, c = '?' → u ++ r' = '>' :: v → False := by
      rintro v rfl hv
      cases u with
      | nil =>
        have hlength := length_of_instructionBody hu
        exact absurd hlength (Nat.lt_irrefl _)
      | cons d u =>
        obtain ⟨rfl, -⟩ := List.cons.inj hv
        exact hend _ rfl ht
    rw [instructionBody.eq_2 _ _ hother, if_pos hc, hu]
  | case3 => cases h
  | case4 => cases h

theorem taken_of_instruction (h : instruction s = .ok r) :
    Taken Anything instruction s r .ok := by
  unfold instruction at h
  split at h
  · cases h
  · next target t hn =>
    obtain ⟨name, rfl, hname⟩ := taken_of_name? hn
    split at h
    · cases h
    · next hreserved =>
      split at h
      · next u =>
        cases h
        refine ⟨name ++ ['?', '>'], by simp, fun r' _ => ?_⟩
        have hrest := hname ('?' :: '>' :: r') rfl
        rw [List.append_assoc, instruction, List.cons_append, List.singleton_append, hrest]
        exact if_neg hreserved
      · next c u hend =>
        split at h
        · next hc =>
          obtain ⟨body, rfl, hbody⟩ := taken_of_instructionBody h
          refine ⟨name ++ c :: body, by simp, fun r' hr => ?_⟩
          have hother : ∀ v, c :: (body ++ r') = '?' :: '>' :: v → False := by
            intro v hv
            obtain ⟨rfl, -⟩ := List.cons.inj hv
            exact absurd hc (by decide)
          rw [List.append_assoc, instruction, List.cons_append, hname (c :: (body ++ r')) rfl]
          dsimp only
          rw [if_neg hreserved]
          split
          · next hv => exact (hother _ hv).elim
          · next hv =>
            cases hv
            rw [if_pos hc, hbody r' hr]
          · next hv => cases hv
        · cases h
      · cases h

theorem closes_dataSection {text : List Char} (h : dataSection s = .ok (text, r)) :
    ']' :: ']' :: '>' :: r <:+ s := by
  fun_induction dataSection s generalizing text with
  | case1 t =>
    cases h
    exact List.suffix_rfl
  | case2 c t _ _ text' u hu ih =>
    cases h
    exact suffix_cons_of_suffix c (ih hu)
  | case3 => cases h
  | case4 => cases h
  | case5 => cases h

theorem taken_of_dataSection {text : List Char} (h : dataSection s = .ok (text, r)) :
    Taken Anything dataSection s r fun r' => .ok (text, r') := by
  fun_induction dataSection s generalizing text with
  | case1 t =>
    cases h
    exact ⟨[']', ']', '>'], rfl, fun _ _ => rfl⟩
  | case2 c t hend hc text' u hu ih =>
    cases h
    refine taken_cons (ih hu) fun v r' ht hv => ?_
    have hother : ∀ w, c = ']' → v ++ r' = ']' :: '>' :: w → False := by
      intro w hc hw
      -- the end of the section is in `v`, so its first two characters are
      have hlength := (closes_dataSection hv).length_le
      simp only [List.length_cons, List.length_append] at hlength
      rcases v with _ | ⟨d, _ | ⟨e, v⟩⟩
      · rw [List.length_nil] at hlength
        omega
      · rw [List.length_singleton] at hlength
        omega
      · simp only [List.cons_append, List.cons.injEq] at hw
        obtain ⟨rfl, rfl, -⟩ := hw
        exact hend _ hc ht
    rw [dataSection.eq_2 _ _ hother, if_pos hc, hv]
  | case3 => cases h
  | case4 => cases h
  | case5 => cases h

/-! ## References and attribute values -/

theorem taken_of_numeric {base : Nat} {digit : Char → Bool} {x : Reference}
    (h : numeric base digit s = .ok (x, r)) :
    Taken Anything (numeric base digit) s r fun r' => .ok (x, r') := by
  unfold numeric at h
  split at h
  · next t ht =>
    dsimp only at h
    split at h
    · next hc =>
      cases h
      have hall := List.takeWhile_append_dropWhile (p := digit) (l := s)
      rw [ht] at hall
      refine ⟨s.takeWhile digit ++ [';'], by simp [hall], fun r' _ => ?_⟩
      have hhead : SameHead (s.dropWhile digit) (';' :: r') := by
        rw [ht]
        rfl
      obtain ⟨htake, hdrop⟩ := span_append hhead
      rw [List.append_assoc, List.singleton_append, numeric, hdrop, htake]
      exact if_pos hc
    · cases h
  · cases h

theorem taken_of_reference {x : Reference} (h : reference s = .ok (x, r)) :
    Taken Anything reference s r fun r' => .ok (x, r') := by
  unfold reference at h
  split at h
  · obtain ⟨t, rfl, ht⟩ := taken_of_numeric h
    refine ⟨'#' :: 'x' :: t, rfl, fun r' hr => ?_⟩
    exact ht r' hr
  · next u hhex =>
    obtain ⟨t, rfl, ht⟩ := taken_of_numeric h
    refine ⟨'#' :: t, rfl, fun r' hr => ?_⟩
    have hother : ∀ v, t ++ r' = 'x' :: v → False := by
      intro v hv
      have hlength := length_of_numeric (ht r' hr)
      cases t with
      | nil => exact absurd hlength (Nat.lt_irrefl _)
      | cons c t =>
        obtain ⟨rfl, -⟩ := List.cons.inj hv
        exact hhex _ rfl
    rw [List.cons_append, reference.eq_2 _ hother, ht r' hr]
  · next hhex hdecimal =>
    split at h
    · next n t hn =>
      cases h
      obtain ⟨name, rfl, hname⟩ := taken_of_name? hn
      refine ⟨name ++ [';'], by simp, fun r' _ => ?_⟩
      have hrest := hname (';' :: r') rfl
      rw [List.append_assoc, List.singleton_append]
      unfold reference
      split
      · next hv => rw [hv] at hrest; cases hrest
      · next hv => rw [hv] at hrest; cases hrest
      · rw [hrest]
        rfl
    · cases h

theorem taken_of_attributePiece {resolve : String → Option (List Char)} {v : List Char}
    (h : attributePiece resolve s = .ok (v, r)) :
    Taken Anything (attributePiece resolve) s r fun r' => .ok (v, r') := by
  unfold attributePiece at h
  split at h
  · cases h
  · next t =>
    split at h
    · cases h
    · next x u hx =>
      split at h
      · next piece hpiece =>
        cases h
        refine taken_cons (taken_of_reference hx) fun a r' _ ha => ?_
        rw [attributePiece, ha]
        dsimp only
        rw [hpiece]
      · cases h
  · next c t hc =>
    split at h
    · cases h
    · next haccepted =>
      cases h
      refine ⟨[c], rfl, fun r' _ => ?_⟩
      rw [List.singleton_append, attributePiece.eq_3 _ _ _ hc, if_neg haccepted]

theorem taken_of_attributeText {resolve : String → Option (List Char)} {mark : Char}
    {v : List Char} (h : attributeText resolve (some mark) s = .ok (v, r)) :
    Taken Anything (attributeText resolve (some mark)) s r fun r' => .ok (v, r') := by
  generalize hsome : some mark = mark? at h ⊢
  fun_induction attributeText resolve mark? s generalizing v r with
  | case1 hm => rw [← hsome] at hm; cases hm
  | case2 => cases h
  | case3 c t hm =>
    cases h
    refine ⟨[c], rfl, fun r' _ => ?_⟩
    rw [List.singleton_append, attributeText, if_pos hm]
  | case4 => cases h
  | case5 => cases h
  | case6 c t hm piece m hp w x hx ih =>
    cases h
    obtain ⟨a, ha, hpiece⟩ := taken_of_attributePiece hp
    obtain ⟨b, rfl, hrest⟩ := ih hx
    cases a with
    | nil =>
      have hlength := length_of_attributePiece hp
      rw [ha] at hlength
      exact absurd hlength (Nat.lt_irrefl _)
    | cons d a =>
      obtain ⟨rfl, rfl⟩ := List.cons.inj ha
      refine ⟨c :: a ++ b, by simp, fun r' hr => ?_⟩
      have hhere : attributePiece resolve (c :: (a ++ (b ++ r'))) = .ok (piece, b ++ r') :=
        hpiece (b ++ r') trivial
      rw [List.append_assoc, List.cons_append, attributeText_cons, if_neg hm, hhere]
      dsimp only
      rw [hrest r' hr]

/-! ## Tags -/

theorem taken_of_qualifiedName {n : QName} (h : qualifiedName s = .ok (n, r)) :
    Taken SameHead qualifiedName s r fun r' => .ok (n, r') := by
  unfold qualifiedName at h
  split at h
  · cases h
  · next first t hn =>
    obtain ⟨a, rfl, ha⟩ := taken_of_plainName? hn
    split at h
    · cases h
    · cases h
    · next second u hcolon hm =>
      cases h
      obtain ⟨b, rfl, hb⟩ := taken_of_plainName? hm
      refine ⟨a ++ ':' :: b, by simp, fun r' hr => ?_⟩
      have hfirst := ha (':' :: (b ++ r')) rfl
      rw [List.append_assoc, List.cons_append]
      unfold qualifiedName
      simp only [hfirst, hb r' hr]
      split
      · next hv => cases hv
      · next hv =>
        cases hv
        cases r with
        | nil => cases hr
        | cons c r =>
          cases hr
          exact (hcolon _ rfl).elim
      · next hv => cases hv; rfl
  · next first t hcolon hn =>
    cases h
    obtain ⟨a, rfl, ha⟩ := taken_of_plainName? hn
    refine ⟨a, rfl, fun r' hr => ?_⟩
    unfold qualifiedName
    rw [ha r' hr]
    dsimp only
    split
    · next hv => cases hv
    · next hv =>
      cases hv
      cases r with
      | nil => cases hr
      | cons c r =>
        cases hr
        exact (hcolon _ rfl).elim
    · next hv => cases hv; rfl

theorem taken_of_singleAttribute {entities : Entities} {a : Attribute}
    (h : singleAttribute entities s = .ok (a, r)) :
    Taken Anything (singleAttribute entities) s r fun r' => .ok (a, r') := by
  unfold singleAttribute at h
  split at h
  · cases h
  · next name t hn =>
    obtain ⟨n, rfl, hname⟩ := taken_of_qualifiedName hn
    split at h
    · next u hu =>
      obtain ⟨space, rfl, hspace⟩ := taken_of_skipSpace_eq hu
      split at h
      · next q v hq =>
        obtain ⟨space', rfl, hspace'⟩ := taken_of_skipSpace_eq hq
        split at h
        · next hmark =>
          split at h
          · cases h
          · next value w hv =>
            cases h
            obtain ⟨text, rfl, htext⟩ := taken_of_attributeText hv
            refine ⟨n ++ (space ++ '=' :: (space' ++ q :: text)), by simp, fun r' hr => ?_⟩
            have hrest : SameHead ('=' :: (space' ++ q :: (text ++ r)))
                ('=' :: (space' ++ q :: (text ++ r'))) := rfl
            simp only [List.append_assoc, List.cons_append]
            unfold singleAttribute
            simp only [hname _ (hrest.append space), hspace _ hrest, id,
              hspace' (q :: (text ++ r')) rfl, hmark, if_true, htext r' hr]
        · cases h
      · cases h
    · cases h

theorem begins_of_plainName? (h : (plainName? s).isSome = true) :
    ∃ c t, s = c :: t ∧ isNameStart c = true := by
  cases s with
  | nil => cases h
  | cons c t =>
    refine ⟨c, t, rfl, ?_⟩
    by_contra hc
    rw [plainName?, if_neg hc] at h
    cases h

theorem begins_of_singleAttribute {entities : Entities} {a : Attribute}
    (h : singleAttribute entities s = .ok (a, r)) : ∃ c t, s = c :: t ∧ isNameStart c = true := by
  refine begins_of_plainName? ?_
  cases hn : plainName? s with
  | none =>
    rw [singleAttribute, qualifiedName, hn] at h
    cases h
  | some p => rfl

theorem taken_of_tagRest {entities : Entities} {earlier : List QName}
    {x : List Attribute × Bool} (h : tagRest entities earlier s = .ok (x, r)) :
    Taken Anything (tagRest entities earlier) s r fun r' => .ok (x, r') := by
  fun_induction tagRest entities earlier s generalizing x r with
  | case1 earlier s t hs =>
    cases h
    obtain ⟨space, rfl, hspace⟩ := taken_of_skipSpace_eq hs
    refine ⟨space ++ ['>'], by simp, fun r' _ => ?_⟩
    have hrest := hspace ('>' :: r') rfl
    rw [List.append_assoc, List.singleton_append, tagRest]
    split
    · next hv => cases hrest.symm.trans hv; rfl
    · next hv => cases hrest.symm.trans hv
    · next hv _ => exact (hv _ hrest).elim
  | case2 earlier s t hs =>
    cases h
    obtain ⟨space, rfl, hspace⟩ := taken_of_skipSpace_eq hs
    refine ⟨space ++ ['/', '>'], by simp, fun r' _ => ?_⟩
    have hrest := hspace ('/' :: '>' :: r') rfl
    rw [List.append_assoc, List.cons_append, List.singleton_append, tagRest]
    split
    · next hv => cases hrest.symm.trans hv
    · next hv => cases hrest.symm.trans hv; rfl
    · next hv => exact (hv _ hrest).elim
  | case3 => cases h
  | case4 => cases h
  | case5 => cases h
  | case6 earlier s a m hmay rest closed u hu _ _ hmoved ha ih =>
    cases h
    obtain ⟨space, hs, hspace⟩ := taken_skipSpace s
    obtain ⟨tail, rfl, htail⟩ := ih hu
    obtain ⟨single, hm, hsingle⟩ := taken_of_singleAttribute ha
    obtain ⟨c, t, hbegins, hc⟩ := begins_of_singleAttribute ha
    have hne : single ≠ [] := by
      rintro rfl
      have hlength := length_of_singleAttribute ha
      rw [hm] at hlength
      exact absurd hlength (Nat.lt_irrefl _)
    obtain ⟨d, single, rfl⟩ := List.exists_cons_of_ne_nil hne
    rw [hm] at hs hspace hmoved hbegins
    obtain ⟨rfl, rfl⟩ := List.cons.inj hbegins
    refine ⟨space ++ (d :: single ++ tail), by simp [hs], fun r' hr => ?_⟩
    have hskip : skipSpace (space ++ (d :: single ++ (tail ++ r'))) =
        d :: single ++ (tail ++ r') := hspace _ rfl
    have hlength : (d :: single ++ (tail ++ r')).length ≠
        (space ++ (d :: single ++ (tail ++ r'))).length := by
      have hspace : space ≠ [] := by
        rintro rfl
        exact hmoved (by rw [hs]; rfl)
      have hpos := List.length_pos_iff.mpr hspace
      rw [(List.length_append : (space ++ _).length = _)]
      omega
    rw [List.append_assoc, List.append_assoc, tagRest]
    split
    · next hv =>
      rw [hskip] at hv
      obtain ⟨rfl, -⟩ := List.cons.inj hv
      exact absurd hc (by decide)
    · next hv =>
      rw [hskip] at hv
      obtain ⟨rfl, -⟩ := List.cons.inj hv
      exact absurd hc (by decide)
    · rw [hskip, if_neg hlength]
      split
      · next he =>
        rw [hsingle _ trivial] at he
        cases he
      · next he =>
        rw [hsingle _ trivial] at he
        cases he
        rw [if_pos hmay, htail r' hr]
  | case7 => cases h

theorem taken_of_startTag {entities : Entities} {x : QName × List Attribute × Bool}
    (h : startTag entities s = .ok (x, r)) :
    Taken Anything (startTag entities) s r fun r' => .ok (x, r') := by
  unfold startTag at h
  split at h
  · cases h
  · next name m hn =>
    obtain ⟨n, rfl, hname⟩ := taken_of_qualifiedName hn
    split at h
    · cases h
    · next attributes closed t ht =>
      cases h
      obtain ⟨tail, rfl, htail⟩ := taken_of_tagRest ht
      refine ⟨n ++ tail, by simp, fun r' hr => ?_⟩
      have hne : tail ≠ [] := by
        rintro rfl
        exact absurd (length_of_tagRest ht) (Nat.lt_irrefl _)
      rw [List.append_assoc, startTag, hname _ (sameHead_append_of_ne_nil hne r r')]
      dsimp only
      rw [htail r' hr]

theorem begins_of_startTag {entities : Entities} {x : QName × List Attribute × Bool}
    (h : startTag entities s = .ok (x, r)) : ∃ c t, s = c :: t ∧ isNameStart c = true := by
  refine begins_of_plainName? ?_
  cases hn : plainName? s with
  | none =>
    rw [startTag, qualifiedName, hn] at h
    cases h
  | some p => rfl

theorem name?_eq_none_of_sameHead {s' : List Char} (hs : SameHead s s') (h : name? s = none) :
    name? s' = none := by
  cases s with
  | nil =>
    cases s' with
    | nil => rfl
    | cons c t => cases hs
  | cons c t =>
    cases s' with
    | nil => rfl
    | cons d t' =>
      cases hs
      simp only [name?] at h ⊢
      split at h
      · cases h
      · next hc => rw [if_neg hc]

theorem taken_of_endTag {n : String} (h : endTag s = .ok (n, r)) :
    Taken Anything endTag s r fun r' => .ok (n, r') := by
  unfold endTag at h
  dsimp only at h
  split at h
  · next u hu =>
    cases h
    obtain ⟨space, hspace, hskip⟩ := taken_of_skipSpace_eq hu
    cases hn : name? s with
    | none =>
      rw [hn] at hspace
      obtain rfl : s = space ++ '>' :: r := hspace
      refine ⟨space ++ ['>'], by simp, fun r' _ => ?_⟩
      have hhead : SameHead ('>' :: r) ('>' :: r') := rfl
      have hnone := name?_eq_none_of_sameHead (hhead.append space) hn
      rw [List.append_assoc, List.singleton_append, endTag, hnone]
      simp only [Option.getD_none, hskip ('>' :: r') rfl, id]
    | some p =>
      obtain ⟨name, m⟩ := p
      rw [hn] at hspace
      obtain rfl : m = space ++ '>' :: r := hspace
      obtain ⟨a, rfl, ha⟩ := taken_of_name? hn
      refine ⟨a ++ (space ++ ['>']), by simp, fun r' _ => ?_⟩
      have hhead : SameHead ('>' :: r) ('>' :: r') := rfl
      have hname := ha _ (hhead.append space)
      rw [List.append_assoc, List.append_assoc, List.singleton_append, endTag, hname]
      simp only [Option.getD_some, hskip ('>' :: r') rfl, id]
  · cases h

/-! ## Pieces of content -/

theorem markup_opening {c : Char} (hc : isNameStart c = true) (entities : Entities) :
    markup entities (c :: s) =
      (startTag entities (c :: s)).map fun ((name, attributes, closed), t) =>
        (.opening name attributes closed, t) := by
  have hother {d : Char} {t u : List Char} (hd : isNameStart d = false) (h : c :: t = d :: u) :
      False := by
    obtain ⟨rfl, -⟩ := List.cons.inj h
    rw [hc] at hd
    cases hd
  unfold markup
  split
  · next h => exact (hother (by decide) h).elim
  · next h => exact (hother (by decide) h).elim
  · next h => exact (hother (by decide) h).elim
  · next h => exact (hother (by decide) h).elim
  · rfl

theorem taken_of_markup {entities : Entities} {x : Token} (h : markup entities s = .ok (x, r)) :
    Taken Anything (markup entities) s r fun r' => .ok (x, r') := by
  unfold markup at h
  split at h
  · obtain ⟨⟨name, u⟩, hx, he⟩ := exists_of_map_eq_ok h
    cases he
    obtain ⟨t, rfl, ht⟩ := taken_of_endTag hx
    refine ⟨'/' :: t, rfl, fun r' hr => ?_⟩
    rw [List.cons_append, markup, ht r' hr]
    rfl
  · obtain ⟨u, hx, he⟩ := exists_of_map_eq_ok h
    cases he
    obtain ⟨t, rfl, ht⟩ := taken_of_instruction hx
    refine ⟨'?' :: t, rfl, fun r' hr => ?_⟩
    rw [List.cons_append, markup, ht r' hr]
    rfl
  · obtain ⟨u, hx, he⟩ := exists_of_map_eq_ok h
    cases he
    obtain ⟨t, rfl, ht⟩ := taken_of_comment hx
    refine ⟨'!' :: '-' :: '-' :: t, rfl, fun r' hr => ?_⟩
    simp only [List.cons_append, markup, ht r' hr]
    rfl
  · obtain ⟨⟨text, u⟩, hx, he⟩ := exists_of_map_eq_ok h
    cases he
    obtain ⟨t, rfl, ht⟩ := taken_of_dataSection hx
    refine ⟨'!' :: '[' :: 'C' :: 'D' :: 'A' :: 'T' :: 'A' :: '[' :: t, rfl, fun r' hr => ?_⟩
    simp only [List.cons_append, markup, ht r' hr]
    rfl
  · obtain ⟨⟨⟨name, attributes, closed⟩, u⟩, hx, he⟩ := exists_of_map_eq_ok h
    cases he
    obtain ⟨t, rfl, ht⟩ := taken_of_startTag hx
    refine ⟨t, rfl, fun r' hr => ?_⟩
    obtain ⟨c, v, hv, hc⟩ := begins_of_startTag (ht r' hr)
    have hopening := ht r' hr
    rw [hv] at hopening ⊢
    rw [markup_opening hc, hopening]
    rfl

/-- A piece of content is the same before another text, unless that goes on with what ends a
section of character data. -/
theorem taken_of_token {entities : Entities} {x : Token} (h : token entities s = .ok (x, r)) :
    Taken (fun r r' => ∀ u, r' = ']' :: '>' :: u → ∃ v, r = ']' :: '>' :: v) (token entities) s r
      fun r' => .ok (x, r') := by
  unfold token at h
  split at h
  · cases h
  · obtain ⟨t, rfl, ht⟩ := taken_of_markup h
    exact ⟨'<' :: t, rfl, fun r' _ => ht r' trivial⟩
  · obtain ⟨⟨x, u⟩, hx, he⟩ := exists_of_map_eq_ok h
    cases he
    obtain ⟨t, rfl, ht⟩ := taken_of_reference hx
    refine ⟨'&' :: t, rfl, fun r' _ => ?_⟩
    rw [List.cons_append, token, ht r' trivial]
    rfl
  · cases h
  · next c t hless hamp hend =>
    split at h
    · next hc =>
      cases h
      refine ⟨[c], rfl, fun r' hr => ?_⟩
      rw [List.singleton_append]
      unfold token
      split
      · next hv => cases hv
      · next hv =>
        obtain ⟨rfl, -⟩ := List.cons.inj hv
        exact (hless rfl).elim
      · next hv =>
        obtain ⟨rfl, -⟩ := List.cons.inj hv
        exact (hamp rfl).elim
      · next hv =>
        obtain ⟨rfl, hrest⟩ := List.cons.inj hv
        obtain ⟨w, rfl⟩ := hr _ hrest
        exact (hend _ rfl rfl).elim
      · next hv =>
        obtain ⟨rfl, rfl⟩ := List.cons.inj hv
        rw [if_pos hc]
    · cases h

end Xml

end CiteStyle
