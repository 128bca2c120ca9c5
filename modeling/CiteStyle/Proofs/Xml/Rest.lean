import CiteStyle.Xml.Document

/-! # What readers leave

A reader takes something off the front of a text, so what it leaves is an end of the text. -/

namespace CiteStyle.Xml

variable {s r : List Char}

theorem suffix_cons_of_suffix (c : Char) (h : r <:+ s) : r <:+ c :: s :=
  h.trans (List.suffix_cons c s)

/-! ## Characters and names -/

theorem skipSpace_suffix (s : List Char) : skipSpace s <:+ s := List.dropWhile_suffix _

theorem suffix_of_skipSpace_eq (h : skipSpace s = r) : r <:+ s := h ▸ skipSpace_suffix s

theorem suffix_of_skip? {beginning : List Char} (h : skip? beginning s = some r) : r <:+ s := by
  rw [skip?_eq_some_iff.mp h]
  exact List.suffix_append beginning r

theorem suffix_of_expect {beginning : List Char} (h : expect beginning s = .ok r) : r <:+ s := by
  unfold expect at h
  split at h
  · next hs =>
    obtain rfl := Except.ok.inj h
    exact suffix_of_skip? hs
  · cases h

theorem suffix_of_expectSpace (h : expectSpace s = .ok r) : r <:+ s := by
  unfold expectSpace at h
  split at h
  · next c t =>
    split at h
    · obtain rfl := Except.ok.inj h
      exact suffix_cons_of_suffix c (skipSpace_suffix t)
    · cases h
  · cases h

theorem suffix_of_plainName? {n : List Char} (h : plainName? s = some (n, r)) : r <:+ s := by
  unfold plainName? at h
  split at h
  · cases h
  · next c t =>
    split at h
    · cases h
      exact suffix_cons_of_suffix c (List.dropWhile_suffix _)
    · cases h

theorem suffix_of_name? {n : List Char} (h : name? s = some (n, r)) : r <:+ s := by
  unfold name? at h
  split at h
  · cases h
  · next c t =>
    dsimp only at h
    split at h
    · cases h
      exact suffix_cons_of_suffix c (List.dropWhile_suffix _)
    · cases h

theorem suffix_of_literal {accepted : Char → Bool} {v : List Char}
    (h : literal accepted s = .ok (v, r)) : r <:+ s := by
  unfold literal at h
  split at h
  · cases h
  · next q t =>
    split at h
    · dsimp only at h
      split at h
      · next c u hu =>
        split at h
        · cases h
          have hend : c :: r <:+ t := hu ▸ List.dropWhile_suffix _
          exact suffix_cons_of_suffix q ((List.suffix_cons c r).trans hend)
        · cases h
      · cases h
    · cases h

/-! ## Sections -/

theorem suffix_of_comment (h : comment s = .ok r) : r <:+ s := by
  fun_induction comment s with
  | case1 t =>
    obtain rfl := Except.ok.inj h
    exact List.suffix_append ['-', '-', '>'] t
  | case2 => cases h
  | case3 c t _ _ _ ih => exact suffix_cons_of_suffix c (ih h)
  | case4 => cases h
  | case5 => cases h

theorem suffix_of_instructionBody (h : instructionBody s = .ok r) : r <:+ s := by
  fun_induction instructionBody s with
  | case1 t =>
    obtain rfl := Except.ok.inj h
    exact List.suffix_append ['?', '>'] t
  | case2 c t _ _ ih => exact suffix_cons_of_suffix c (ih h)
  | case3 => cases h
  | case4 => cases h

theorem suffix_of_instruction (h : instruction s = .ok r) : r <:+ s := by
  unfold instruction at h
  split at h
  · cases h
  · next target t hn =>
    refine List.IsSuffix.trans ?_ (suffix_of_name? hn)
    split at h
    · cases h
    · split at h
      · obtain rfl := Except.ok.inj h
        exact List.suffix_append ['?', '>'] _
      · next c u _ =>
        split at h
        · exact suffix_cons_of_suffix c (suffix_of_instructionBody h)
        · cases h
      · cases h

theorem suffix_of_dataSection {text : List Char} (h : dataSection s = .ok (text, r)) :
    r <:+ s := by
  fun_induction dataSection s generalizing text with
  | case1 t =>
    cases h
    exact List.suffix_append [']', ']', '>'] _
  | case2 c t _ _ text' u hu ih =>
    cases h
    exact suffix_cons_of_suffix c (ih hu)
  | case3 => cases h
  | case4 => cases h
  | case5 => cases h

/-! ## References and attribute values -/

theorem suffix_of_numeric {base : Nat} {digit : Char → Bool} {x : Reference}
    (h : numeric base digit s = .ok (x, r)) : r <:+ s := by
  unfold numeric at h
  split at h
  · next t ht =>
    dsimp only at h
    split at h
    · cases h
      have hend : ';' :: r <:+ s := ht ▸ List.dropWhile_suffix _
      exact (List.suffix_cons ';' r).trans hend
    · cases h
  · cases h

theorem suffix_of_reference {x : Reference} (h : reference s = .ok (x, r)) : r <:+ s := by
  unfold reference at h
  split at h
  · exact (suffix_of_numeric h).trans (List.suffix_append ['#', 'x'] _)
  · exact suffix_cons_of_suffix '#' (suffix_of_numeric h)
  · split at h
    · next hn =>
      cases h
      exact (List.suffix_cons ';' r).trans (suffix_of_name? hn)
    · cases h

theorem suffix_of_attributePiece {resolve : String → Option (List Char)} {v : List Char}
    (h : attributePiece resolve s = .ok (v, r)) : r <:+ s := by
  unfold attributePiece at h
  split at h
  · cases h
  · next t =>
    split at h
    · cases h
    · next hx =>
      split at h
      · cases h
        exact suffix_cons_of_suffix '&' (suffix_of_reference hx)
      · cases h
  · next c t _ =>
    split at h
    · cases h
    · cases h
      exact List.suffix_cons c r

theorem suffix_of_attributeText {resolve : String → Option (List Char)} {mark : Option Char}
    {v : List Char} (h : attributeText resolve mark s = .ok (v, r)) : r <:+ s := by
  fun_induction attributeText resolve mark s generalizing v with
  | case1 hm => cases h; exact List.suffix_rfl
  | case2 hm => cases h
  | case3 c t hm => cases h; exact List.suffix_cons c r
  | case4 => cases h
  | case5 => cases h
  | case6 c t hm piece u hp w x hu ih =>
    cases h
    exact (ih hu).trans (suffix_of_attributePiece hp)

/-! ## Tags -/

theorem suffix_of_qualifiedName {n : QName} (h : qualifiedName s = .ok (n, r)) : r <:+ s := by
  unfold qualifiedName at h
  split at h
  · cases h
  · next first t hn =>
    have hend := (List.suffix_cons ':' t).trans (suffix_of_plainName? hn)
    split at h
    · cases h
    · cases h
    · next hm =>
      cases h
      exact (suffix_of_plainName? hm).trans hend
  · next hn =>
    cases h
    exact suffix_of_plainName? hn

theorem suffix_of_singleAttribute {entities : Entities} {a : Attribute}
    (h : singleAttribute entities s = .ok (a, r)) : r <:+ s := by
  unfold singleAttribute at h
  split at h
  · cases h
  · next name t hn =>
    refine List.IsSuffix.trans ?_ (suffix_of_qualifiedName hn)
    split at h
    · next u hu =>
      have hequals : u <:+ t := (List.suffix_cons '=' u).trans (suffix_of_skipSpace_eq hu)
      refine List.IsSuffix.trans ?_ hequals
      split at h
      · next q v hq =>
        have hmark : v <:+ u := (List.suffix_cons q v).trans (suffix_of_skipSpace_eq hq)
        refine List.IsSuffix.trans ?_ hmark
        split at h
        · split at h
          · cases h
          · next hv =>
            cases h
            exact suffix_of_attributeText hv
        · cases h
      · cases h
    · cases h

theorem suffix_of_tagRest {entities : Entities} {earlier : List QName}
    {x : List Attribute × Bool} (h : tagRest entities earlier s = .ok (x, r)) : r <:+ s := by
  fun_induction tagRest entities earlier s generalizing x r with
  | case1 earlier s t hs =>
    cases h
    exact (List.suffix_cons '>' t).trans (suffix_of_skipSpace_eq hs)
  | case2 earlier s t hs =>
    cases h
    exact (List.suffix_append ['/', '>'] t).trans (suffix_of_skipSpace_eq hs)
  | case3 => cases h
  | case4 => cases h
  | case5 => cases h
  | case6 earlier s a t _ rest closed u hu _ _ _ ha ih =>
    cases h
    exact (ih hu).trans ((suffix_of_singleAttribute ha).trans (skipSpace_suffix s))
  | case7 => cases h

theorem suffix_of_startTag {entities : Entities} {x : QName × List Attribute × Bool}
    (h : startTag entities s = .ok (x, r)) : r <:+ s := by
  unfold startTag at h
  split at h
  · cases h
  · next hn =>
    split at h
    · cases h
    · next ht =>
      cases h
      exact (suffix_of_tagRest ht).trans (suffix_of_qualifiedName hn)

theorem suffix_of_endTag {n : String} (h : endTag s = .ok (n, r)) : r <:+ s := by
  have hname : ((name? s).getD ([], s)).2 <:+ s := by
    cases hn : name? s with
    | none => exact List.suffix_rfl
    | some p => exact suffix_of_name? hn
  refine List.IsSuffix.trans ?_ hname
  unfold endTag at h
  dsimp only at h
  split at h
  · next hr =>
    cases h
    exact (List.suffix_cons '>' r).trans (suffix_of_skipSpace_eq hr)
  · cases h

/-! ## Content -/

theorem suffix_of_markup {entities : Entities} {x : Token}
    (h : markup entities s = .ok (x, r)) : r <:+ s := by
  unfold markup at h
  split at h
  · obtain ⟨_, hx, he⟩ := exists_of_map_eq_ok h
    cases he
    exact suffix_cons_of_suffix '/' (suffix_of_endTag hx)
  · obtain ⟨_, hx, he⟩ := exists_of_map_eq_ok h
    cases he
    exact suffix_cons_of_suffix '?' (suffix_of_instruction hx)
  · obtain ⟨_, hx, he⟩ := exists_of_map_eq_ok h
    cases he
    exact (suffix_of_comment hx).trans (List.suffix_append ['!', '-', '-'] _)
  · obtain ⟨_, hx, he⟩ := exists_of_map_eq_ok h
    cases he
    exact (suffix_of_dataSection hx).trans
      (List.suffix_append ['!', '[', 'C', 'D', 'A', 'T', 'A', '['] _)
  · obtain ⟨_, hx, he⟩ := exists_of_map_eq_ok h
    cases he
    exact suffix_of_startTag hx

theorem suffix_of_token {entities : Entities} {x : Token}
    (h : token entities s = .ok (x, r)) : r <:+ s := by
  unfold token at h
  split at h
  · cases h
  · exact suffix_cons_of_suffix '<' (suffix_of_markup h)
  · obtain ⟨_, hx, he⟩ := exists_of_map_eq_ok h
    cases he
    exact suffix_cons_of_suffix '&' (suffix_of_reference hx)
  · cases h
  · next c t _ _ _ =>
    split at h
    · cases h
      exact List.suffix_cons c r
    · cases h

/-! ## What stands before the root -/

theorem exists_of_bind_eq_ok {ε α β : Type} {x : Except ε α} {f : α → Except ε β} {b : β}
    (h : (x >>= f) = .ok b) : ∃ a, x = .ok a ∧ f a = .ok b := by
  cases x with
  | error e => cases h
  | ok a => exact ⟨a, rfl, h⟩

theorem suffix_of_pseudoValue {accepted : Char → Bool} {v : List Char}
    (h : pseudoValue accepted s = .ok (v, r)) : r <:+ s := by
  unfold pseudoValue at h
  split at h
  · cases h
  · next t ht =>
    exact (suffix_of_literal h).trans ((skipSpace_suffix t).trans
      ((suffix_of_expect ht).trans (skipSpace_suffix s)))

theorem suffix_of_standalonePart {encoding : Option (List Char)} {d : Declaration}
    (h : standalonePart encoding s = .ok (d, r)) : r <:+ s := by
  unfold standalonePart at h
  split at h
  · obtain ⟨_, hx, he⟩ := exists_of_map_eq_ok h
    cases he
    exact suffix_of_expect hx
  · next hskip =>
    split at h
    · cases h
    · next value t hv =>
      split at h
      · obtain ⟨_, hx, he⟩ := exists_of_map_eq_ok h
        cases he
        exact (suffix_of_expect hx).trans ((skipSpace_suffix t).trans
          ((suffix_of_pseudoValue hv).trans (suffix_of_skip? hskip)))
      · cases h

theorem suffix_of_encodingPart {d : Declaration} (h : encodingPart s = .ok (d, r)) :
    r <:+ s := by
  unfold encodingPart at h
  split at h
  · exact suffix_of_standalonePart h
  · next hskip =>
    split at h
    · cases h
    · next value t hv =>
      have ht : t <:+ s := (suffix_of_pseudoValue hv).trans (suffix_of_skip? hskip)
      refine List.IsSuffix.trans ?_ ht
      split at h
      · split at h
        · next hend =>
          cases h
          exact suffix_of_skip? hend
        · split at h
          · cases h
          · next hspace => exact (suffix_of_standalonePart h).trans (suffix_of_expectSpace hspace)
      · cases h

theorem suffix_of_declaration {d : Declaration} (h : declaration s = .ok (d, r)) : r <:+ s := by
  obtain ⟨a, ha, h⟩ := exists_of_bind_eq_ok h
  obtain ⟨b, hb, h⟩ := exists_of_bind_eq_ok h
  obtain ⟨c, hc, h⟩ := exists_of_bind_eq_ok h
  obtain ⟨⟨version, t⟩, ht, h⟩ := exists_of_bind_eq_ok h
  have hend : t <:+ s := (suffix_of_pseudoValue ht).trans ((suffix_of_expect hc).trans
    ((suffix_of_expectSpace hb).trans (suffix_of_expect ha)))
  refine List.IsSuffix.trans ?_ hend
  dsimp only at h
  split at h
  · obtain ⟨_, hthrow, -⟩ := exists_of_bind_eq_ok h
    cases hthrow
  · split at h
    · next hclose =>
      cases h
      exact suffix_of_skip? hclose
    · obtain ⟨u, hu, h⟩ := exists_of_bind_eq_ok h
      exact (suffix_of_encodingPart h).trans (suffix_of_expectSpace hu)

theorem suffix_of_externalId? (h : externalId? s = .ok (some r)) : r <:+ s := by
  unfold externalId? at h
  split at h
  · next hskip =>
    obtain ⟨a, ha, h⟩ := exists_of_bind_eq_ok h
    obtain ⟨⟨v, t⟩, ht, h⟩ := exists_of_bind_eq_ok h
    cases h
    exact (suffix_of_literal ht).trans ((suffix_of_expectSpace ha).trans (suffix_of_skip? hskip))
  · split at h
    · next hskip =>
      obtain ⟨a, ha, h⟩ := exists_of_bind_eq_ok h
      obtain ⟨⟨v, t⟩, ht, h⟩ := exists_of_bind_eq_ok h
      obtain ⟨b, hb, h⟩ := exists_of_bind_eq_ok h
      obtain ⟨⟨w, u⟩, hu, h⟩ := exists_of_bind_eq_ok h
      cases h
      exact (suffix_of_literal hu).trans ((suffix_of_expectSpace hb).trans
        ((suffix_of_literal ht).trans ((suffix_of_expectSpace ha).trans (suffix_of_skip? hskip))))
    · cases h

theorem suffix_of_entityDefinition {entity : Entity}
    (h : entityDefinition s = .ok (entity, r)) : r <:+ s := by
  obtain ⟨external?, hid, h⟩ := exists_of_bind_eq_ok h
  cases external? with
  | some t =>
    refine List.IsSuffix.trans ?_ (suffix_of_externalId? hid)
    dsimp only at h
    split at h
    · next hskip =>
      obtain ⟨u, hu, h⟩ := exists_of_bind_eq_ok h
      split at h
      · next hn =>
        cases h
        exact (suffix_of_name? hn).trans ((suffix_of_expectSpace hu).trans
          ((suffix_of_skip? hskip).trans (skipSpace_suffix t)))
      · cases h
    · cases h
      exact List.suffix_rfl
  | none =>
    obtain ⟨⟨raw, t⟩, ht, h⟩ := exists_of_bind_eq_ok h
    dsimp only at h
    split at h
    · cases h
      exact suffix_of_literal ht
    · cases h

theorem suffix_of_entityDeclaration {entities entities' : Entities}
    (h : entityDeclaration entities s = .ok (entities', r)) : r <:+ s := by
  obtain ⟨start, hstart, h⟩ := exists_of_bind_eq_ok h
  refine List.IsSuffix.trans ?_ (suffix_of_expectSpace hstart)
  dsimp only at h
  -- a parameter entity or not: the name and all after it are read in the same way
  split at h <;> obtain ⟨⟨isParameter, atName⟩, hname, h⟩ := exists_of_bind_eq_ok h
  all_goals
    have hrest : r <:+ atName := by
      dsimp only at h
      split at h
      · cases h
      · next hn =>
        split at h
        · obtain ⟨_, hthrow, -⟩ := exists_of_bind_eq_ok h
          cases hthrow
        · obtain ⟨a, ha, h⟩ := exists_of_bind_eq_ok h
          obtain ⟨⟨entity, t⟩, ht, h⟩ := exists_of_bind_eq_ok h
          obtain ⟨u, hu, h⟩ := exists_of_bind_eq_ok h
          have hend : u <:+ atName := (suffix_of_expect hu).trans ((skipSpace_suffix t).trans
            ((suffix_of_entityDefinition ht).trans
              ((suffix_of_expectSpace ha).trans (suffix_of_name? hn))))
          split at h <;> cases h <;> exact hend
  · obtain ⟨_, hx, he⟩ := exists_of_map_eq_ok hname
    cases he
    exact hrest.trans (suffix_cons_of_suffix '%' (suffix_of_expectSpace hx))
  · cases hname
    exact hrest

theorem suffix_of_skipDeclaration {mark : Option Char}
    (h : skipDeclaration mark s = .ok r) : r <:+ s := by
  fun_induction skipDeclaration mark s with
  | case1 => cases h
  | case2 => cases h
  | case3 c t _ ih => exact suffix_cons_of_suffix c (ih h)
  | case4 mark c t _ _ _ ih => exact suffix_cons_of_suffix c (ih h)
  | case5 mark c t =>
    cases h
    exact List.suffix_cons c r
  | case6 mark c t _ _ _ _ _ ih => exact suffix_cons_of_suffix c (ih h)
  | case7 mark c t _ _ _ _ _ ih => exact suffix_cons_of_suffix c (ih h)

theorem suffix_of_subsetItem {entities entities' : Entities}
    (h : subsetItem entities s = .ok (entities', r)) : r <:+ s := by
  unfold subsetItem at h
  split at h
  · split at h
    · next hn =>
      cases h
      exact suffix_cons_of_suffix '%' ((List.suffix_cons ';' r).trans (suffix_of_name? hn))
    · cases h
  · obtain ⟨_, hx, he⟩ := exists_of_map_eq_ok h
    cases he
    exact (suffix_of_instruction hx).trans (List.suffix_append ['<', '?'] _)
  · obtain ⟨_, hx, he⟩ := exists_of_map_eq_ok h
    cases he
    exact (suffix_of_comment hx).trans (List.suffix_append ['<', '!', '-', '-'] _)
  · split at h
    · next hskip => exact (suffix_of_entityDeclaration h).trans (suffix_of_skip? hskip)
    · dsimp only at h
      split at h
      · next hfound =>
        obtain ⟨opening, -, hskip⟩ := List.exists_of_findSome?_eq_some hfound
        obtain ⟨_, hx, he⟩ := exists_of_map_eq_ok h
        cases he
        exact (suffix_of_skipDeclaration hx).trans (suffix_of_skip? hskip)
      · cases h

theorem suffix_of_subset {count : Nat} {entities entities' : Entities}
    (h : subset count entities s = .ok (entities', r)) : r <:+ s := by
  induction count generalizing entities s with
  | zero => cases h
  | succ count ih =>
    rw [subset] at h
    split at h
    · next hs =>
      cases h
      exact (List.suffix_cons ']' r).trans (suffix_of_skipSpace_eq hs)
    · split at h
      · cases h
      · next hitem =>
        exact (ih h).trans ((suffix_of_subsetItem hitem).trans (skipSpace_suffix s))

theorem suffix_of_docType {standalone : Bool} {entities : Entities}
    (h : docType standalone s = .ok (entities, r)) : r <:+ s := by
  obtain ⟨atName, hname, h⟩ := exists_of_bind_eq_ok h
  refine List.IsSuffix.trans ?_ (suffix_of_expectSpace hname)
  dsimp only at h
  split at h
  · cases h
  · next afterName hn =>
    refine List.IsSuffix.trans ?_ (suffix_of_name? hn)
    obtain ⟨external?, hid, h⟩ := exists_of_bind_eq_ok h
    have hafterId : skipSpace (external?.getD (skipSpace afterName)) <:+ afterName := by
      refine (skipSpace_suffix _).trans (List.IsSuffix.trans ?_ (skipSpace_suffix afterName))
      cases external? with
      | none => exact List.suffix_rfl
      | some t => exact suffix_of_externalId? hid
    refine List.IsSuffix.trans ?_ hafterId
    -- with an internal subset or without one, only the closing bracket is left
    split at h <;> obtain ⟨⟨declared, t⟩, ht, h⟩ := exists_of_bind_eq_ok h
    all_goals
      have hrest : r <:+ t := by
        obtain ⟨u, hu, h⟩ := exists_of_bind_eq_ok h
        cases h
        exact (suffix_of_expect hu).trans (skipSpace_suffix t)
    · next hopen _ =>
      rw [hopen]
      exact suffix_cons_of_suffix '[' (hrest.trans (suffix_of_subset ht))
    · cases ht
      exact hrest

theorem suffix_of_skipMisc (h : skipMisc s = .ok r) : r <:+ s := by
  fun_induction skipMisc s with
  | case1 s t hs e ht => cases h
  | case2 s t hs u hu ih =>
    exact (ih h).trans ((suffix_of_instruction hu).trans
      ((List.suffix_append ['<', '?'] t).trans (suffix_of_skipSpace_eq hs)))
  | case3 s t hs e ht => cases h
  | case4 s t hs u hu ih =>
    exact (ih h).trans ((suffix_of_comment hu).trans
      ((List.suffix_append ['<', '!', '-', '-'] t).trans (suffix_of_skipSpace_eq hs)))
  | case5 s =>
    cases h
    exact skipSpace_suffix s

theorem suffix_of_prolog {standalone : Bool} {entities : Entities}
    (h : prolog standalone s = .ok (entities, r)) : r <:+ s := by
  obtain ⟨t, ht, h⟩ := exists_of_bind_eq_ok h
  refine List.IsSuffix.trans ?_ (suffix_of_skipMisc ht)
  dsimp only at h
  split at h
  · cases h
    exact List.suffix_rfl
  · next hskip =>
    obtain ⟨⟨declared, u⟩, hu, h⟩ := exists_of_bind_eq_ok h
    obtain ⟨v, hv, h⟩ := exists_of_bind_eq_ok h
    cases h
    exact (suffix_of_skipMisc hv).trans ((suffix_of_docType hu).trans (suffix_of_skip? hskip))

/-! ## Documents -/

/-- How a document is read: a prolog, the root element, and nothing of weight after it. -/
theorem document_eq_ok {root : Element} (h : document s = .ok root) :
    ∃ entities u v, '<' :: u <:+ s ∧ rootElement (.ofText entities s) u = .ok (root, v) ∧
      skipMisc v = .ok [] := by
  unfold document at h
  -- whether there is a declaration or not, what follows it is an end of the text
  split at h <;> obtain ⟨⟨declared, r⟩, hdeclared, h⟩ := exists_of_bind_eq_ok h
  all_goals
    have hroot : r <:+ s → ∃ entities u v, '<' :: u <:+ s ∧
        rootElement (.ofText entities s) u = .ok (root, v) ∧ skipMisc v = .ok [] := by
      intro hr
      obtain ⟨⟨entities, t⟩, ht, h⟩ := exists_of_bind_eq_ok h
      dsimp only at h
      split at h
      · next u =>
        obtain ⟨⟨e, v⟩, he, h⟩ := exists_of_bind_eq_ok h
        obtain ⟨rest, hrest, h⟩ := exists_of_bind_eq_ok h
        dsimp only at h
        split at h
        · next hempty =>
          cases h
          rw [List.isEmpty_iff.mp hempty] at hrest
          exact ⟨entities, u, v, (suffix_of_prolog ht).trans hr, he, hrest⟩
        · cases h
      · cases h
  · exact hroot (suffix_of_declaration hdeclared)
  · cases hdeclared
    exact hroot List.suffix_rfl

theorem read_eq_ok_iff {s : List Char} {root : Element} :
    read s = .ok root ↔ document (joinLineEnds (skipMark s)) = .ok root := by
  unfold read
  dsimp only
  cases document (joinLineEnds (skipMark s)) with
  | error stop => exact ⟨nofun, nofun⟩
  | ok e =>
    constructor
    · intro h
      cases h
      rfl
    · intro h
      cases h
      rfl

end CiteStyle.Xml
