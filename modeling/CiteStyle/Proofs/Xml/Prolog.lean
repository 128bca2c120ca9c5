import CiteStyle.Proofs.Xml.Lookahead

/-! # What stands before the root element, and how far readers look there

Declarations are told apart by a few characters ahead. None of these are further away than the next
closing bracket, so what is read before the root element is the same whatever follows the start tag
of that (`taken_of_prolog`). -/

namespace CiteStyle

namespace Xml

variable {s r : List Char}

/-! ## Declarations -/

theorem Agree.skipSpace {r' : List Char} (h : Agree r r') :
    Agree (skipSpace r) (skipSpace r') := by
  obtain ⟨w, u, u', rfl, rfl, hlength⟩ := h
  have hspan (v : List Char) : Xml.skipSpace (w ++ '>' :: v) = Xml.skipSpace w ++ '>' :: v := by
    induction w with
    | nil => rfl
    | cons c w ih =>
      by_cases hc : isSpace c = true
      · rw [List.cons_append, Xml.skipSpace, List.dropWhile_cons_of_pos hc, Xml.skipSpace,
          List.dropWhile_cons_of_pos hc]
        exact ih
      · rw [List.cons_append, Xml.skipSpace, List.dropWhile_cons_of_neg hc, Xml.skipSpace,
          List.dropWhile_cons_of_neg hc]
        rfl
  exact ⟨Xml.skipSpace w, u, u', hspan u, hspan u', hlength⟩

theorem Agree.skip? {r' beginning m : List Char} (h : Agree r r') (hb : '>' ∉ beginning)
    (hr : skip? beginning r = some m) : ∃ m', skip? beginning r' = some m' ∧ Agree m m' := by
  obtain ⟨w, u, u', rfl, rfl, hlength⟩ := h
  obtain ⟨v, hw, hm⟩ : ∃ v, w = beginning ++ v ∧ m = v ++ '>' :: u := by
    obtain ⟨v, hbeginning, hv⟩ | hv := List.append_eq_append_iff.mp (skip?_eq_some_iff.mp hr)
    · cases v with
      | nil => exact ⟨[], by simp [hbeginning], by simpa using hv.symm⟩
      | cons c v =>
        obtain ⟨rfl, -⟩ := List.cons.inj hv
        exact absurd (by simp [hbeginning]) hb
    · exact hv
  subst hw hm
  rw [List.append_assoc]
  exact ⟨v ++ '>' :: u', skip?_append beginning, v, u, u', rfl, rfl, hlength⟩

theorem startsDeclaration_of_agree {s' : List Char} (h : Agree s s') :
    startsDeclaration s' = startsDeclaration s := by
  unfold startsDeclaration
  cases hs : Xml.skip? declarationOpening s with
  | none => rw [h.skip?_eq_none (by decide) hs]
  | some m =>
    obtain ⟨m', hm', hagree⟩ := h.skip? (by decide) hs
    rw [hm']
    exact congrArg (Option.any isSpace) hagree.sameHead.symm

theorem taken_of_pseudoValue {accepted : Char → Bool} {v : List Char}
    (h : pseudoValue accepted s = .ok (v, r)) :
    Taken Agree (pseudoValue accepted) s r fun r' => .ok (v, r') := by
  unfold pseudoValue at h
  split at h
  · cases h
  · next m hm =>
    generalize hs : skipSpace s = s1 at hm
    generalize hm1 : skipSpace m = m1 at h
    obtain ⟨space, rfl, hspace⟩ := (taken_of_skipSpace_eq hs).agree
    obtain ⟨equals, rfl, hequals⟩ := taken_of_expect hm
    obtain ⟨space', rfl, hspace'⟩ := (taken_of_skipSpace_eq hm1).agree
    obtain ⟨text, rfl, htext⟩ := taken_of_literal h
    refine ⟨space ++ (equals ++ (space' ++ text)), by simp, fun r' hr => ?_⟩
    have htail := hr.append text
    have hmiddle := htail.append space'
    simp only [List.append_assoc]
    unfold pseudoValue
    simp only [hspace _ (hmiddle.append equals), id, hequals _ trivial, hspace' _ htail,
      htext _ trivial]

theorem taken_of_standalonePart {encoding : Option (List Char)} {d : Declaration}
    (h : standalonePart encoding s = .ok (d, r)) :
    Taken Agree (standalonePart encoding) s r fun r' => .ok (d, r') := by
  unfold standalonePart at h
  split at h
  · next hskip =>
    obtain ⟨m, hx, he⟩ := exists_of_map_eq_ok h
    cases he
    obtain ⟨t, rfl, ht⟩ := taken_of_expect hx
    refine ⟨t, rfl, fun r' hr => ?_⟩
    rw [standalonePart, (hr.append t).skip?_eq_none (by decide) hskip, ht r' trivial]
    rfl
  · next m hskip =>
    obtain ⟨name, rfl, hname⟩ := taken_of_skip? hskip
    split at h
    · cases h
    · next value t hv =>
      obtain ⟨written, rfl, hwritten⟩ := taken_of_pseudoValue hv
      split at h
      · next hvalue =>
        obtain ⟨m, hx, he⟩ := exists_of_map_eq_ok h
        cases he
        generalize ht : skipSpace t = t1 at hx
        obtain ⟨space, rfl, hspace⟩ := (taken_of_skipSpace_eq ht).agree
        obtain ⟨last, rfl, hlast⟩ := taken_of_expect hx
        refine ⟨name ++ (written ++ (space ++ last)), by simp, fun r' hr => ?_⟩
        have hend := hr.append last
        simp only [List.append_assoc]
        unfold standalonePart
        simp only [hname _ trivial, hwritten _ (hend.append space), hvalue, if_true,
          hspace _ hend, id, hlast _ trivial]
        rfl
      · cases h

theorem taken_of_encodingPart {d : Declaration} (h : encodingPart s = .ok (d, r)) :
    Taken Agree encodingPart s r fun r' => .ok (d, r') := by
  unfold encodingPart at h
  split at h
  · next hskip =>
    obtain ⟨t, rfl, ht⟩ := taken_of_standalonePart h
    refine ⟨t, rfl, fun r' hr => ?_⟩
    rw [encodingPart, (hr.append t).skip?_eq_none (by decide) hskip]
    exact ht r' hr
  · next hskip =>
    obtain ⟨name, rfl, hname⟩ := taken_of_skip? hskip
    split at h
    · cases h
    · next value t hv =>
      obtain ⟨written, rfl, hwritten⟩ := taken_of_pseudoValue hv
      split at h
      · next hvalue =>
        split at h
        · next u hend =>
          cases h
          obtain ⟨last, rfl, hlast⟩ := taken_of_skip? hend
          refine ⟨name ++ (written ++ last), by simp, fun r' hr => ?_⟩
          simp only [List.append_assoc]
          unfold encodingPart
          simp only [hname _ trivial, hwritten _ (hr.append last), hvalue, if_true,
            hlast _ trivial]
        · next hend =>
          split at h
          · cases h
          · next u hspace =>
            obtain ⟨space, rfl, hspaces⟩ := (taken_of_expectSpace hspace).agree
            obtain ⟨last, rfl, hlast⟩ := taken_of_standalonePart h
            refine ⟨name ++ (written ++ (space ++ last)), by simp, fun r' hr => ?_⟩
            have htail := hr.append last
            have hmiddle := htail.append space
            simp only [List.append_assoc]
            unfold encodingPart
            simp only [hname _ trivial, hwritten _ hmiddle, hvalue, if_true,
              hmiddle.skip?_eq_none (by decide) hend, hspaces _ htail, hlast _ hr]
      · cases h

theorem taken_of_declaration {d : Declaration} (h : declaration s = .ok (d, r)) :
    Taken Agree declaration s r fun r' => .ok (d, r') := by
  obtain ⟨a, ha, h₁⟩ := exists_of_bind_eq_ok h
  obtain ⟨b, hb, h₂⟩ := exists_of_bind_eq_ok h₁
  obtain ⟨c, hc, h₃⟩ := exists_of_bind_eq_ok h₂
  obtain ⟨⟨version, t⟩, ht, hbody⟩ := exists_of_bind_eq_ok h₃
  obtain ⟨opening, rfl, hopening⟩ := taken_of_expect ha
  obtain ⟨space, rfl, hspace⟩ := (taken_of_expectSpace hb).agree
  obtain ⟨name, rfl, hname⟩ := taken_of_expect hc
  obtain ⟨written, rfl, hwritten⟩ := taken_of_pseudoValue ht
  dsimp only at hbody
  split at hbody
  · obtain ⟨_, hthrow, -⟩ := exists_of_bind_eq_ok hbody
    cases hthrow
  · next hversion =>
    have hstart {t' : List Char} (hrest : Agree t t') :
        declaration (opening ++ (space ++ (name ++ (written ++ t')))) =
          (skip? "?>".toList t').elim ((expectSpace t').bind encodingPart)
            fun u => .ok (⟨none, false⟩, u) := by
      have hmiddle := (hrest.append written).append name
      unfold declaration
      simp only [hopening _ trivial, hspace _ hmiddle, hname _ trivial, hwritten _ hrest, bind,
        Except.bind, hversion]
      cases skip? "?>".toList t' <;> rfl
    split at hbody
    · next hclose =>
      cases hbody
      obtain ⟨last, rfl, hlast⟩ := taken_of_skip? hclose
      refine ⟨opening ++ (space ++ (name ++ (written ++ last))), by simp, fun r' hr => ?_⟩
      simp only [List.append_assoc]
      rw [hstart (hr.append last), hlast r' trivial, Option.elim_some]
    · next hclose =>
      obtain ⟨u, hu, hrest⟩ := exists_of_bind_eq_ok hbody
      obtain ⟨space', rfl, hspace'⟩ := (taken_of_expectSpace hu).agree
      obtain ⟨last, rfl, hlast⟩ := taken_of_encodingPart hrest
      refine ⟨opening ++ (space ++ (name ++ (written ++ (space' ++ last)))), by simp,
        fun r' hr => ?_⟩
      have htail := hr.append last
      have hmiddle := htail.append space'
      simp only [List.append_assoc]
      rw [hstart hmiddle, hmiddle.skip?_eq_none (by decide) hclose, hspace' _ htail]
      exact hlast r' hr

/-! ## Document type declarations -/

theorem taken_of_externalId? {s r : List Char} (h : externalId? s = .ok (some r)) :
    Taken Agree externalId? s r fun r' => .ok (some r') := by
  unfold externalId? at h
  split at h
  · next hskip =>
    obtain ⟨a, ha, hbody⟩ := exists_of_bind_eq_ok h
    obtain ⟨⟨v, t⟩, ht, hend⟩ := exists_of_bind_eq_ok hbody
    cases hend
    obtain ⟨name, rfl, hname⟩ := taken_of_skip? hskip
    obtain ⟨space, rfl, hspace⟩ := (taken_of_expectSpace ha).agree
    obtain ⟨text, rfl, htext⟩ := taken_of_literal ht
    refine ⟨name ++ (space ++ text), by simp, fun r' hr => ?_⟩
    simp only [List.append_assoc]
    unfold externalId?
    simp only [hname _ trivial, hspace _ (hr.append text), htext _ trivial, bind, Except.bind]
    rfl
  · next hsystem =>
    split at h
    · next hskip =>
      obtain ⟨a, ha, h₁⟩ := exists_of_bind_eq_ok h
      obtain ⟨⟨v, t⟩, ht, h₂⟩ := exists_of_bind_eq_ok h₁
      obtain ⟨b, hb, h₃⟩ := exists_of_bind_eq_ok h₂
      obtain ⟨⟨w, u⟩, hu, hend⟩ := exists_of_bind_eq_ok h₃
      cases hend
      obtain ⟨name, rfl, hname⟩ := taken_of_skip? hskip
      obtain ⟨space, rfl, hspace⟩ := (taken_of_expectSpace ha).agree
      obtain ⟨text, rfl, htext⟩ := taken_of_literal ht
      obtain ⟨space', rfl, hspace'⟩ := (taken_of_expectSpace hb).agree
      obtain ⟨text', rfl, htext'⟩ := taken_of_literal hu
      refine ⟨name ++ (space ++ (text ++ (space' ++ text'))), by simp, fun r' hr => ?_⟩
      have htail := hr.append text'
      have hmiddle := (htail.append space').append text
      simp only [List.append_assoc]
      unfold externalId?
      simp only [((hmiddle.append space).append name).skip?_eq_none (by decide) hsystem,
        hname _ trivial, hspace _ hmiddle, htext _ trivial, hspace' _ htail, htext' _ trivial,
        bind, Except.bind]
      rfl
    · cases h

theorem externalId?_of_agree {s' : List Char} (hs : Agree s s') (h : externalId? s = .ok none) :
    externalId? s' = .ok none := by
  unfold externalId? at h
  split at h
  · obtain ⟨a, ha, hbody⟩ := exists_of_bind_eq_ok h
    obtain ⟨⟨v, t⟩, ht, hend⟩ := exists_of_bind_eq_ok hbody
    cases hend
  · next hsystem =>
    split at h
    · obtain ⟨a, ha, h₁⟩ := exists_of_bind_eq_ok h
      obtain ⟨⟨v, t⟩, ht, h₂⟩ := exists_of_bind_eq_ok h₁
      obtain ⟨b, hb, h₃⟩ := exists_of_bind_eq_ok h₂
      obtain ⟨⟨w, u⟩, hu, hend⟩ := exists_of_bind_eq_ok h₃
      cases hend
    · next hpublic =>
      unfold externalId?
      rw [hs.skip?_eq_none (by decide) hsystem, hs.skip?_eq_none (by decide) hpublic]
      rfl

theorem taken_of_entityDefinition {entity : Entity}
    (h : entityDefinition s = .ok (entity, r)) :
    Taken Agree entityDefinition s r fun r' => .ok (entity, r') := by
  obtain ⟨external?, hid, hbody⟩ := exists_of_bind_eq_ok h
  cases external? with
  | some t =>
    obtain ⟨external, rfl, hexternal⟩ := taken_of_externalId? hid
    dsimp only at hbody
    generalize ht : skipSpace t = t1 at hbody
    split at hbody
    · next hskip =>
      obtain ⟨u, hu, hname⟩ := exists_of_bind_eq_ok hbody
      split at hname
      · next n v hn =>
        cases hname
        obtain ⟨space, rfl, hspace⟩ := (taken_of_skipSpace_eq ht).agree
        obtain ⟨mark, rfl, hmark⟩ := taken_of_skip? hskip
        obtain ⟨space', rfl, hspace'⟩ := (taken_of_expectSpace hu).agree
        obtain ⟨name, rfl, hname⟩ := (taken_of_name? hn).agree
        refine ⟨external ++ (space ++ (mark ++ (space' ++ name))), by simp, fun r' hr => ?_⟩
        have htail := hr.append name
        have hmiddle := (htail.append space').append mark
        simp only [List.append_assoc]
        unfold entityDefinition
        simp only [hexternal _ (hmiddle.append space), bind, Except.bind, hspace _ hmiddle, id,
          hmark _ trivial, hspace' _ htail, hname _ hr]
        rfl
      · cases hname
    · next hskip =>
      cases hbody
      refine ⟨external, rfl, fun r' hr => ?_⟩
      subst ht
      unfold entityDefinition
      simp only [hexternal _ hr, bind, Except.bind, hr.skipSpace.skip?_eq_none (by decide) hskip]
      rfl
  | none =>
    obtain ⟨⟨raw, t⟩, ht, htext⟩ := exists_of_bind_eq_ok hbody
    dsimp only at htext
    split at htext
    · next text hraw =>
      cases htext
      obtain ⟨literal, rfl, hliteral⟩ := taken_of_literal ht
      refine ⟨literal, rfl, fun r' hr => ?_⟩
      unfold entityDefinition
      simp only [externalId?_of_agree (hr.append literal) hid, bind, Except.bind,
        hliteral _ trivial, hraw]
      rfl
    · cases htext

/-- What an entity declaration gives from the name on. -/
def namedEntity (entities : Entities) (isParameter : Bool) (atName : List Char) :
    Except Stop (Entities × List Char) :=
  match name? atName with
  | none => .error ⟨atName⟩
  | some (name, afterName) =>
    if name.contains ':' then .error ⟨afterName⟩
    else do
      let (entity, afterDefinition) ← entityDefinition (← expectSpace afterName)
      let r ← expect ['>'] (skipSpace afterDefinition)
      if isParameter then return (entities, r)
      else
        return ({ entities with
          declared := entities.declared.insertNew (String.ofList name) entity }, r)

/-- The name of a declared entity, and whether it is a parameter entity. -/
def entityName (s : List Char) : Except Stop (Bool × List Char) :=
  match s with
  | '%' :: r => (expectSpace r).map fun t => (true, t)
  | r => pure (false, r)

theorem entityName_of_ne (h : ∀ r, s = '%' :: r → False) : entityName s = .ok (false, s) := by
  unfold entityName
  split
  · exact (h _ rfl).elim
  · rfl

theorem entityDeclaration_eq (entities : Entities) (s : List Char) :
    entityDeclaration entities s = (expectSpace s).bind fun start =>
      (entityName start).bind fun (isParameter, atName) =>
        namedEntity entities isParameter atName := by
  unfold entityDeclaration
  cases expectSpace s with
  | error e => rfl
  | ok start =>
    simp only [bind, Except.bind]
    split
    · rfl
    · next hpercent =>
      rw [entityName_of_ne hpercent]
      rfl

theorem taken_of_namedEntity {entities entities' : Entities} {isParameter : Bool}
    (h : namedEntity entities isParameter s = .ok (entities', r)) :
    Taken Agree (namedEntity entities isParameter) s r fun r' => .ok (entities', r') := by
  unfold namedEntity at h
  split at h
  · cases h
  · next name afterName hn =>
    split at h
    · cases h
    · next hcolon =>
      obtain ⟨a, ha, h₁⟩ := exists_of_bind_eq_ok h
      obtain ⟨⟨entity, t⟩, ht, h₂⟩ := exists_of_bind_eq_ok h₁
      obtain ⟨u, hu, hend⟩ := exists_of_bind_eq_ok h₂
      obtain rfl : u = r := by split at hend <;> cases hend <;> rfl
      generalize hskip : skipSpace t = m at hu
      obtain ⟨written, rfl, hwritten⟩ := (taken_of_name? hn).agree
      obtain ⟨space, rfl, hspace⟩ := (taken_of_expectSpace ha).agree
      obtain ⟨definition, rfl, hdefinition⟩ := taken_of_entityDefinition ht
      obtain ⟨space', rfl, hspace'⟩ := (taken_of_skipSpace_eq hskip).agree
      obtain ⟨last, rfl, hlast⟩ := taken_of_expect hu
      refine ⟨written ++ (space ++ (definition ++ (space' ++ last))), by simp, fun r' hr => ?_⟩
      have htail := hr.append last
      have hmiddle := htail.append space'
      have hfront := hmiddle.append definition
      simp only [List.append_assoc]
      unfold namedEntity
      simp only [hwritten _ (hfront.append space), bind, Except.bind, hspace _ hfront,
        hdefinition _ hmiddle, hspace' _ htail, id, hlast _ trivial]
      refine (if_neg hcolon).trans ?_
      split at hend <;> cases hend
      · next hparameter => exact if_pos hparameter
      · next hparameter => exact if_neg hparameter

theorem taken_of_entityName {isParameter : Bool} (h : entityName s = .ok (isParameter, r)) :
    Taken Agree entityName s r fun r' => .ok (isParameter, r') := by
  unfold entityName at h
  split at h
  · obtain ⟨m, hm, he⟩ := exists_of_map_eq_ok h
    cases he
    obtain ⟨space, rfl, hspace⟩ := (taken_of_expectSpace hm).agree
    refine ⟨'%' :: space, rfl, fun r' hr => ?_⟩
    rw [List.cons_append, entityName, hspace r' hr]
    rfl
  · next hpercent =>
    cases h
    exact ⟨[], rfl, fun r' hr => entityName_of_ne (hr.not_begins ['%'] (by decide) hpercent)⟩

theorem taken_of_entityDeclaration {entities entities' : Entities}
    (h : entityDeclaration entities s = .ok (entities', r)) :
    Taken Agree (entityDeclaration entities) s r fun r' => .ok (entities', r') := by
  rw [entityDeclaration_eq] at h
  obtain ⟨start, hstart, h₁⟩ := exists_of_bind_eq_ok h
  obtain ⟨⟨isParameter, atName⟩, hname, hnamed⟩ := exists_of_bind_eq_ok h₁
  obtain ⟨space, rfl, hspace⟩ := (taken_of_expectSpace hstart).agree
  obtain ⟨mark, rfl, hmark⟩ := taken_of_entityName hname
  obtain ⟨last, rfl, hlast⟩ := taken_of_namedEntity hnamed
  refine ⟨space ++ (mark ++ last), by simp, fun r' hr => ?_⟩
  have htail := hr.append last
  simp only [List.append_assoc]
  rw [entityDeclaration_eq, hspace _ (htail.append mark)]
  simp only [Except.bind, hmark _ htail]
  exact hlast r' hr

theorem taken_of_skipDeclaration {mark : Option Char}
    (h : skipDeclaration mark s = .ok r) : Taken Anything (skipDeclaration mark) s r .ok := by
  fun_induction skipDeclaration mark s with
  | case1 => cases h
  | case2 => cases h
  | case3 c t hc ih =>
    refine taken_cons (ih h) fun u r' _ hu => ?_
    rw [skipDeclaration, if_neg hc, if_pos rfl, hu]
  | case4 mark c t hc hmark hsome ih =>
    refine taken_cons (ih h) fun u r' _ hu => ?_
    rw [skipDeclaration, if_neg hc, if_neg hmark, if_pos hsome, hu]
  | case5 mark c t hc hmark hsome hend =>
    cases h
    refine ⟨[c], rfl, fun r' _ => ?_⟩
    rw [List.singleton_append, skipDeclaration, if_neg hc, if_neg hmark, if_neg hsome, if_pos hend]
  | case6 mark c t hc hmark hsome hend hquote ih =>
    refine taken_cons (ih h) fun u r' _ hu => ?_
    rw [skipDeclaration, if_neg hc, if_neg hmark, if_neg hsome, if_neg hend, if_pos hquote, hu]
  | case7 mark c t hc hmark hsome hend hquote ih =>
    refine taken_cons (ih h) fun u r' _ hu => ?_
    rw [skipDeclaration, if_neg hc, if_neg hmark, if_neg hsome, if_neg hend, if_neg hquote, hu]

theorem subsetItem_entity (entities : Entities) (s : List Char) :
    subsetItem entities ("<!ENTITY".toList ++ s) = entityDeclaration entities s := rfl

/-- The openings of declarations that are passed over. -/
def otherOpenings : List String := ["<!ELEMENT", "<!ATTLIST", "<!NOTATION"]

theorem subsetItem_other {opening : String} (h : opening ∈ otherOpenings) (entities : Entities)
    (s : List Char) :
    subsetItem entities (opening.toList ++ s) =
      (skipDeclaration none s).map fun t => (entities, t) := by
  simp only [otherOpenings, List.mem_cons, List.not_mem_nil, or_false] at h
  rcases h with rfl | rfl | rfl <;> rfl

theorem taken_of_subsetItem {entities entities' : Entities}
    (h : subsetItem entities s = .ok (entities', r)) :
    Taken Agree (subsetItem entities) s r fun r' => .ok (entities', r') := by
  unfold subsetItem at h
  split at h
  · next t =>
    split at h
    · next n u hn =>
      cases h
      obtain ⟨name, rfl, hname⟩ := taken_of_name? hn
      refine ⟨'%' :: (name ++ [';']), by simp, fun r' _ => ?_⟩
      have hrest := hname (';' :: r') rfl
      simp only [List.cons_append, List.append_assoc, List.nil_append, subsetItem, hrest]
    · cases h
  · obtain ⟨u, hx, he⟩ := exists_of_map_eq_ok h
    cases he
    obtain ⟨t, rfl, ht⟩ := taken_of_instruction hx
    refine ⟨'<' :: '?' :: t, rfl, fun r' hr => ?_⟩
    simp only [List.cons_append, subsetItem, ht r' trivial]
    rfl
  · obtain ⟨u, hx, he⟩ := exists_of_map_eq_ok h
    cases he
    obtain ⟨t, rfl, ht⟩ := taken_of_comment hx
    refine ⟨'<' :: '!' :: '-' :: '-' :: t, rfl, fun r' hr => ?_⟩
    simp only [List.cons_append, subsetItem, ht r' trivial]
    rfl
  · next hpercent hinstruction hcomment =>
    split at h
    · next m hskip =>
      obtain ⟨t, rfl, ht⟩ := taken_of_entityDeclaration h
      obtain rfl := skip?_eq_some_iff.mp hskip
      refine ⟨"<!ENTITY".toList ++ t, by rw [List.append_assoc], fun r' hr => ?_⟩
      rw [List.append_assoc, subsetItem_entity, ht r' hr]
    · dsimp only at h
      split at h
      · next m hfound =>
        obtain ⟨opening, hopening, hskip⟩ := List.exists_of_findSome?_eq_some hfound
        obtain ⟨u, hx, he⟩ := exists_of_map_eq_ok h
        cases he
        obtain ⟨t, rfl, ht⟩ := taken_of_skipDeclaration hx
        obtain rfl := skip?_eq_some_iff.mp hskip
        refine ⟨opening.toList ++ t, by rw [List.append_assoc], fun r' hr => ?_⟩
        rw [List.append_assoc, subsetItem_other hopening, ht r' trivial]
        rfl
      · cases h

/-- More declarations may be there than are. -/
theorem subset_mono {count count' : Nat} {entities : Entities} {x : Entities × List Char}
    (hcount : count ≤ count') (h : subset count entities s = .ok x) :
    subset count' entities s = .ok x := by
  induction count generalizing count' entities s with
  | zero => cases h
  | succ count ih =>
    obtain ⟨count', rfl⟩ := Nat.exists_eq_add_of_le' (Nat.lt_of_lt_of_le count.succ_pos hcount)
    rw [subset] at h ⊢
    split at h
    · exact h
    · split at h
      · cases h
      · next hitem =>
        exact ih (Nat.le_of_succ_le_succ hcount) h

theorem taken_of_subset {count : Nat} {entities entities' : Entities}
    (h : subset count entities s = .ok (entities', r)) :
    Taken Agree (subset count entities) s r fun r' => .ok (entities', r') := by
  induction count generalizing entities s with
  | zero => cases h
  | succ count ih =>
    rw [subset] at h
    generalize hspace : skipSpace s = m at h
    obtain ⟨space, rfl, hskip⟩ := (taken_of_skipSpace_eq hspace).agree
    split at h
    · cases h
      refine ⟨space ++ [']'], by simp, fun r' hr => ?_⟩
      have hbracket := hskip _ (hr.append [']'])
      rw [List.append_assoc, subset, hbracket]
      rfl
    · next hbracket =>
      split at h
      · cases h
      · next entities₁ u hitem =>
        obtain ⟨item, rfl, hread⟩ := taken_of_subsetItem hitem
        obtain ⟨last, rfl, hlast⟩ := ih h
        refine ⟨space ++ (item ++ last), by simp, fun r' hr => ?_⟩
        have htail := hr.append last
        have hmiddle := htail.append item
        have hother := hmiddle.not_begins [']'] (by decide) hbracket
        simp only [List.append_assoc]
        rw [subset, hskip _ hmiddle]
        split
        · next ht => exact (hother _ ht).elim
        · simp only [id, hread _ htail]
          exact hlast r' hr

def internalSubset (start : Entities) (s : List Char) : Except Stop (Entities × List Char) :=
  match s with
  | '[' :: t => subset (t.length + 1) start t
  | t => .ok (start, t)

theorem internalSubset_of_ne {start : Entities} (h : ∀ r, s = '[' :: r → False) :
    internalSubset start s = .ok (start, s) := by
  unfold internalSubset
  split
  · exact (h _ rfl).elim
  · rfl

theorem taken_of_internalSubset {start entities : Entities}
    (h : internalSubset start s = .ok (entities, r)) :
    Taken Agree (internalSubset start) s r fun r' => .ok (entities, r') := by
  unfold internalSubset at h
  split at h
  · next m =>
    obtain ⟨t, rfl, ht⟩ := taken_of_subset h
    refine ⟨'[' :: t, rfl, fun r' hr => ?_⟩
    -- how many declarations there may be comes from the length of the text
    have hlength := (hr.append t).length_le
    exact subset_mono (Nat.succ_le_succ hlength) (ht r' hr)
  · next hbracket =>
    cases h
    exact ⟨[], rfl, fun r' hr => internalSubset_of_ne (hr.not_begins ['['] (by decide) hbracket)⟩

/-- What a document type declaration gives after the identifier of an external subset, if there is
one. -/
def afterExternalId (standalone hasExternal : Bool) (s : List Char) :
    Except Stop (Entities × List Char) := do
  let (entities, r) ← internalSubset ⟨.empty, hasExternal⟩ (skipSpace s)
  let rest ← expect ['>'] (skipSpace r)
  return ({ entities with incomplete := entities.incomplete && !standalone }, rest)

theorem docType_eq (standalone : Bool) (s : List Char) :
    docType standalone s = (expectSpace s).bind fun atName =>
      match name? atName with
      | none => .error ⟨atName⟩
      | some (_, afterName) => (externalId? (skipSpace afterName)).bind fun external? =>
        afterExternalId standalone external?.isSome (external?.getD (skipSpace afterName)) := by
  unfold docType
  cases expectSpace s with
  | error e => rfl
  | ok atName =>
    simp only [bind, Except.bind]
    cases name? atName with
    | none => rfl
    | some p =>
      obtain ⟨name, afterName⟩ := p
      dsimp only
      cases externalId? (skipSpace afterName) with
      | error e => rfl
      | ok external? =>
        simp only [afterExternalId, bind, Except.bind]
        split
        · next hopen => rw [hopen]; rfl
        · next hopen => rw [internalSubset_of_ne hopen]; rfl

theorem taken_of_afterExternalId {standalone hasExternal : Bool} {entities : Entities}
    (h : afterExternalId standalone hasExternal s = .ok (entities, r)) :
    Taken Agree (afterExternalId standalone hasExternal) s r fun r' => .ok (entities, r') := by
  obtain ⟨⟨declared, t⟩, ht, h₁⟩ := exists_of_bind_eq_ok h
  obtain ⟨u, hu, hend⟩ := exists_of_bind_eq_ok h₁
  cases hend
  generalize hs : skipSpace s = m at ht
  generalize hskip : skipSpace t = n at hu
  obtain ⟨space, rfl, hspace⟩ := (taken_of_skipSpace_eq hs).agree
  obtain ⟨declarations, rfl, hdeclarations⟩ := taken_of_internalSubset ht
  obtain ⟨space', rfl, hspace'⟩ := (taken_of_skipSpace_eq hskip).agree
  obtain ⟨last, rfl, hlast⟩ := taken_of_expect hu
  refine ⟨space ++ (declarations ++ (space' ++ last)), by simp, fun r' hr => ?_⟩
  have htail := hr.append last
  have hmiddle := htail.append space'
  simp only [List.append_assoc]
  unfold afterExternalId
  simp only [hspace _ (hmiddle.append declarations), id, hdeclarations _ hmiddle, bind,
    Except.bind, hspace' _ htail, hlast _ trivial]
  rfl

theorem taken_of_docType {standalone : Bool} {entities : Entities}
    (h : docType standalone s = .ok (entities, r)) :
    Taken Agree (docType standalone) s r fun r' => .ok (entities, r') := by
  rw [docType_eq] at h
  obtain ⟨atName, hname, hbody⟩ := exists_of_bind_eq_ok h
  split at hbody
  · cases hbody
  · next name afterName hn =>
    obtain ⟨external?, hid, hrest⟩ := exists_of_bind_eq_ok hbody
    generalize hskip : skipSpace afterName = atId at hid hrest
    obtain ⟨space, rfl, hspace⟩ := (taken_of_expectSpace hname).agree
    obtain ⟨written, rfl, hwritten⟩ := (taken_of_name? hn).agree
    obtain ⟨space', rfl, hspace'⟩ := (taken_of_skipSpace_eq hskip).agree
    cases external? with
    | none =>
      obtain ⟨last, rfl, hlast⟩ := taken_of_afterExternalId hrest
      refine ⟨space ++ (written ++ (space' ++ last)), by simp, fun r' hr => ?_⟩
      have htail := hr.append last
      have hmiddle := htail.append space'
      simp only [List.append_assoc]
      rw [docType_eq, hspace _ (hmiddle.append written)]
      simp only [Except.bind, hwritten _ hmiddle, hspace' _ htail, id,
        externalId?_of_agree htail hid]
      exact hlast r' hr
    | some t =>
      obtain ⟨external, rfl, hexternal⟩ := taken_of_externalId? hid
      obtain ⟨last, rfl, hlast⟩ := taken_of_afterExternalId hrest
      refine ⟨space ++ (written ++ (space' ++ (external ++ last))), by simp, fun r' hr => ?_⟩
      have htail := hr.append last
      have hfront := htail.append external
      have hmiddle := hfront.append space'
      simp only [List.append_assoc]
      rw [docType_eq, hspace _ (hmiddle.append written)]
      simp only [Except.bind, hwritten _ hmiddle, hspace' _ hfront, id, hexternal _ htail]
      exact hlast r' hr

/-! ## What stands before the root -/

theorem skipMisc_instruction {t : List Char} (h : skipSpace s = '<' :: '?' :: t) :
    skipMisc s = (instruction t).bind skipMisc := by
  rw [skipMisc]
  split
  · next hs =>
    cases h.symm.trans hs
    split
    · next ht => rw [ht]; rfl
    · next ht => rw [ht]; rfl
  · next hs => cases h.symm.trans hs
  · next hinstruction _ => exact (hinstruction _ h).elim

theorem skipMisc_comment {t : List Char} (h : skipSpace s = '<' :: '!' :: '-' :: '-' :: t) :
    skipMisc s = (comment t).bind skipMisc := by
  rw [skipMisc]
  split
  · next hs => cases h.symm.trans hs
  · next hs =>
    cases h.symm.trans hs
    split
    · next ht => rw [ht]; rfl
    · next ht => rw [ht]; rfl
  · next _ hcomment => exact (hcomment _ h).elim

theorem taken_of_skipMisc (h : skipMisc s = .ok r) : Taken Agree skipMisc s r .ok := by
  fun_induction skipMisc s with
  | case1 s t hs e ht => cases h
  | case2 s t hs u hu ih =>
    obtain ⟨space, rfl, hspace⟩ := (taken_of_skipSpace_eq hs).agree
    obtain ⟨mark, rfl, hmark⟩ := taken_of_instruction hu
    obtain ⟨last, rfl, hlast⟩ := ih h
    refine ⟨space ++ '<' :: '?' :: (mark ++ last), by simp, fun r' hr => ?_⟩
    have hskip := hspace _ (((hr.append last).append mark).append ['<', '?'])
    simp only [List.append_assoc, List.cons_append, List.nil_append] at hskip ⊢
    rw [skipMisc_instruction hskip, hmark _ trivial]
    exact hlast r' hr
  | case3 s t hs e ht => cases h
  | case4 s t hs u hu ih =>
    obtain ⟨space, rfl, hspace⟩ := (taken_of_skipSpace_eq hs).agree
    obtain ⟨mark, rfl, hmark⟩ := taken_of_comment hu
    obtain ⟨last, rfl, hlast⟩ := ih h
    refine ⟨space ++ '<' :: '!' :: '-' :: '-' :: (mark ++ last), by simp, fun r' hr => ?_⟩
    have hskip := hspace _ (((hr.append last).append mark).append ['<', '!', '-', '-'])
    simp only [List.append_assoc, List.cons_append, List.nil_append] at hskip ⊢
    rw [skipMisc_comment hskip, hmark _ trivial]
    exact hlast r' hr
  | case5 s hinstruction hcomment =>
    cases h
    obtain ⟨space, hs, hspace⟩ := (taken_skipSpace s).agree
    refine ⟨space, hs, fun r' hr => ?_⟩
    have hskip := hspace r' hr
    rw [skipMisc]
    split
    · next hv =>
      exact (hr.not_begins ['<', '?'] (by decide) hinstruction _ (hskip.symm.trans hv)).elim
    · next hv =>
      have hno := hr.not_begins ['<', '!', '-', '-'] (by decide) hcomment
      exact (hno _ (hskip.symm.trans hv)).elim
    · exact congrArg Except.ok hskip

theorem taken_of_prolog {standalone : Bool} {entities : Entities}
    (h : prolog standalone s = .ok (entities, r)) :
    Taken Agree (prolog standalone) s r fun r' => .ok (entities, r') := by
  obtain ⟨t, ht, hbody⟩ := exists_of_bind_eq_ok h
  obtain ⟨misc, rfl, hmisc⟩ := taken_of_skipMisc ht
  dsimp only at hbody
  split at hbody
  · next hskip =>
    cases hbody
    refine ⟨misc, rfl, fun r' hr => ?_⟩
    unfold prolog
    simp only [hmisc r' hr, bind, Except.bind, hr.skip?_eq_none (by decide) hskip]
    rfl
  · next hskip =>
    obtain ⟨⟨declared, u⟩, hu, h₁⟩ := exists_of_bind_eq_ok hbody
    obtain ⟨v, hv, hend⟩ := exists_of_bind_eq_ok h₁
    cases hend
    obtain ⟨mark, rfl, hmark⟩ := taken_of_skip? hskip
    obtain ⟨declaration, rfl, hdeclaration⟩ := taken_of_docType hu
    obtain ⟨last, rfl, hlast⟩ := taken_of_skipMisc hv
    refine ⟨misc ++ (mark ++ (declaration ++ last)), by simp, fun r' hr => ?_⟩
    have htail := hr.append last
    have hmiddle := htail.append declaration
    simp only [List.append_assoc]
    unfold prolog
    simp only [hmisc _ (hmiddle.append mark), hmark _ trivial, hdeclaration _ htail, hlast _ hr,
      bind, Except.bind]
    rfl

end Xml

end CiteStyle
