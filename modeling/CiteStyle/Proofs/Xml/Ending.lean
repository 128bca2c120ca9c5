import CiteStyle.Proofs.Xml.Indentation
import CiteStyle.Xml.Encoding
import Mathlib.Data.List.TakeWhile

/-! # How documents end

The last thing that is read of a document is a closing bracket, and only white space may follow it
(`suffix_of_document`). So a document that is read never ends at the character at which reading
stops (`read_append_barrier`). -/

namespace CiteStyle.Xml

variable {s r : List Char}

/-! ## Closing brackets -/

theorem closes_comment (h : comment s = .ok r) : '>' :: r <:+ s := by
  fun_induction comment s with
  | case1 t =>
    obtain rfl := Except.ok.inj h
    exact List.suffix_append ['-', '-'] ('>' :: t)
  | case2 => cases h
  | case3 c t _ _ _ ih => exact suffix_cons_of_suffix c (ih h)
  | case4 => cases h
  | case5 => cases h

theorem closes_instructionBody (h : instructionBody s = .ok r) : '>' :: r <:+ s := by
  fun_induction instructionBody s with
  | case1 t =>
    obtain rfl := Except.ok.inj h
    exact List.suffix_cons '?' ('>' :: t)
  | case2 c t _ _ ih => exact suffix_cons_of_suffix c (ih h)
  | case3 => cases h
  | case4 => cases h

theorem closes_instruction (h : instruction s = .ok r) : '>' :: r <:+ s := by
  unfold instruction at h
  split at h
  · cases h
  · next target t hn =>
    refine List.IsSuffix.trans ?_ (suffix_of_name? hn)
    split at h
    · cases h
    · split at h
      · obtain rfl := Except.ok.inj h
        exact List.suffix_cons '?' _
      · next c u _ =>
        split at h
        · exact suffix_cons_of_suffix c (closes_instructionBody h)
        · cases h
      · cases h

theorem closes_tagRest {entities : Entities} {earlier : List QName} {x : List Attribute × Bool}
    (h : tagRest entities earlier s = .ok (x, r)) : '>' :: r <:+ s := by
  fun_induction tagRest entities earlier s generalizing x r with
  | case1 earlier s t hs =>
    cases h
    exact suffix_of_skipSpace_eq hs
  | case2 earlier s t hs =>
    cases h
    exact (List.suffix_cons '/' ('>' :: t)).trans (suffix_of_skipSpace_eq hs)
  | case3 => cases h
  | case4 => cases h
  | case5 => cases h
  | case6 earlier s a t _ rest closed u hu _ _ _ ha ih =>
    cases h
    exact (ih hu).trans ((suffix_of_singleAttribute ha).trans (skipSpace_suffix s))
  | case7 => cases h

theorem closes_startTag {entities : Entities} {x : QName × List Attribute × Bool}
    (h : startTag entities s = .ok (x, r)) : '>' :: r <:+ s := by
  unfold startTag at h
  split at h
  · cases h
  · next hn =>
    split at h
    · cases h
    · next ht =>
      cases h
      exact (closes_tagRest ht).trans (suffix_of_qualifiedName hn)

theorem closes_endTag {n : String} (h : endTag s = .ok (n, r)) : '>' :: r <:+ s := by
  have hname : ((name? s).getD ([], s)).2 <:+ s := by
    cases hn : name? s with
    | none => exact List.suffix_rfl
    | some p => exact suffix_of_name? hn
  unfold endTag at h
  dsimp only at h
  split at h
  · next hr =>
    cases h
    exact (suffix_of_skipSpace_eq hr).trans hname
  · cases h

/-! ## Elements -/

theorem closes_token {entities : Entities} {name : String}
    (h : token entities s = .ok (.closing name, r)) : '>' :: r <:+ s := by
  unfold token at h
  split at h
  · cases h
  · next t =>
    refine suffix_cons_of_suffix '<' ?_
    unfold markup at h
    split at h <;> obtain ⟨x, hx, he⟩ := exists_of_map_eq_ok h
    · cases he
      exact suffix_cons_of_suffix '/' (closes_endTag hx)
    all_goals cases he
  · obtain ⟨⟨x, t⟩, -, he⟩ := exists_of_map_eq_ok h
    obtain ⟨he, -⟩ := Prod.mk.inj he
    cases x with
    | character c => cases he
    | entity n =>
      dsimp only [Reference.token] at he
      split at he <;> cases he
  · cases h
  · split at h <;> cases h

theorem closes_content {setting : Setting} {top : Frame} {below : List Frame} {root : Element}
    (h : content setting top below s = .ok (.closed root r)) : '>' :: r <:+ s := by
  fun_induction content setting top below s with
  | case1 => cases h
  | case2 => cases h
  | case3 top below c cs piece t ht ih => exact (ih h).trans (suffix_of_token ht)
  | case4 top below c cs t ht ih => exact (ih h).trans (suffix_of_token ht)
  | case5 top below c cs name t ht _ ih => exact (ih h).trans (suffix_of_token ht)
  | case6 => cases h
  | case7 top below c cs name attributes closed t ht top' below' _ ih =>
    exact (ih h).trans (suffix_of_token ht)
  | case8 => cases h
  | case9 top c cs t ht =>
    cases h
    exact closes_token ht
  | case10 top c cs t f fs ht ih => exact (ih h).trans (suffix_of_token ht)
  | case11 => cases h

theorem closes_rootElement {setting : Setting} {root : Element}
    (h : rootElement setting s = .ok (root, r)) : '>' :: r <:+ s := by
  unfold rootElement at h
  split at h
  · cases h
  · next ht =>
    dsimp only at h
    split at h
    · split at h
      · cases h
        exact closes_startTag ht
      · split at h
        · cases h
        · next hc =>
          cases h
          exact (closes_content hc).trans (suffix_of_startTag ht)
        · cases h
    · cases h

/-! ## Documents -/

/-- What is passed over outside the root is white space, or it ends in a closing bracket and white
space. -/
theorem skipMisc_ends (h : skipMisc s = .ok r) :
    ∃ t, skipSpace t = r ∧ (t = s ∨ '>' :: t <:+ s) := by
  fun_induction skipMisc s with
  | case1 => cases h
  | case2 s t hs u hu ih =>
    have hend := (closes_instruction hu).trans
      ((List.suffix_append ['<', '?'] t).trans (suffix_of_skipSpace_eq hs))
    obtain ⟨v, hv, rfl | hclose⟩ := ih h
    · exact ⟨v, hv, .inr hend⟩
    · exact ⟨v, hv, .inr (hclose.trans ((List.suffix_cons '>' u).trans hend))⟩
  | case3 => cases h
  | case4 s t hs u hu ih =>
    have hend := (closes_comment hu).trans
      ((List.suffix_append ['<', '!', '-', '-'] t).trans (suffix_of_skipSpace_eq hs))
    obtain ⟨v, hv, rfl | hclose⟩ := ih h
    · exact ⟨v, hv, .inr hend⟩
    · exact ⟨v, hv, .inr (hclose.trans ((List.suffix_cons '>' u).trans hend))⟩
  | case5 s => exact ⟨s, Except.ok.inj h, .inl rfl⟩

/-- A document ends in a closing bracket and white space. -/
theorem suffix_of_document {root : Element} (h : document s = .ok root) :
    ∃ space, '>' :: space <:+ s ∧ ∀ c ∈ space, isSpace c = true := by
  obtain ⟨entities, u, v, hu, hroot, hrest⟩ := document_eq_ok h
  have hclose : '>' :: v <:+ s :=
    (closes_rootElement hroot).trans ((List.suffix_cons '<' u).trans hu)
  obtain ⟨t, ht, hend⟩ := skipMisc_ends hrest
  refine ⟨t, ?_, fun c hc => List.dropWhile_eq_nil_iff.mp ht c hc⟩
  rcases hend with rfl | hend
  · exact hclose
  · exact hend.trans ((List.suffix_cons '>' v).trans hclose)

/-- **Nothing is read up to the barrier.** -/
theorem read_append_barrier (s : List Char) (root : Element) :
    read (s ++ [barrier]) ≠ .ok root := by
  intro h
  have h := read_eq_ok_iff.mp h
  have hmark : ∃ t, skipMark (s ++ [barrier]) = t ++ [barrier] := by
    cases s with
    | nil => exact ⟨[], rfl⟩
    | cons c s =>
      rw [List.cons_append, skipMark]
      split
      · exact ⟨s, rfl⟩
      · exact ⟨c :: s, rfl⟩
  obtain ⟨t, ht⟩ := hmark
  have hjoin : joinLineEnds (t ++ [barrier]) = joinLineEnds t ++ [barrier] :=
    joinLineEnds_append fun _ => by decide
  rw [ht, hjoin] at h
  obtain ⟨space, ⟨before, hend⟩, hspace⟩ := suffix_of_document h
  have hlast : ('>' :: space).getLast? = some barrier := by
    have hsame := congrArg List.getLast? hend
    rwa [List.getLast?_append, List.getLast?_concat, List.getLast?_cons, Option.some_or,
      ← List.getLast?_cons] at hsame
  rcases List.mem_cons.mp (List.mem_of_getLast? hlast) with hb | hb
  · cases hb
  · cases hspace _ hb

end CiteStyle.Xml
