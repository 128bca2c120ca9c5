import CiteStyle.Proofs.Xml.Lines
import CiteStyle.Proofs.Xml.Parts

/-! # Names in trees

A tree from anywhere may have names with colons for tags and attributes (`Xml.IsFullName`); where such
a name is written, it ends at the first character that no name holds (`Xml.IsFullName.append_inj`).
The trees that documents are read as have names, without their qualifiers (`Document.parse_named`). -/

namespace CiteStyle

namespace Xml

variable {s r : List Char}

/-! ## Names with colons -/

/-- A name in which colons may stand, and nothing after it. -/
def IsFullName (s : List Char) : Prop := name? s = some (s, [])

instance (s : List Char) : Decidable (IsFullName s) := inferInstanceAs (Decidable (_ = _))

theorem isFullName_iff : IsFullName s ↔ ∃ c t, s = c :: t ∧ (isNameStart c || c == ':') = true ∧
    ∀ d ∈ t, (isNamePart d || d == ':') = true := by
  cases s with
  | nil => simp [IsFullName, name?]
  | cons c t => simp [IsFullName, name?]

example : IsFullName "xml:lang".toList ∧ ¬ IsFullName "xml lang".toList := by decide

/-- A name without colon is one of them. -/
theorem isFullName_of_isName (hs : isName s = true) : IsFullName s := by
  have hname := name?_append hs (r := []) nofun
  rwa [List.append_nil] at hname

/-- A name is read off the front of a text in which it does not go on. -/
theorem IsFullName.name?_append (h : IsFullName s) (hr : EndsName r) :
    name? (s ++ r) = some (s, r) := by
  obtain ⟨c, t, rfl, hc, ht⟩ := isFullName_iff.mp h
  rw [List.cons_append, name?, if_pos hc, takeWhile_append_of_stop ht hr,
    dropWhile_append_of_stop ht hr]

theorem IsFullName.append_inj {t u : List Char} (hs : IsFullName s) (ht : IsFullName t)
    (hr : EndsName r) (hu : EndsName u) (h : s ++ r = t ++ u) : s = t ∧ r = u := by
  have hread := congrArg name? h
  rw [hs.name?_append hr, ht.name?_append hu] at hread
  exact Prod.mk.inj (Option.some.inj hread)

theorem IsFullName.part (h : IsFullName s) : ∀ c ∈ s, (isNamePart c || c == ':') = true := by
  obtain ⟨c, t, rfl, hc, ht⟩ := isFullName_iff.mp h
  refine List.forall_mem_cons.mpr ⟨?_, ht⟩
  rw [Bool.or_eq_true] at hc ⊢
  exact hc.imp_left fun hstart => by rw [isNamePart, hstart, Bool.true_or]

/-- No text begins with a name where no name goes on. -/
theorem IsFullName.append_ne {t : List Char} (h : IsFullName s) (ht : EndsName t) :
    s ++ r ≠ t := by
  obtain ⟨c, n, rfl, -⟩ := isFullName_iff.mp h
  rintro rfl
  exact Bool.false_ne_true ((ht c rfl).symm.trans (h.part c List.mem_cons_self))

/-! ## Names that are read -/

theorem isName_of_plainName? {n : List Char} (h : plainName? s = some (n, r)) : isName n = true := by
  cases s with
  | nil => cases h
  | cons c t =>
    rw [plainName?] at h
    split at h
    · next hc =>
      cases h
      exact isName_iff.mpr ⟨c, _, rfl, hc, fun _ hd => List.mem_takeWhile_imp hd⟩
    · cases h

theorem isName_of_qualifiedName {n : QName} (h : qualifiedName s = .ok (n, r)) :
    isName n.base.toList = true := by
  unfold qualifiedName at h
  split at h
  · cases h
  · split at h
    · cases h
    · cases h
    · next hn =>
      cases h
      rw [String.toList_ofList]
      exact isName_of_plainName? hn
  · next hn =>
    cases h
    rw [String.toList_ofList]
    exact isName_of_plainName? hn

theorem isName_of_singleAttribute {entities : Entities} {a : Attribute}
    (h : singleAttribute entities s = .ok (a, r)) : isName a.name.base.toList = true := by
  unfold singleAttribute at h
  split at h
  · cases h
  · next hn =>
    have hname := isName_of_qualifiedName hn
    split at h
    · split at h
      · split at h
        · split at h
          · cases h
          · cases h
            exact hname
        · cases h
      · cases h
    · cases h

theorem isName_of_tagRest {entities : Entities} {earlier : List QName}
    {x : List Attribute × Bool} (h : tagRest entities earlier s = .ok (x, r)) :
    ∀ a ∈ x.1, isName a.name.base.toList = true := by
  fun_induction tagRest entities earlier s generalizing x r with
  | case1 =>
    cases h
    exact fun _ ha => absurd ha List.not_mem_nil
  | case2 =>
    cases h
    exact fun _ ha => absurd ha List.not_mem_nil
  | case3 => cases h
  | case4 => cases h
  | case5 => cases h
  | case6 earlier s a t _ rest closed u hu _ _ _ ha ih =>
    cases h
    exact List.forall_mem_cons.mpr ⟨isName_of_singleAttribute ha, ih hu⟩
  | case7 => cases h

theorem isName_of_startTag {entities : Entities} {name : QName} {given : List Attribute}
    {closed : Bool} (h : startTag entities s = .ok ((name, given, closed), r)) :
    isName name.base.toList = true ∧ ∀ a ∈ given, isName a.name.base.toList = true := by
  unfold startTag at h
  split at h
  · cases h
  · next hn =>
    split at h
    · cases h
    · next ht =>
      cases h
      exact ⟨isName_of_qualifiedName hn, isName_of_tagRest ht⟩

end Xml

/-! ## Tables -/

theorem Table.mem_keys_foldl_insert {α : Type} {l : List (String × α)} {t : Table α} {k : String}
    (h : k ∈ (l.foldl (fun t e => t.insert e.1 e.2) t).keys) : k ∈ t.keys ∨ k ∈ l.map Prod.fst := by
  induction l generalizing t with
  | nil => exact .inl h
  | cons e rest ih =>
    rcases ih h with hk | hk
    · rcases mem_keys_put.mp hk with rfl | hk
      · exact .inr List.mem_cons_self
      · exact .inl hk
    · exact .inr (List.mem_cons_of_mem _ hk)

theorem Table.mem_keys_ofList {α : Type} {l : List (String × α)} {k : String}
    (h : k ∈ (ofList l).keys) : k ∈ l.map Prod.fst :=
  (mem_keys_foldl_insert h).resolve_left List.not_mem_nil

/-! ## Trees -/

def HasNames (tag : String) (attributes : Table String) : Prop :=
  Xml.IsFullName tag.toList ∧ ∀ name ∈ attributes.keys, Xml.IsFullName name.toList

def Node.Named (n : Node) : Prop := n.Headed fun tag attributes _ => HasNames tag attributes

theorem Xml.StartTagIn.hasNames {entities : Entities} {s rest : List Char} {tag : String}
    {attributes : Table String} (h : StartTagIn entities s tag attributes rest) :
    HasNames tag attributes := by
  obtain ⟨u, name, given, closed, -, htag, rfl, rfl⟩ := h
  obtain ⟨hname, hgiven⟩ := isName_of_startTag htag
  refine ⟨isFullName_of_isName hname, fun k hk => ?_⟩
  obtain ⟨e, he, rfl⟩ := List.mem_map.mp (Table.mem_keys_ofList hk)
  obtain ⟨a, ha, rfl⟩ := List.mem_map.mp he
  exact isFullName_of_isName (hgiven a (List.mem_of_mem_filter ha))

/-- **The tags and attribute names of a document are names.** -/
theorem Document.parse_named {d : Document} {root : Element} (h : d.parse = .ok root) :
    root.toNode.Named := by
  intro e he
  obtain ⟨-, hread⟩ := Document.parse_eq_ok_iff.mp h
  obtain ⟨entities, hheaded⟩ := Xml.document_headed (Xml.read_eq_ok_iff.mp hread)
  obtain ⟨rest, htag, -⟩ := hheaded e he
  exact htag.hasNames

end CiteStyle
