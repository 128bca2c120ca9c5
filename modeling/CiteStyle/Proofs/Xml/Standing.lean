import CiteStyle.Proofs.Xml.Ending
import CiteStyle.Proofs.Xml.Prolog

/-! # Places in the content of a document

A reader stands in content with some open elements and the text ahead. It comes to where it stands
piece by piece from the start of the root element (`content_after`), and what it has read by then it
reads as well if another text is ahead (`taken_of_after`). -/

namespace CiteStyle

namespace Xml

/-- Where a reader stands in content: the open elements and the text ahead. -/
structure Standing where
  setting : Setting
  top : Frame
  below : List Frame
  ahead : List Char

namespace Standing

/-- Where the reader stands after one more piece of content, if it is still in content there. -/
def next? (p : Standing) : Option Standing :=
  match token p.setting.entities p.ahead with
  | .error _ => none
  | .ok (.text piece, r) => some { p with top := p.top.write piece, ahead := r }
  | .ok (.gap, r) => some { p with top := p.top.settle, ahead := r }
  | .ok (.entity name, r) =>
    if p.setting.mayRefer p.top.scope name then some { p with top := p.top.settle, ahead := r }
    else none
  | .ok (.opening name attributes closed, r) =>
    (openElement (p.setting.lineOf r) p.top p.below name attributes closed).map
      fun (top, below) => { p with top, below, ahead := r }
  | .ok (.closing name, r) =>
    if name = p.top.name.written then
      match p.below with
      | [] => none
      | f :: fs => some { p with top := f.push p.top.close, below := fs, ahead := r }
    else none

/-- Where the reader stands after some more pieces of content. -/
def after : Nat → Standing → Option Standing
  | 0, p => some p
  | count + 1, p => p.next?.bind (after count)

/-- What reading the content from there gives. -/
def content (p : Standing) : Except Stop Ending := Xml.content p.setting p.top p.below p.ahead

end Standing

def declared (s : List Char) : Except Stop (Declaration × List Char) :=
  if startsDeclaration s then declaration s else .ok ({}, s)

/-- Where a reader stands before the content of the root element, if that has any. -/
def contentStart? (s : List Char) : Option Standing :=
  match declared s with
  | .error _ => none
  | .ok (settled, r) =>
    match prolog settled.standalone r with
    | .ok (entities, '<' :: u) =>
      match startTag entities u with
      | .ok ((name, attributes, false), v) =>
        let setting := Setting.ofText entities s
        let scope := Scope.document.enter attributes
        if scope.accepts name attributes then
          some ⟨setting, ⟨name, attributeTable attributes, setting.lineOf v, scope, [], []⟩, [], v⟩
        else none
      | _ => none
    | _ => none

/-! ## Reading on from a place -/

variable {p q : Standing} {s r : List Char}

theorem content_next (h : p.next? = some q) : p.content = q.content := by
  unfold Standing.next? at h
  unfold Standing.content
  obtain ⟨setting, top, below, ahead⟩ := p
  dsimp only at h ⊢
  cases ahead with
  | nil => cases h
  | cons c cs =>
    rw [content_cons]
    generalize token setting.entities (c :: cs) = next at h ⊢
    rcases next with e | ⟨piece, r⟩
    · cases h
    · cases piece with
      | text s =>
        cases h
        rfl
      | gap =>
        cases h
        rfl
      | entity name =>
        dsimp only at h ⊢
        split at h
        · next hrefer =>
          cases h
          exact if_pos hrefer
        · cases h
      | opening name attributes closed =>
        dsimp only at h ⊢
        cases hopen : openElement (setting.lineOf r) top below name attributes closed with
        | none => rw [hopen] at h; cases h
        | some frames => rw [hopen] at h; cases h; rfl
      | closing name =>
        dsimp only at h ⊢
        split at h
        · next hname =>
          cases below with
          | nil => cases h
          | cons f fs =>
            cases h
            exact if_pos hname
        · cases h

theorem content_after {count : Nat} (h : p.after count = some q) : p.content = q.content := by
  induction count generalizing p with
  | zero =>
    cases h
    rfl
  | succ count ih =>
    obtain ⟨m, hm, hq⟩ := Option.bind_eq_some_iff.mp h
    exact (content_next hm).trans (ih hq)

/-- What is known of a document whose root element has content. -/
theorem contentStart?_eq_some {p : Standing} (h : contentStart? s = some p) :
    ∃ settled entities m name attributes, ∃ u,
      declared s = .ok (settled, m) ∧
      prolog settled.standalone m = .ok (entities, '<' :: u) ∧
      startTag entities u = .ok ((name, attributes, false), p.ahead) ∧
      (Scope.document.enter attributes).accepts name attributes = true ∧
      p = ⟨.ofText entities s, ⟨name, attributeTable attributes,
        (Setting.ofText entities s).lineOf p.ahead, Scope.document.enter attributes, [], []⟩, [],
        p.ahead⟩ := by
  unfold contentStart? at h
  split at h
  · cases h
  · next settled m hdeclared =>
    split at h
    · next entities u hprolog =>
      split at h
      · next name attributes v htag =>
        dsimp only at h
        split at h
        · next haccepts =>
          cases h
          exact ⟨settled, entities, m, name, attributes, u, hdeclared, hprolog, htag, haccepts, rfl⟩
        · cases h
      · cases h
    · cases h

/-- The start tag of the root ends right before its content. -/
theorem contentStart?_closes (h : contentStart? s = some p) : '>' :: p.ahead <:+ s := by
  obtain ⟨settled, entities, m, name, attributes, u, hdeclared, hprolog, htag, -⟩ :=
    contentStart?_eq_some h
  have hm : m <:+ s := by
    unfold declared at hdeclared
    split at hdeclared
    · exact suffix_of_declaration hdeclared
    · cases hdeclared
      exact List.suffix_rfl
  exact (closes_startTag htag).trans
    ((List.suffix_cons '<' u).trans ((suffix_of_prolog hprolog).trans hm))

/-- A document whose root has content is read as that content is. -/
theorem document_eq_ok_iff {root : Element} (h : contentStart? s = some p) :
    document s = .ok root ↔ ∃ v, p.content = .ok (.closed root v) ∧ skipMisc v = .ok [] := by
  obtain ⟨settled, entities, m, name, attributes, u, hdeclared, hprolog, htag, haccepts, hp⟩ :=
    contentStart?_eq_some h
  have hroot (e : Element) (v : List Char) :
      rootElement (.ofText entities s) u = .ok (e, v) ↔ p.content = .ok (.closed e v) := by
    have htag' : startTag (Setting.ofText entities s).entities u = _ := htag
    rw [rootElement, htag']
    dsimp only
    rw [if_pos haccepts, Standing.content, hp]
    dsimp only
    cases content _ _ _ _ with
    | error stop => simp
    | ok ending => cases ending <;> simp
  have hdocument : document s =
      (rootElement (.ofText entities s) u).bind fun x =>
        (skipMisc x.2).bind fun rest => if rest.isEmpty then .ok x.1 else .error ⟨rest⟩ := by
    unfold document
    unfold declared at hdeclared
    by_cases hd : startsDeclaration s = true
    · rw [if_pos hd] at hdeclared
      simp only [hd, if_true, hdeclared, bind, Except.bind, hprolog]
      rfl
    · rw [if_neg hd] at hdeclared
      cases hdeclared
      simp only [hd, bind, Except.bind, pure, Except.pure, hprolog]
      rfl
  rw [hdocument]
  constructor
  · intro hok
    obtain ⟨⟨e, v⟩, hv, hrest⟩ := exists_of_bind_eq_ok hok
    obtain ⟨rest, hmisc, hend⟩ := exists_of_bind_eq_ok hrest
    split at hend
    · next hempty =>
      cases hend
      rw [List.isEmpty_iff.mp hempty] at hmisc
      exact ⟨v, (hroot _ _).mp hv, hmisc⟩
    · cases hend
  · rintro ⟨v, hcontent, hmisc⟩
    simp only [(hroot _ _).mpr hcontent, Except.bind, hmisc]
    rfl

/-! ## What has been read by then -/

/-- A text with another end in content: the new end has as many line feeds, and begins with nothing
that could belong to the end of a section of character data. -/
def Replaces (r r' : List Char) : Prop :=
  ∃ t u u', r = t ++ u ∧ r' = t ++ u' ∧ u'.count '\n' = u.count '\n' ∧
    ∀ c ∈ u'.head?, c ≠ ']' ∧ c ≠ '>'

theorem Replaces.append {r' : List Char} (h : Replaces r r') (t : List Char) :
    Replaces (t ++ r) (t ++ r') := by
  obtain ⟨a, u, u', rfl, rfl, hu⟩ := h
  exact ⟨t ++ a, u, u', (List.append_assoc ..).symm, (List.append_assoc ..).symm, hu⟩

theorem Replaces.lineOf_eq {r' : List Char} (h : Replaces r r') (setting : Setting) :
    setting.lineOf r' = setting.lineOf r := by
  obtain ⟨t, u, u', rfl, rfl, hcount, -⟩ := h
  rw [Setting.lineOf, Setting.lineOf, List.count_append, List.count_append, hcount]

/-- What follows a piece of content ends no section of character data, be it replaced or not. -/
theorem Replaces.noSectionEnd {r' : List Char} (h : Replaces r r') :
    ∀ u, r' = ']' :: '>' :: u → ∃ v, r = ']' :: '>' :: v := by
  obtain ⟨t, w, w', rfl, rfl, -, hhead⟩ := h
  intro u hu
  match t with
  | [] => exact absurd rfl (hhead ']' (by rw [show w' = _ from hu]; rfl)).1
  | [c] =>
    have hw : w' = '>' :: u := (List.cons.inj hu).2
    exact absurd rfl (hhead '>' (by rw [hw]; rfl)).2
  | c :: d :: t =>
    simp only [List.cons_append, List.cons.injEq] at hu
    obtain ⟨rfl, rfl, -⟩ := hu
    exact ⟨t ++ w, rfl⟩

/-- The standing with another text ahead. -/
def Standing.facing (p : Standing) (s : List Char) : Standing := { p with ahead := s }

/-- Of the text ahead, one piece and the line that it ends on decide what follows. -/
theorem next?_eq_some (h : p.next? = some q) : ∃ piece,
    token p.setting.entities p.ahead = .ok (piece, q.ahead) ∧
    ∀ s r', token p.setting.entities s = .ok (piece, r') →
      p.setting.lineOf r' = p.setting.lineOf q.ahead →
        (p.facing s).next? = some (q.facing r') := by
  unfold Standing.next? at h
  obtain ⟨setting, top, below, ahead⟩ := p
  dsimp only at h
  split at h
  · cases h
  · next ht =>
    cases h
    refine ⟨_, ht, fun s r' hs _ => ?_⟩
    simp only [Standing.next?, Standing.facing, hs]
  · next ht =>
    cases h
    refine ⟨_, ht, fun s r' hs _ => ?_⟩
    simp only [Standing.next?, Standing.facing, hs]
  · next ht =>
    split at h
    · next hrefer =>
      cases h
      refine ⟨_, ht, fun s r' hs _ => ?_⟩
      simp only [Standing.next?, Standing.facing, hs, hrefer, if_true]
    · cases h
  · next ht =>
    obtain ⟨⟨top', below'⟩, hopen, he⟩ := Option.map_eq_some_iff.mp h
    cases he
    refine ⟨_, ht, fun s r' hs hline => ?_⟩
    simp only [Standing.next?, Standing.facing, hs, hline, hopen]
    rfl
  · next ht =>
    split at h
    · next hname =>
      split at h
      · cases h
      · cases h
        refine ⟨_, ht, fun s r' hs _ => ?_⟩
        simp only [Standing.next?, Standing.facing, hs, hname, if_true]
    · cases h

theorem taken_of_next? (h : p.next? = some q) :
    Taken Replaces (fun s => (p.facing s).next?) p.ahead q.ahead
      fun r' => some (q.facing r') := by
  obtain ⟨piece, ht, hnext⟩ := next?_eq_some h
  obtain ⟨t, hahead, hread⟩ := taken_of_token ht
  exact ⟨t, hahead, fun r' hr => hnext _ _ (hread r' hr.noSectionEnd) (hr.lineOf_eq _)⟩

theorem taken_of_after {count : Nat} (h : p.after count = some q) :
    Taken Replaces (fun s => (p.facing s).after count) p.ahead q.ahead
      fun r' => some (q.facing r') := by
  induction count generalizing p with
  | zero =>
    cases h
    exact ⟨[], rfl, fun _ _ => rfl⟩
  | succ count ih =>
    obtain ⟨m, hm, hq⟩ := Option.bind_eq_some_iff.mp h
    obtain ⟨a, ha, hnext⟩ := taken_of_next? hm
    obtain ⟨b, hb, hrest⟩ := ih hq
    rw [hb] at ha hnext
    refine ⟨a ++ b, by rw [ha, List.append_assoc], fun r' hr => ?_⟩
    have hmiddle := hnext _ (hr.append b)
    rw [List.append_assoc]
    exact Option.bind_eq_some_iff.mpr ⟨_, hmiddle, hrest r' hr⟩

theorem taken_of_declared {d : Declaration} (h : declared s = .ok (d, r)) :
    Taken Agree declared s r fun r' => .ok (d, r') := by
  unfold declared at h
  split at h
  · next hstarts =>
    obtain ⟨t, rfl, ht⟩ := taken_of_declaration h
    refine ⟨t, rfl, fun r' hr => ?_⟩
    rw [declared, startsDeclaration_of_agree (hr.append t), if_pos hstarts, ht r' hr]
  · next hstarts =>
    cases h
    refine ⟨[], rfl, fun r' hr => ?_⟩
    rw [List.nil_append, declared, startsDeclaration_of_agree hr, if_neg hstarts]

/-- What stands before the content of the root element is read whatever the content is. -/
theorem taken_of_contentStart? (h : contentStart? s = some p) :
    Taken (fun r r' => r'.count '\n' = r.count '\n' ∧ r.length ≤ r'.length) contentStart? s p.ahead
      fun r' => some (p.facing r') := by
  obtain ⟨settled, entities, m, name, attributes, u, hdeclared, hprolog, htag, haccepts, hp⟩ :=
    contentStart?_eq_some h
  generalize p.ahead = r at htag hp ⊢
  subst hp
  obtain ⟨tag, rfl, hreadTag⟩ := taken_of_startTag htag
  obtain ⟨a, rfl, hreadProlog⟩ := taken_of_prolog hprolog
  obtain ⟨b, rfl, hreadDeclared⟩ := taken_of_declared hdeclared
  have hbracket : '>' ∈ tag := by
    obtain ⟨t, ht⟩ := closes_startTag htag
    rw [List.append_cons, List.append_cancel_right_eq] at ht
    exact ht ▸ List.mem_append_right t List.mem_cons_self
  refine ⟨b ++ (a ++ '<' :: tag), by simp, fun r' ⟨hcount, hlength⟩ => ?_⟩
  have htail : Agree ('<' :: (tag ++ r)) ('<' :: (tag ++ r')) :=
    (agree_append_of_mem hbracket hlength).append ['<']
  have hsetting : Setting.ofText entities (b ++ (a ++ '<' :: (tag ++ r'))) =
      Setting.ofText entities (b ++ (a ++ '<' :: (tag ++ r))) := by
    simp [Setting.ofText, hcount]
  have hline (setting : Setting) : setting.lineOf r' = setting.lineOf r := by
    rw [Setting.lineOf, Setting.lineOf, hcount]
  simp only [List.append_assoc, List.cons_append]
  unfold contentStart?
  simp only [hreadDeclared _ (htail.append a), hreadProlog _ htail, hreadTag r' trivial,
    haccepts, if_true, hsetting, hline]
  rfl

end Xml

end CiteStyle
