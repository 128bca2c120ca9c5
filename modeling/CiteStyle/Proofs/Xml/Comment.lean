import CiteStyle.Proofs.Division
import CiteStyle.Proofs.Xml.Readback
import CiteStyle.Proofs.Xml.Standing

/-! # A gap in content

A gap makes two texts of the run of character data around it. Nothing else comes of it, as open
elements go on as before (`content_redivided`), so the tree that is read is the same apart from the
division of that run (`content_withGap`). -/

namespace CiteStyle

namespace Xml

/-! ## Runs of character data -/

/-- The texts that a run of character data leaves: none if it is white space only. -/
def leftTexts (s : List Char) : List String :=
  if Text.isAllBlank s then [] else [String.ofList s]

/-- The character data at the front of a text, up to any other piece of content, and what
follows. At most `count` pieces are read. -/
def leadingData (entities : Entities) : Nat → List Char → List Char × List Char
  | 0, s => ([], s)
  | count + 1, s =>
    match token entities s with
    | .ok (.text piece, r) =>
      let (more, t) := leadingData entities count r
      (piece ++ more, t)
    | _ => ([], s)

variable {f g : Frame} {s r : List Char}

theorem isAllBlank_reverse (s : List Char) : Text.isAllBlank s.reverse = Text.isAllBlank s :=
  List.all_reverse

theorem Frame.settle_eq (f : Frame) : f.settle =
    { f with
      text := []
      children := ((leftTexts f.text.reverse).map Node.text).reverse ++ f.children } := by
  unfold settle leftTexts
  rw [isAllBlank_reverse]
  split <;> rfl

theorem Frame.settle_settle (f : Frame) : f.settle.settle = f.settle := by
  rw [settle_eq f.settle, settle_eq f]
  rfl

theorem Frame.close_settle (f : Frame) : f.settle.close = f.close := by
  rw [close, close, settle_settle, settle_eq]

theorem content_leadingData (setting : Setting) (top : Frame) (below : List Frame) (count : Nat)
    (s : List Char) :
    content setting (top.write (leadingData setting.entities count s).1) below
        (leadingData setting.entities count s).2 =
      content setting top below s := by
  induction count generalizing top s with
  | zero => rfl
  | succ count ih =>
    rw [leadingData]
    split
    · next piece r ht =>
      dsimp only
      cases s with
      | nil => cases ht
      | cons c cs => rw [← Frame.write_write, ih, content_cons, ht]
    · rfl

theorem leadingData_ends {entities : Entities} {count : Nat} (h : s.length ≤ count)
    (piece r : List Char) :
    token entities (leadingData entities count s).2 ≠ .ok (.text piece, r) := by
  induction count generalizing s with
  | zero =>
    rw [List.length_eq_zero_iff.mp (Nat.le_zero.mp h)]
    exact nofun
  | succ count ih =>
    rw [leadingData]
    split
    · next ht =>
      have hlength := length_of_token ht
      exact ih (by omega)
    · next ht => exact ht piece r

/-- Where no character data follow, the text of the innermost element is as good as finished. -/
theorem content_settle (setting : Setting) (top : Frame) (below : List Frame)
    (h : ∀ piece r, token setting.entities s ≠ .ok (.text piece, r)) :
    content setting top.settle below s = content setting top below s := by
  have hscope : top.settle.scope = top.scope := by rw [Frame.settle_eq]
  have hname : top.settle.name = top.name := by rw [Frame.settle_eq]
  cases s with
  | nil => rw [content, content]
  | cons c cs =>
    rw [content_cons, content_cons, Frame.settle_settle, Frame.close_settle, hscope, hname]
    split
    · rfl
    · next ht => exact absurd ht (h _ _)
    · rfl
    · rfl
    · unfold openElement
      rw [hscope, Frame.settle_settle]
    · rfl

/-! ## Open elements -/

/-- What surrounds the texts in the innermost of some open elements. -/
def surroundings : List Frame → Surroundings
  | [] => .document
  | f :: fs => (surroundings fs).inside f.name.base f.attributes

theorem surroundings_settle (f : Frame) (fs : List Frame) :
    surroundings (f.settle :: fs) = surroundings (f :: fs) := by
  rw [Frame.settle_eq]
  rfl

/-- Open elements that are the same, except that some texts in them are divided otherwise. -/
def Frame.Redivided (D : Division) (around : Surroundings) (f f' : Frame) : Prop :=
  ∃ children, f' = { f with children } ∧
    CiteStyle.Redivided D around f.children.reverse children.reverse

/-- Stacks of such elements, the innermost first. -/
inductive StackRedivided (D : Division) : List Frame → List Frame → Prop
  | nil : StackRedivided D [] []
  | cons {f f' : Frame} {fs fs' : List Frame} (h : f.Redivided D (surroundings (f :: fs)) f')
      (hs : StackRedivided D fs fs') : StackRedivided D (f :: fs) (f' :: fs')

variable {D : Division} {around : Surroundings} {f' : Frame}

namespace Frame.Redivided

theorem refl (D : Division) (around : Surroundings) (f : Frame) : f.Redivided D around f :=
  ⟨f.children, rfl, .refl D around _⟩

theorem write (h : f.Redivided D around f') (s : List Char) :
    (f.write s).Redivided D around (f'.write s) := by
  obtain ⟨children, rfl, h⟩ := h
  exact ⟨children, rfl, h⟩

theorem settle (h : f.Redivided D around f') : f.settle.Redivided D around f'.settle := by
  obtain ⟨children, rfl, h⟩ := h
  rw [settle_eq, settle_eq]
  refine ⟨_, rfl, ?_⟩
  simp only [List.reverse_append, List.reverse_reverse]
  exact h.append (.refl D around _)

theorem push {child child' : Element} (h : f.Redivided D around f')
    (hc : child.Redivided D around child') :
    (f.push child).Redivided D around (f'.push child') := by
  obtain ⟨children, rfl, h⟩ := h
  refine ⟨_, rfl, ?_⟩
  simp only [Frame.push, List.reverse_cons]
  exact h.append hc.toNode

theorem close (h : f.Redivided D (around.inside f.name.base f.attributes) f') :
    f.close.Redivided D around f'.close := by
  have hsettled := h.settle
  obtain ⟨kids, rfl, -⟩ := h
  obtain ⟨children, he, hchildren⟩ := hsettled
  refine ⟨rfl, rfl, rfl, ?_⟩
  have hkids : Frame.settle { f with children := kids } = { f.settle with children } := he
  unfold Frame.close
  rw [hkids]
  exact hchildren

end Frame.Redivided

theorem StackRedivided.refl (D : Division) (fs : List Frame) : StackRedivided D fs fs := by
  induction fs with
  | nil => exact .nil
  | cons f fs ih => exact .cons (.refl D _ f) ih

theorem StackRedivided.length_eq {fs fs' : List Frame} (h : StackRedivided D fs fs') :
    fs'.length = fs.length := by
  induction h with
  | nil => rfl
  | cons _ _ ih => exact congrArg (· + 1) ih

theorem StackRedivided.settle {top top' : Frame} {below below' : List Frame}
    (h : StackRedivided D (top :: below) (top' :: below')) :
    StackRedivided D (top.settle :: below) (top'.settle :: below') := by
  cases h with
  | cons htop hbelow =>
    refine .cons ?_ hbelow
    rw [surroundings_settle]
    exact htop.settle

theorem openElement_redivided {line : Int} {top top' top₁ : Frame}
    {below below' below₁ : List Frame} {name : QName} {attributes : List Attribute} {closed : Bool}
    (h : StackRedivided D (top :: below) (top' :: below'))
    (ho : openElement line top below name attributes closed = some (top₁, below₁)) :
    ∃ top₂ below₂, openElement line top' below' name attributes closed = some (top₂, below₂) ∧
      StackRedivided D (top₁ :: below₁) (top₂ :: below₂) := by
  have hsettled := h.settle
  cases h with
  | cons htop hbelow =>
    have hscope : top'.scope = top.scope := by
      obtain ⟨_, rfl, -⟩ := htop
      rfl
    unfold openElement at ho ⊢
    rw [hscope, hbelow.length_eq]
    dsimp only at ho ⊢
    split at ho
    · next haccepts =>
      rw [if_pos haccepts]
      split at ho
      · next hclosed =>
        cases ho
        rw [if_pos hclosed]
        cases hsettled with
        | cons hsettled _ => exact ⟨_, _, rfl, .cons (hsettled.push (.refl D _ _)) hbelow⟩
      · next hclosed =>
        cases ho
        rw [if_neg hclosed]
        exact ⟨_, _, rfl, .cons (.refl D _ _) hsettled⟩
    · cases ho

/-- **Open elements go on as before.** If some texts in them are divided otherwise, the content that
follows is read, and the root that is closed in the end is the same up to these texts. -/
theorem content_redivided {setting : Setting} {top top' : Frame} {below below' : List Frame}
    {s t : List Char} {root : Element} (h : StackRedivided D (top :: below) (top' :: below'))
    (hok : content setting top below s = .ok (.closed root t)) :
    ∃ root', content setting top' below' s = .ok (.closed root' t) ∧
      root.Redivided D .document root' := by
  fun_induction content setting top below s generalizing top' below' with
  | case1 => cases hok
  | case2 => cases hok
  | case3 top below c cs piece r hr ih =>
    rw [content_cons, hr]
    cases h with
    | cons htop hbelow => exact ih (.cons (htop.write piece) hbelow) hok
  | case4 top below c cs r hr ih =>
    rw [content_cons, hr]
    exact ih h.settle hok
  | case5 top below c cs name r hr hrefer ih =>
    rw [content_cons, hr]
    dsimp only
    have hsettled := h.settle
    cases h with
    | cons htop hbelow =>
      obtain ⟨_, rfl, -⟩ := htop
      rw [if_pos hrefer]
      exact ih hsettled hok
  | case6 => cases hok
  | case7 top below c cs name attributes closed r hr top₁ below₁ hopen ih =>
    obtain ⟨top₂, below₂, hopen', h'⟩ := openElement_redivided h hopen
    rw [content_cons, hr]
    dsimp only
    rw [hopen']
    exact ih h' hok
  | case8 => cases hok
  | case9 top c cs r hr =>
    cases hok
    rw [content_cons, hr]
    cases h with
    | cons htop hbelow =>
      cases hbelow
      have hclosed := htop.close
      obtain ⟨_, rfl, -⟩ := htop
      exact ⟨_, if_pos rfl, hclosed⟩
  | case10 top c cs r f fs hr ih =>
    rw [content_cons, hr]
    cases h with
    | cons htop hbelow =>
      cases hbelow with
      | cons hf hfs =>
        have hclosed := htop.close
        obtain ⟨_, rfl, -⟩ := htop
        obtain ⟨root', hroot, hsame⟩ := ih (.cons (hf.push hclosed) hfs) hok
        exact ⟨root', (if_pos rfl).trans hroot, hsame⟩
  | case11 => cases hok

/-! ## The run around a gap -/

/-- The character data before a place, back to any other piece of content. -/
def Standing.dataBefore (p : Standing) : List Char := p.top.text.reverse

/-- The character data after a place, up to any other piece of content. -/
def Standing.dataAfter (p : Standing) : List Char :=
  (leadingData p.setting.entities p.ahead.length p.ahead).1

/-- The texts of the run around a place. -/
def Standing.texts (p : Standing) : List String := leftTexts (p.dataBefore ++ p.dataAfter)

/-- The texts of the run with a gap at the place, and with what is added before the gap. -/
def Standing.parts (p : Standing) (added : List Char) : List String :=
  leftTexts (p.dataBefore ++ added) ++ leftTexts p.dataAfter

def Standing.surroundings (p : Standing) : Surroundings := Xml.surroundings (p.top :: p.below)

/-- The division that a gap at a place makes. -/
def Standing.division (p : Standing) (added : List Char) : Division := fun around us ts =>
  around = p.surroundings ∧ us = p.texts ∧ ts = p.parts added

/-- A gap makes two texts of the run around it. -/
theorem gap_redivided (p : Standing) (added : List Char) :
    StackRedivided (p.division added)
      ((p.top.write p.dataAfter).settle :: p.below)
      (((p.top.write added).settle.write p.dataAfter).settle :: p.below) := by
  refine .cons ⟨((p.parts added).map Node.text).reverse ++ p.top.children, ?_, ?_⟩ (.refl _ _)
  · simp [Frame.settle_eq, Frame.write, Standing.parts, Standing.dataBefore]
  · rw [surroundings_settle, Frame.settle_eq]
    simp only [List.reverse_append, List.reverse_reverse]
    refine (Redivided.refl _ _ _).append ?_
    have hdivided : CiteStyle.Redivided (p.division added) p.surroundings
        (p.texts.map .text ++ []) ((p.parts added).map .text ++ []) :=
      .divided ⟨rfl, rfl, rfl⟩ .nil
    rw [List.append_nil, List.append_nil] at hdivided
    rw [Frame.write, List.reverse_append, List.reverse_reverse]
    exact hdivided

/-- **A gap only divides.** If a root is read from a place on, it is read with a gap there too, as
the same tree, apart from the division of the run around the place. -/
theorem content_withGap {p : Standing} (added : List Char) {t : List Char} {root : Element}
    (hok : p.content = .ok (.closed root t)) :
    ∃ root', Standing.content { p with top := (p.top.write added).settle } =
        .ok (.closed root' t) ∧ root.Redivided (p.division added) .document root' := by
  unfold Standing.content at hok ⊢
  dsimp only
  rw [← content_leadingData _ _ _ p.ahead.length, ← content_settle _ _ _ (leadingData_ends le_rfl)]
    at hok ⊢
  exact content_redivided (gap_redivided p added) hok

end Xml

end CiteStyle
