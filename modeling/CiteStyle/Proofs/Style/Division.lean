import CiteStyle.Proofs.Fragment
import CiteStyle.Proofs.Locale.Division
import CiteStyle.Proofs.Rendering.Joining
import CiteStyle.Proofs.Style.Wholeness

/-! # Styles that differ in how texts are divided

Everything that a style keeps of its document comes from attributes, from elements or from texts.
Where only texts are divided otherwise, a style comes out if the other one does, with the same
options, macro names and formats (`buildStyle_redivided`). -/

namespace CiteStyle

variable {D : Division}

/-! ## Citations and bibliographies -/

structure Sorting.Redivided (D : Division) (s s' : Sorting) : Prop where
  program : s.program.Redivided D s'.program
  ascending : s'.ascending = s.ascending

structure Arrangement.Redivided (D : Division) (a a' : Arrangement) : Prop where
  layout : a.layout.Redivided D a'.layout
  layoutAttributes : a'.layoutAttributes = a.layoutAttributes
  sorting : Option.Rel (Sorting.Redivided D) a.sorting a'.sorting

structure Section.Redivided (D : Division) (s s' : Section) : Prop where
  options : s'.options = s.options
  arrangement : Option.Rel (Arrangement.Redivided D) s.arrangement s'.arrangement

theorem sortDirections_redivided {around : Surroundings} {e e' : Element}
    (h : e.Redivided D around e') : sortDirections e' = sortDirections e := by
  have helements := h.elements
  unfold sortDirections
  generalize e.elements = keys, e'.elements = keys' at helements ⊢
  induction helements with
  | nil => rfl
  | cons hk _ ih => rw [List.map_cons, List.map_cons, hk.attribute?_eq, ih]

theorem arranged_redivided {es es' : List Element} {a : Arrangement} {delimiter : Option String}
    (h : List.Forall₂ (Element.Redivided D (.rendered delimiter)) es es') (ha : Arranged es a) :
    ∃ a', Arranged es' a' ∧ a.Redivided D a' := by
  cases ha with
  | unsorted ht hp =>
    cases h with
    | cons hlayout _ =>
      obtain ⟨p', hp', hsame⟩ := hlayout.recompiles.compile _ hp
      exact ⟨_, .unsorted (hlayout.tag.trans ht) hp', hsame, hlayout.attributes, .none⟩
  | sorted hs hk ht hp =>
    cases h with
    | cons hsort h =>
      cases h with
      | cons hlayout _ =>
        obtain ⟨k', hk', hkeys⟩ := hsort.recompiles.compile _ hk
        obtain ⟨p', hp', hsame⟩ := hlayout.recompiles.compile _ hp
        exact ⟨_, .sorted (hsort.tag.trans hs) hk' (hlayout.tag.trans ht) hp', hsame,
          hlayout.attributes, .some ⟨hkeys, sortDirections_redivided hsort⟩⟩

theorem fragment_redivided {e e' : Element} {f : Fragment} (h : e.Redivided D .style e')
    (ht : e.tag = "citation" ∨ e.tag = "bibliography") (hf : e.fragment.result = .ok f) :
    ∃ f', e'.fragment.result = .ok f' ∧ (Section.ofFragment f).Redivided D (.ofFragment f') := by
  have hinside : Surroundings.style.inside e.tag e.attributes = .rendered none := by
    rcases ht with ht | ht <;> rw [ht] <;> rfl
  obtain ⟨hoptions, harranged⟩ := fragment_eq_ok_iff.mp hf
  obtain ⟨a', ha', hsame⟩ := arranged_redivided (hinside ▸ h.elements) harranged
  exact ⟨⟨e'.attributes, a'⟩, fragment_eq_ok_iff.mpr ⟨rfl, ha'⟩,
    h.attributes.trans hoptions.symm, .some hsame⟩

theorem macroBody_redivided {e e' : Element} {p : Program} (h : e.Redivided D .style e')
    (ht : e.tag = "macro") (hp : e.macroBody.compile = .ok p) :
    ∃ p', e'.macroBody.compile = .ok p' ∧ p.Redivided D p' := by
  have hchildren := h.children
  rw [ht] at hchildren
  have hbody : Element.Redivided D (.rendered none) { e with attributes := {} }
      { e' with attributes := {} } :=
    ⟨h.tag, rfl, h.line, by dsimp only; rw [ht]; exact hchildren⟩
  exact hbody.recompiles.compile p hp

/-! ## Drafts -/

/-- Drafts that are the same, except that some texts are divided otherwise; whether they mention the
year suffix is left open. -/
structure Draft.Redivided (D : Division) (d d' : Draft) : Prop where
  info : Option.Rel (Element.Redivided D .style) d.info d'.info
  styleOptions : d'.styleOptions = d.styleOptions
  citation : d.citation.Redivided D d'.citation
  bibliography : d.bibliography.Redivided D d'.bibliography
  data : d.data.Alike D.KeepsTexts d'.data
  noteStyle : d'.noteStyle = d.noteStyle
  macros : MacrosRedivided D d.macros d'.macros
  language : d'.language = d.language

/-- Assemblies with such drafts. -/
structure Assembly.Redivided (D : Division) (a a' : Assembly) : Prop where
  draft : a.draft.Redivided D a'.draft
  localeMerged : a'.localeMerged = a.localeMerged

theorem isNoteInfo_redivided {around : Surroundings} {e e' : Element}
    (h : e.Redivided D around e') : isNoteInfo e' = isNoteInfo e := by
  have helements := h.elements
  unfold isNoteInfo
  generalize e.elements = es, e'.elements = es' at helements ⊢
  induction helements with
  | nil => rfl
  | cons hc _ ih => rw [List.any_cons, List.any_cons, hc.tag, hc.attribute?_eq, ih]

theorem adds_redivided {a a' b : Assembly} {e e' : Element} (ha : a.Redivided D a')
    (he : e.Redivided D .style e') (h : Adds a e b) :
    ∃ b', Adds a' e' b' ∧ b.Redivided D b' := by
  obtain ⟨hd, hmerged⟩ := ha
  cases h with
  | info ht =>
    exact ⟨_, .info (he.tag.trans ht),
      { hd with info := .some he, noteStyle := isNoteInfo_redivided he }, hmerged⟩
  | mergedLocale ht hf hs hm =>
    obtain ⟨data', hm', hdata⟩ := mergeAll_redivided hd.data he.elements hm
    refine ⟨_, .mergedLocale (he.tag.trans ht) (hmerged.trans hf) ?_ hm',
      { hd with data := hdata }, rfl⟩
    rw [he.attribute?_eq, hd.language]
    exact hs
  | skippedLocale ht hs =>
    refine ⟨a', .skippedLocale (he.tag.trans ht) ?_, hd, hmerged⟩
    rw [he.attribute?_eq, hd.language, hmerged]
    exact hs
  | citation ht hf =>
    obtain ⟨f', hf', hsame⟩ := fragment_redivided he (.inl ht) hf
    exact ⟨_, .citation (he.tag.trans ht) hf', { hd with citation := hsame }, hmerged⟩
  | bibliography ht hf =>
    obtain ⟨f', hf', hsame⟩ := fragment_redivided he (.inr ht) hf
    exact ⟨_, .bibliography (he.tag.trans ht) hf', { hd with bibliography := hsame }, hmerged⟩
  | namedMacro ht hn hne hp =>
    obtain ⟨p', hp', hsame⟩ := macroBody_redivided he ht hp
    exact ⟨_, .namedMacro (he.tag.trans ht) ((he.attribute?_eq "name").trans hn) hne hp',
      { hd with macros := hd.macros.insert _ hsame }, hmerged⟩

theorem addAll_redivided {a a' b : Assembly} {es es' : List Element} (ha : a.Redivided D a')
    (h : List.Forall₂ (Element.Redivided D .style) es es') (hb : (a.addAll es).result = .ok b) :
    ∃ b', (a'.addAll es').result = .ok b' ∧ b.Redivided D b' := by
  induction h generalizing a a' with
  | nil =>
    cases hb
    exact ⟨a', rfl, ha⟩
  | cons he _ ih =>
    obtain ⟨c, hc, hrest⟩ := addAll_cons_eq_ok_iff.mp hb
    obtain ⟨c', hc', hsame⟩ := adds_redivided ha he hc
    obtain ⟨b', hb', hresult⟩ := ih hsame hrest
    exact ⟨b', addAll_cons_eq_ok_iff.mpr ⟨c', hc', hb'⟩, hresult⟩

theorem assemble_redivided {root root' : Element} {flag : Bool} (flag' : Bool) {language : String}
    {d : Draft} (h : root.Redivided D .document root')
    (hd : (assemble root flag language).result = .ok d) :
    ∃ d', (assemble root' flag' language).result = .ok d' ∧ d.Redivided D d' := by
  obtain ⟨ht, a, ha, rfl⟩ := assemble_eq_ok_iff.mp hd
  have helements := h.elements
  rw [Surroundings.inside, if_pos ht] at helements
  have hstart : (startOf root flag language).Redivided D (startOf root' flag' language) :=
    ⟨⟨.none, h.attributes, ⟨rfl, .none⟩, ⟨rfl, .none⟩, .refl _ _, rfl, .nil, rfl⟩, rfl⟩
  obtain ⟨a', ha', hsame⟩ := addAll_redivided hstart helements ha
  exact ⟨_, assemble_eq_ok_iff.mpr ⟨h.tag.trans ht, a', ha', rfl⟩, hsame.draft⟩

/-! ## Finished styles -/

theorem Section.Redivided.layoutAttributes_eq {s s' : Section} (h : s.Redivided D s') :
    s'.layoutAttributes = s.layoutAttributes := by
  have harr := h.arrangement
  unfold Section.layoutAttributes
  generalize s.arrangement = a, s'.arrangement = a' at harr ⊢
  cases harr with
  | none => rfl
  | some ha => exact ha.layoutAttributes

theorem Draft.Redivided.localize {d d' : Draft} (h : d.Redivided D d')
    (external : Option Locale) : ((external.map d.localize).getD d).Redivided D
      ((external.map d'.localize).getD d') := by
  rw [localize_eq, localize_eq]
  exact { h with data := h.data.fillFrom _ }

theorem Draft.Redivided.complete {d d' : Draft} (h : d.Redivided D d') :
    d.complete.Redivided D d'.complete := by
  have hoptions : d'.options = d.options := by
    rw [Draft.options, Draft.options, h.styleOptions, h.citation.options, h.bibliography.options,
      h.data.options]
  unfold Draft.complete
  rw [hoptions, h.citation.layoutAttributes_eq]
  exact { h with
    styleOptions := rfl
    citation := ⟨rfl, h.citation.arrangement⟩
    bibliography := ⟨rfl, h.bibliography.arrangement⟩
    data := ⟨rfl, h.data.dateText, h.data.dateNumeric, h.data.terms⟩ }

theorem finish_redivided {d d' : Draft} {root : Element} (root' : Element) {s : Style}
    (h : d.Redivided D d') (hs : d.finish root = .ok s) :
    ∃ s', d'.finish root' = .ok s' ∧ s.draft.Redivided D s'.draft := by
  rw [finish_eq_ok_iff] at hs
  subst hs
  have hisSome {x x' : Option Arrangement} (hx : Option.Rel (Arrangement.Redivided D) x x')
      (hsome : x.isSome = true) : x'.isSome = true := by
    cases hx with
    | none => cases hsome
    | some _ => rfl
  obtain ⟨s', hs'⟩ : ∃ s', d'.finish root' = .ok s' := finish_isOk_iff.mpr
    ⟨hisSome h.citation.arrangement rfl, hisSome h.bibliography.arrangement rfl⟩
  refine ⟨s', hs', ?_⟩
  rw [finish_eq_ok_iff.mp hs']
  exact h

/-- **Where texts are divided makes no difference to whether a style comes out.** -/
theorem buildStyle_redivided {root root' : Element} {flag : Bool} (flag' : Bool)
    {requested : Option String} {external : Option Locale} {s : Style}
    (h : root.Redivided D .document root')
    (hs : (buildStyle root flag requested external).result = .ok s) :
    ∃ s', (buildStyle root' flag' requested external).result = .ok s' ∧
      s.draft.Redivided D s'.draft := by
  obtain ⟨d, hd, hfinish⟩ := Logged.bind_result_eq_ok_iff.mp hs
  have hlanguage : requestedLanguage requested root' = requestedLanguage requested root := by
    rw [requestedLanguage, requestedLanguage, h.attribute?_eq]
  obtain ⟨d', hd', hsame⟩ := assemble_redivided flag' h hd
  obtain ⟨s', hs', hresult⟩ := finish_redivided root' (hsame.localize external).complete hfinish
  rw [← hlanguage] at hd'
  exact ⟨s', Logged.bind_result_eq_ok_iff.mpr ⟨d', hd', hs'⟩, hresult⟩

/-! ## What finished styles show -/

/-- What the layout gives in a context, and what the keys for sorting give. -/
def Arrangement.outputs (prims : Primitives) (macros : Table Program) (ctx : Context)
    (a : Arrangement) : Output × Option Output :=
  ((a.layout.renderWith prims macros ctx).output,
    a.sorting.map fun s => (s.program.renderWith prims macros ctx).output)

/-- Styles whose layouts, keys for sorting and macros all give the same in a context. -/
structure Style.RendersLike (prims : Primitives) (ctx : Context) (s s' : Style) : Prop where
  citation : s'.citation.arrangement.outputs prims s'.macros ctx =
    s.citation.arrangement.outputs prims s.macros ctx
  bibliography : s'.bibliography.arrangement.outputs prims s'.macros ctx =
    s.bibliography.arrangement.outputs prims s.macros ctx
  macros : ∀ name, (s'.macros.get? name).map (fun p => (p.renderWith prims s'.macros ctx).output) =
    (s.macros.get? name).map fun p => (p.renderWith prims s.macros ctx).output

structure Fragment.SameSettings (f f' : Fragment) : Prop where
  options : f'.options = f.options
  layoutAttributes : f'.arrangement.layoutAttributes = f.arrangement.layoutAttributes
  ascending : f'.arrangement.sorting.map Sorting.ascending =
    f.arrangement.sorting.map Sorting.ascending

/-- Styles that differ by divisions of texts at most. The values of terms and the texts of info are
the same if divisions keep texts, and all that is rendered is the same if divisions keep outputs.
Whether the styles mention the year suffix is left open. -/
structure Style.DiffersBy (D : Division) (prims : Primitives) (s s' : Style) : Prop where
  info : Option.Rel (Element.Redivided D .style) s.info s'.info
  infoTexts : D.KeepsTexts → ∀ tag, s'.draft.infoText? tag = s.draft.infoText? tag
  styleOptions : s'.styleOptions = s.styleOptions
  citation : s.citation.SameSettings s'.citation
  bibliography : s.bibliography.SameSettings s'.bibliography
  data : s.data.Alike D.KeepsTexts s'.data
  noteStyle : s'.noteStyle = s.noteStyle
  macroNames : s'.macros.keys = s.macros.keys
  language : s'.language = s.language
  outputs : D.KeepsOutputs → ∀ ctx, s.RendersLike prims ctx s'

theorem infoText?_redivided {d d' : Draft} {around : Surroundings}
    (h : Option.Rel (Element.Redivided D around) d.info d'.info) (hD : D.KeepsTexts)
    (tag : String) : d'.infoText? tag = d.infoText? tag := by
  have hfind {es es' : List Element} {around' : Surroundings}
      (hes : List.Forall₂ (Element.Redivided D around') es es') :
      (es'.find? (·.tag == tag)).map Element.text = (es.find? (·.tag == tag)).map Element.text := by
    induction hes with
    | nil => rfl
    | cons he _ ih =>
      rw [List.find?_cons, List.find?_cons, he.tag]
      split
      · exact congrArg some (he.text_eq hD)
      · exact ih
  unfold Draft.infoText?
  generalize d.info = info, d'.info = info' at h ⊢
  cases h with
  | none => rfl
  | some he => exact hfind he.elements

theorem Section.Redivided.sameSettings {f f' : Fragment}
    (h : (Section.ofFragment f).Redivided D (.ofFragment f')) : f.SameSettings f' := by
  obtain ⟨hoptions, harr⟩ := h
  cases harr with
  | some ha =>
    refine ⟨hoptions, ha.layoutAttributes, ?_⟩
    have hsorting := ha.sorting
    generalize f.arrangement.sorting = s, f'.arrangement.sorting = s' at hsorting ⊢
    cases hsorting with
    | none => rfl
    | some hs => exact congrArg some hs.ascending

section

variable {prims : Primitives} (hp : prims.Macros) (hj : prims.Joins) (hD : D.KeepsOutputs)
  {macros macros' : Table Program} (hm : MacrosRedivided D macros macros')
include hp hj hD hm

theorem Section.Redivided.outputs_eq {f f' : Fragment}
    (h : (Section.ofFragment f).Redivided D (.ofFragment f')) (ctx : Context) :
    f'.arrangement.outputs prims macros' ctx = f.arrangement.outputs prims macros ctx := by
  obtain ⟨-, harr⟩ := h
  cases harr with
  | some ha =>
    have hsorting := ha.sorting
    unfold Arrangement.outputs
    rw [renderWith_redivided hp hj hD hm ha.layout]
    generalize f.arrangement.sorting = s, f'.arrangement.sorting = s' at hsorting ⊢
    cases hsorting with
    | none => rfl
    | some hs => rw [Option.map_some, Option.map_some, renderWith_redivided hp hj hD hm hs.program]

theorem macroOutputs_eq (ctx : Context) (name : String) :
    (macros'.get? name).map (fun p => (p.renderWith prims macros' ctx).output) =
      (macros.get? name).map fun p => (p.renderWith prims macros ctx).output := by
  have hget := hm.get? name
  generalize macros.get? name = p, macros'.get? name = p' at hget ⊢
  cases hget with
  | none => rfl
  | some hpp => rw [Option.map_some, Option.map_some, renderWith_redivided hp hj hD hm hpp]

end

theorem Draft.Redivided.differsBy {prims : Primitives} (hp : prims.Macros) (hj : prims.Joins)
    {s s' : Style} (h : s.draft.Redivided D s'.draft) : s.DiffersBy D prims s' where
  info := h.info
  infoTexts hD := infoText?_redivided h.info hD
  styleOptions := h.styleOptions
  citation := h.citation.sameSettings
  bibliography := h.bibliography.sameSettings
  data := h.data
  noteStyle := h.noteStyle
  macroNames := h.macros.keys_eq
  language := h.language
  outputs hD ctx :=
    { citation := h.citation.outputs_eq hp hj hD h.macros ctx
      bibliography := h.bibliography.outputs_eq hp hj hD h.macros ctx
      macros := macroOutputs_eq hp hj hD h.macros ctx }

theorem buildStyle_usesYearSuffix {root : Element} {flag : Bool} {requested : Option String}
    {external : Option Locale} {s : Style}
    (h : (buildStyle root flag requested external).result = .ok s) : s.usesYearSuffix = flag := by
  obtain ⟨d, hd, hfinish⟩ := Logged.bind_result_eq_ok_iff.mp h
  have hflag := congrArg Draft.usesYearSuffix (finish_eq_ok_iff.mp hfinish)
  rw [localize_eq] at hflag
  exact hflag.trans (assemble_madeOf hd).usesYearSuffix

/-- Documents that differ in how texts are divided are both styles or neither is. -/
theorem style_redivided {prims : Primitives} (hp : prims.Macros) (hj : prims.Joins)
    {d d' : Document} {root root' : Element} {requested : Option String} {external : Option Locale}
    {s : Style} (hd : d.parse = .ok root) (hd' : d'.parse = .ok root')
    (h : root.Redivided D .document root') (hs : (d.style requested external).result = .ok s) :
    ∃ s', (d'.style requested external).result = .ok s' ∧ s.DiffersBy D prims s' := by
  obtain ⟨e, he, hbuild⟩ := Document.style_result_eq_ok_iff.mp hs
  obtain rfl := Except.ok.inj (hd.symm.trans he)
  obtain ⟨s', hs', hsame⟩ := buildStyle_redivided d'.usesYearSuffix h hbuild
  exact ⟨s', Document.style_result_eq_ok_iff.mpr ⟨root', hd', hs'⟩, hsame.differsBy hp hj⟩

end CiteStyle
