import CiteStyle.Library
import CiteStyle.Proofs.Fragment
import CiteStyle.Proofs.Options.Completion
import CiteStyle.Proofs.Style.LocalePrecedence

/-! # Finished styles are whole

A style comes out exactly if the children of its root are acceptable and both a citation and a
bibliography are among them (`buildStyle_isOk_iff`). What comes out is whole: each section is all
that the last element of its kind makes up, and each option table is what was set in the document,
completed (`style_whole`). -/

namespace CiteStyle

open OptionTables

/-! ## Drafts on their way to a style -/

/-- A separate locale adds to the locale data and to nothing else. -/
theorem localize_eq (d : Draft) (external : Option Locale) :
    (external.map d.localize).getD d =
      { d with data := d.data.fillFrom ((external.map Locale.data).getD {}) } := by
  rw [← localize_data]
  cases external <;> rfl

theorem finish_isOk_iff {d : Draft} {root : Element} :
    (∃ s, d.finish root = .ok s) ↔
      d.citation.arrangement.isSome = true ∧ d.bibliography.arrangement.isSome = true := by
  unfold Draft.finish
  cases d.citation.arrangement <;> cases d.bibliography.arrangement <;> simp

/-- A section is settled exactly if there is an element of its kind. -/
theorem LastSettles.arrangement_isSome {last : Option Element} {d : Section}
    (h : LastSettles last SettlesSection {} d) : d.arrangement.isSome = last.isSome := by
  unfold LastSettles at h
  cases last with
  | none => rw [h]; rfl
  | some e =>
    obtain ⟨f, -, rfl⟩ := h
    rfl

/-- Building ends with a style exactly if assembling does and neither section is missing. -/
theorem buildStyle_isOk_iff {root : Element} {flag : Bool} {requested : Option String}
    {external : Option Locale} :
    (∃ s, (buildStyle root flag requested external).result = .ok s) ↔
      (∃ d, (assemble root flag (requestedLanguage requested root)).result = .ok d) ∧
        (lastTagged "citation" root.elements).isSome = true ∧
        (lastTagged "bibliography" root.elements).isSome = true := by
  have hfinish {d : Draft} (hm : MadeOf root flag (requestedLanguage requested root) d) :
      (∃ s, ((external.map d.localize).getD d).complete.finish root = .ok s) ↔
        (lastTagged "citation" root.elements).isSome = true ∧
          (lastTagged "bibliography" root.elements).isSome = true := by
    rw [finish_isOk_iff, localize_eq, ← hm.citation.arrangement_isSome,
      ← hm.bibliography.arrangement_isSome]
    rfl
  constructor
  · rintro ⟨s, hs⟩
    obtain ⟨d, hd, hf⟩ := Logged.bind_result_eq_ok_iff.mp hs
    exact ⟨⟨d, hd⟩, (hfinish (assemble_madeOf hd)).mp ⟨s, hf⟩⟩
  · rintro ⟨⟨d, hd⟩, hparts⟩
    obtain ⟨s, hf⟩ := (hfinish (assemble_madeOf hd)).mpr hparts
    exact ⟨s, Logged.bind_result_eq_ok_iff.mpr ⟨d, hd, hf⟩⟩

/-! ## Whole styles -/

/-- A section that an element makes up: its layout and sorting are those of the element's children,
its options the element's attributes, completed. -/
structure SectionOf (e : Element) (fills : String → String → Prop) (f : Fragment) : Prop where
  arranged : Arranged e.elements f.arrangement
  options : Completed e.attributes fills f.options

/-- A section that an element settled, and whose options were completed since, is still one that the
element makes up. -/
theorem LastSettles.sectionOf {last : Option Element} {d : Section} {f : Fragment}
    {options : Table String} {fills : String → String → Prop}
    (h : LastSettles last SettlesSection {} d) (hf : Section.ofFragment f = ⟨options, d.arrangement⟩)
    (hc : Completed d.options fills options) : ∃ e, last = some e ∧ SectionOf e fills f := by
  obtain ⟨hoptions, harr⟩ := Section.mk.inj hf
  unfold LastSettles at h
  -- without such an element the section would have stayed empty, and `f` has an arrangement
  cases last with
  | none => rw [h] at harr; cases harr
  | some e =>
    obtain ⟨settled, hsettled, rfl⟩ := h
    obtain ⟨hset, harranged⟩ := fragment_eq_ok_iff.mp hsettled
    refine ⟨e, rfl, ?_, ?_⟩
    · rw [Option.some.inj harr]
      exact harranged
    · rw [hoptions, ← hset]
      exact hc

/-- What is filled in for citations, by how they collapse and what delimits them in the layout. -/
def Fragment.citationFill (f : Fragment) : String → String → Prop :=
  CitationFill (f.options.get? "collapse") (f.arrangement.layoutAttributes.get? "delimiter")

theorem citationFill_eq {d : Section} {f : Fragment} {options : Table String}
    (hf : Section.ofFragment f = ⟨options, d.arrangement⟩) :
    f.citationFill =
      CitationFill (options.get? "collapse") (d.layoutAttributes.get? "delimiter") := by
  obtain ⟨hoptions, harr⟩ := Section.mk.inj hf
  rw [Fragment.citationFill, hoptions, Section.layoutAttributes, ← harr]
  rfl

/-- A style with all that the root of a document has to say, and all defaults. -/
structure Whole (root : Element) (s : Style) : Prop where
  styleOptions :
    Completed root.attributes (fun key value => (key, value) ∈ styleDefaults) s.styleOptions
  citation : ∃ e, lastTagged "citation" root.elements = some e ∧
    SectionOf e s.citation.citationFill s.citation
  bibliography : ∃ e, lastTagged "bibliography" root.elements = some e ∧
    SectionOf e (fun key value => (key, value) ∈ bibliographyDefaults) s.bibliography
  localeOptions : ∀ {key value}, (key, value) ∈ localeDefaults →
    s.data.options.contains key = true

theorem buildStyle_whole {root : Element} {flag : Bool} {requested : Option String}
    {external : Option Locale} {s : Style}
    (h : (buildStyle root flag requested external).result = .ok s) : Whole root s := by
  obtain ⟨d, hd, hf⟩ := Logged.bind_result_eq_ok_iff.mp h
  have hm := assemble_madeOf hd
  have hs : s.draft = _ := finish_eq_ok_iff.mp hf
  rw [localize_eq] at hs
  constructor
  case styleOptions =>
    have hoptions : s.styleOptions = d.styleOptions.addMissing styleDefaults :=
      congrArg Draft.styleOptions hs
    rw [hoptions, hm.styleOptions]
    exact addMissing_completed _ (by decide)
  case citation =>
    have hsection : Section.ofFragment s.citation = ⟨_, d.citation.arrangement⟩ :=
      congrArg Draft.citation hs
    rw [citationFill_eq hsection]
    exact hm.citation.sectionOf hsection (completeCitation_completed _ _)
  case bibliography =>
    have hsection : Section.ofFragment s.bibliography = ⟨_, d.bibliography.arrangement⟩ :=
      congrArg Draft.bibliography hs
    exact hm.bibliography.sectionOf hsection (addMissing_completed _ (by decide))
  case localeOptions =>
    intro key value hmem
    have hdata : s.data.options = _ := congrArg (fun d => d.data.options) hs
    rw [hdata]
    exact (addMissing_completed _ (by decide)).contains_of_fills hmem

/-! ## From a source -/

theorem Document.style_result_eq_ok_iff {d : Document} {requested : Option String}
    {external : Option Locale} {s : Style} :
    (d.style requested external).result = .ok s ↔ ∃ root, d.parse = .ok root ∧
      (buildStyle root d.usesYearSuffix requested external).result = .ok s := by
  simp [Document.style, Logged.ofExcept_bind_result_eq_ok_iff]

/-- **No partial style.** A style that comes out of a source, be it a document, the path of one as
text or a path, is whole: it has all that the root, its last citation and its last bibliography set,
the layouts of these with their sorting, all defaults, and where citations collapse what that asks
for; and it has no other options. -/
theorem style_whole (t : FileTree) (requested : Option String) (external : Option Locale)
    (s : Style) :
    (∀ source, (t.style source requested external).result = .ok s →
      ∃ d root, t.document source = .ok d ∧ d.parse = .ok root ∧ Whole root s) ∧
    ∀ p, (t.pathStyle p requested external).result = .ok s →
      ∃ d root, t.pathDocument p = .ok d ∧ d.parse = .ok root ∧ Whole root s := by
  have hwhole {d : Document} (h : (d.style requested external).result = .ok s) :
      ∃ root, d.parse = .ok root ∧ Whole root s := by
    obtain ⟨root, hparse, hbuild⟩ := Document.style_result_eq_ok_iff.mp h
    exact ⟨root, hparse, buildStyle_whole hbuild⟩
  constructor
  · intro source h
    obtain ⟨d, hd, hs⟩ := Logged.ofExcept_bind_result_eq_ok_iff.mp h
    obtain ⟨root, hroot⟩ := hwhole (Logged.mapError_result_eq_ok_iff.mp hs)
    exact ⟨d, root, hd, hroot⟩
  · intro p h
    obtain ⟨d, hd, hs⟩ := Logged.ofExcept_bind_result_eq_ok_iff.mp h
    obtain ⟨root, hroot⟩ := hwhole (Logged.mapError_result_eq_ok_iff.mp hs)
    exact ⟨d, root, hd, hroot⟩

def collapsingSource : String :=
  "<style><citation collapse=\"year-suffix\"><layout delimiter=\"; \"/></citation>" ++
  "<bibliography><layout/></bibliography></style>"

def collapsingTree : FileTree where
  entries := [(["collapsing.csl"], .file collapsingSource.toUTF8.toList)]

theorem collapsingSource_whole :
    (∃ (s : Style) (d : Document) (root : Element),
      (collapsingTree.style collapsingSource none none).result = .ok s ∧
      d.parse = .ok root ∧ Whole root s ∧
      s.citation.options.contains "year-suffix-delimiter" = true) ∧
    ∃ (s : Style) (d : Document) (root : Element),
      (collapsingTree.pathStyle (.ofString "collapsing.csl") none none).result = .ok s ∧
      d.parse = .ok root ∧ Whole root s := by
  have hinline : (collapsingTree.style collapsingSource none none).result.toOption.any (fun s =>
      s.citation.options.get? "collapse" == some "year-suffix" &&
        s.citation.arrangement.layoutAttributes.get? "delimiter" == some "; ") = true := by
    decide +kernel
  have hfile : (collapsingTree.pathStyle (.ofString "collapsing.csl") none none).result.toBool =
      true := by
    decide +kernel
  constructor
  · cases hs : (collapsingTree.style collapsingSource none none).result with
    | error f => rw [hs] at hinline; cases hinline
    | ok s =>
      obtain ⟨d, root, -, hparse, hwhole⟩ :=
        (style_whole collapsingTree none none s).1 collapsingSource hs
      refine ⟨s, d, root, rfl, hparse, hwhole, ?_⟩
      rw [hs] at hinline
      obtain ⟨hway, hdelimiter⟩ := Bool.and_eq_true_iff.mp hinline
      obtain ⟨e, -, hsection⟩ := hwhole.citation
      exact hsection.options.contains_of_fills
        (.inr (.yearSuffix (beq_iff_eq.mp hway) (.inl rfl) (beq_iff_eq.mp hdelimiter)))
  · obtain ⟨s, hs⟩ := exists_ok_of_toBool hfile
    obtain ⟨d, root, -, hparse, hwhole⟩ :=
      (style_whole collapsingTree none none s).2 (.ofString "collapsing.csl") hs
    exact ⟨s, d, root, hs, hparse, hwhole⟩

end CiteStyle
