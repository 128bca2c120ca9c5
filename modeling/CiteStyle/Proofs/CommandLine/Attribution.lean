import CiteStyle.Proofs.CommandLine.Agreement
import CiteStyle.Proofs.Document
import Mathlib.Control.Monad.Basic

/-! # The text in which a failure is shown

A compilation reads up to two documents, the style and a locale, and a fault with a line can lie in
either. `failure_shown_iff` lists where such faults come from, with the text that each is shown in.
A style's faults are shown in the style. Of a locale's faults two kinds are shown in the locale, and
the third, a rule that is broken inside its root, in the style: the line counts in one document and
is quoted from the other (`brokenTerm_shown_in_style`). -/

namespace CiteStyle

/-! ## Locale documents -/

@[simp] theorem Failure.shownIn_fault (f : Failure) (source : String) :
    (f.shownIn source).fault = f.fault := by
  unfold shownIn
  split <;> rfl

/-- A failure is shown in a document; what nothing handles stays as it is. -/
theorem Halt.shownIn_eq_failure_iff {h : Halt} {source : String} {f : Failure} :
    h.shownIn source = .failure f ↔ ∃ g, h = .failure g ∧ g.shownIn source = f := by
  cases h <;> simp [Halt.shownIn]

inductive Document.LocaleFails (d : Document) : Failure → Prop
  | unparsed {f : Failure} (hp : d.parse = .error f) : LocaleFails d f
  | otherRoot {root : Element} (hp : d.parse = .ok root) (hr : root.tag ≠ "locale") :
      LocaleFails d ⟨.misplaced ⟨.notDocument "locale", root.tag, root.line⟩, d.source⟩
  | broken {root : Element} {data : LocaleData} {m : Misplacement} (hp : d.parse = .ok root)
      (hr : root.tag = "locale") (hm : ({} : LocaleData).merge root = (data, some m)) :
      LocaleFails d ⟨.misplaced m, ""⟩

theorem Document.locale_eq_error_iff {d : Document} {f : Failure} :
    d.locale.result = .error f ↔ d.LocaleFails f := by
  constructor
  · intro h
    unfold Document.locale at h
    split at h
    · next hp =>
      obtain rfl := Except.error.inj h
      exact .unparsed hp
    · next root hp =>
      split at h
      · next hr =>
        split at h
        · next hm =>
          obtain rfl := Except.error.inj h
          exact .broken hp hr hm
        · cases h
      · next hr =>
        obtain rfl := Except.error.inj h
        exact .otherRoot hp hr
  · intro h
    unfold Document.locale
    cases h with
    | unparsed hp => rw [hp]; rfl
    | otherRoot hp hr => rw [hp]; dsimp only; rw [if_neg hr]; rfl
    | broken hp hr hm => rw [hp]; dsimp only; rw [if_pos hr, hm]; rfl

namespace CommandLine

/-! ## The locale document of a compilation -/

/-- The file of the locale for a language: the one that is named, else the one that is found. -/
def Settings.localeFor (s : Settings) (t : FileTree) (language : String) :
    Except FileError (Option Path) :=
  match s.localeFile with
  | some p => .ok (some p)
  | none => findLocaleFile t language s.localeDirectories

theorem Settings.localePath_result (s : Settings) (t : FileTree) (language : String) :
    (s.localePath t language).result = (s.localeFor t language).mapError .unhandled := by
  unfold Settings.localeFor
  cases h : s.localeFile with
  | some p => rw [Settings.localePath, h]; rfl
  | none => exact s.localePath_of_none t language h

/-- The locale document that a style turns to. -/
inductive Settings.Consults (s : Settings) (t : FileTree) (style locale : Document) : Prop
  | intro {root : Element} {p : Path} (hp : style.parse = .ok root)
      (hf : s.localeFor t (requestedLanguage s.locale root) = .ok (some p))
      (hd : t.pathDocument p = .ok locale)

theorem externalLocale_eq_error_iff {t : FileTree} {path : Option Path} {h : Halt} :
    (externalLocale t path).result = .error h ↔
      ∃ p, path = some p ∧ (t.pathLocale p).result = .error h := by
  cases path with
  | none => exact ⟨nofun, fun ⟨_, h, _⟩ => nomatch h⟩
  | some p => simp [externalLocale, Logged.bind_result_eq_error_iff]

/-- A file that cannot be read is reported as such, unless its path has a null character. -/
theorem pathDocument_eq_error_iff {t : FileTree} {p : Path} {h : Halt} :
    t.pathDocument p = .error h ↔ ∃ e, t.read p = .error e ∧
      h = if e = .nullInPath then .unhandled e
        else .failure ⟨.unreadable p.toString (e.message p), ""⟩ := by
  unfold FileTree.pathDocument FileTree.fileDocument
  cases t.read p with
  | ok bytes => simp
  | error e => cases e <;> simp [eq_comm]

theorem pathDocument_error_line {t : FileTree} {p : Path} {f : Failure}
    (h : t.pathDocument p = .error (.failure f)) : f.fault.line? = none := by
  obtain ⟨e, -, he⟩ := pathDocument_eq_error_iff.mp h
  split at he
  · cases he
  · rw [Halt.failure.inj he]
    rfl

theorem pathLocale_fails_iff {t : FileTree} {p : Path} {h : Halt} :
    (t.pathLocale p).result = .error h ↔ t.pathDocument p = .error h ∨
      ∃ locale f, t.pathDocument p = .ok locale ∧ locale.LocaleFails f ∧ .failure f = h := by
  rw [FileTree.pathLocale, Logged.bind_result_eq_error_iff]
  simp only [Logged.mapError_result_eq_error_iff, Document.locale_eq_error_iff, Logged.ofExcept,
    exists_and_left]

/-- A failure of which a line is known never comes from a file that cannot be read. -/
theorem pathLocale_eq_error_iff {t : FileTree} {p : Path} {f : Failure}
    (hl : f.fault.line?.isSome) : (t.pathLocale p).result = .error (.failure f) ↔
      ∃ locale, t.pathDocument p = .ok locale ∧ locale.LocaleFails f := by
  rw [pathLocale_fails_iff]
  constructor
  · rintro (h | ⟨locale, g, hd, hg, hfg⟩)
    · rw [pathDocument_error_line h] at hl
      cases hl
    · exact ⟨locale, hd, Halt.failure.inj hfg ▸ hg⟩
  · rintro ⟨locale, hd, hf⟩
    exact .inr ⟨locale, f, hd, hf, rfl⟩

/-- A style whose root is known fails because its locale cannot be searched for or loaded, or for a
rule it breaks itself. -/
theorem Settings.styleOf_fails_iff {s : Settings} {t : FileTree} {style : Document}
    {root : Element} {h : Halt} :
    (s.styleOf t style root).result = .error h ↔
      (∃ e, s.localeFor t (requestedLanguage s.locale root) = .error e ∧ h = .unhandled e) ∨
      (∃ p, s.localeFor t (requestedLanguage s.locale root) = .ok (some p) ∧
        (t.pathLocale p).result = .error h) ∨
      ∃ external m, s.LeadsTo t (requestedLanguage s.locale root) external ∧
        (buildStyle root style.usesYearSuffix s.locale external).result = .error m ∧
        h = .failure ⟨.misplaced m, ""⟩ := by
  constructor
  · intro hfails
    rcases Logged.bind_result_eq_error_iff.mp hfails with hsearch | ⟨path, hpath, hfails⟩
    · rw [s.localePath_result] at hsearch
      obtain ⟨e, he, rfl⟩ := mapError_eq_error_iff.mp hsearch
      exact .inl ⟨e, he, rfl⟩
    have hfound := mapError_eq_ok_iff.mp ((s.localePath_result t _).symm.trans hpath)
    rcases Logged.bind_result_eq_error_iff.mp hfails with hload | ⟨external, hext, hbuild⟩
    · obtain ⟨p, rfl, hp⟩ := externalLocale_eq_error_iff.mp hload
      exact .inr (.inl ⟨p, hfound, hp⟩)
    · rw [buildStyle_requestedLanguage] at hbuild
      obtain ⟨m, hm, rfl⟩ := Logged.mapError_result_eq_error_iff.mp hbuild
      have hleads := s.leadsTo_iff.mpr (Logged.bind_result_eq_ok_iff.mpr ⟨_, hpath, hext⟩)
      exact .inr (.inr ⟨external, m, hleads, hm, rfl⟩)
  · rintro (⟨e, he, rfl⟩ | ⟨p, hf, hlocale⟩ | ⟨external, m, hleads, hm, rfl⟩)
    · refine Logged.bind_result_eq_error_iff.mpr (.inl ?_)
      rw [s.localePath_result]
      exact mapError_eq_error_iff.mpr ⟨e, he, rfl⟩
    · have hpath := (s.localePath_result t _).trans (mapError_eq_ok_iff.mpr hf)
      rw [Settings.styleOf, Logged.bind_result_of_ok hpath]
      refine Logged.bind_result_eq_error_iff.mpr (.inl ?_)
      exact externalLocale_eq_error_iff.mpr ⟨_, rfl, hlocale⟩
    · rw [Settings.styleOf_result hleads]
      exact Logged.mapError_result_eq_error_iff.mpr ⟨m, hm, rfl⟩

/-- If the failure has a line, the locale document could be read. -/
theorem Settings.styleOf_eq_error_iff {s : Settings} {t : FileTree} {style : Document}
    {root : Element} {f : Failure} (hp : style.parse = .ok root) (hl : f.fault.line?.isSome) :
    (s.styleOf t style root).result = .error (.failure f) ↔
      (∃ locale, s.Consults t style locale ∧ locale.LocaleFails f) ∨
      ∃ external m, s.LeadsTo t (requestedLanguage s.locale root) external ∧
        (buildStyle root style.usesYearSuffix s.locale external).result = .error m ∧
        f = ⟨.misplaced m, ""⟩ := by
  rw [Settings.styleOf_fails_iff]
  simp only [pathLocale_eq_error_iff hl, Halt.failure.injEq]
  constructor
  · rintro (⟨e, -, h⟩ | ⟨p, hf, locale, hd, hfails⟩ | h)
    · cases h
    · exact .inl ⟨locale, .intro hp hf hd, hfails⟩
    · exact .inr h
  · rintro (⟨locale, ⟨hp', hf, hd⟩, hfails⟩ | h)
    · obtain rfl := Except.ok.inj (hp.symm.trans hp')
      exact .inr (.inl ⟨_, hf, locale, hd, hfails⟩)
    · exact .inr (.inr h)

/-- What compiling stops at once there is a style document, before it attaches a text. -/
inductive Settings.StopsWith (s : Settings) (t : FileTree) (style : Document) : Failure → Prop
  | unparsed {f : Failure} (hp : style.parse = .error f) : StopsWith s t style f
  | noLocale {locale : Document} {f : Failure} (hc : s.Consults t style locale)
      (hf : locale.LocaleFails f) : StopsWith s t style f
  | broken {root : Element} {external : Option Locale} {m : Misplacement}
      (hp : style.parse = .ok root)
      (hl : s.LeadsTo t (requestedLanguage s.locale root) external)
      (hm : (buildStyle root style.usesYearSuffix s.locale external).result = .error m) :
      StopsWith s t style ⟨.misplaced m, ""⟩

theorem Settings.stopsWith_iff {s : Settings} {t : FileTree} {style : Document} {f : Failure}
    (hl : f.fault.line?.isSome) :
    ((Logged.ofExcept (style.parse.mapError .failure)).bind (s.styleOf t style)).result =
      .error (.failure f) ↔ s.StopsWith t style f := by
  rw [Logged.bind_result_eq_error_iff]
  simp only [Logged.ofExcept, mapError_eq_error_iff, mapError_eq_ok_iff, Halt.failure.injEq,
    exists_eq_right]
  constructor
  · rintro (hp | ⟨root, hp, hof⟩)
    · exact .unparsed hp
    · obtain ⟨locale, hc, hf⟩ | ⟨external, m, hleads, hm, rfl⟩ :=
        (Settings.styleOf_eq_error_iff hp hl).mp hof
      · exact .noLocale hc hf
      · exact .broken hp hleads hm
  · intro h
    cases h with
    | unparsed hp => exact .inl hp
    | noLocale hc hf =>
      have ⟨hp, _, _⟩ := hc
      exact .inr ⟨_, hp, (Settings.styleOf_eq_error_iff hp hl).mpr (.inl ⟨_, hc, hf⟩)⟩
    | broken hp hleads hm =>
      exact .inr ⟨_, hp, (Settings.styleOf_eq_error_iff hp hl).mpr (.inr ⟨_, _, hleads, hm, rfl⟩)⟩

/-! ## Where failures are shown -/

/-- Where a failure comes from, with the text that it is shown in. -/
inductive Settings.Shows (s : Settings) (t : FileTree) (style : Document) : Failure → Prop
  | unparsedStyle {f : Failure} (hp : style.parse = .error f) :
      Shows s t style ⟨f.fault, style.source⟩
  | brokenStyle {root : Element} {external : Option Locale} {m : Misplacement}
      (hp : style.parse = .ok root)
      (hl : s.LeadsTo t (requestedLanguage s.locale root) external)
      (hm : (buildStyle root style.usesYearSuffix s.locale external).result = .error m) :
      Shows s t style ⟨.misplaced m, style.source⟩
  | unparsedLocale {locale : Document} {f : Failure} (hc : s.Consults t style locale)
      (hp : locale.parse = .error f) : Shows s t style ⟨f.fault, locale.source⟩
  | otherLocaleRoot {locale : Document} {root : Element} (hc : s.Consults t style locale)
      (hp : locale.parse = .ok root) (hr : root.tag ≠ "locale") :
      Shows s t style ⟨.misplaced ⟨.notDocument "locale", root.tag, root.line⟩, locale.source⟩
  | brokenLocale {locale : Document} {root : Element} {data : LocaleData} {m : Misplacement}
      (hc : s.Consults t style locale) (hp : locale.parse = .ok root) (hr : root.tag = "locale")
      (hm : ({} : LocaleData).merge root = (data, some m)) :
      Shows s t style ⟨.misplaced m, style.source⟩

/-- A failure is shown in the text it brings along, else in the style. -/
theorem Settings.shows_iff {s : Settings} {t : FileTree} {style : Document} {f : Failure}
    (hl : f.fault.line?.isSome) :
    s.Shows t style f ↔ ∃ g, s.StopsWith t style g ∧ g.shownIn style.source = f := by
  constructor
  · intro h
    cases h with
    | unparsedStyle hp =>
      exact ⟨_, .unparsed hp, Document.shownIn_of_parse_error hp hl _⟩
    | brokenStyle hp hleads hm => exact ⟨_, .broken hp hleads hm, rfl⟩
    | unparsedLocale hc hp =>
      exact ⟨_, .noLocale hc (.unparsed hp), Document.shownIn_of_parse_error hp hl _⟩
    | otherLocaleRoot hc hp hr =>
      have hsource := Document.source_ne_empty_of_parse hp
      exact ⟨_, .noLocale hc (.otherRoot hp hr), if_neg hsource⟩
    | brokenLocale hc hp hr hm => exact ⟨_, .noLocale hc (.broken hp hr hm), rfl⟩
  · rintro ⟨g, hg, rfl⟩
    rw [Failure.shownIn_fault] at hl
    cases hg with
    | unparsed hp =>
      rw [Document.shownIn_of_parse_error hp hl]
      exact .unparsedStyle hp
    | broken hp hleads hm => exact .brokenStyle hp hleads hm
    | noLocale hc hf =>
      cases hf with
      | unparsed hp =>
        rw [Document.shownIn_of_parse_error hp hl]
        exact .unparsedLocale hc hp
      | otherRoot hp hr =>
        rw [Failure.shownIn, if_neg (Document.source_ne_empty_of_parse hp)]
        exact .otherLocaleRoot hc hp hr
      | broken hp hr hm => exact .brokenLocale hc hp hr hm

/-- **Where failures are shown.** Compiling ends with a failure of which a line is known exactly if
the style can be read and one of these holds, and each settles the text that the line is quoted
from. The style is not well-formed, or breaks a rule: it is the style's own text. The locale
document is not well-formed, or has another root: it is the text of the locale. A rule is broken
inside the root of the locale: it is the text of the style, although the line counts in the
locale. -/
theorem failure_shown_iff (s : Settings) (t : FileTree) (f : Failure)
    (hl : f.fault.line?.isSome) : (s.compile t).result = .error (.failure f) ↔
      ∃ style, t.pathDocument s.input = .ok style ∧ s.Shows t style f := by
  constructor
  · intro h
    rcases Logged.bind_result_eq_error_iff.mp h with h | ⟨style, hs, h⟩
    · rw [pathDocument_error_line h] at hl
      cases hl
    · obtain ⟨halt, hg, hshown⟩ := Logged.mapError_result_eq_error_iff.mp h
      obtain ⟨g, rfl, rfl⟩ := Halt.shownIn_eq_failure_iff.mp hshown
      have hgl : g.fault.line?.isSome := g.shownIn_fault style.source ▸ hl
      exact ⟨style, hs, (Settings.shows_iff hl).mpr ⟨g, (Settings.stopsWith_iff hgl).mp hg, rfl⟩⟩
  · rintro ⟨style, hs, hshows⟩
    obtain ⟨g, hg, rfl⟩ := (Settings.shows_iff hl).mp hshows
    have hgl : g.fault.line?.isSome := g.shownIn_fault style.source ▸ hl
    refine Logged.bind_result_eq_error_iff.mpr (.inr ⟨style, hs, ?_⟩)
    exact Logged.mapError_result_eq_error_iff.mpr
      ⟨.failure g, (Settings.stopsWith_iff hgl).mpr hg, rfl⟩

def brokenTermStyle : List UInt8 :=
  ("<style>\n<citation><layout/></citation>\n<bibliography>\n<layout/></bibliography>\n" ++
    "</style>").toUTF8.toList

def brokenTermLocale : List UInt8 :=
  "<locale>\n<terms>\n  <term/>\n</terms></locale>".toUTF8.toList

def brokenTermTree : FileTree where
  entries := [(["style.csl"], .file brokenTermStyle), (["locale.xml"], .file brokenTermLocale)]

def brokenTermSettings : Settings where
  input := .ofString "style.csl"
  output := none
  locale := none
  localeFile := some (.ofString "locale.xml")
  localeDirectories := []
  debug := false
  verbose := false

/-- The line counts in the locale, and the report quotes the line of that number in the style. -/
theorem brokenTerm_shown_in_style : ∃ (style locale : Document) (m : Misplacement),
    brokenTermTree.pathDocument brokenTermSettings.input = .ok style ∧
    brokenTermSettings.Consults brokenTermTree style locale ∧
    locale.LocaleFails ⟨.misplaced m, ""⟩ ∧ (Fault.misplaced m).line? = some 3 ∧
    (Text.lineAt locale.source.toList 3).quoted = "  <term/>".toList ∧
    (brokenTermSettings.compile brokenTermTree).result =
      .error (.failure ⟨.misplaced m, style.source⟩) ∧
    Failure.report ⟨.misplaced m, style.source⟩ "style.csl" =
      "error: <term> requires a name attribute\n  --> style.csl:3:1\n  |\n" ++
      "3 | <bibliography>\n  | ^^^^^^^^^^^^^^" := by
  have hread : brokenTermTree.pathDocument brokenTermSettings.input =
      .ok (.bytes brokenTermStyle) := by decide +kernel
  have hfound : brokenTermTree.pathDocument (.ofString "locale.xml") =
      .ok (.bytes brokenTermLocale) := by decide +kernel
  have hstyle : (Document.bytes brokenTermStyle).parse.toBool = true := by decide +kernel
  have hbroken : (Document.bytes brokenTermLocale).parse.map
      (fun root => (root.tag, (({} : LocaleData).merge root).2)) =
      .ok ("locale", some ⟨.withoutName, "term", 3⟩) := by decide +kernel
  have hc : brokenTermSettings.Consults brokenTermTree (.bytes brokenTermStyle)
      (.bytes brokenTermLocale) := by
    obtain ⟨root, hp⟩ := exists_ok_of_toBool hstyle
    exact .intro hp rfl hfound
  cases hp : (Document.bytes brokenTermLocale).parse with
  | error f => rw [hp] at hbroken; cases hbroken
  | ok root =>
    rw [hp] at hbroken
    obtain ⟨hr, hm⟩ := Prod.mk.inj (Except.ok.inj hbroken)
    refine ⟨_, _, _, hread, hc, .broken hp hr (Prod.ext rfl hm), rfl, by decide +kernel, ?_,
      by decide +kernel⟩
    exact (failure_shown_iff brokenTermSettings brokenTermTree _ rfl).mpr
      ⟨_, hread, .brokenLocale hc hp hr (Prod.ext rfl hm)⟩

end CommandLine

end CiteStyle
