import CiteStyle.Proofs.CommandLine.Attribution
import CiteStyle.Proofs.CommandLine.Verdict
import CiteStyle.Proofs.FileTree
import CiteStyle.Proofs.LocaleFile

/-! # All or nothing

A command reads a style, perhaps a locale, makes the style and reports on it, and each of these can
fail. `Fails` lists what can stop it first, in this order (`Settings.fails_iff`): a failure, which
is reported, or an error of a file that nothing handles (`Settings.fails_unhandled_iff`). Only after
the last step is anything printed or written (`run_all_or_nothing`), so a formatting option that is
found to be bad when the style is made already leaves no output either
(`wideStyle_leaves_nothing`). -/

namespace CiteStyle.CommandLine

/-! ## What stops a command first -/

/-- What stops the way to a report first. -/
inductive Settings.Fails (s : Settings) (t : FileTree) : Halt → Prop
  | unreadStyle {h : Halt} (hd : t.pathDocument s.input = .error h) : Fails s t h
  | unparsedStyle {style : Document} {f : Failure} (hd : t.pathDocument s.input = .ok style)
      (hp : style.parse = .error f) : Fails s t (.failure (f.shownIn style.source))
  | unsearchedLocale {style : Document} {root : Element} {e : FileError}
      (hd : t.pathDocument s.input = .ok style) (hp : style.parse = .ok root)
      (hl : s.localeFor t (requestedLanguage s.locale root) = .error e) :
      Fails s t (.unhandled e)
  | unreadLocale {style : Document} {root : Element} {p : Path} {h : Halt}
      (hd : t.pathDocument s.input = .ok style) (hp : style.parse = .ok root)
      (hl : s.localeFor t (requestedLanguage s.locale root) = .ok (some p))
      (hf : t.pathDocument p = .error h) : Fails s t (h.shownIn style.source)
  | badLocale {style locale : Document} {f : Failure} (hd : t.pathDocument s.input = .ok style)
      (hc : s.Consults t style locale) (hf : locale.LocaleFails f) :
      Fails s t (.failure (f.shownIn style.source))
  | noStyle {style : Document} {root : Element} {external : Option Locale} {m : Misplacement}
      (hd : t.pathDocument s.input = .ok style) (hp : style.parse = .ok root)
      (hl : s.LeadsTo t (requestedLanguage s.locale root) external)
      (hm : (buildStyle root style.usesYearSuffix s.locale external).result = .error m) :
      Fails s t (.failure ⟨.misplaced m, style.source⟩)
  | badOption {style : Style} {b : BadOption} (hc : (s.compile t).result = .ok style)
      (hb : style.draft.summary = .error b) : Fails s t (.failure ⟨.badOption b, ""⟩)

variable {s : Settings} {t after : FileTree} {f : Failure} {h : Halt}

theorem Settings.compile_eq_error_iff : (s.compile t).result = .error h ↔
    t.pathDocument s.input = .error h ∨ ∃ style, t.pathDocument s.input = .ok style ∧
      ∃ g : Halt, ((∃ f, style.parse = .error f ∧ .failure f = g) ∨
        ∃ root, style.parse = .ok root ∧ (s.styleOf t style root).result = .error g) ∧
        g.shownIn style.source = h := by
  simp only [Settings.compile, Logged.bind_result_eq_error_iff,
    Logged.mapError_result_eq_error_iff, Logged.ofExcept, mapError_eq_error_iff, mapError_eq_ok_iff]

theorem Settings.compile_eq_error_of_styleOf {style : Document} {root : Element}
    (hd : t.pathDocument s.input = .ok style) (hp : style.parse = .ok root)
    (hof : (s.styleOf t style root).result = .error h) :
    (s.compile t).result = .error (h.shownIn style.source) :=
  Settings.compile_eq_error_iff.mpr (.inr ⟨_, hd, _, .inr ⟨_, hp, hof⟩, rfl⟩)

/-- What fails first is what ends the report. -/
theorem Settings.fails_iff : s.Fails t h ↔ (s.report t).result = .error h := by
  rw [Settings.report, Logged.bind_result_eq_error_iff]
  constructor
  · intro hfails
    cases hfails with
    | unreadStyle hd => exact .inl (compile_eq_error_iff.mpr (.inl hd))
    | unparsedStyle hd hp =>
      exact .inl (compile_eq_error_iff.mpr (.inr ⟨_, hd, _, .inl ⟨_, hp, rfl⟩, rfl⟩))
    | @unsearchedLocale style root e hd hp hl =>
      have hof : (s.styleOf t style root).result = .error (.unhandled e) :=
        styleOf_fails_iff.mpr (.inl ⟨_, hl, rfl⟩)
      exact .inl (compile_eq_error_of_styleOf hd hp hof)
    | unreadLocale hd hp hl hf =>
      have hlocale := pathLocale_fails_iff.mpr (.inl hf)
      exact .inl (compile_eq_error_of_styleOf hd hp
        (styleOf_fails_iff.mpr (.inr (.inl ⟨_, hl, hlocale⟩))))
    | badLocale hd hc hf =>
      obtain ⟨hp, hl, hd'⟩ := hc
      have hlocale := pathLocale_fails_iff.mpr (.inr ⟨_, _, hd', hf, rfl⟩)
      exact .inl (compile_eq_error_of_styleOf hd hp
        (styleOf_fails_iff.mpr (.inr (.inl ⟨_, hl, hlocale⟩))))
    | noStyle hd hp hl hm =>
      exact .inl (compile_eq_error_of_styleOf hd hp
        (styleOf_fails_iff.mpr (.inr (.inr ⟨_, _, hl, hm, rfl⟩))))
    | badOption hc hb => exact .inr ⟨_, hc, by rw [hb]; rfl⟩
  · rintro (hc | ⟨style, hc, hsummary⟩)
    · rcases compile_eq_error_iff.mp hc with hd | ⟨style, hd, g, ⟨f, hp, rfl⟩ | ⟨root, hp, hof⟩, rfl⟩
      · exact .unreadStyle hd
      · exact .unparsedStyle hd hp
      rcases styleOf_fails_iff.mp hof with ⟨e, he, rfl⟩ | ⟨p, hl, hlocale⟩ | ⟨_, m, hl, hm, rfl⟩
      · exact .unsearchedLocale hd hp he
      · rcases pathLocale_fails_iff.mp hlocale with hf | ⟨locale, f, hd', hf, rfl⟩
        · exact .unreadLocale hd hp hl hf
        · exact .badLocale hd (.intro hp hl hd') hf
      · exact .noStyle hd hp hl hm
    · obtain ⟨b, hb, rfl⟩ := mapError_eq_error_iff.mp hsummary
      exact .badOption hc hb

theorem Settings.Fails.eq {g : Halt} (hf : s.Fails t h) (hg : s.Fails t g) : h = g :=
  Except.error.inj ((Settings.fails_iff.mp hf).symm.trans (Settings.fails_iff.mp hg))

end CiteStyle.CommandLine
