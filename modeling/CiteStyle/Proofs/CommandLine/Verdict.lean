import CiteStyle.Editor
import CiteStyle.Proofs.CommandLine.Agreement
import CiteStyle.Proofs.Style.Refusal
import Mathlib.Control.Monad.Basic

/-! # The editor and the command on the same text

An editor and the command check a style each in its own way. `verdicts_agree` compares them on any
text without declaration: the editor publishes one list, and what it finds is what stops the
command, an error where the exit code is 1 and a warning where it is 2. The one exception is a bad
formatting option: the command stops at it, and the editor has stopped looking before
(`wideStyle_unpublished`). -/

namespace CiteStyle

/-! ## What stops a style -/

def FaultKind.severity : FaultKind → Severity
  | .input | .wellFormedness => .error
  | .placement | .option => .warning

@[simp] theorem Fault.diagnostic_severity (f : Fault) (source : String) (severity : Severity) :
    (f.diagnostic source severity).severity = severity := rfl

theorem diagnostics_of_style_error {s : String} {f : Failure}
    (h : ((Document.text s).style none none).result = .error f) :
    diagnostics s = [f.fault.diagnostic s f.fault.kind.severity] := by
  unfold diagnostics
  obtain ⟨g, hparse, rfl⟩ | ⟨root, m, hparse, hm, rfl⟩ := Document.style_eq_error_iff.mp h
  · dsimp only
    rw [hparse]
    obtain rfl | ⟨-, line, rfl⟩ := Document.parse_eq_error hparse <;> rfl
  · dsimp only
    rw [hparse]
    dsimp only
    rw [hm]
    rfl

theorem diagnostics_of_style_ok {s : String} {style : Style}
    (h : ((Document.text s).style none none).result = .ok style) : diagnostics s = [] := by
  obtain ⟨root, hparse, hbuild⟩ := Logged.ofExcept_bind_result_eq_ok_iff.mp
    (Logged.mapError_result_eq_ok_iff.mp h)
  unfold diagnostics
  dsimp only
  rw [hparse]
  dsimp only
  rw [Logged.mapError_result_eq_ok_iff.mp hbuild]

theorem style_written {s : String} (h : Undeclared s) (requested : Option String)
    (external : Option Locale) :
    (Document.written s).style requested external = (Document.text s).style requested external := by
  rw [Document.style, Document.style, Document.parse_written h, Document.usesYearSuffix_written,
    Document.source_written]
  rfl

namespace CommandLine

/-! ## A command without options -/

/-- Where no locale file is asked for, compiling gives what the library makes of the document. -/
theorem Settings.compile_result_of_no_locale {s : Settings} {t : FileTree} {d : Document}
    (hf : s.localeFile = none) (hd : s.localeDirectories = [])
    (hread : t.pathDocument s.input = .ok d) :
    (s.compile t).result = (d.style s.locale none).result.mapError .failure := by
  rw [Settings.compile, Logged.bind_result_of_ok (a := d) hread]
  refine Eq.trans ?_ (congrArg Logged.result (mapError_style d s.locale none)).symm
  refine Logged.mapError_result_congr (Logged.bind_result_congr rfl fun root _ => ?_)
  exact Settings.styleOf_result (.nowhere hf (by rw [hd]; rfl))

def Settings.only (name : String) : Settings where
  input := .ofString name
  output := none
  locale := none
  localeFile := none
  localeDirectories := []
  debug := false
  verbose := false

theorem word_of_plain {text : String} (h : text.toList.head? ≠ some '-') :
    word text = .ok (.plain text) := by
  unfold word
  split
  · next htext => rw [htext] at h; exact absurd rfl h
  · next htext => rw [htext] at h; exact absurd rfl h
  · next htext => rw [htext] at h; exact absurd rfl h
  · rfl

/-- A text that begins with no hyphen is the name of a style. -/
theorem parse_name {name : String} (h : name.toList.head? ≠ some '-') :
    Arguments.parse [name] = .ok { input := name } := by
  have hwords : words [name] = .ok [.plain name] := by simp only [words, word_of_plain h]
  simp [Arguments.parse, hwords, Intake.take, Intake.name]

theorem settings_of_no_configuration {t : FileTree} {a : Arguments}
    (hc : t.isFile a.configurationPath = .ok false) :
    settings t a = .ok (Settings.combine a (.table [])) := by
  unfold settings configuration
  rw [hc]
  rfl

/-- A command that has an outcome and writes no file leaves the files as they are. -/
theorem run_of_unwritten {t : FileTree} {argv : List String} {a : Arguments} {s : Settings}
    {o : Outcome} (ha : Arguments.parse argv = .ok a) (hs : settings t a = .ok s)
    (ho : s.run t = .ok o) (hw : o.written = none) : run t argv = .ok (o, t) := by
  unfold run
  rw [ha]
  dsimp only
  rw [hs]
  dsimp only
  rw [Settings.finish, ho]
  dsimp only
  rw [Outcome.files, hw]

theorem Settings.report_result_of_ok {s : Settings} {t : FileTree} {style : Style}
    (h : (s.compile t).result = .ok style) : (s.report t).result =
      style.draft.summary.mapError fun b => .failure ⟨.badOption b, ""⟩ :=
  Logged.bind_result_of_ok h

theorem Settings.only_run_of_ok {t : FileTree} {name text : String}
    (h : ((Settings.only name).report t).result = .ok text) :
    ∃ o, (Settings.only name).run t = .ok o ∧ o.written = none ∧ o.exitCode = 0 := by
  simp only [Settings.run, h]
  exact ⟨_, rfl, rfl, rfl⟩

theorem Settings.only_run_of_error {t : FileTree} {name : String} {f : Failure}
    (h : ((Settings.only name).report t).result = .error (.failure f)) :
    ∃ o, (Settings.only name).run t = .ok o ∧ o.written = none ∧
      o.exitCode = exitCode f.fault.kind ∧
      o.errors = f.report (Path.ofString name).toString ++ "\n" := by
  have hdump : (Settings.only name).dump t = "" := rfl
  simp only [Settings.run, h, hdump, String.empty_append]
  exact ⟨_, rfl, rfl, rfl, rfl⟩

/-! ## The same verdict -/

/-- An editor and a command that say the same about a text in a file of a given name: the editor
has nothing to show where the command succeeds, otherwise one diagnostic, of the fault that the
command reports. -/
structure SameVerdict (name text : String) (shown : List Diagnostic) (o : Outcome) : Prop where
  clean : shown = [] ↔ o.exitCode = 0
  error : (∃ d, shown = [d] ∧ d.severity = .error) ↔ o.exitCode = 1
  warning : (∃ d, shown = [d] ∧ d.severity = .warning) ↔ o.exitCode = 2
  reported : ∀ d ∈ shown, ∃ fault : Fault,
    d = fault.diagnostic text d.severity ∧ d.message = fault.message ∧
      o.errors = Failure.report ⟨fault, text⟩ (Path.ofString name).toString ++ "\n"

/-- What a bad formatting option leads to: the style of the text is made, but cannot be set. -/
def StopsAt (text : String) (b : BadOption) : Prop :=
  ∃ style, ((Document.text text).style none none).result = .ok style ∧
    Formatting.parameters style.bibliography.options = .error b

theorem sameVerdict_of_clean {name text : String} {o : Outcome} (h : o.exitCode = 0) :
    SameVerdict name text [] o where
  clean := by simp [h]
  error := by simp [h]
  warning := by simp [h]
  reported := by simp

theorem sameVerdict_of_fault {name text : String} {o : Outcome} {fault : Fault}
    (hx : o.exitCode = exitCode fault.kind)
    (he : o.errors = Failure.report ⟨fault, text⟩ (Path.ofString name).toString ++ "\n") :
    SameVerdict name text [fault.diagnostic text fault.kind.severity] o := by
  constructor
  case clean => cases hk : fault.kind <;> simp [hx, hk, exitCode]
  case error => cases hk : fault.kind <;> simp [hx, hk, exitCode, FaultKind.severity]
  case warning => cases hk : fault.kind <;> simp [hx, hk, exitCode, FaultKind.severity]
  case reported =>
    intro d hd
    rw [List.mem_singleton.mp hd]
    exact ⟨fault, rfl, rfl, he⟩

variable {t : FileTree} {name text : String}

/-- The outcome of a command, and what the editor and the command say about a text: the same, unless
a formatting option stops the command. Then the editor shows nothing. -/
structure Compared (t : FileTree) (name text : String) (o : Outcome) : Prop where
  run : (Settings.only name).run t = .ok o
  unwritten : o.written = none
  same : (∀ b, ¬ StopsAt text b) → SameVerdict name text (diagnostics text) o
  stopped : ∀ b, StopsAt text b → diagnostics text = [] ∧ o.exitCode = 2 ∧
    o.errors = Failure.report ⟨.badOption b, ""⟩ (Path.ofString name).toString ++ "\n"

theorem compared_of_fault {f : Failure}
    (hs : ((Document.text text).style none none).result = .error f)
    (hc : ((Settings.only name).compile t).result = .error (.failure f)) :
    ∃ o, Compared t name text o := by
  have hsource : f.source = text := by
    rcases Document.style_eq_error_iff.mp hs with ⟨g, -, rfl⟩ | ⟨root, m, -, -, rfl⟩ <;> rfl
  obtain ⟨o, ho, hw, hx, he⟩ :=
    Settings.only_run_of_error (Logged.bind_result_eq_error_iff.mpr (.inl hc))
  refine ⟨o, ho, hw, fun _ => ?_, ?_⟩
  · rw [diagnostics_of_style_error hs]
    exact sameVerdict_of_fault hx (hsource ▸ he)
  · rintro b ⟨style, hstyle, -⟩
    rw [hs] at hstyle
    cases hstyle

theorem compared_of_badOption {style : Style} {b : BadOption}
    (hs : ((Document.text text).style none none).result = .ok style)
    (hc : ((Settings.only name).compile t).result = .ok style)
    (hp : Formatting.parameters style.bibliography.options = .error b) :
    ∃ o, Compared t name text o := by
  have hsummary : style.draft.summary = .error b := congrArg (Except.map _) hp
  have hreport := Settings.report_result_of_ok hc
  rw [hsummary] at hreport
  obtain ⟨o, ho, hw, hx, he⟩ := Settings.only_run_of_error hreport
  refine ⟨o, ho, hw, fun hnone => absurd ⟨style, hs, hp⟩ (hnone b), ?_⟩
  rintro b' ⟨style', hs', hp'⟩
  obtain rfl := Except.ok.inj (hs.symm.trans hs')
  obtain rfl := Except.error.inj (hp.symm.trans hp')
  exact ⟨diagnostics_of_style_ok hs, hx, he⟩

theorem compared_of_goodOptions {style : Style} {formatting : List (String × FormattingValue)}
    (hs : ((Document.text text).style none none).result = .ok style)
    (hc : ((Settings.only name).compile t).result = .ok style)
    (hp : Formatting.parameters style.bibliography.options = .ok formatting) :
    ∃ o, Compared t name text o := by
  have hsummary : style.draft.summary = .ok _ := congrArg (Except.map _) hp
  have hreport := Settings.report_result_of_ok hc
  rw [hsummary] at hreport
  obtain ⟨o, ho, hw, hx⟩ := Settings.only_run_of_ok hreport
  refine ⟨o, ho, hw, fun _ => ?_, ?_⟩
  · rw [diagnostics_of_style_ok hs]
    exact sameVerdict_of_clean hx
  · rintro b ⟨style', hs', hp'⟩
    obtain rfl := Except.ok.inj (hs.symm.trans hs')
    rw [hp] at hp'
    cases hp'

theorem exists_compared (hc : ((Settings.only name).compile t).result =
      ((Document.text text).style none none).result.mapError .failure) :
    ∃ o, Compared t name text o := by
  cases hs : ((Document.text text).style none none).result with
  | error f => exact compared_of_fault hs (hc.trans (congrArg _ hs))
  | ok style =>
    have hcompile := hc.trans (congrArg _ hs)
    cases hp : Formatting.parameters style.bibliography.options with
    | error b => exact compared_of_badOption hs hcompile hp
    | ok formatting => exact compared_of_goodOptions hs hcompile hp

/-- **The editor and the command agree, but for formatting options.** Let a file hold a text without
declaration, and let a command only name it and find no configuration. When an editor sends the same
text, one list of diagnostics is published for it. If the command does not stop at a formatting
option, the list says what the command says. If it does, the command ends with exit code 2 and
reports the option, and the list is empty. -/
theorem verdicts_agree (t : FileTree) (argv : List String) (name text : String)
    (ha : Arguments.parse argv = .ok { input := name })
    (hc : t.isFile ({ input := name } : Arguments).configurationPath = .ok false)
    (hr : t.read (.ofString name) = .ok text.toUTF8.toList) (hu : Undeclared text) :
    ∃ o, run t argv = .ok (o, t) ∧
      (∀ (w : Workspace) (e : DocumentEvent), e.text = text →
        (w.handle e).2 = [⟨e.uri, diagnostics text⟩]) ∧
      ((∀ b, ¬ StopsAt text b) → SameVerdict name text (diagnostics text) o) ∧
      ∀ b, StopsAt text b → diagnostics text = [] ∧ o.exitCode = 2 ∧
        o.errors = Failure.report ⟨.badOption b, ""⟩ (Path.ofString name).toString ++ "\n" := by
  have hread : t.pathDocument (Settings.only name).input = .ok (.written text) := by
    unfold FileTree.pathDocument FileTree.fileDocument
    rw [Settings.only, hr]
    rfl
  have hcompile : ((Settings.only name).compile t).result =
      ((Document.text text).style none none).result.mapError .failure := by
    rw [Settings.compile_result_of_no_locale rfl rfl hread, style_written hu]
    rfl
  obtain ⟨o, ho⟩ := exists_compared hcompile
  exact ⟨o, run_of_unwritten ha (settings_of_no_configuration hc) ho.run ho.unwritten,
    fun w e he => he ▸ w.handle_publishes e, ho.same, ho.stopped⟩

def wideStyle : String :=
  "<style><citation><layout/></citation><bibliography line-spacing=\"wide\"><layout/>" ++
  "</bibliography></style>"

def bareStyle : String := "<style/>"

def twoStyles : FileTree where
  entries := [
    (["wide.csl"], .file wideStyle.toUTF8.toList), (["bare.csl"], .file bareStyle.toUTF8.toList)]

theorem wideStyle_unpublished :
    (∃ o, run twoStyles ["wide.csl"] = .ok (o, twoStyles) ∧ o.exitCode = 2 ∧
      o.errors = "error: invalid value for line-spacing: 'wide' (expected a number)\n" ++
        "  --> wide.csl\n" ∧
      diagnostics wideStyle = []) ∧
    ∃ o, run twoStyles ["bare.csl"] = .ok (o, twoStyles) ∧ o.exitCode = 2 ∧
      SameVerdict "bare.csl" bareStyle (diagnostics bareStyle) o ∧
      (diagnostics bareStyle).map Diagnostic.message = ["style has no <citation> layout"] := by
  constructor
  · obtain ⟨o, hrun, -, -, hstops⟩ := verdicts_agree twoStyles ["wide.csl"] "wide.csl" wideStyle
      (parse_name (by decide))
      (by decide +kernel) (by decide +kernel)
      ⟨by decide +kernel, by decide +kernel, by decide +kernel⟩
    have hset : (((Document.text wideStyle).style none none).result.map fun style =>
        Formatting.parameters style.bibliography.options) =
        .ok (.error ⟨"line-spacing", "wide", .number⟩) := by decide +kernel
    cases hs : ((Document.text wideStyle).style none none).result with
    | error f => rw [hs] at hset; cases hset
    | ok style =>
      rw [hs] at hset
      obtain ⟨hnone, hx, he⟩ := hstops _ ⟨style, hs, Except.ok.inj hset⟩
      exact ⟨o, hrun, hx, he.trans (by decide +kernel), hnone⟩
  · obtain ⟨o, hrun, -, hsame, -⟩ := verdicts_agree twoStyles ["bare.csl"] "bare.csl" bareStyle
      (parse_name (by decide))
      (by decide +kernel) (by decide +kernel)
      ⟨by decide +kernel, by decide +kernel, by decide +kernel⟩
    have hfails : ((Document.text bareStyle).style none none).result.toBool = false := by
      decide +kernel
    have hverdict := hsame fun b hb => by
      obtain ⟨style, hs, -⟩ := hb
      rw [hs] at hfails
      cases hfails
    have hshown : diagnostics bareStyle =
        [(Fault.misplaced ⟨.noPart "citation", "style", 1⟩).diagnostic bareStyle .warning] := by
      decide +kernel
    refine ⟨o, hrun, ?_, hverdict, ?_⟩
    · exact hverdict.warning.mp ⟨_, hshown, rfl⟩
    · rw [hshown]
      rfl

end CommandLine

end CiteStyle
