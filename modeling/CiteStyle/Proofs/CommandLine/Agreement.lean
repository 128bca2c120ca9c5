import CiteStyle.CommandLine.Command
import Mathlib.Control.Monad.Basic

/-! # The command line compiles what the library does

The command line computes the language that is asked for, finds a locale for it and hands both on.
`compile_agrees` says that what comes of it, a style or a failure, is what the library makes of the
same style, language and locale. `debug` has no part in it: it only puts a dump before the errors
(`run_debug`). -/

namespace CiteStyle

/-! ## The language that is asked for -/

/-- Which language is asked for: the one that is given, else the default of the style, else English.
An empty text counts as none. -/
inductive AsksFor (given : Option String) (root : Element) : String → Prop
  | given {language : String} (hg : given = some language) (hne : language ≠ "") :
      AsksFor given root language
  | ownDefault {language : String} (hg : given.getD "" = "")
      (hd : root.attribute? "default-locale" = some language) (hne : language ≠ "") :
      AsksFor given root language
  | general (hg : given.getD "" = "") (hd : (root.attribute? "default-locale").getD "" = "") :
      AsksFor given root "en-US"

@[simp] theorem firstNonempty_nil (default : String) : firstNonempty [] default = default := rfl

theorem firstNonempty_cons (choice : Option String) (choices : List (Option String))
    (default : String) : firstNonempty (choice :: choices) default =
      if choice.getD "" = "" then firstNonempty choices default else choice.getD "" := by
  cases choice with
  | none => rfl
  | some text =>
    by_cases h : text = ""
    · simp [firstNonempty, h]
    · simp [firstNonempty, h]

theorem requestedLanguage_of_ne_empty {language : String} (root : Element) (hne : language ≠ "") :
    requestedLanguage (some language) root = language := by
  rw [requestedLanguage, firstNonempty_cons]
  exact if_neg hne

theorem eq_some_getD {choice : Option String} (h : choice.getD "" ≠ "") :
    choice = some (choice.getD "") := by
  cases choice with
  | none => exact absurd rfl h
  | some text => rfl

theorem asksFor_iff {given : Option String} {root : Element} {language : String} :
    AsksFor given root language ↔ language = requestedLanguage given root := by
  constructor
  · intro h
    cases h with
    | given hg hne => rw [hg, requestedLanguage_of_ne_empty root hne]
    | ownDefault hg hd hne => simp [requestedLanguage, firstNonempty_cons, hg, hd, hne]
    | general hg hd => simp [requestedLanguage, firstNonempty_cons, hg, hd, defaultLanguage]
  · rintro rfl
    rw [requestedLanguage, firstNonempty_cons, firstNonempty_cons, firstNonempty_nil]
    split
    · next hg =>
      split
      · next hd => exact .general hg hd
      · next hd => exact .ownDefault hg (eq_some_getD hd) hd
    · next hg => exact .given (eq_some_getD hg) hg

theorem AsksFor.ne_empty {given : Option String} {root : Element} {language : String}
    (h : AsksFor given root language) : language ≠ "" := by
  cases h with
  | given _ hne => exact hne
  | ownDefault _ _ hne => exact hne
  | general => decide

/-- To ask for the language that is asked for anyway makes no difference. -/
theorem buildStyle_requestedLanguage (root : Element) (flag : Bool) (given : Option String)
    (external : Option Locale) :
    buildStyle root flag (some (requestedLanguage given root)) external =
      buildStyle root flag given external := by
  rw [buildStyle, buildStyle,
    requestedLanguage_of_ne_empty root (asksFor_iff.mpr rfl).ne_empty]

namespace CommandLine

/-! ## The locale that settings lead to -/

/-- What the settings lead to for a language: the locale in the file that is named, else the one in
the file that is found for the language, else none. -/
inductive Settings.LeadsTo (s : Settings) (t : FileTree) (language : String) :
    Option Locale → Prop
  | named {p : Path} {l : Locale} (hp : s.localeFile = some p)
      (hl : (t.pathLocale p).result = .ok l) : LeadsTo s t language (some l)
  | found {p : Path} {l : Locale} (hn : s.localeFile = none)
      (hf : findLocaleFile t language s.localeDirectories = .ok (some p))
      (hl : (t.pathLocale p).result = .ok l) : LeadsTo s t language (some l)
  | nowhere (hn : s.localeFile = none)
      (hf : findLocaleFile t language s.localeDirectories = .ok none) : LeadsTo s t language none

theorem Settings.localePath_of_none {s : Settings} (t : FileTree) (language : String)
    (hn : s.localeFile = none) : (s.localePath t language).result =
      (findLocaleFile t language s.localeDirectories).mapError .unhandled := by
  unfold Settings.localePath
  rw [hn]
  dsimp only
  split
  · next hd => rw [List.isEmpty_iff.mp hd]; rfl
  · split
    · next hf => rw [hf]; rfl
    · next hf => rw [hf]; rfl
    · next hf => rw [hf]; rfl

theorem externalLocale_some_eq_ok_iff {t : FileTree} {p : Path} {external : Option Locale} :
    (externalLocale t (some p)).result = .ok external ↔
      ∃ l, (t.pathLocale p).result = .ok l ∧ external = some l := by
  rw [externalLocale, Logged.bind_result_eq_ok_iff]
  simp only [Except.ok.injEq, eq_comm]

/-- The command finds and reads exactly that locale. -/
theorem Settings.leadsTo_iff {s : Settings} {t : FileTree} {language : String}
    {external : Option Locale} :
    s.LeadsTo t language external ↔
      ((s.localePath t language).bind (externalLocale t)).result = .ok external := by
  rw [Logged.bind_result_eq_ok_iff]
  constructor
  · intro h
    cases h with
    | named hp hl =>
      exact ⟨some _, by rw [Settings.localePath, hp], externalLocale_some_eq_ok_iff.mpr ⟨_, hl, rfl⟩⟩
    | found hn hf hl =>
      refine ⟨some _, ?_, externalLocale_some_eq_ok_iff.mpr ⟨_, hl, rfl⟩⟩
      rw [s.localePath_of_none t language hn, hf]
      rfl
    | nowhere hn hf =>
      refine ⟨none, ?_, rfl⟩
      rw [s.localePath_of_none t language hn, hf]
      rfl
  · rintro ⟨path, hpath, hext⟩
    cases hfile : s.localeFile with
    | some p =>
      rw [Settings.localePath, hfile] at hpath
      cases hpath
      obtain ⟨l, hl, rfl⟩ := externalLocale_some_eq_ok_iff.mp hext
      exact .named hfile hl
    | none =>
      rw [s.localePath_of_none t language hfile, mapError_eq_ok_iff] at hpath
      cases path with
      | none =>
        cases hext
        exact .nowhere hfile hpath
      | some p =>
        obtain ⟨l, hl, rfl⟩ := externalLocale_some_eq_ok_iff.mp hext
        exact .found hfile hpath hl

/-! ## Agreement -/

/-- With the locale that the settings lead to, a root gives what the library makes of it. -/
theorem Settings.styleOf_result {s : Settings} {t : FileTree} {d : Document} {root : Element}
    {external : Option Locale}
    (h : s.LeadsTo t (requestedLanguage s.locale root) external) :
    (s.styleOf t d root).result =
      ((buildStyle root d.usesYearSuffix s.locale external).mapError
        fun m => .failure ⟨.misplaced m, ""⟩).result := by
  obtain ⟨path, hpath, hext⟩ := Logged.bind_result_eq_ok_iff.mp (leadsTo_iff.mp h)
  rw [Settings.styleOf, Logged.bind_result_of_ok hpath, Logged.bind_result_of_ok hext,
    buildStyle_requestedLanguage]

/-- The style of a document, with its failures among all that can end the computation. -/
theorem mapError_style (d : Document) (requested : Option String) (external : Option Locale) :
    (d.style requested external).mapError Halt.failure =
      ((Logged.ofExcept (d.parse.mapError Halt.failure)).bind fun root =>
        (buildStyle root d.usesYearSuffix requested external).mapError
          fun m => .failure ⟨.misplaced m, ""⟩).mapError (·.shownIn d.source) := by
  unfold Document.style
  rw [Logged.mapError_mapError]
  -- it makes no difference whether a failure is shown in the document before or after
  refine (Logged.mapError_mapError Halt.failure (·.shownIn d.source) _).symm.trans ?_
  rw [Logged.mapError_bind]
  simp only [Logged.mapError_mapError]
  rfl

def Settings.silenced (s : Settings) : Settings := { s with debug := false }

/-- An outcome with more before its errors. -/
def Outcome.after (o : Outcome) (errors : String) : Outcome := { o with errors := errors ++ o.errors }

/-- Compiling does not look at whether a dump is wanted. -/
theorem Settings.compile_silenced (s : Settings) (t : FileTree) :
    s.silenced.compile t = s.compile t := rfl

/-- A dump only comes before the other errors. -/
theorem Settings.run_eq_after_dump (s : Settings) (t : FileTree) :
    s.run t = (s.silenced.run t).map (·.after (s.dump t)) := by
  have hreport : s.silenced.report t = s.report t := rfl
  have hlog : s.silenced.shownLog = s.shownLog := rfl
  have hdump : s.silenced.dump t = "" := rfl
  have hinput : s.silenced.input = s.input := rfl
  have houtput : s.silenced.output = s.output := rfl
  simp only [Settings.run, Outcome.after, hreport, hlog, hdump, hinput, houtput]
  rcases (s.report t).result with (f | e) | text
  · simp [Except.map, String.append_assoc]
  · rfl
  · cases s.output <;> simp [Except.map]

/-- **The command line and the library agree.** If the settings lead to a locale that can be read,
or to none, then compiling with them gives what the library makes of the style in the same file with
the same language and locale: the same style, or the same failure in the same document. A style
that cannot be read or parsed is the same failure with any locale. Whether a dump is wanted makes
no difference but to what is printed among the errors. -/
theorem compile_agrees (s : Settings) (t : FileTree) :
    (∀ external, (∀ d root language, t.pathDocument s.input = .ok d → d.parse = .ok root →
        AsksFor s.locale root language → s.LeadsTo t language external) →
      (s.compile t).result = (t.pathStyle s.input s.locale external).result) ∧
    s.silenced.compile t = s.compile t ∧
      s.run t = (s.silenced.run t).map (·.after (s.dump t)) := by
  refine ⟨fun external h => ?_, s.compile_silenced t, s.run_eq_after_dump t⟩
  -- results only: the command also logs what it does about the locale
  refine Logged.bind_result_congr rfl fun d hd => ?_
  rw [mapError_style]
  refine Logged.mapError_result_congr (Logged.bind_result_congr rfl fun root hroot => ?_)
  exact Settings.styleOf_result (h d root _ hd (mapError_eq_ok_iff.mp hroot)
    (asksFor_iff.mpr rfl))

def germanTree : FileTree where
  entries := [
    (["style.csl"], .file ("<style><citation><layout/></citation><bibliography><layout/>" ++
      "</bibliography></style>").toUTF8.toList),
    (["locales", "locales-de-DE.xml"], .file
      "<locale><style-options punctuation-in-quote=\"true\"/></locale>".toUTF8.toList)]

def germanSettings : Settings where
  input := .ofString "style.csl"
  output := none
  locale := some "de"
  localeFile := none
  localeDirectories := [.ofString "locales"]
  debug := true
  verbose := false

theorem germanSettings_agree : ∃ l : Locale,
    (∀ d root language, germanTree.pathDocument germanSettings.input = .ok d →
      d.parse = .ok root → AsksFor germanSettings.locale root language →
      germanSettings.LeadsTo germanTree language (some l)) ∧
    (germanSettings.compile germanTree).result =
      (germanTree.pathStyle germanSettings.input germanSettings.locale (some l)).result ∧
    (germanSettings.compile germanTree).result.toBool = true := by
  have hfound : findLocaleFile germanTree "de" germanSettings.localeDirectories =
      .ok (some (.ofString "locales/locales-de-DE.xml")) := by decide +kernel
  have hread : (germanTree.pathLocale (.ofString "locales/locales-de-DE.xml")).result.toBool =
      true := by decide +kernel
  obtain ⟨l, hl⟩ := exists_ok_of_toBool hread
  have hleads : ∀ d root language, germanTree.pathDocument germanSettings.input = .ok d →
      d.parse = .ok root → AsksFor germanSettings.locale root language →
      germanSettings.LeadsTo germanTree language (some l) := by
    intro _ root language _ _ hasked
    obtain rfl : language = "de" :=
      (asksFor_iff.mp hasked).trans (requestedLanguage_of_ne_empty root (by decide))
    exact .found rfl hfound hl
  exact ⟨l, hleads, (compile_agrees germanSettings germanTree).1 (some l) hleads,
    by decide +kernel⟩

end CommandLine

end CiteStyle
