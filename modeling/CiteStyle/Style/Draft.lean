import CiteStyle.Fragment
import CiteStyle.Locale
import CiteStyle.Options.Defaults

/-!
A style while it is put together.

The children of the `style` element are taken in order. A later citation, bibliography, info or
macro of the same name replaces an earlier one; of the locales only the first that suits the
requested language is merged.
-/

namespace CiteStyle

/-- Citations or bibliography of a style, as far as they are known. -/
structure Section where
  options : Table String := {}
  arrangement : Option Arrangement := none

namespace Section

/-- The attributes of the layout; none without layout. -/
def layoutAttributes (s : Section) : Table String :=
  (s.arrangement.map Arrangement.layoutAttributes).getD {}

def ofFragment (f : Fragment) : Section := ⟨f.options, some f.arrangement⟩

end Section

def defaultLanguage : String := "en-US"

/-- A style in the making. -/
structure Draft where
  info : Option Element := none
  styleOptions : Table String := {}
  citation : Section := {}
  bibliography : Section := {}
  data : LocaleData := {}
  noteStyle : Bool := false
  usesYearSuffix : Bool := false
  macros : Table Program := {}
  language : String := defaultLanguage

namespace Draft

def options (d : Draft) : OptionTables :=
  ⟨d.styleOptions, d.citation.options, d.bibliography.options, d.data.options⟩

def withOptions (d : Draft) (t : OptionTables) : Draft :=
  { d with
    styleOptions := t.style
    citation := { d.citation with options := t.citation }
    bibliography := { d.bibliography with options := t.bibliography }
    data := { d.data with options := t.locale } }

def complete (d : Draft) : Draft :=
  d.withOptions (d.options.complete (d.citation.layoutAttributes.get? "delimiter"))

def localize (d : Draft) (external : Locale) : Draft :=
  { d with data := d.data.fillFrom external.data }

def infoText? (d : Draft) (tag : String) : Option String :=
  (d.info.bind (·.find? tag)).map Element.text

end Draft

def isNoteInfo (info : Element) : Bool :=
  info.elements.any fun c =>
    c.tag == "category" && c.attribute? "citation-format" == some "note"

/-- A draft, and whether a locale has been merged into it. -/
structure Assembly where
  draft : Draft
  localeMerged : Bool := false

namespace Assembly

/-- Takes in a locale of the style, if it is the first to suit the language. -/
def addLocale (a : Assembly) (e : Element) : Logged Misplacement Assembly :=
  let lang := e.attribute? "lang"
  if !a.localeMerged && Language.suits lang a.draft.language then
    match a.draft.data.merge e with
    | (_, some m) => .fail m
    | (data, none) =>
      ⟨[.mergedLocale lang e.line], .ok { a with
        draft := { a.draft with data }
        localeMerged := true }⟩
  else ⟨[.skippedLocale lang e.line], .ok a⟩

/-- Takes in a macro. Its attributes other than the name have no effect. -/
def addMacro (a : Assembly) (e : Element) : Logged Misplacement Assembly :=
  match e.attribute? "name" with
  | none => .fail ⟨.withoutName, e.tag, e.line⟩
  | some name =>
    if name = "" then .fail ⟨.withoutName, e.tag, e.line⟩
    else
      match ({ e with attributes := {} } : Element).toNode.compile with
      | .error m => .fail m
      | .ok program =>
        ⟨[.registeredMacro name], .ok { a with
          draft := { a.draft with macros := a.draft.macros.insert name program } }⟩

def addSection (a : Assembly) (e : Element) (set : Draft → Section → Draft) :
    Logged Misplacement Assembly :=
  e.fragment.bind fun f => ⟨[], .ok { a with draft := set a.draft (.ofFragment f) }⟩

def add (a : Assembly) (e : Element) : Logged Misplacement Assembly :=
  match e.resolve with
  | .error m => .fail m
  | .ok .info =>
    ⟨[], .ok { a with draft := { a.draft with info := some e, noteStyle := isNoteInfo e } }⟩
  | .ok .locale => a.addLocale e
  | .ok .citation => a.addSection e fun d s => { d with citation := s }
  | .ok .bibliography => a.addSection e fun d s => { d with bibliography := s }
  | .ok .macroDefinition => a.addMacro e
  | .ok _ => .fail ⟨.notAllowedInside "style", e.tag, e.line⟩

/-- Takes in children in order, up to the first that breaks a rule. -/
def addAll (a : Assembly) : List Element → Logged Misplacement Assembly
  | [] => ⟨[], .ok a⟩
  | e :: rest => (a.add e).bind fun a' => a'.addAll rest

end Assembly

def assemble (root : Element) (usesYearSuffix : Bool) (language : String) :
    Logged Misplacement Draft :=
  if root.tag = "style" then
    let start : Draft := { styleOptions := root.attributes, usesYearSuffix, language }
    (Assembly.addAll ⟨start, false⟩ root.elements).bind fun a => ⟨[], .ok a.draft⟩
  else .fail ⟨.notDocument "style", root.tag, root.line⟩

end CiteStyle
