import CiteStyle.Rendering.Run
import CiteStyle.Style.Draft

/-!
Finished styles.

A finished style has both citations and bibliography. It is made from a draft that was put together
for the requested language, filled in from a separate locale if there is one, and completed by the
option defaults.
-/

namespace CiteStyle

structure Style where
  info : Option Element
  styleOptions : Table String
  citation : Fragment
  bibliography : Fragment
  data : LocaleData
  noteStyle : Bool
  usesYearSuffix : Bool
  macros : Table Program
  language : String

def Style.draft (s : Style) : Draft where
  info := s.info
  styleOptions := s.styleOptions
  citation := .ofFragment s.citation
  bibliography := .ofFragment s.bibliography
  data := s.data
  noteStyle := s.noteStyle
  usesYearSuffix := s.usesYearSuffix
  macros := s.macros
  language := s.language

def Draft.finish (d : Draft) (root : Element) : Except Misplacement Style :=
  match d.citation.arrangement, d.bibliography.arrangement with
  | some citation, some bibliography =>
    .ok {
      info := d.info
      styleOptions := d.styleOptions
      citation := ⟨d.citation.options, citation⟩
      bibliography := ⟨d.bibliography.options, bibliography⟩
      data := d.data
      noteStyle := d.noteStyle
      usesYearSuffix := d.usesYearSuffix
      macros := d.macros
      language := d.language }
  | none, _ => .error ⟨.noPart "citation", root.tag, root.line⟩
  | some _, none => .error ⟨.noPart "bibliography", root.tag, root.line⟩

def firstNonempty (choices : List (Option String)) (default : String) : String :=
  ((choices.filterMap id).find? (· != "")).getD default

/-- The language of a style: the requested one, else its own default, else the general one. -/
def requestedLanguage (requested : Option String) (root : Element) : String :=
  firstNonempty [requested, root.attribute? "default-locale"] defaultLanguage

def buildStyle (root : Element) (usesYearSuffix : Bool) (requested : Option String)
    (external : Option Locale) : Logged Misplacement Style :=
  (assemble root usesYearSuffix (requestedLanguage requested root)).bind fun draft =>
    let localized := (external.map draft.localize).getD draft
    .ofExcept (localized.complete.finish root)

/-- Builds the style of a document. Every failure is shown in the document unless it belongs to
another one. -/
def Document.style (d : Document) (requested : Option String) (external : Option Locale) :
    Logged Failure Style :=
  ((Logged.ofExcept d.parse).bind fun root =>
    (buildStyle root d.usesYearSuffix requested external).mapError fun m => ⟨.misplaced m, ""⟩)
    |>.mapError (·.shownIn d.source)

namespace Style

def render (s : Style) (ctx : Context) (p : Program) : Run := p.render s.macros ctx

end Style

end CiteStyle
