import CiteStyle.Document
import CiteStyle.Language
import CiteStyle.Log
import CiteStyle.Term

/-!
Locale data: options, two date formats and terms.

Data grow by merging `locale` elements. Options and date formats keep what came first, terms what
came last. Each child is merged by itself, so a child that breaks a rule leaves what the children
before it brought.
-/

namespace CiteStyle

structure DateFormat where
  attributes : Table String
  parts : Table (Table String)
  deriving DecidableEq

structure LocaleData where
  options : Table String := {}
  dateText : Option DateFormat := none
  dateNumeric : Option DateFormat := none
  terms : Option (List Term) := none
  deriving DecidableEq

/-- A locale of its own, with the language it is for. -/
structure Locale where
  lang : Option String := none
  data : LocaleData := {}
  deriving DecidableEq

def Element.dateFormat (e : Element) : DateFormat :=
  let parts := e.elements.filter (·.tag == "date-part")
  ⟨e.attributes, .ofList (parts.map fun p => ((p.attribute? "name").getD "", p.attributes))⟩

namespace LocaleData

/-- The data with a date format, unless there is one of its form. -/
def addDate (d : LocaleData) (e : Element) : LocaleData :=
  if e.attribute? "form" = some "text" then
    { d with dateText := d.dateText.or (some e.dateFormat) }
  else { d with dateNumeric := d.dateNumeric.or (some e.dateFormat) }

/-- The data with newer terms. -/
def addTerms (d : LocaleData) (newer : List Term) : LocaleData :=
  { d with terms := some (mergeTerms newer (d.terms.getD [])) }

def mergeChild (d : LocaleData) (e : Element) : Except Misplacement LocaleData :=
  match e.resolve with
  | .error m => .error m
  | .ok .styleOptions => .ok { d with options := d.options.addMissing e.attributes.entries }
  | .ok .date => .ok (d.addDate e)
  | .ok .terms => (readTerms e.elements).map d.addTerms
  | .ok .info => .ok d
  | .ok _ => .error ⟨.notAllowedInside "locale", e.tag, e.line⟩

/-- Merges children up to the first that breaks a rule, and gives the violation if there is one. -/
def mergeAll (d : LocaleData) : List Element → LocaleData × Option Misplacement
  | [] => (d, none)
  | e :: rest =>
    match d.mergeChild e with
    | .error m => (d, some m)
    | .ok d' => d'.mergeAll rest

def merge (d : LocaleData) (locale : Element) : LocaleData × Option Misplacement :=
  d.mergeAll locale.elements

/-- Fills in from another locale what is not settled yet; terms that exist come before those. -/
def fillFrom (d other : LocaleData) : LocaleData where
  options := d.options.addMissing other.options.entries
  dateText := d.dateText.or other.dateText
  dateNumeric := d.dateNumeric.or other.dateNumeric
  terms :=
    match other.terms with
    | none => d.terms
    | some older =>
      match d.terms with
      | none => some older
      | some newer => some (mergeTerms newer older)

end LocaleData

/-- The locale that a document describes. A wrong root is shown in the document; a violation further
down is left without source. -/
def Document.locale (d : Document) : Logged Failure Locale :=
  match d.parse with
  | .error f => .fail f
  | .ok root =>
    if root.tag = "locale" then
      match ({} : LocaleData).merge root with
      | (_, some m) => .fail ⟨.misplaced m, ""⟩
      | (data, none) =>
        let lang := root.attribute? "lang"
        ⟨[.loadedLocale lang (data.terms.getD []).length], .ok ⟨lang, data⟩⟩
    else .fail ⟨.misplaced ⟨.notDocument "locale", root.tag, root.line⟩, d.source⟩

end CiteStyle
