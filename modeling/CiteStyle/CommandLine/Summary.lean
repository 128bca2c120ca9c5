import CiteStyle.Options.Formatting
import CiteStyle.Style.Draft

/-! The report on a style that the command line prints. -/

namespace CiteStyle

/-- A text, or a hyphen if it is missing or empty. -/
def orHyphen (s : Option String) : String :=
  match s with
  | none => "-"
  | some text => if text = "" then "-" else text

def optionLines (heading : String) (options : Table String) : List String :=
  (heading ++ ":") ::
    options.sorted.map fun (k, v) => "  " ++ k ++ " = " ++ Text.Quoted.ofString v

def directions (sorting : Option Sorting) : String :=
  match sorting with
  | none => "-"
  | some s =>
    ", ".intercalate (s.ascending.map fun up => if up then "ascending" else "descending")

def Section.sorting (s : Section) : Option Sorting := s.arrangement.bind Arrangement.sorting

namespace Draft

def summaryLines (d : Draft) (formatting : List (String × FormattingValue)) : List String :=
  [ "title: " ++ orHyphen (d.infoText? "title"),
    "id: " ++ orHyphen (d.infoText? "id"),
    "citation format: " ++ (if d.noteStyle then "note" else "in-text"),
    "locale: " ++ d.language,
    "uses year-suffix variable: " ++ (if d.usesYearSuffix then "yes" else "no") ] ++
  optionLines "style options" d.styleOptions ++
  optionLines "citation options" d.citation.options ++
  optionLines "bibliography options" d.bibliography.options ++
  optionLines "locale options" d.data.options ++
  [ "macros: " ++ orHyphen (some (", ".intercalate (d.macros.sorted.map Prod.fst))),
    "citation sort: " ++ directions d.citation.sorting,
    "bibliography sort: " ++ directions d.bibliography.sorting,
    "terms: " ++ toString (d.data.terms.getD []).length,
    "bibliography formatting:" ] ++
  formatting.map fun (k, v) => "  " ++ k ++ " = " ++ v.shown

/-- The report on a style. A bad formatting option stops it. -/
def summary (d : Draft) : Except BadOption String :=
  (Formatting.parameters d.bibliography.options).map fun formatting =>
    "\n".intercalate (d.summaryLines formatting) ++ "\n"

end Draft

end CiteStyle
