import CiteStyle.Table

/-!
Option tables and their defaults.

Options belong to the whole style, to its citations, to its bibliography or to its locale. What is
not set gets its default, and then what depends on it: citations that collapse need delimiters,
some of them taken from the layout.
-/

namespace CiteStyle

structure OptionTables where
  style : Table String := {}
  citation : Table String := {}
  bibliography : Table String := {}
  locale : Table String := {}
  deriving DecidableEq

namespace OptionTables

def styleDefaults : List (String × String) := [
  ("initialize-with-hyphen", "true"),
  ("demote-non-dropping-particle", "display-and-sort")]

def citationDefaults : List (String × String) := [
  ("near-note-distance", "5"),
  ("disambiguate-add-names", "false"),
  ("disambiguate-add-givenname", "false"),
  ("disambiguate-add-year-suffix", "false"),
  ("givenname-disambiguation-rule", "by-cite")]

def bibliographyDefaults : List (String × String) := [
  ("hanging-indent", "false"),
  ("line-spacing", "1"),
  ("entry-spacing", "1")]

def localeDefaults : List (String × String) := [
  ("punctuation-in-quote", "false"),
  ("limit-day-ordinals-to-day-1", "false")]

/-- What the way of collapsing citations asks for: a delimiter between groups, and, where the layout
has a delimiter, the same after a collapsed group and between year suffixes. -/
def collapseDefaults (collapse : Option String) (layoutDelimiter : Option String) :
    List (String × String) :=
  match collapse with
  | none => []
  | some way =>
    if way = "" || way = "citation-number" then []
    else
      ("cite-group-delimiter", ", ") ::
        match layoutDelimiter with
        | none => []
        | some delimiter =>
          ("after-collapse-delimiter", delimiter) ::
            if way = "year-suffix" || way = "year-suffix-ranged" then
              [("year-suffix-delimiter", delimiter)]
            else []

def completeCitation (layoutDelimiter : Option String) (citation : Table String) : Table String :=
  let filled := citation.addMissing citationDefaults
  filled.addMissing (collapseDefaults (filled.get? "collapse") layoutDelimiter)

/-- The options with all that is missing, for a citation layout with the given delimiter. -/
def complete (layoutDelimiter : Option String) (t : OptionTables) : OptionTables where
  style := t.style.addMissing styleDefaults
  citation := completeCitation layoutDelimiter t.citation
  bibliography := t.bibliography.addMissing bibliographyDefaults
  locale := t.locale.addMissing localeDefaults

end OptionTables

end CiteStyle
