import CiteStyle.Fault
import CiteStyle.Node
import CiteStyle.Rendering.Compile

/-!
Localized terms: reading them, laying newer ones over older ones, and finding the best one.

A term is looked up in the form asked for and then in shorter ways to that form's fallback. In one
form, a term of the gender form asked for comes first, and among several the last one counts.
-/

namespace CiteStyle

/-- Whether a term is meant for one thing or for several. -/
inductive Plurality where
  | single | multiple
  deriving DecidableEq, Repr

def Plurality.toString : Plurality → String
  | single => "single"
  | multiple => "multiple"

def Plurality.ofString? (s : String) : Option Plurality :=
  if s = "single" then some .single else if s = "multiple" then some .multiple else none

/-- A localized form of a term; without number it does not vary. -/
structure Term where
  name : String
  value : String
  form : String := "long"
  number : Option Plurality := none
  gender : Option String := none
  genderForm : Option String := none
  match? : Option String := none
  deriving DecidableEq, Repr

/-- What a newer term must share with an older one to take its place. -/
def Term.key (t : Term) : String × String × Option String × Option String :=
  (t.name, t.form, t.genderForm, t.match?)

/-- The terms of one `term` element with a given name: one for each number it distinguishes, or one
for all. -/
def Element.termForms (e : Element) (name : String) : List Term :=
  let common : Term := {
    name
    value := e.text
    form := (e.attribute? "form").getD "long"
    gender := e.attribute? "gender"
    genderForm := e.attribute? "gender-form"
    match? := e.attribute? "match" }
  let numbered := e.elements.filterMap fun child =>
    (Plurality.ofString? child.tag).map fun p =>
      { common with value := child.text, number := some p }
  if numbered.isEmpty then [common] else numbered

/-- The terms of one child of a `terms` element. -/
def Element.term (e : Element) : Except Misplacement (List Term) :=
  match e.resolve with
  | .error m => .error m
  | .ok tag =>
    if tag = .term then
      match e.attribute? "name" with
      | none => .error ⟨.withoutName, e.tag, e.line⟩
      | some name =>
        if name = "" then .error ⟨.withoutName, e.tag, e.line⟩ else .ok (e.termForms name)
    else .error ⟨.notAllowedInside "terms", e.tag, e.line⟩

def readTerms : List Element → Except Misplacement (List Term)
  | [] => .ok []
  | e :: rest =>
    match e.term with
    | .error m => .error m
    | .ok here =>
      match readTerms rest with
      | .error m => .error m
      | .ok more => .ok (here ++ more)

/-- Lays newer terms over older ones: an older term stays, in its order, unless a newer one has its
key. -/
def mergeTerms (newer older : List Term) : List Term :=
  older.filter (fun t => !(newer.map Term.key).contains t.key) ++ newer

def fallbackForm? (form : String) : Option String :=
  if form = "verb-short" then some "verb"
  else if form = "verb" then some "long"
  else if form = "symbol" then some "short"
  else if form = "short" then some "long"
  else none

def formChain (form : String) : List String :=
  let second := fallbackForm? form
  let third := second.bind fallbackForm?
  form :: (second.toList ++ third.toList)

def findForm? (terms : List Term) (name form : String) (number : Option Plurality)
    (genderForm : Option String) : Option Term :=
  let candidates := terms.filter fun t =>
    t.name = name && t.form = form && (t.number.isNone || t.number = number)
  let preferred := candidates.filter fun t => t.genderForm = genderForm
  preferred.getLast?.or candidates.getLast?

def findTerm? (terms : List Term) (name form : String) (number : Option Plurality)
    (genderForm : Option String) : Option Term :=
  (formChain form).findSome? fun f => findForm? terms name f number genderForm

/-- No form falls back further than twice, so the chain of forms is complete. -/
theorem fallbackForm?_thrice (form : String) :
    ((fallbackForm? form).bind fallbackForm?).bind fallbackForm? = none := by
  unfold fallbackForm?
  split
  · decide +kernel
  · split
    · decide +kernel
    · split
      · decide +kernel
      · split <;> decide +kernel

end CiteStyle
