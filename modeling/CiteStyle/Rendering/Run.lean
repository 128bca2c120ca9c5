import CiteStyle.Rendering.Output

/-!
Running programs.

Children run before their element, all of them, and the element is then rendered from their
outputs. A `names` element is lazy: substitutes run one after the other until one has something to
show. How single elements are rendered and what a macro call means are parameters of the evaluator;
`Primitives.plainText` renders to plain text, and a macro table gives calls a meaning.
-/

namespace CiteStyle

def attributeOr (attributes : Table String) (name : String) : String :=
  (attributes.get? name).getD ""

/-- A text with the affixes of its element; nothing is put around the empty text. -/
def affix (attributes : Table String) (text : String) : String :=
  if text = "" then "" else attributeOr attributes "prefix" ++ text ++ attributeOr attributes "suffix"

/-- The strongest part that variables played among outputs. -/
def joinedKind (outputs : List Output) : RenderedKind :=
  let kinds := outputs.filterMap Output.kind?
  if kinds.contains .presentVariable then .presentVariable
  else if kinds.contains .emptyVariables then .emptyVariables
  else .textOnly

/-- The outputs of children as one value: what is not empty, with the delimiter between. -/
def joinChildren (attributes : Table String) (outputs : List Output) : Rendered :=
  let texts := (outputs.map Output.text).filter (· != "")
  ⟨some (affix attributes ((attributeOr attributes "delimiter").intercalate texts)),
    joinedKind outputs, false⟩

namespace Context

/-- The value of the variable that an element names. -/
def lookUp (ctx : Context) (attributes : Table String) : Rendered :=
  let text := ((ctx.item.get? (attributeOr attributes "variable")).map ItemValue.text).getD ""
  if text = "" then .empty else ⟨some (affix attributes text), .presentVariable, false⟩

def nameList (ctx : Context) (vars : List String) (settings : NamesSettings) : Rendered :=
  match vars.flatMap fun v => ((ctx.item.get? v).map ItemValue.names).getD [] with
  | [] => .empty
  | names => ⟨some (((settings.name.get? "delimiter").getD ", ").intercalate names),
      .presentVariable, false⟩

/-- The number of names in a value: the pieces between commas, unless the context overrides it. -/
def countNames (ctx : Context) (r : Rendered) : Int :=
  ctx.count.getD (if r.isEmpty then 0 else (r.text.splitOn ", ").length)

end Context

/-- What calling a macro by name gives, for the macros that exist. -/
abbrev Calls := String → Option Run

/-- How single elements are rendered: a generic element from the outputs of its children, with the
steps of a macro that it calls; the names of variables under settings; the number of names in a
value. -/
structure Primitives where
  element (calls : Calls) (ctx : Context) (tag : Tag) (attributes : Table String)
    (children : List Output) : Output × List Event
  nameList (ctx : Context) (vars : List String) (settings : NamesSettings) : Rendered
  countNames (ctx : Context) (value : Rendered) : Int

/-- The value of a `text` element from a macro, a literal value, a variable or a term, and the steps
of the macro. -/
def renderText (calls : Calls) (ctx : Context) (attributes : Table String) :
    Rendered × List Event :=
  match attributes.get? "macro" with
  | some name =>
    match calls name with
    | some ⟨output, trace⟩ =>
      (⟨some (affix attributes output.text), output.kind?.getD .textOnly, false⟩, trace)
    | none => (⟨some "", .emptyVariables, false⟩, [])
  | none =>
    match attributes.get? "value" with
    | some value => (⟨some (affix attributes value), .textOnly, false⟩, [])
    | none =>
      if attributes.contains "variable" then (ctx.lookUp attributes, [])
      else (⟨some (affix attributes (attributeOr attributes "term")), .textOnly, false⟩, [])

/-- The value of a generic element from the outputs of its children, and the steps of a macro that
it calls. -/
def renderElement (calls : Calls) (ctx : Context) (tag : Tag) (attributes : Table String)
    (children : List Output) : Output × List Event :=
  match tag with
  | .text =>
    let (value, trace) := renderText calls ctx attributes
    if attributes.get? "plain" = some "true" then (.plain value.text, trace)
    else (.rendered value, trace)
  | .number => (.rendered (ctx.lookUp attributes), [])
  | .key =>
    match attributes.get? "macro" with
    | some name =>
      match calls name with
      | some ⟨output, trace⟩ => (output, trace)
      | none => (.rendered .empty, [])
    | none => (.rendered (ctx.lookUp attributes), [])
  | _ => (.rendered (joinChildren attributes children), [])

/-- Elements rendered to plain text. -/
def Primitives.plainText : Primitives := ⟨renderElement, Context.nameList, Context.countNames⟩

/-- The number of names in place of the names; no names are nothing to show. -/
def countRun (prims : Primitives) (ctx : Context) (r : Rendered) : Run :=
  let n := prims.countNames ctx r
  let value : Rendered :=
    if n = 0 then ⟨some "", .emptyVariables, r.substituted⟩
    else ⟨some (toString n), r.kind, r.substituted⟩
  ⟨.rendered value, [.count r.text n]⟩

mutual

def Program.run (prims : Primitives) (calls : Calls) (ctx : Context) : Program → Run
  | .text value => ⟨.plain value, []⟩
  | .element tag attributes children =>
    let runs := runAll prims calls ctx children
    let outputs := runs.map Run.output
    let (output, called) := prims.element calls ctx tag attributes outputs
    ⟨output,
      runs.flatMap Run.trace ++ .element tag attributes (outputs.map Output.text) :: called⟩
  | .nameList vars settings =>
    ⟨.rendered (prims.nameList ctx vars settings), [.nameList vars settings]⟩
  | .names vars settings substitutes =>
    if ctx.suppressAuthor then ⟨.rendered .empty, []⟩
    else
      let primary := prims.nameList ctx vars settings
      let (base, tried) :=
        if primary.isEmpty then runFirst prims calls ctx substitutes else (primary, [])
      if settings.countsOnly then
        let counted := countRun prims ctx base
        ⟨counted.output, .nameList vars settings :: tried ++ counted.trace⟩
      else ⟨.rendered base, .nameList vars settings :: tried⟩

def runAll (prims : Primitives) (calls : Calls) (ctx : Context) : List Program → List Run
  | [] => []
  | p :: rest => p.run prims calls ctx :: runAll prims calls ctx rest

/-- Runs substitutes in order up to the first that has something to show. -/
def runFirst (prims : Primitives) (calls : Calls) (ctx : Context) :
    List Program → Rendered × List Event
  | [] => (.empty, [])
  | p :: rest =>
    let tried := p.run prims calls ctx
    match tried.output.asSubstitute? with
    | some value => (value, tried.trace)
    | none =>
      let (value, trace) := runFirst prims calls ctx rest
      (value, tried.trace ++ trace)

end

/-- What calls of the macros in a table mean. A macro has no meaning inside itself, so a chain of
calls ends at the latest when every macro has been entered. -/
def Table.calls (prims : Primitives) (macros : Table Program) (ctx : Context) (name : String) :
    Option Run :=
  match _h : macros.get? name with
  | none => none
  | some p => some (p.run prims ((macros.erase name).calls prims ctx) ctx)
termination_by macros.size
decreasing_by exact Table.size_erase_lt _h

/-- Runs a program that may call macros, with elements rendered by some primitives. -/
def Program.renderWith (prims : Primitives) (macros : Table Program) (ctx : Context) (p : Program) :
    Run :=
  p.run prims (macros.calls prims ctx) ctx

/-- Renders a program that may call macros to plain text. -/
def Program.render (macros : Table Program) (ctx : Context) (p : Program) : Run :=
  p.renderWith .plainText macros ctx

end CiteStyle
