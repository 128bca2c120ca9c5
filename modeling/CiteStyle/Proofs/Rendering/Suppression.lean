import CiteStyle.Proofs.Rendering.Calls
import CiteStyle.Proofs.Rendering.Grammar
import CiteStyle.Proofs.Tree

/-! # Rendering without the author

With the author left out, `names` elements show nothing and take no step. What remains looks at the
item only where `text`, `number` and `key` elements look a variable up, so items that agree on these
variables cannot be told apart by what is rendered, nor by the steps on the way
(`suppressed_noninterference`). -/

namespace CiteStyle

/-! ## What rendering looks at -/

def lookUpTags : List Tag := [.text, .number, .key]

/-- What rendering relies on: an element looks at the item only where it looks up the variable that
it names, and takes no other steps than those of a macro that it calls. -/
structure Primitives.LooksUpOnly (prims : Primitives) : Prop where
  element_congr (calls : Calls) {ctx ctx' : Context} {tag : Tag} {attributes : Table String}
    (children : List Output)
    (h : tag ∈ lookUpTags → ctx.item.get? (attributeOr attributes "variable") =
      ctx'.item.get? (attributeOr attributes "variable")) :
    prims.element calls ctx tag attributes children =
      prims.element calls ctx' tag attributes children
  element_steps {calls : Calls} {ctx : Context} {tag : Tag} {attributes : Table String}
    {children : List Output} {event : Event}
    (h : event ∈ (prims.element calls ctx tag attributes children).2) :
    ∃ name run, calledName? tag attributes = some name ∧ calls name = some run ∧
      event ∈ run.trace

theorem lookUp_congr {ctx ctx' : Context} {attributes : Table String}
    (h : ctx.item.get? (attributeOr attributes "variable") =
      ctx'.item.get? (attributeOr attributes "variable")) :
    ctx.lookUp attributes = ctx'.lookUp attributes := by
  rw [Context.lookUp, Context.lookUp, h]

theorem renderText_lookUp (calls : Calls) {ctx ctx' : Context} {attributes : Table String}
    (h : ctx.lookUp attributes = ctx'.lookUp attributes) :
    renderText calls ctx attributes = renderText calls ctx' attributes := by
  rw [renderText, renderText, h]

theorem renderText_steps {calls : Calls} {ctx : Context} {attributes : Table String} {event : Event}
    (h : event ∈ (renderText calls ctx attributes).2) :
    ∃ name run, attributes.get? "macro" = some name ∧ calls name = some run ∧
      event ∈ run.trace := by
  unfold renderText at h
  split at h
  · next name hm =>
    split at h
    · next hc => exact ⟨name, _, hm, hc, h⟩
    · cases h
  · split at h
    · cases h
    · split at h <;> cases h

/-- Rendering to plain text looks at the item as it should. -/
theorem plainText_looksUpOnly : Primitives.plainText.LooksUpOnly where
  element_congr calls ctx ctx' tag attributes children h := by
    rw [Primitives.plainText]
    cases tag with
    | text =>
      have ht := renderText_lookUp calls (lookUp_congr (h (by decide)))
      simp only [renderElement, ht]
    | number | key => simp only [renderElement, lookUp_congr (h (by decide))]
    | _ => rfl
  element_steps {calls ctx tag attributes children event} h := by
    rw [Primitives.plainText] at h
    cases tag with
    | text =>
      have ht : event ∈ (renderText calls ctx attributes).2 := by
        simp only [renderElement] at h
        split at h <;> exact h
      exact renderText_steps ht
    | key =>
      simp only [renderElement] at h
      split at h
      · next name hm =>
        split at h
        · next hc => exact ⟨name, _, hm, hc, h⟩
        · cases h
      · cases h
    | _ => cases h

/-! ## Programs with the author left out -/

/-- No names are rendered and none are counted. -/
def Nameless (trace : List Event) : Prop :=
  ∀ event ∈ trace, ∃ tag attributes texts, event = .element tag attributes texts

/-- A program runs alike in two contexts and leaves names alone. -/
structure RunsAlike (prims : Primitives) (calls : Calls) (ctx ctx' : Context) (p : Program) :
    Prop where
  run_eq : p.run prims calls ctx = p.run prims calls ctx'
  nameless : Nameless (p.run prims calls ctx).trace

namespace RunsAlike

variable {prims : Primitives} {calls : Calls} {ctx ctx' : Context}

theorem compiled_text {value : String} {p : Program} (h : (Node.text value).compile = .ok p) :
    RunsAlike prims calls ctx ctx' p := by
  rw [Node.compile] at h
  obtain rfl := Except.ok.inj h
  constructor
  case run_eq => rw [Program.run, Program.run]
  case nameless => rw [Program.run]; exact fun event he => absurd he List.not_mem_nil

theorem names (hs : ctx.suppressAuthor = true) (hs' : ctx'.suppressAuthor = true)
    (vars : List String) (settings : NamesSettings) (subs : List Program) :
    RunsAlike prims calls ctx ctx' (.names vars settings subs) where
  run_eq := by rw [Program.run, Program.run, if_pos hs, if_pos hs']
  nameless := by
    rw [Program.run, if_pos hs]
    exact fun event he => absurd he List.not_mem_nil

theorem element (hp : prims.LooksUpOnly)
    (hc : ∀ name run, calls name = some run → Nameless run.trace) {tag : Tag}
    {attributes : Table String} {ps : List Program}
    (hl : tag ∈ lookUpTags → ctx.item.get? (attributeOr attributes "variable") =
      ctx'.item.get? (attributeOr attributes "variable"))
    (h : ∀ p ∈ ps, RunsAlike prims calls ctx ctx' p) :
    RunsAlike prims calls ctx ctx' (.element tag attributes ps) where
  run_eq := by
    have hps : ps.map (·.run prims calls ctx) = ps.map (·.run prims calls ctx') :=
      List.map_congr_left fun p hm => (h p hm).run_eq
    rw [Program.run, Program.run, runAll_eq_map, runAll_eq_map, hps]
    simp only [hp.element_congr calls _ hl]
  nameless := by
    rw [Program.run, runAll_eq_map]
    intro event he
    rcases List.mem_append.mp he with hchild | he
    · obtain ⟨run, hrun, he⟩ := List.mem_flatMap.mp hchild
      obtain ⟨p, hm, rfl⟩ := List.mem_map.mp hrun
      exact (h p hm).nameless event he
    · rcases List.mem_cons.mp he with rfl | hcalled
      · exact ⟨_, _, _, rfl⟩
      · obtain ⟨name, run, -, hrun, he⟩ := hp.element_steps hcalled
        exact hc name run hrun event he

end RunsAlike

/-! ## Trees with the author left out -/

/-- The variable that a `text`, `number` or `key` element names. -/
def Element.lookedUp (e : Element) : List String :=
  if e.tag ∈ lookUpTags.map Tag.toString then (e.attribute? "variable").toList else []

/-- Two contexts have the same values for every variable that a tree looks up, and for the one
without a name. -/
structure SameLookUps (n : Node) (ctx ctx' : Context) : Prop where
  unnamed : ctx.item.get? "" = ctx'.item.get? ""
  named : ∀ e, n.Contains e → ∀ name ∈ e.lookedUp, ctx.item.get? name = ctx'.item.get? name

theorem SameLookUps.child {ctx ctx' : Context} {e : Element} (h : SameLookUps e.toNode ctx ctx')
    {c : Node} (hc : c ∈ e.children) : SameLookUps c ctx ctx' where
  unnamed := h.unnamed
  named d hd := h.named d (.inside hc hd)

theorem SameLookUps.lookUp {ctx ctx' : Context} {e : Element} (h : SameLookUps e.toNode ctx ctx')
    {t : Tag} (ht : t.toString = e.tag) (hl : t ∈ lookUpTags) :
    ctx.item.get? (attributeOr e.attributes "variable") =
      ctx'.item.get? (attributeOr e.attributes "variable") := by
  have hmem : e.tag ∈ lookUpTags.map Tag.toString := List.mem_map.mpr ⟨t, hl, ht⟩
  rw [attributeOr]
  cases hv : e.attributes.get? "variable" with
  | none => exact h.unnamed
  | some name =>
    refine h.named e (.top e) name ?_
    rw [Element.lookedUp, if_pos hmem, Element.attribute?, hv]
    exact List.mem_singleton_self name

/-- Macros that come from compiled trees. -/
def Registers (bodies : Table Node) (macros : Table Program) : Prop :=
  ∀ name p, macros.get? name = some p →
    ∃ body, bodies.get? name = some body ∧ body.compile = .ok p

theorem Registers.erase {bodies : Table Node} {macros : Table Program} (h : Registers bodies macros)
    (name : String) : Registers bodies (macros.erase name) := by
  intro other p hp
  rw [Table.get?_erase] at hp
  split at hp
  · cases hp
  · exact h other p hp

section

variable {prims : Primitives} (hp : prims.LooksUpOnly) {ctx ctx' : Context}
  (hs : ctx.suppressAuthor = true) (hs' : ctx'.suppressAuthor = true)
include hp hs hs'

theorem element_runsAlike {calls : Calls}
    (hc : ∀ name run, calls name = some run → Nameless run.trace) {e : Element} {p : Program}
    (h : e.toNode.compile = .ok p) (hl : SameLookUps e.toNode ctx ctx') :
    RunsAlike prims calls ctx ctx' p := by
  induction e using Element.induction generalizing p with
  | h e ih =>
    by_cases ht : e.tag = "names"
    · -- nothing inside is run, so nothing need be known of it
      obtain ⟨-, subs, -, rfl⟩ := (compile_names_eq_ok_iff ht).mp h
      exact .names hs hs' _ _ _
    · obtain ⟨t, ps, hte, -, hps, rfl⟩ := (compile_generic_eq_ok_iff ht).mp h
      refine .element hp hc (hl.lookUp hte) fun q hq => ?_
      obtain ⟨c, hm, hcq⟩ := exists_of_forall₂_right hps q hq
      have hlc := hl.child hm
      cases c using Node.textOrElement with
      | text value => exact .compiled_text hcq
      | element d => exact ih _ hm d (.top d) hcq hlc

theorem node_runsAlike {calls : Calls}
    (hc : ∀ name run, calls name = some run → Nameless run.trace) {n : Node} {p : Program}
    (h : n.compile = .ok p) (hl : SameLookUps n ctx ctx') : RunsAlike prims calls ctx ctx' p := by
  cases n using Node.textOrElement with
  | text value => exact .compiled_text h
  | element e => exact element_runsAlike hp hs hs' hc h hl

theorem calls_alike {bodies : Table Node} {macros : Table Program} (hm : Registers bodies macros)
    (hl : ∀ name body, bodies.get? name = some body → SameLookUps body ctx ctx') (name : String) :
    macros.calls prims ctx name = macros.calls prims ctx' name ∧
      ∀ run, macros.calls prims ctx name = some run → Nameless run.trace := by
  -- on the number of macros: entering a macro erases it
  induction hsize : macros.size using Nat.strongRecOn generalizing macros name with
  | _ size ih =>
    subst hsize
    rw [calls_eq_map, calls_eq_map]
    cases hq : macros.get? name with
    | none => simp
    | some p =>
      obtain ⟨body, hb, hc⟩ := hm name p hq
      have hrest (next : String) := ih _ (Table.size_erase_lt hq) (hm.erase name) next rfl
      have heq : (macros.erase name).calls prims ctx = (macros.erase name).calls prims ctx' :=
        funext fun next => (hrest next).1
      have halike := node_runsAlike hp hs hs' (fun next => (hrest next).2) hc (hl name body hb)
      rw [← heq]
      simp only [Option.map_some, Option.some.injEq, forall_eq']
      exact ⟨halike.run_eq, halike.nameless⟩

end

/-- **What the author is called does not show.** Two contexts that both leave the author out, and
agree on the variables that `text`, `number` and `key` elements of a tree and of its macros name, and
on the unnamed one, give the same run: the same output after the same steps, none of which renders
or counts names. Whether macros call themselves does not matter. -/
theorem suppressed_noninterference {prims : Primitives} (hp : prims.LooksUpOnly)
    {bodies : Table Node} {macros : Table Program} (hm : Registers bodies macros) {n : Node}
    {p : Program} (hc : n.compile = .ok p) {ctx ctx' : Context} (hs : ctx.suppressAuthor = true)
    (hs' : ctx'.suppressAuthor = true) (hn : SameLookUps n ctx ctx')
    (hb : ∀ name body, bodies.get? name = some body → SameLookUps body ctx ctx') :
    p.renderWith prims macros ctx = p.renderWith prims macros ctx' ∧
      Nameless (p.renderWith prims macros ctx).trace := by
  have hcalls := calls_alike hp hs hs' hm hb
  have heq : macros.calls prims ctx = macros.calls prims ctx' := funext fun name => (hcalls name).1
  have halike := node_runsAlike hp hs hs' (fun name => (hcalls name).2) hc hn
  rw [Program.renderWith, Program.renderWith, ← heq]
  exact ⟨halike.run_eq, halike.nameless⟩

def titleBesideNames : Element := ⟨"group", {}, [
  .element "text" (.ofList [("variable", "title")]) [] 1,
  .element "names" (.ofList [("variable", "author")]) [
    .element "name" {} [] 2,
    .element "substitute" {} [.element "text" (.ofList [("macro", "editors")]) [] 2] 2] 2,
  .element "text" (.ofList [("macro", "editors")]) [] 3], 1⟩

def editorsMacro : Element := ⟨"macro", {}, [
  .element "names" (.ofList [("variable", "editor")]) [.element "label" {} [] 4] 4], 4⟩

def titledItem (author editor : String) : Context where
  item := .ofList [("title", .one "T"), ("author", .one author), ("editor", .one editor)]
  suppressAuthor := true

theorem titleBesideNames_noninterference :
    ∃ p q, titleBesideNames.toNode.compile = .ok p ∧ editorsMacro.toNode.compile = .ok q ∧
      SameLookUps titleBesideNames.toNode (titledItem "A" "") (titledItem "" "B") ∧
      p.renderWith .plainText (.ofList [("editors", q)]) (titledItem "A" "") =
        p.renderWith .plainText (.ofList [("editors", q)]) (titledItem "" "B") ∧
      Nameless (p.renderWith .plainText (.ofList [("editors", q)]) (titledItem "A" "")).trace := by
  obtain ⟨p, hp⟩ : ∃ p, titleBesideNames.toNode.compile = .ok p := ⟨_, rfl⟩
  obtain ⟨q, hq⟩ : ∃ q, editorsMacro.toNode.compile = .ok q := ⟨_, rfl⟩
  have hget {α : Type} (v : α) (name : String) :
      (Table.ofList [("editors", v)]).get? name = if name = "editors" then some v else none :=
    Table.get?_insert _ _ _ _
  have hm : Registers (.ofList [("editors", editorsMacro.toNode)]) (.ofList [("editors", q)]) := by
    intro name r hr
    rw [hget] at hr ⊢
    split at hr
    · next hname => exact ⟨_, if_pos hname, Option.some.inj hr ▸ hq⟩
    · cases hr
  have hsame {n : Node} (h : ∀ e ∈ n.allElements, ∀ name ∈ e.lookedUp, name = "title") :
      SameLookUps n (titledItem "A" "") (titledItem "" "B") := by
    refine ⟨rfl, fun e he name hname => ?_⟩
    rw [h e (mem_allElements_of_contains he) name hname]
    rfl
  have htree := hsame (n := titleBesideNames.toNode) (by decide +kernel)
  have hmacro := hsame (n := editorsMacro.toNode) (by decide +kernel)
  have hbodies : ∀ name body,
      (Table.ofList [("editors", editorsMacro.toNode)]).get? name = some body →
      SameLookUps body (titledItem "A" "") (titledItem "" "B") := by
    intro name body hb
    rw [hget] at hb
    split at hb
    · exact Option.some.inj hb ▸ hmacro
    · cases hb
  have h := suppressed_noninterference plainText_looksUpOnly hm hp rfl rfl htree hbodies
  exact ⟨p, q, hp, hq, htree, h⟩

end CiteStyle
