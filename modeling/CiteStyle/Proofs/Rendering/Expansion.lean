import CiteStyle.Proofs.Rendering.Position
import CiteStyle.Proofs.Style.Assembly

/-! # Macro expansion

A `text` element that does nothing but call a macro, and a group of the children of that macro, have
the same output (`macroCall_replaces`). As rendering is a congruence, the group may take the place
of the call in any compiled position of a tree (`macro_expansion`). -/

namespace CiteStyle

def macroCall (name : String) (line : Int) : Element :=
  ⟨"text", .ofList [("macro", name)], [], line⟩

/-- The children of a macro, grouped. -/
def Element.macroGroup (m : Element) (line : Int) : Element := ⟨"group", {}, m.children, line⟩

theorem affix_of_no_affixes {attributes : Table String} (hp : attributes.get? "prefix" = none)
    (hs : attributes.get? "suffix" = none) (text : String) : affix attributes text = text := by
  rw [affix, attributeOr, hp, attributeOr, hs]
  split
  · next h => exact h.symm
  · simp

theorem lastMacro_mem {name : String} {es : List Element} {m : Element}
    (h : lastMacro name es = some m) : m ∈ es ∧ m.isMacroNamed name = true :=
  List.mem_filter.mp (List.mem_of_getLast? h)

/-- What the last macro of a name is registered with. -/
theorem exists_macro_programs {root : Element} {flag : Bool} {lang : String} {d : Draft}
    (hd : (assemble root flag lang).result = .ok d) {name : String} {m : Element}
    (hm : lastMacro name root.elements = some m) :
    ∃ ps, List.Forall₂ (fun n q => n.compile = .ok q) m.children ps ∧
      d.macros.get? name = some (.element .macroDefinition {} ps) := by
  have hs := (assemble_madeOf hd).macros name
  rw [hm] at hs
  obtain ⟨q, hq, hget⟩ := hs
  have ht : m.tag = "macro" :=
    beq_iff_eq.mp (Bool.and_eq_true_iff.mp (lastMacro_mem hm).2).1
  obtain ⟨known, ps, hk, -, hps, rfl⟩ :=
    (compile_generic_eq_ok_iff (by rw [ht]; decide)).mp hq
  obtain rfl : known = .macroDefinition :=
    Option.some.inj ((Tag.ofString?_eq_some_iff.mpr (hk.trans ht)).symm.trans rfl)
  exact ⟨ps, hps, hget⟩

section

variable {prims : Primitives} (hp : prims.Macros) {macros : Table Program} (ha : Acyclic macros)
  {name : String} {ps : List Program}
  (hm : macros.get? name = some (.element .macroDefinition {} ps))
include hp ha hm

/-- The value of a call is that of a group with the programs of the macro. -/
theorem output_macroCall :
    SameOutput prims (macros.calls prims) (.element .text (.ofList [("macro", name)]) [])
      (.element .group {} ps) := by
  intro ctx
  let outputs := ps.map (·.output prims (macros.calls prims ctx) ctx)
  have hcall : (macros.calls prims ctx name).map Run.output =
      some (.rendered (joinChildren {} outputs)) := by
    rw [calls_output_of_acyclic hp ctx ha hm, output_element, hp.definition_joins]
  have hname : (Table.ofList [("macro", name)]).get? "macro" = some name := rfl
  have htext := hp.text_call ctx [] hname rfl hcall
  rw [affix_of_no_affixes rfl rfl] at htext
  rw [output_element, output_element, hp.group_joins, List.map_nil, htext]
  rfl

/-- The group may replace the call. -/
theorem macroCall_replaces {m : Element} (line line' : Int)
    (hps : List.Forall₂ (fun n q => n.compile = .ok q) m.children ps) :
    (macroCall name line).Replaces prims (macros.calls prims) (m.macroGroup line') where
  full := rfl
  full' := rfl
  compile p h := by
    have hg : (m.macroGroup line').toNode.compile = .ok (.element .group {} ps) :=
      (compile_generic_eq_ok_iff (by decide : "group" ≠ "names")).mpr
        ⟨.group, ps, rfl, rfl, hps, rfl⟩
    have ht : (macroCall name line).toNode.compile =
        .ok (.element .text (.ofList [("macro", name)]) []) :=
      (compile_generic_eq_ok_iff (by decide : "text" ≠ "names")).mpr
        ⟨.text, [], rfl, rfl, .nil, rfl⟩
    obtain rfl := Except.ok.inj (h.symm.trans ht)
    exact ⟨_, hg, output_macroCall hp ha hm⟩

end

/-- **Macro expansion preserves meaning.** With the macros of a style that do not call themselves, a
call may give way to a group of the children of its macro in any compiled position of a tree: the
tree still compiles, and its value is the same in every context. -/
theorem macro_expansion {prims : Primitives} (hp : prims.Macros) {root : Element} {flag : Bool}
    {lang : String} {d : Draft} (hd : (assemble root flag lang).result = .ok d)
    (ha : Acyclic d.macros) {name : String} {m : Element}
    (hm : lastMacro name root.elements = some m) (fs : List Frame) (line line' : Int) {p : Program}
    (hc : (fillAll fs (macroCall name line)).toNode.compile = .ok p) :
    ∃ p', (fillAll fs (m.macroGroup line')).toNode.compile = .ok p' ∧
      ∀ ctx, (p'.renderWith prims d.macros ctx).output =
        (p.renderWith prims d.macros ctx).output := by
  obtain ⟨ps, hps, hget⟩ := exists_macro_programs hd hm
  exact (fillAll_replaces (macroCall_replaces hp ha hget line line' hps) fs).compile p hc

/-- A style whose macro `title` calls `short`. -/
def titleRoot : Element := ⟨"style", {}, [
  .element "macro" (.ofList [("name", "short")])
    [.element "text" (.ofList [("variable", "title-short")]) [] 2] 2,
  .element "macro" (.ofList [("name", "title")])
    [(macroCall "short" 3).toNode, .element "text" (.ofList [("variable", "title")]) [] 3] 3], 1⟩

def titleMacros : List (String × Program) := [
  ("short", .element .macroDefinition {}
    [.element .text (.ofList [("variable", "title-short")]) []]),
  ("title", .element .macroDefinition {}
    [.element .text (.ofList [("macro", "short")]) [],
      .element .text (.ofList [("variable", "title")]) []])]

/-- Names that give way to the title. -/
def titleForAuthor : List Frame :=
  [.substitute (.ofList [("variable", "author")]) [.element "name" {} [] 4] [] 4 {} [] [] 4]

theorem titleForAuthor_expansion :
    ∃ d m p p', (assemble titleRoot false "en-US").result = .ok d ∧ Acyclic d.macros ∧
      lastMacro "title" titleRoot.elements = some m ∧ m.children.length = 2 ∧
      (fillAll titleForAuthor (macroCall "title" 4)).toNode.compile = .ok p ∧
      (fillAll titleForAuthor (m.macroGroup 4)).toNode.compile = .ok p' ∧
      ∀ ctx, (p'.renderWith .plainText d.macros ctx).output =
        (p.renderWith .plainText d.macros ctx).output := by
  obtain ⟨d, hd, hmacros⟩ : ∃ d, (assemble titleRoot false "en-US").result = .ok d ∧
      d.macros.entries = titleMacros := ⟨_, rfl, rfl⟩
  have ha : Acyclic d.macros := by
    refine acyclic_of_rank (fun name => if name = "title" then 1 else 0) fun name p hm => ?_
    rw [Table.get?, hmacros, titleMacros, Table.lookup_cons_eq, Table.lookup_cons_eq] at hm
    split at hm
    · obtain rfl := Option.some.inj hm
      intro next hn
      exact absurd hn List.not_mem_nil
    · split at hm
      · next hname =>
        obtain rfl := Option.some.inj hm
        intro next hn
        obtain rfl : next = "short" := List.mem_singleton.mp hn
        rw [if_pos hname]
        decide
      · cases hm
  obtain ⟨m, hm, hlen⟩ : ∃ m, lastMacro "title" titleRoot.elements = some m ∧
      m.children.length = 2 := ⟨_, rfl, rfl⟩
  obtain ⟨p, hp⟩ : ∃ p, (fillAll titleForAuthor (macroCall "title" 4)).toNode.compile = .ok p :=
    ⟨_, rfl⟩
  obtain ⟨p', hp', hsame⟩ := macro_expansion plainText_macros hd ha hm titleForAuthor 4 4 hp
  exact ⟨d, m, p, p', hd, ha, hm, hlen, hp, hp', hsame⟩

end CiteStyle
