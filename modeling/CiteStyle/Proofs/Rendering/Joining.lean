import CiteStyle.Proofs.Rendering.Calls
import CiteStyle.Proofs.Rendering.Division

/-! # Rendering trees that differ in how texts are divided

An element that joins the outputs of its children cannot tell how these are divided if it puts
nothing between them (`Primitives.Joins`). Where divisions respect that, programs and macros that
differ in divisions alone give the same outputs in every context (`renderWith_redivided`). -/

namespace CiteStyle

/-- A division shows in no output: texts that are divided otherwise are joined to the same text,
with nothing between them. -/
def Division.KeepsOutputs (D : Division) : Prop :=
  ∀ delimiter us ts, D (.rendered (some delimiter)) us ts →
    us = ts ∨ delimiter = "" ∧ String.join us = String.join ts

/-! ## Outputs side by side -/

/-- Outputs that are joined to the same value if nothing is put between them. -/
structure JoinedAlike (os os' : List Output) : Prop where
  kinds : os'.filterMap Output.kind? = os.filterMap Output.kind?
  substitutes : os'.filterMap Output.asSubstitute? = os.filterMap Output.asSubstitute?
  texts : String.join (os'.map Output.text) = String.join (os.map Output.text)

/-- Outputs that are the same, or joined to the same value if nothing is put between them. -/
def SameJoined (delimiter : String) (os os' : List Output) : Prop :=
  os' = os ∨ delimiter = "" ∧ JoinedAlike os os'

theorem JoinedAlike.refl (os : List Output) : JoinedAlike os os := ⟨rfl, rfl, rfl⟩

theorem JoinedAlike.append {os os' ps ps' : List Output} (h : JoinedAlike os os')
    (hp : JoinedAlike ps ps') : JoinedAlike (os ++ ps) (os' ++ ps') where
  kinds := by rw [List.filterMap_append, List.filterMap_append, h.kinds, hp.kinds]
  substitutes := by
    rw [List.filterMap_append, List.filterMap_append, h.substitutes, hp.substitutes]
  texts := by
    rw [List.map_append, List.map_append, String.join_append, String.join_append, h.texts,
      hp.texts]

namespace SameJoined

variable {delimiter : String} {os os' ps ps' : List Output}

theorem joinedAlike (h : SameJoined delimiter os os') : JoinedAlike os os' := by
  obtain rfl | ⟨-, h⟩ := h
  · exact .refl _
  · exact h

theorem append (h : SameJoined delimiter os os') (hp : SameJoined delimiter ps ps') :
    SameJoined delimiter (os ++ ps) (os' ++ ps') := by
  by_cases hd : delimiter = ""
  · exact .inr ⟨hd, h.joinedAlike.append hp.joinedAlike⟩
  · rw [h.resolve_right fun h => hd h.1, hp.resolve_right fun h => hd h.1]
    exact .inl rfl

theorem cons (o : Output) (h : SameJoined delimiter os os') :
    SameJoined delimiter (o :: os) (o :: os') :=
  append (.inl rfl : SameJoined delimiter [o] [o]) h

theorem of_texts {us ts : List String}
    (h : us = ts ∨ delimiter = "" ∧ String.join us = String.join ts) :
    SameJoined delimiter (us.map .plain) (ts.map .plain) := by
  obtain rfl | ⟨hd, hjoin⟩ := h
  · exact .inl rfl
  · have hnone {α : Type} {f : Output → Option α} (hf : ∀ t, f (.plain t) = none)
        (ts : List String) : (ts.map Output.plain).filterMap f = [] := by
      simp [hf]
    have htext (ts : List String) : (ts.map Output.plain).map Output.text = ts := by
      rw [List.map_map]
      exact List.map_id ts
    refine .inr ⟨hd, ?_, ?_, ?_⟩
    · rw [hnone fun _ => rfl, hnone fun _ => rfl]
    · rw [hnone fun _ => rfl, hnone fun _ => rfl]
    · rw [htext, htext, hjoin]

/-- The empty text disappears when texts are joined. -/
theorem intercalate_nonempty (ts : List String) :
    "".intercalate (ts.filter (· != "")) = String.join ts := by
  have hflat (l : List (List Char)) : [].intercalate l = l.flatten := by
    induction l with
    | nil => rfl
    | cons s l ih =>
      cases l with
      | nil => rfl
      | cons t l =>
        rw [List.intercalate, List.intersperse_cons_cons, List.flatten_cons, List.flatten_cons,
          List.nil_append, ← List.intercalate, ih, List.flatten_cons (l := s)]
  rw [← String.toList_inj, String.toList_intercalate, String.toList_join, String.toList_empty,
    hflat, List.flatMap_def]
  induction ts with
  | nil => rfl
  | cons t ts ih =>
    by_cases ht : t = ""
    · subst ht
      exact ih
    · rw [List.filter_cons_of_pos (by simpa using ht), List.map_cons, List.map_cons,
        List.flatten_cons, List.flatten_cons, ih]

theorem joinChildren_eq {attributes : Table String}
    (h : SameJoined (attributeOr attributes "delimiter") os os') :
    joinChildren attributes os' = joinChildren attributes os := by
  obtain rfl | ⟨hd, h⟩ := h
  · rfl
  · unfold joinChildren
    dsimp only
    rw [hd, intercalate_nonempty, intercalate_nonempty, h.texts, joinedKind, joinedKind, h.kinds]

theorem findSome?_eq (h : SameJoined delimiter os os') :
    os'.findSome? Output.asSubstitute? = os.findSome? Output.asSubstitute? := by
  rw [← List.head?_filterMap, ← List.head?_filterMap, h.joinedAlike.substitutes]

end SameJoined

/-- Elements are rendered from what the outputs of their children are joined to. -/
structure Primitives.Joins (prims : Primitives) : Prop where
  element_eq (calls : Calls) (ctx : Context) (tag : Tag) (attributes : Table String)
    {os os' : List Output} (h : SameJoined (attributeOr attributes "delimiter") os os') :
    (prims.element calls ctx tag attributes os').1 = (prims.element calls ctx tag attributes os).1

/-- Rendering to plain text joins the outputs of children or ignores them. -/
theorem plainText_joins : Primitives.plainText.Joins where
  element_eq calls ctx tag attributes os os' h := by
    have hjoin := h.joinChildren_eq
    rw [Primitives.plainText]
    cases tag <;> first | rfl | exact congrArg Output.rendered hjoin

/-! ## Programs side by side -/

variable {D : Division} {prims : Primitives}

theorem outputs_redivided (hp : prims.Macros) (hj : prims.Joins) (hD : D.KeepsOutputs)
    {calls calls' : Calls} (ctx : Context)
    (hcalls : ∀ name, (calls' name).map Run.output = (calls name).map Run.output)
    {delimiter : String} {ps ps' : List Program} (h : RedividedPrograms D delimiter ps ps') :
    SameJoined delimiter (ps.map (·.output prims calls ctx))
      (ps'.map (·.output prims calls' ctx)) := by
  have htexts (calls : Calls) (ts : List String) :
      (ts.map Program.text).map (·.output prims calls ctx) = ts.map Output.plain := by
    rw [List.map_map]
    exact List.map_congr_left fun t _ => output_text prims calls ctx t
  induction h with
  | nil => exact .inl rfl
  | same p _ ih =>
    rw [List.map_cons, List.map_cons,
      output_congr hp ctx p fun name _ => hcalls name]
    exact ih.cons _
  | element tag attributes _ _ ihc ih =>
    rw [List.map_cons, List.map_cons, output_element, output_element,
      hp.element_congr ctx _ fun name _ => hcalls name, hj.element_eq calls ctx tag attributes ihc]
    exact ih.cons _
  | names vars settings _ _ ihs ih =>
    rw [List.map_cons, List.map_cons, output_names, output_names, namesOutput, namesOutput,
      ihs.findSome?_eq]
    exact ih.cons _
  | divided hd _ ih =>
    rw [List.map_append, List.map_append, htexts, htexts]
    exact (SameJoined.of_texts (hD _ _ _ hd)).append ih

theorem output_redivided (hp : prims.Macros) (hj : prims.Joins) (hD : D.KeepsOutputs)
    {calls calls' : Calls} (ctx : Context)
    (hcalls : ∀ name, (calls' name).map Run.output = (calls name).map Run.output)
    {p p' : Program} (h : p.Redivided D p') :
    p'.output prims calls' ctx = p.output prims calls ctx := by
  -- next to a delimiter no text is divided
  have hsame := outputs_redivided hp hj hD ctx hcalls (h ",")
  exact (List.cons.inj (hsame.resolve_right fun h => absurd h.1 (by decide))).1

/-! ## Macros -/

/-- Macros that are the same, except that some texts in them are divided otherwise. -/
def MacrosRedivided (D : Division) (macros macros' : Table Program) : Prop :=
  List.Forall₂ (fun m m' => m'.1 = m.1 ∧ m.2.Redivided D m'.2) macros.entries macros'.entries

namespace MacrosRedivided

variable {macros macros' : Table Program}

theorem keys_eq (h : MacrosRedivided D macros macros') : macros'.keys = macros.keys := by
  unfold MacrosRedivided at h
  unfold Table.keys
  generalize macros.entries = entries, macros'.entries = entries' at h ⊢
  induction h with
  | nil => rfl
  | cons hm _ ih => rw [List.map_cons, List.map_cons, hm.1, ih]

theorem get? (h : MacrosRedivided D macros macros') (name : String) :
    Option.Rel (Program.Redivided D) (macros.get? name) (macros'.get? name) := by
  unfold MacrosRedivided at h
  unfold Table.get?
  generalize macros.entries = entries, macros'.entries = entries' at h ⊢
  induction h with
  | nil => exact .none
  | @cons m m' _ _ hm _ ih =>
    obtain ⟨key, p⟩ := m
    obtain ⟨key', p'⟩ := m'
    obtain ⟨rfl, hp⟩ := hm
    rw [Table.lookup_cons_eq, Table.lookup_cons_eq]
    split
    · exact .some hp
    · exact ih

theorem insert (h : MacrosRedivided D macros macros') (name : String) {p p' : Program}
    (hp : p.Redivided D p') :
    MacrosRedivided D (macros.insert name p) (macros'.insert name p') := by
  unfold MacrosRedivided at h
  unfold MacrosRedivided Table.insert
  dsimp only
  generalize macros.entries = entries, macros'.entries = entries' at h ⊢
  induction h with
  | nil => exact .cons ⟨rfl, hp⟩ .nil
  | @cons m m' _ _ hm hrest ih =>
    obtain ⟨key, q⟩ := m
    obtain ⟨key', q'⟩ := m'
    obtain ⟨rfl, hq⟩ := hm
    rw [Table.put, Table.put]
    split
    · exact .cons ⟨rfl, hp⟩ hrest
    · exact .cons ⟨rfl, hq⟩ ih

theorem erase (h : MacrosRedivided D macros macros') (name : String) :
    MacrosRedivided D (macros.erase name) (macros'.erase name) := by
  refine List.rel_filter (fun m m' hm => ?_) h
  dsimp only
  rw [hm.1]

end MacrosRedivided

theorem calls_redivided (hp : prims.Macros) (hj : prims.Joins) (hD : D.KeepsOutputs)
    (ctx : Context) {macros macros' : Table Program} (h : MacrosRedivided D macros macros')
    (name : String) : (macros'.calls prims ctx name).map Run.output =
      (macros.calls prims ctx name).map Run.output := by
  -- on the number of macros: entering one erases it
  induction hs : macros.size using Nat.strongRecOn generalizing macros macros' name with
  | _ size ih =>
    subst hs
    rw [calls_eq, calls_eq]
    have hget := h.get? name
    cases hm : macros.get? name with
    | none =>
      rw [hm] at hget
      cases hm' : macros'.get? name with
      | none => rfl
      | some p' => rw [hm'] at hget; cases hget
    | some p =>
      rw [hm] at hget
      cases hm' : macros'.get? name with
      | none => rw [hm'] at hget; cases hget
      | some p' =>
        rw [hm'] at hget
        cases hget with
        | some hpp =>
          have hinner (next : String) := ih _ (Table.size_erase_lt hm) (h.erase name) next rfl
          exact congrArg some (output_redivided hp hj hD ctx hinner hpp)

/-- **Where texts are divided does not show** in what a program gives with macros, in any context,
if divisions keep outputs. -/
theorem renderWith_redivided (hp : prims.Macros) (hj : prims.Joins) (hD : D.KeepsOutputs)
    {macros macros' : Table Program} (hm : MacrosRedivided D macros macros') {p p' : Program}
    (h : p.Redivided D p') (ctx : Context) :
    (p'.renderWith prims macros' ctx).output = (p.renderWith prims macros ctx).output :=
  output_redivided hp hj hD ctx (calls_redivided hp hj hD ctx hm) h

end CiteStyle
