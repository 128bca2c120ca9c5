import CiteStyle.Proofs.Style.LocalePrecedence
import CiteStyle.Proofs.Term.Merging

/-! # Layers of terms

Terms come in layers: the blocks of a style's own locale, each over those before it, over the terms
of a separate locale. However the layers are grouped when they are laid over each other, the same
list comes out (`layers_however_grouped`). -/

namespace CiteStyle

/-- A way to lay lists of terms over each other, two at a time. -/
inductive Grouping where
  | layer (terms : List Term)
  | stack (newer older : Grouping)

namespace Grouping

/-- The lists that are laid over each other, newest first. -/
def layers : Grouping → List (List Term)
  | layer terms => [terms]
  | stack newer older => newer.layers ++ older.layers

def merged : Grouping → List Term
  | layer terms => terms
  | stack newer older => mergeTerms newer.merged older.merged

theorem layers_ne_nil (g : Grouping) : g.layers ≠ [] := by
  induction g with
  | layer terms => simp [layers]
  | stack newer older ihn iho => simp [layers, ihn]

end Grouping

theorem foldr_mergeTerms (layers : List (List Term)) (older : List Term) :
    layers.foldr mergeTerms older = mergeTerms (layers.foldr mergeTerms []) older := by
  induction layers with
  | nil => rw [List.foldr_nil, List.foldr_nil, mergeTerms_nil_left]
  | cons newer rest ih => rw [List.foldr_cons, ih, mergeTerms_assoc, List.foldr_cons]

/-- What comes out depends on the layers alone. -/
theorem Grouping.merged_eq (g : Grouping) : g.merged = g.layers.foldr mergeTerms [] := by
  induction g with
  | layer terms => simp [merged, layers]
  | stack newer older ihn iho =>
    rw [merged, layers, List.foldr_append, foldr_mergeTerms, ← ihn, ← iho]

/-- Blocks that are laid one after the other over older terms. -/
theorem layTerms_some_eq (older : List Term) (blocks : List (List Term)) :
    layTerms (some older) blocks = some (blocks.reverse.foldr mergeTerms older) := by
  induction blocks generalizing older with
  | nil => rfl
  | cons newer rest ih =>
    rw [layTerms_cons, ih, Option.getD_some, List.reverse_cons, List.foldr_append]
    rfl

/-- All layers of terms that there are, laid over each other. -/
theorem layTerms_merge (blocks : List (List Term)) (beneath : Option (List Term)) :
    (layTerms none blocks).merge mergeTerms beneath =
      if blocks.reverse ++ beneath.toList = [] then none
      else some ((blocks.reverse ++ beneath.toList).foldr mergeTerms []) := by
  cases blocks with
  | nil => cases beneath <;> simp [layTerms]
  | cons first rest =>
    have hfirst : layTerms none (first :: rest) =
        some ((first :: rest).reverse.foldr mergeTerms []) := by
      rw [layTerms_cons, layTerms_some_eq, Option.getD_none, mergeTerms_nil_right,
        List.reverse_cons, List.foldr_append, List.foldr_cons, List.foldr_nil,
        mergeTerms_nil_right]
    rw [hfirst, if_neg (by simp)]
    cases beneath with
    | none => simp
    | some older =>
      rw [Option.toList_some, List.foldr_append, foldr_mergeTerms _ (List.foldr _ _ _)]
      simp

/-- **Terms come out alike however their layers are grouped.** Laying terms over each other is
associative, the empty list changes nothing on either side, and laying a list over itself or over
what it was laid over before changes nothing. So the terms of the blocks of a style's own locale
over those of a separate locale are what every grouping of these layers gives, with the same terms
in the same order. -/
theorem layers_however_grouped :
    (∀ a b c : List Term, mergeTerms a (mergeTerms b c) = mergeTerms (mergeTerms a b) c) ∧
    (∀ a : List Term, mergeTerms [] a = a ∧ mergeTerms a [] = a ∧ mergeTerms a a = a) ∧
    (∀ a b : List Term, mergeTerms a (mergeTerms a b) = mergeTerms a b) ∧
    (∀ g g' : Grouping, g.layers = g'.layers → g.merged = g'.merged) ∧
    ∀ (own : List Element) (other d : LocaleData), ({} : LocaleData).mergeAll own = (d, none) →
      ∃ blocks,
        List.Forall₂ (fun e newer => readTerms e.elements = .ok newer) (tagged "terms" own) blocks ∧
        ∀ g : Grouping, g.layers = blocks.reverse ++ other.terms.toList →
          (d.fillFrom other).terms = some g.merged := by
  refine ⟨mergeTerms_assoc, fun a => ⟨mergeTerms_nil_left a, mergeTerms_nil_right a,
    mergeTerms_self a⟩, mergeTerms_again, ?_, ?_⟩
  · intro g g' h
    rw [g.merged_eq, g'.merged_eq, h]
  · intro own other d h
    obtain ⟨blocks, hblocks, hterms⟩ := (mergeAll_mergedFrom h).terms
    refine ⟨blocks, hblocks, ?_⟩
    intro g hg
    rw [fillFrom_terms, hterms, layTerms_merge, if_neg (hg ▸ g.layers_ne_nil), ← hg, g.merged_eq]

def oneTermBlock (name value : String) : Element :=
  ⟨"terms", {}, [.element "term" (.ofList [("name", name)]) [.text value] 3], 2⟩

def threeTerms : LocaleData where
  terms := some [⟨"and", "and", "long", none, none, none, none⟩,
    ⟨"in", "in", "long", none, none, none, none⟩, ⟨"and", "&", "symbol", none, none, none, none⟩]

theorem oneTermBlocks_grouped :
    ∃ d, ({} : LocaleData).mergeAll [oneTermBlock "and" "et", oneTermBlock "in" "dans"] =
        (d, none) ∧
      ∃ and in' older, threeTerms.terms = some older ∧
        (d.fillFrom threeTerms).terms =
          some (Grouping.stack (.layer in') (.stack (.layer and) (.layer older))).merged ∧
        (d.fillFrom threeTerms).terms =
          some (Grouping.stack (.stack (.layer in') (.layer and)) (.layer older)).merged := by
  obtain ⟨d, hd⟩ : ∃ d, ({} : LocaleData).mergeAll
      [oneTermBlock "and" "et", oneTermBlock "in" "dans"] = (d, none) := ⟨_, rfl⟩
  obtain ⟨blocks, hblocks, hall⟩ := layers_however_grouped.2.2.2.2 _ threeTerms d hd
  obtain ⟨first, second, rfl⟩ : ∃ first second, blocks = [first, second] := by
    have hlength : blocks.length = 2 := hblocks.length_eq.symm
    exact List.length_eq_two.mp hlength
  exact ⟨d, hd, first, second, _, rfl, hall _ rfl, hall _ rfl⟩

end CiteStyle
