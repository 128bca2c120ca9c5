import CiteStyle.Proofs.Rendering.Names
import CiteStyle.Proofs.Text.Pieces

/-! # Counting names

Names are counted as the pieces of a text between commas. Names without commas that are joined as
usual are counted one by one (`countNames_nameList`). A count is itself a text in one piece
(`pieceCount_repr`), so counting a count gives one, whatever was counted first. -/

namespace CiteStyle

/-! ## Numerals -/

theorem comma_notMem_repr (n : Nat) : ',' ∉ n.repr.toList := by
  rw [Nat.repr_eq_ofList_toDigits, String.toList_ofList]
  intro h
  exact absurd (Nat.isDigit_of_mem_toDigits (by decide) (by decide) h) (by decide)

theorem int_repr_ne_empty (n : Int) : n.repr ≠ "" := by
  cases n with
  | ofNat n => exact Nat.repr_ne_empty
  | negSucc n =>
    have hr : (Int.negSucc n).repr = "-" ++ (n + 1).repr := rfl
    simp [hr]

/-! ## Counted values -/

variable {ctx : Context}

/-- The number of names in a text that is not empty. -/
def pieceCount (text : String) : Nat := (text.splitOn ", ").length

theorem countNames_of_isEmpty (hc : ctx.count = none) {r : Rendered} (h : r.isEmpty = true) :
    ctx.countNames r = 0 := by
  rw [Context.countNames, hc, Option.getD_none, if_pos h]

theorem countNames_of_not_isEmpty (hc : ctx.count = none) {r : Rendered} (h : r.isEmpty = false) :
    ctx.countNames r = pieceCount r.text := by
  rw [Context.countNames, hc, Option.getD_none, if_neg (by rw [h]; exact Bool.false_ne_true)]
  rfl

theorem countNames_of_count {k : Int} (hc : ctx.count = some k) (r : Rendered) :
    ctx.countNames r = k := by
  rw [Context.countNames, hc, Option.getD_some]

theorem pieceCount_pos (text : String) : 0 < pieceCount text :=
  List.length_pos_iff.mpr (Text.splitOn_ne_nil text ", ")

theorem pieceCount_intercalate {names : List String} (hne : names ≠ [])
    (h : ∀ name ∈ names, ',' ∉ name.toList) :
    pieceCount (", ".intercalate names) = names.length := by
  have hsplit : (", ".intercalate names).splitOn ", " = names :=
    Text.splitOn_intercalate ',' ' ' hne h
  rw [pieceCount, hsplit]

/-- A numeral is one name. -/
theorem pieceCount_repr (n : Nat) : pieceCount n.repr = 1 := by
  have hn : ∀ name ∈ [n.repr], ',' ∉ name.toList :=
    List.forall_mem_singleton.mpr (comma_notMem_repr n)
  have hcount := pieceCount_intercalate (List.cons_ne_nil _ _) hn
  rwa [String.intercalate_singleton] at hcount

def Context.names (ctx : Context) (vars : List String) : List String :=
  vars.flatMap fun v => ((ctx.item.get? v).map ItemValue.names).getD []

theorem intercalate_ne_empty {names : List String} (hne : names ≠ [])
    (h : ∀ name ∈ names, name ≠ "") :
    ", ".intercalate names ≠ "" := by
  obtain ⟨first, rest, rfl⟩ := List.exists_cons_of_ne_nil hne
  have hfirst : first ≠ "" := h first List.mem_cons_self
  cases rest with
  | nil => rwa [String.intercalate_singleton]
  | cons next more => simp [String.intercalate_cons_cons, hfirst]

/-- Names with something in them and no comma, joined as usual, are counted one by one. -/
theorem countNames_nameList (hc : ctx.count = none) {vars : List String} {settings : NamesSettings}
    (hs : settings.name.get? "delimiter" = none)
    (h : ∀ name ∈ ctx.names vars, name ≠ "" ∧ ',' ∉ name.toList) :
    ctx.countNames (ctx.nameList vars settings) = (ctx.names vars).length := by
  rw [Context.nameList, hs, Option.getD_none]
  split
  · next hnil =>
    have hnone : ctx.names vars = [] := hnil
    rw [hnone, countNames_of_isEmpty hc rfl]
    rfl
  · next hne =>
    have hshown : (⟨some (", ".intercalate (ctx.names vars)), .presentVariable, false⟩ :
        Rendered).isEmpty = false :=
      beq_eq_false_iff_ne.mpr (intercalate_ne_empty hne fun name hn => (h name hn).1)
    have hcount := pieceCount_intercalate hne fun name hn => (h name hn).2
    exact (countNames_of_not_isEmpty hc hshown).trans (congrArg Nat.cast hcount)

theorem isEmpty_counted (r : Rendered) (n : Int) : (r.counted n).isEmpty = decide (n = 0) := by
  unfold Rendered.counted
  split
  · next h => simp [h, Rendered.isEmpty, Rendered.text]
  · next h => simp [h, Rendered.isEmpty, Rendered.text, int_repr_ne_empty]

/-- Counting names that there are leaves their number. -/
theorem counted_countNames (hc : ctx.count = none) {r : Rendered} (h : r.isEmpty = false) :
    r.counted (ctx.countNames r) = ⟨some (pieceCount r.text).repr, r.kind, r.substituted⟩ := by
  have hn : ((pieceCount r.text : Nat) : Int) ≠ 0 := by
    have := pieceCount_pos r.text
    omega
  rw [countNames_of_not_isEmpty hc h, Rendered.counted, if_neg hn]
  rfl

end CiteStyle
