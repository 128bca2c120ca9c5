import Mathlib.Data.String.Basic

/-! # Texts in pieces

Splitting a text at a separator of two characters undoes joining pieces that lack the first of them
(`splitOn_intercalate`). The walk that splits stands behind a part of the text, at the position that
the length of that part gives. -/

namespace CiteStyle.Text

open String (utf8Len splitOnAux)

variable (c d : Char)

theorem next_eq (before after : List Char) (x : Char) :
    String.Pos.Raw.next (.ofList (before ++ x :: after)) ⟨utf8Len before⟩ =
      ⟨utf8Len (before ++ [x])⟩ := by
  rw [String.next_of_valid before x after, String.utf8Len_append]
  simp

/-- The walk over characters that do not begin a separator. -/
theorem splitOnAux_over {piece : List Char} (h : c ∉ piece) (before after : List Char)
    (b : String.Pos.Raw) (done : List String) :
    splitOnAux (.ofList (before ++ (piece ++ after))) (.ofList [c, d]) b ⟨utf8Len before⟩ 0 done =
      splitOnAux (.ofList (before ++ (piece ++ after))) (.ofList [c, d]) b
        ⟨utf8Len (before ++ piece)⟩ 0 done := by
  induction piece generalizing before with
  | nil => rw [List.append_nil]
  | cons x rest ih =>
    obtain ⟨hx, hrest⟩ := List.ne_and_not_mem_of_not_mem_cons h
    have hend : ¬ String.Pos.Raw.atEnd (.ofList (before ++ x :: (rest ++ after)))
        ⟨utf8Len before⟩ :=
      (not_congr (String.atEnd_of_valid before (x :: (rest ++ after)))).mpr (List.cons_ne_nil _ _)
    have hget : String.Pos.Raw.get (.ofList (before ++ x :: (rest ++ after))) ⟨utf8Len before⟩ =
        x := String.get_of_valid before (x :: (rest ++ after))
    have hsep : String.Pos.Raw.get (.ofList [c, d]) 0 = c := String.get_of_valid [] [c, d]
    have hstep := ih hrest (before ++ [x])
    rw [List.append_assoc, List.append_assoc, List.singleton_append, List.singleton_append] at hstep
    rw [List.cons_append, splitOnAux, if_neg hend, hget, hsep, if_neg (by simpa using hx.symm),
      String.Pos.Raw.unoffsetBy_zero, next_eq before (rest ++ after) x, hstep]

/-- The walk over a separator, which ends a piece. -/
theorem splitOnAux_at (before after : List Char) (b : String.Pos.Raw) (done : List String) :
    splitOnAux (.ofList (before ++ c :: d :: after)) (.ofList [c, d]) b ⟨utf8Len before⟩ 0 done =
      splitOnAux (.ofList (before ++ c :: d :: after)) (.ofList [c, d])
        ⟨utf8Len (before ++ [c, d])⟩ ⟨utf8Len (before ++ [c, d])⟩ 0
        (b.extract (.ofList (before ++ c :: d :: after)) ⟨utf8Len before⟩ :: done) := by
  have hs : before ++ c :: d :: after = before ++ [c] ++ d :: after := by
    rw [List.append_assoc, List.singleton_append]
  have hend := (not_congr (String.atEnd_of_valid before (c :: d :: after))).mpr
    (List.cons_ne_nil c (d :: after))
  have hend' := (not_congr (String.atEnd_of_valid (before ++ [c]) (d :: after))).mpr
    (List.cons_ne_nil d after)
  have hget : String.Pos.Raw.get (.ofList (before ++ c :: d :: after)) ⟨utf8Len before⟩ = c :=
    String.get_of_valid before (c :: d :: after)
  have hget' : String.Pos.Raw.get (.ofList (before ++ [c] ++ d :: after))
      ⟨utf8Len (before ++ [c])⟩ = d := String.get_of_valid (before ++ [c]) (d :: after)
  have hnext := next_eq before (d :: after) c
  have hnext' := next_eq (before ++ [c]) after d
  rw [← hs] at hend' hget' hnext'
  -- the separator is walked over alongside, up to its end
  have hsep : String.Pos.Raw.get (.ofList [c, d]) 0 = c := String.get_of_valid [] [c, d]
  have hsep' : String.Pos.Raw.get (.ofList [c, d]) ⟨utf8Len [c]⟩ = d := String.get_of_valid [c] [d]
  have hmore : String.Pos.Raw.next (.ofList [c, d]) 0 = ⟨utf8Len [c]⟩ := next_eq [] [d] c
  have hmore' : String.Pos.Raw.next (.ofList [c, d]) ⟨utf8Len [c]⟩ = ⟨utf8Len [c, d]⟩ :=
    next_eq [c] [] d
  have hlast : ¬ String.Pos.Raw.atEnd (.ofList [c, d]) ⟨utf8Len [c]⟩ :=
    (not_congr (String.atEnd_of_valid [c] [d])).mpr (List.cons_ne_nil d [])
  have hlast' : String.Pos.Raw.atEnd (.ofList [c, d]) ⟨utf8Len [c, d]⟩ :=
    (String.atEnd_of_valid [c, d] []).mpr rfl
  have hback : String.Pos.Raw.unoffsetBy ⟨utf8Len (before ++ [c] ++ [d])⟩ ⟨utf8Len [c, d]⟩ =
      ⟨utf8Len before⟩ := by
    rw [List.append_assoc, List.singleton_append, String.utf8Len_append]
    simp [String.Pos.Raw.unoffsetBy]
  rw [splitOnAux, if_neg hend, hget, hsep, if_pos (beq_self_eq_true c)]
  simp only [hnext, hmore]
  rw [if_neg hlast, splitOnAux, if_neg hend', hget', hsep', if_pos (beq_self_eq_true d)]
  simp only [hnext', hmore']
  rw [if_pos hlast', hback, List.append_assoc, List.singleton_append]

theorem extract_eq (before piece after : List Char) :
    String.Pos.Raw.extract (.ofList (before ++ (piece ++ after))) ⟨utf8Len before⟩
      ⟨utf8Len (before ++ piece)⟩ = .ofList piece := by
  rw [← List.append_assoc, String.utf8Len_append]
  exact String.extract_of_valid before piece after

theorem splitOnAux_intercalate (pieces : List (List Char)) (before piece : List Char)
    (h : ∀ p ∈ piece :: pieces, c ∉ p) (done : List String) :
    splitOnAux (.ofList (before ++ [c, d].intercalate (piece :: pieces))) (.ofList [c, d])
        ⟨utf8Len before⟩ ⟨utf8Len before⟩ 0 done =
      done.reverse ++ (piece :: pieces).map String.ofList := by
  -- on the pieces ahead: the first is walked over, then the separator after it
  induction pieces generalizing before piece done with
  | nil =>
    obtain ⟨hp, -⟩ := List.forall_mem_cons.mp h
    have hover := splitOnAux_over c d hp before [] ⟨utf8Len before⟩ done
    have hpiece := extract_eq before piece []
    have hend := (String.atEnd_of_valid (before ++ piece) []).mpr rfl
    rw [List.append_nil] at hover hpiece hend
    rw [List.intercalate_singleton, hover, splitOnAux, if_pos hend, hpiece, List.reverse_cons]
    rfl
  | cons next rest ih =>
    obtain ⟨hp, hrest⟩ := List.forall_mem_cons.mp h
    let joined := [c, d].intercalate (next :: rest)
    have hjoin : [c, d].intercalate (piece :: next :: rest) = piece ++ c :: d :: joined := by
      rw [List.intercalate_cons_cons, List.append_assoc]
      rfl
    have hover := splitOnAux_over c d hp before (c :: d :: joined) ⟨utf8Len before⟩ done
    have hat := splitOnAux_at c d (before ++ piece) joined ⟨utf8Len before⟩ done
    have hahead := ih (before ++ piece ++ [c, d]) next hrest (.ofList piece :: done)
    have htext : before ++ piece ++ [c, d] ++ joined = before ++ (piece ++ c :: d :: joined) := by
      rw [List.append_assoc, List.append_assoc]
      rfl
    rw [List.append_assoc, extract_eq] at hat
    rw [htext] at hahead
    rw [hjoin, hover, hat, hahead, List.reverse_cons, List.append_assoc]
    rfl

/-- Pieces that lack the first character of a separator are those of the text that they join to. -/
theorem splitOn_intercalate {pieces : List String} (hne : pieces ≠ [])
    (h : ∀ p ∈ pieces, c ∉ p.toList) :
    ((String.ofList [c, d]).intercalate pieces).splitOn (.ofList [c, d]) = pieces := by
  obtain ⟨piece, rest, rfl⟩ := List.exists_cons_of_ne_nil hne
  have htext : (String.ofList [c, d]).intercalate (piece :: rest) =
      .ofList ([c, d].intercalate (piece.toList :: rest.map String.toList)) := by
    rw [← String.toList_inj, String.toList_intercalate, String.toList_ofList, String.toList_ofList,
      List.map_cons]
  have hsep : ∀ p ∈ piece.toList :: rest.map String.toList, c ∉ p := by
    rw [← List.map_cons, List.forall_mem_map]
    exact h
  have hwalk := splitOnAux_intercalate c d (rest.map String.toList) [] piece.toList hsep []
  rw [String.splitOn, if_neg (by simp), htext]
  refine hwalk.trans ?_
  rw [← List.map_cons, List.map_map]
  simp

theorem splitOnAux_ne_nil (s sep : String) (b i j : String.Pos.Raw) (done : List String) :
    s.splitOnAux sep b i j done ≠ [] := by
  fun_induction String.splitOnAux s sep b i j done <;> simp_all

theorem splitOn_ne_nil (s sep : String) : s.splitOn sep ≠ [] := by
  rw [String.splitOn]
  split
  · exact List.cons_ne_nil _ _
  · exact splitOnAux_ne_nil s sep 0 0 0 []

end CiteStyle.Text
