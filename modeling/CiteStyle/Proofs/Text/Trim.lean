import CiteStyle.Text.Line

/-! # Trimming

A text that does not consist of padding alone has a first and a last other character, and what lies
from the one to the other is what trimming leaves. `Trims` names the three parts; padding is white
space, or any other class of characters. -/

namespace CiteStyle.Text

variable {p : Char → Bool} {s leading content trailing : List Char}

/-- A text with padding around its content, which begins and ends with other characters. -/
structure Trims (p : Char → Bool) (s leading content trailing : List Char) : Prop where
  parts : s = leading ++ (content ++ trailing)
  leading : leading.all p = true
  trailing : trailing.all p = true
  begins : ∃ c, content.head? = some c ∧ p c = false
  ends : ∃ c, content.getLast? = some c ∧ p c = false

theorem exists_first (h : s.all p = false) :
    ∃ start c rest, s = start ++ c :: rest ∧ start.all p = true ∧ p c = false := by
  have hsome : (s.find? fun c => !p c).isSome := by
    rw [List.find?_isSome]
    simpa using h
  obtain ⟨c, hc⟩ := Option.isSome_iff_exists.mp hsome
  obtain ⟨hpc, start, rest, rfl, hstart⟩ := List.find?_eq_some_iff_append.mp hc
  exact ⟨start, c, rest, rfl, List.all_eq_true.mpr (by simpa using hstart), by simpa using hpc⟩

/-- A text that is not all padding has a content. -/
theorem exists_trims (h : s.all p = false) :
    ∃ leading content trailing, Trims p s leading content trailing := by
  obtain ⟨leading, c, rest, rfl, hl, hc⟩ := exists_first h
  have hback : (c :: rest).reverse.all p = false := by simp [hc]
  obtain ⟨after, d, before, hparts, ha, hd⟩ := exists_first hback
  have hrest : c :: rest = before.reverse ++ [d] ++ after.reverse := by
    rw [← List.reverse_reverse (c :: rest), hparts]
    simp
  refine ⟨leading, before.reverse ++ [d], after.reverse, by rw [hrest], hl, by simpa using ha,
    ⟨c, ?_, hc⟩, ⟨d, List.getLast?_concat, hd⟩⟩
  have hhead := congrArg List.head? hrest
  rw [List.head?_append, Option.or_of_isSome (by simp)] at hhead
  exact hhead.symm

namespace Trims

theorem reverse (h : Trims p s leading content trailing) :
    Trims p s.reverse trailing.reverse content.reverse leading.reverse where
  parts := by rw [h.parts]; simp
  leading := by simpa using h.trailing
  trailing := by simpa using h.leading
  begins := by simpa using h.ends
  ends := by simpa using h.begins

/-- More padding at the end. -/
theorem append (h : Trims p s leading content trailing) {more : List Char}
    (hm : more.all p = true) : Trims p (s ++ more) leading content (trailing ++ more) where
  parts := by rw [h.parts]; simp
  leading := h.leading
  trailing := by rw [List.all_append, h.trailing, hm]; rfl
  begins := h.begins
  ends := h.ends

theorem content_ne_nil (h : Trims p s leading content trailing) : content ≠ [] := by
  obtain ⟨c, hc, -⟩ := h.begins
  rintro rfl
  cases hc

theorem dropWhile_eq (h : Trims p s leading content trailing) :
    s.dropWhile p = content ++ trailing := by
  obtain ⟨c, hc, hpc⟩ := h.begins
  obtain ⟨rest, rfl⟩ := List.head?_eq_some_iff.mp hc
  rw [h.parts, List.dropWhile_append_of_pos (List.all_eq_true.mp h.leading), List.cons_append,
    List.dropWhile_cons_of_neg (by simp [hpc])]

/-- Without the padding at its start. -/
theorem drop_leading (h : Trims p s leading content trailing) :
    Trims p (content ++ trailing) [] content trailing :=
  ⟨rfl, rfl, h.trailing, h.begins, h.ends⟩

/-! ## White space -/

theorem trimStart_eq (h : Trims isBlank s leading content trailing) :
    trimStart s = content ++ trailing := h.dropWhile_eq

theorem trimEnd_eq (h : Trims isBlank s leading content trailing) :
    trimEnd s = leading ++ content := by
  rw [trimEnd, h.reverse.trimStart_eq]
  simp

theorem trimEnd_trimStart (h : Trims isBlank s leading content trailing) :
    trimEnd (trimStart s) = content := by
  rw [h.trimStart_eq, h.drop_leading.trimEnd_eq, List.nil_append]

theorem indent_eq (h : Trims isBlank s leading content trailing) : indent s = leading.length := by
  rw [indent, h.trimStart_eq, h.parts, List.length_append, Nat.add_sub_cancel]

end Trims

theorem indent_of_isAllBlank (h : isAllBlank s = true) : indent s = s.length := by
  rw [indent, trimStart_eq_nil_iff.mpr h, List.length_nil, Nat.sub_zero]

theorem trimEnd_of_isAllBlank (h : isAllBlank s = true) : trimEnd s = [] := by
  have hback : isAllBlank s.reverse = true := by rwa [isAllBlank, List.all_reverse]
  rw [trimEnd, trimStart_eq_nil_iff.mpr hback, List.reverse_nil]

end CiteStyle.Text
