/-! Sets of code points, given as the ranges they consist of. -/

namespace CiteStyle.Text

abbrev CodeRanges := List (Nat × Nat)

def CodeRanges.has (ranges : CodeRanges) (c : Char) : Bool :=
  ranges.any fun (first, last) => first ≤ c.toNat && c.toNat ≤ last

theorem CodeRanges.has_iff (ranges : CodeRanges) (c : Char) :
    ranges.has c = true ↔ ∃ r ∈ ranges, r.1 ≤ c.toNat ∧ c.toNat ≤ r.2 := by
  simp [CodeRanges.has, List.any_eq_true]

theorem CodeRanges.has_of_covered {inner outer : CodeRanges}
    (h : ∀ r ∈ inner, ∃ q ∈ outer, q.1 ≤ r.1 ∧ r.2 ≤ q.2) {c : Char} (hc : inner.has c = true) :
    outer.has c = true := by
  obtain ⟨r, hr, hlow, hhigh⟩ := (inner.has_iff c).mp hc
  obtain ⟨q, hq, hlow', hhigh'⟩ := h r hr
  exact (outer.has_iff c).mpr ⟨q, hq, Nat.le_trans hlow' hlow, Nat.le_trans hhigh hhigh'⟩

/-- No character lies in two ranges that lie apart. -/
theorem CodeRanges.not_has_of_apart {one other : CodeRanges}
    (h : ∀ r ∈ one, ∀ q ∈ other, r.2 < q.1 ∨ q.2 < r.1) {c : Char} (hc : one.has c = true) :
    other.has c = false := by
  rw [Bool.eq_false_iff]
  intro hother
  obtain ⟨r, hr, hlow, hhigh⟩ := (one.has_iff c).mp hc
  obtain ⟨q, hq, hlow', hhigh'⟩ := (other.has_iff c).mp hother
  have hapart := h r hr q hq
  omega

end CiteStyle.Text
