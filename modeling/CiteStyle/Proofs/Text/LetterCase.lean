import CiteStyle.Text.LetterCase

/-! # Letter case of ASCII texts

In an ASCII text the case tables come down to the case maps of single characters, which keep the
length of the text (`lower_of_isAscii`, `upper_of_isAscii`). -/

namespace CiteStyle.Text

def IsAscii (s : List Char) : Prop := ∀ c ∈ s, c.toNat < 128

instance (s : List Char) : Decidable (IsAscii s) :=
  List.decidableBAll (fun c : Char => c.toNat < 128) s

/-- What holds of the first 128 code points holds of every ASCII character. -/
theorem forall_ascii {P : Char → Prop} (h : ∀ n < 128, P (Char.ofNat n)) {c : Char}
    (hc : c.toNat < 128) : P c :=
  Char.ofNat_toNat c ▸ h c.toNat hc

theorem toNat_toLower_lt {c : Char} (h : c.toNat < 128) : c.toLower.toNat < 128 :=
  forall_ascii (P := fun c => c.toLower.toNat < 128) (by decide +kernel) h

theorem toNat_toUpper_lt {c : Char} (h : c.toNat < 128) : c.toUpper.toNat < 128 :=
  forall_ascii (P := fun c => c.toUpper.toNat < 128) (by decide +kernel) h

theorem toLower_toUpper {c : Char} (h : c.toNat < 128) : c.toUpper.toLower = c.toLower :=
  forall_ascii (P := fun c => c.toUpper.toLower = c.toLower) (by decide +kernel) h

theorem toUpper_toLower {c : Char} (h : c.toNat < 128) : c.toLower.toUpper = c.toUpper :=
  forall_ascii (P := fun c => c.toLower.toUpper = c.toUpper) (by decide +kernel) h

theorem find?_cons_of_forall {α : Type} {p : α → Bool} {first : α} {others : List α}
    (h : ∀ x ∈ others, ¬ p x = true) : (first :: others).find? p = [first].find? p := by
  rw [List.find?_cons, List.find?_cons, List.find?_eq_none.mpr h, List.find?_nil]

/-- The run of the basic letters comes first, and no other one begins among ASCII. -/
theorem mapCase_of_ascii {basic : CaseRun} {others : List CaseRun}
    (h : ∀ run ∈ others, 128 ≤ run.1) {c : Char} (hc : c.toNat < 128) :
    mapCase (basic :: others) c = mapCase [basic] c := by
  rw [mapCase, mapCase, find?_cons_of_forall]
  rintro ⟨first, last, step, distance⟩ hrun
  have hfirst : ¬ first ≤ c.toNat := by
    have := h _ hrun
    omega
  simp [hfirst]

theorem upperOf_of_ascii {c : Char} (h : c.toNat < 128) : upperOf c = [c.toUpper] := by
  have hcodes : ∀ e ∈ upperExpansions, 128 ≤ e.1 := by decide +kernel
  have hothers : ∀ run ∈ upperRuns.tail, 128 ≤ run.1 := by decide +kernel
  have hmap : mapCase upperRuns c = mapCase [(0x61, 0x7a, 1, -32)] c := mapCase_of_ascii hothers h
  rw [upperOf, List.find?_eq_none.mpr, hmap]
  · exact forall_ascii (P := fun c => [mapCase [(0x61, 0x7a, 1, -32)] c] = [c.toUpper])
      (by decide +kernel) h
  · intro e he
    have hcode := hcodes e he
    rw [beq_iff_eq]
    omega

theorem lowerOf_of_ascii {c : Char} (h : c.toNat < 128) (before after : List Char) :
    lowerOf before c after = [c.toLower] := by
  have hsigma : ¬ (c.toNat == 0x3a3) = true := by rw [beq_iff_eq]; omega
  have hdotted : ¬ (c.toNat == 0x130) = true := by rw [beq_iff_eq]; omega
  have hothers : ∀ run ∈ lowerRuns.tail, 128 ≤ run.1 := by decide +kernel
  have hmap : mapCase lowerRuns c = mapCase [(0x41, 0x5a, 1, 32)] c := mapCase_of_ascii hothers h
  rw [lowerOf, if_neg hsigma, if_neg hdotted, hmap]
  exact forall_ascii (P := fun c => [mapCase [(0x41, 0x5a, 1, 32)] c] = [c.toLower])
    (by decide +kernel) h

theorem upper_of_isAscii {s : List Char} (h : IsAscii s) : upper s = s.map Char.toUpper := by
  induction s with
  | nil => rfl
  | cons c rest ih =>
    obtain ⟨hc, hr⟩ := List.forall_mem_cons.mp h
    rw [upper, List.flatMap_cons, upperOf_of_ascii hc, List.map_cons]
    exact congrArg (c.toUpper :: ·) (ih hr)

theorem lower_of_isAscii {s : List Char} (h : IsAscii s) : lower s = s.map Char.toLower := by
  have hafter (before : List Char) : lowerAfter before s = s.map Char.toLower := by
    induction s generalizing before with
    | nil => rfl
    | cons c rest ih =>
      obtain ⟨hc, hr⟩ := List.forall_mem_cons.mp h
      rw [lowerAfter, lowerOf_of_ascii hc, ih hr, List.map_cons, List.singleton_append]
  exact hafter []

section

variable {s : List Char} (h : IsAscii s)
include h

theorem isAscii_map_toLower : IsAscii (s.map Char.toLower) := by
  intro d hd
  obtain ⟨c, hc, rfl⟩ := List.mem_map.mp hd
  exact toNat_toLower_lt (h c hc)

theorem isAscii_map_toUpper : IsAscii (s.map Char.toUpper) := by
  intro d hd
  obtain ⟨c, hc, rfl⟩ := List.mem_map.mp hd
  exact toNat_toUpper_lt (h c hc)

theorem map_toLower_map_toUpper :
    (s.map Char.toUpper).map Char.toLower = s.map Char.toLower := by
  rw [List.map_map]
  exact List.map_congr_left fun c hc => toLower_toUpper (h c hc)

theorem map_toUpper_map_toLower :
    (s.map Char.toLower).map Char.toUpper = s.map Char.toUpper := by
  rw [List.map_map]
  exact List.map_congr_left fun c hc => toUpper_toLower (h c hc)

theorem map_toLower_map_toLower :
    (s.map Char.toLower).map Char.toLower = s.map Char.toLower := by
  rw [← map_toLower_map_toUpper (isAscii_map_toLower h), map_toUpper_map_toLower h,
    map_toLower_map_toUpper h]

end

end CiteStyle.Text
