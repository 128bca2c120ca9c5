import CiteStyle.Options.Formatting
import CiteStyle.Proofs.Number.Literal
import CiteStyle.Proofs.Number.Rounding
import Mathlib.Data.List.Forall2

/-! # How a bibliography may be set

`Converts` says what an option means: a truth value, an alignment, or a number as it is spelled,
rounded to double precision and then given exactly if it is whole. A table has formatting exactly if
every formatting option in it means something, and this is then its formatting; otherwise the first
that does not is named (`parameters_exact`). -/

namespace CiteStyle

/-! ## Numbers as options -/

namespace Number

/-- The number of double precision that a reading is rounded to. -/
inductive Reading.Rounds : Reading → Double → Prop
  | finite {negative : Bool} {digits : ℕ} {e : ℤ} {d : Double}
      (h : Double.Nearest negative (digits * 10 ^ e) d) : Rounds (.finite negative digits e) d
  | infinite {negative : Bool} : Rounds (.infinite negative) (.infinite negative)
  | nan : Rounds .nan .nan

theorem Reading.rounds_double (r : Reading) : r.Rounds r.double := by
  cases r with
  | finite negative digits e => exact .finite (Double.nearest_ofDecimal negative digits e)
  | infinite negative => exact .infinite
  | nan => exact .nan

theorem Reading.Rounds.unique {r : Reading} {d d' : Double} (h : r.Rounds d) (h' : r.Rounds d') :
    d = d' ∨ d.value? = some 0 ∧ d'.value? = some 0 := by
  cases h with
  | finite h => cases h' with | finite h' => exact h.unique h'
  | infinite => cases h'; exact .inl rfl
  | nan => cases h'; exact .inl rfl

inductive Reads (s : List Char) (d : Double) : Prop
  | intro {r : Reading} (hs : Spells s r) (hr : r.Rounds d)

theorem reads_of_parse {s : List Char} {d : Double} (h : parse? s = some d) : Reads s d := by
  obtain ⟨r, hs, rfl⟩ := parse?_eq_some_iff.mp h
  exact .intro hs r.rounds_double

theorem Reads.parse {s : List Char} {d : Double} (h : Reads s d) :
    ∃ d', parse? s = some d' ∧ (d = d' ∨ d.value? = some 0 ∧ d'.value? = some 0) := by
  obtain ⟨hs, hr⟩ := h
  exact ⟨_, parse?_eq_some_iff.mpr ⟨_, hs, rfl⟩, hr.unique (Reading.rounds_double _)⟩

end Number

namespace Formatting

open Number (Spells Reads)

/-! ## What options mean -/

def keys : List String := measureKeys ++ [alignmentKey]

def Good (key value : String) : Prop :=
  if key = alignmentKey then value = "false" ∨ value = "flush" ∨ value = "margin"
  else value = "true" ∨ value = "false" ∨ ∃ r, Spells value.toList r

/-- What the value of a formatting option means. -/
inductive Converts (key : String) : String → FormattingValue → Prop
  | on (hk : key ≠ alignmentKey) : Converts key "true" (.flag true)
  | off : Converts key "false" (.flag false)
  | aligned (hk : key = alignmentKey) (a : Alignment) : Converts key a.toString (.alignment a)
  | whole {value : String} {d : Double} {n : ℤ} (hk : key ≠ alignmentKey)
      (hd : Reads value.toList d) (hn : d.value? = some (n : ℚ)) :
      Converts key value (.integer n)
  | real {value : String} {d : Double} (hk : key ≠ alignmentKey) (hd : Reads value.toList d)
      (hn : ∀ n : ℤ, d.value? ≠ some (n : ℚ)) : Converts key value (.real d)

/-- Why a value is bad: a word that is good elsewhere is named without a reason. -/
def reason (key value : String) : Expectation :=
  if value = "true" ∨ key ≠ alignmentKey ∧ (value = "flush" ∨ value = "margin") then .unstated
  else if key = alignmentKey then .alignment
  else .number

def convert (key value : String) : Except BadOption FormattingValue :=
  if key = alignmentKey then alignment value else measure key value

variable {key value : String} {v : FormattingValue} {d : Double}

theorem ofString?_eq_some_iff {a : Alignment} :
    Alignment.ofString? value = some a ↔ value = a.toString := by
  unfold Alignment.ofString?
  constructor
  · intro h
    split at h
    · next hv => obtain rfl := Option.some.inj h; exact hv
    · split at h
      · next hv => obtain rfl := Option.some.inj h; exact hv
      · cases h
  · rintro rfl
    cases a <;> rfl

theorem ofString?_eq_none_iff :
    Alignment.ofString? value = none ↔ ¬ (value = "flush" ∨ value = "margin") := by
  unfold Alignment.ofString?
  split
  · next hv => simp [hv]
  · split <;> simp [*]

/-- A word is no number. -/
theorem ne_of_parse {w : String} (h : Number.parse? value.toList = some d)
    (hw : Number.parse? w.toList = none) : value ≠ w := by
  rintro rfl
  rw [hw] at h
  cases h

theorem measure_of_parse (h : Number.parse? value.toList = some d) (key : String) :
    measure key value = .ok (.ofDouble d) := by
  have htrue := ne_of_parse (w := "true") h (by decide +kernel)
  have hfalse := ne_of_parse (w := "false") h (by decide +kernel)
  have hflush := ne_of_parse (w := "flush") h (by decide +kernel)
  have hmargin := ne_of_parse (w := "margin") h (by decide +kernel)
  have hname : Alignment.ofString? value = none := ofString?_eq_none_iff.mpr (by simp [*])
  rw [measure, if_neg htrue, if_neg hfalse, hname, h]
  rfl

theorem converts_ofDouble (hk : key ≠ alignmentKey) (h : Number.parse? value.toList = some d) :
    Converts key value (.ofDouble d) := by
  have hd := Number.reads_of_parse h
  unfold FormattingValue.ofDouble
  split
  · next n hn => exact .whole hk hd (Double.integer?_eq_some_iff.mp hn)
  · next hn =>
    refine .real hk hd fun n hvalue => ?_
    rw [Double.integer?_eq_some_iff.mpr hvalue] at hn
    cases hn

theorem ofDouble_of_whole {n : ℤ} (h : d.value? = some (n : ℚ)) :
    .ofDouble d = FormattingValue.integer n := by
  rw [FormattingValue.ofDouble, Double.integer?_eq_some_iff.mpr h]

theorem ofDouble_of_not_whole (h : ∀ n : ℤ, d.value? ≠ some (n : ℚ)) :
    .ofDouble d = FormattingValue.real d := by
  unfold FormattingValue.ofDouble
  split
  · next n hn => exact absurd (Double.integer?_eq_some_iff.mp hn) (h n)
  · rfl

theorem converts_of_alignment (h : alignment value = .ok v) : Converts alignmentKey value v := by
  unfold alignment at h
  split at h
  · cases h
  · split at h
    · next hoff =>
      obtain rfl := Except.ok.inj h
      exact hoff ▸ .off
    · split at h
      · next a ha =>
        obtain rfl := Except.ok.inj h
        exact ofString?_eq_some_iff.mp ha ▸ .aligned rfl a
      · cases h

theorem converts_of_measure (hk : key ≠ alignmentKey) (h : measure key value = .ok v) :
    Converts key value v := by
  unfold measure at h
  split at h
  · next hon =>
    obtain rfl := Except.ok.inj h
    exact hon ▸ .on hk
  · split at h
    · next hoff =>
      obtain rfl := Except.ok.inj h
      exact hoff ▸ .off
    · split at h
      · cases h
      · split at h
        · next d hd =>
          obtain rfl := Except.ok.inj h
          exact converts_ofDouble hk hd
        · cases h

/-- **The value of an option** is what the option means. -/
theorem convert_eq_ok_iff : convert key value = .ok v ↔ Converts key value v := by
  constructor
  · intro h
    unfold convert at h
    split at h
    · next hk => exact hk ▸ converts_of_alignment h
    · next hk => exact converts_of_measure hk h
  · intro h
    cases h with
    | on hk => rw [convert, if_neg hk]; rfl
    | off => unfold convert; split <;> rfl
    | aligned hk a => rw [convert, if_pos hk]; cases a <;> rfl
    | @whole value d n hk hd hn =>
      obtain ⟨d', hp, hsame⟩ := hd.parse
      have hn' : d'.value? = some (n : ℚ) := by
        obtain rfl | ⟨hzero, hzero'⟩ := hsame
        · exact hn
        · rw [hzero', ← hzero, hn]
      rw [convert, if_neg hk, measure_of_parse hp, ofDouble_of_whole hn']
    | @real value d hk hd hn =>
      obtain ⟨d', hp, hsame⟩ := hd.parse
      obtain rfl | ⟨hzero, -⟩ := hsame
      · rw [convert, if_neg hk, measure_of_parse hp, ofDouble_of_not_whole hn]
      · exact absurd hzero (by simpa using hn 0)

theorem good_iff : Good key value ↔ ∃ v, Converts key value v := by
  unfold Good
  constructor
  · intro h
    split at h
    · next hk =>
      obtain rfl | rfl | rfl := h
      · exact ⟨_, .off⟩
      · exact ⟨_, .aligned hk .flush⟩
      · exact ⟨_, .aligned hk .margin⟩
    · next hk =>
      obtain rfl | rfl | ⟨r, hr⟩ := h
      · exact ⟨_, .on hk⟩
      · exact ⟨_, .off⟩
      · exact ⟨_, converts_ofDouble hk (Number.parse?_eq_some_iff.mpr ⟨r, hr, rfl⟩)⟩
  · rintro ⟨v, h⟩
    cases h with
    | on hk => rw [if_neg hk]; exact .inl rfl
    | off => split <;> simp
    | aligned hk a => rw [if_pos hk]; cases a <;> simp [Alignment.toString]
    | whole hk hd hn => rw [if_neg hk]; obtain ⟨hs, -⟩ := hd; exact .inr (.inr ⟨_, hs⟩)
    | real hk hd hn => rw [if_neg hk]; obtain ⟨hs, -⟩ := hd; exact .inr (.inr ⟨_, hs⟩)

theorem eq_of_alignment_error {b : BadOption} (h : alignment value = .error b) :
    b = ⟨alignmentKey, value, reason alignmentKey value⟩ := by
  unfold alignment at h
  split at h
  · next hon =>
    obtain rfl := Except.error.inj h
    rw [reason, if_pos (.inl hon)]
  · next hon =>
    split at h
    · cases h
    · split at h
      · cases h
      · obtain rfl := Except.error.inj h
        rw [reason, if_neg (by simp [hon]), if_pos rfl]

theorem eq_of_measure_error {b : BadOption} (hk : key ≠ alignmentKey)
    (h : measure key value = .error b) : b = ⟨key, value, reason key value⟩ := by
  unfold measure at h
  split at h
  · cases h
  · next hon =>
    split at h
    · cases h
    · split at h
      · next hname =>
        obtain rfl := Except.error.inj h
        have hnamed : value = "flush" ∨ value = "margin" := by
          by_contra hnone
          rw [ofString?_eq_none_iff.mpr hnone] at hname
          cases hname
        rw [reason, if_pos (.inr ⟨hk, hnamed⟩)]
      · next hname =>
        split at h
        · cases h
        · obtain rfl := Except.error.inj h
          have hunnamed := ofString?_eq_none_iff.mp (by simpa using hname)
          rw [reason, if_neg (by simp [hon, hunnamed]), if_neg hk]

theorem eq_of_convert_error {b : BadOption} (h : convert key value = .error b) :
    b = ⟨key, value, reason key value⟩ := by
  unfold convert at h
  split at h
  · next hk => exact hk ▸ eq_of_alignment_error h
  · next hk => exact eq_of_measure_error hk h

/-- **A bad option.** -/
theorem convert_eq_error_iff {b : BadOption} : convert key value = .error b ↔
    ¬ Good key value ∧ b = ⟨key, value, reason key value⟩ := by
  constructor
  · intro h
    refine ⟨fun hgood => ?_, eq_of_convert_error h⟩
    obtain ⟨v, hv⟩ := good_iff.mp hgood
    rw [convert_eq_ok_iff.mpr hv] at h
    cases h
  · rintro ⟨hbad, rfl⟩
    cases h : convert key value with
    | ok v => exact absurd (good_iff.mpr ⟨v, convert_eq_ok_iff.mp h⟩) hbad
    | error b => rw [eq_of_convert_error h]

/-! ## Tables of options -/

variable {options other : Table String} {ks rest : List String} {b b' : BadOption}
  {values values' : List (String × FormattingValue)} {entry entry' : String × FormattingValue}

inductive FirstBad (options : Table String) : List String → BadOption → Prop
  | here {key value : String} {rest : List String} (hs : options.get? key = some value)
      (hb : ¬ Good key value) : FirstBad options (key :: rest) ⟨key, value, reason key value⟩
  | later {key : String} {rest : List String} {b : BadOption}
      (hg : ∀ value, options.get? key = some value → Good key value)
      (h : FirstBad options rest b) : FirstBad options (key :: rest) b

/-- What formatting holds for an option; one that is not set is off. -/
inductive Holds (options : Table String) (key : String) : String × FormattingValue → Prop
  | set {value : String} {v : FormattingValue} (hs : options.get? key = some value)
      (hv : Converts key value v) : Holds options key (key, v)
  | unset (hs : options.get? key = none) : Holds options key (key, .flag false)

/-- The formatting of a table: of the measures only those that are set, and the alignment last. -/
def Formatted (options : Table String) : List (String × FormattingValue) → Prop :=
  List.Forall₂ (Holds options) (measureKeys.filter options.contains ++ [alignmentKey])

def AllGood (options : Table String) (ks : List String) : Prop :=
  ∀ key ∈ ks, ∀ value, options.get? key = some value → Good key value

theorem Holds.good (h : Holds options key entry) (hs : options.get? key = some value) :
    Good key value := by
  cases h with
  | set hs' hv =>
    rw [hs] at hs'
    obtain rfl := Option.some.inj hs'
    exact good_iff.mpr ⟨_, hv⟩
  | unset hs' => rw [hs] at hs'; cases hs'

theorem Holds.unique (h : Holds options key entry) (h' : Holds options key entry') :
    entry = entry' := by
  cases h with
  | set hs hv =>
    cases h' with
    | set hs' hv' =>
      rw [hs] at hs'
      obtain rfl := Option.some.inj hs'
      have hsame := (convert_eq_ok_iff.mpr hv).symm.trans (convert_eq_ok_iff.mpr hv')
      rw [Except.ok.inj hsame]
    | unset hs' => rw [hs] at hs'; cases hs'
  | unset hs =>
    cases h' with
    | set hs' hv' => rw [hs] at hs'; cases hs'
    | unset => rfl

theorem Formatted.unique (h : Formatted options values) (h' : Formatted options values') :
    values = values' := by
  have hunique : Relator.RightUnique (Holds options) := fun _ _ _ hx hy => hx.unique hy
  exact List.right_unique_forall₂' hunique h h'

theorem allGood_of_holds (h : List.Forall₂ (Holds options) ks values) : AllGood options ks :=
  ((List.forall₂_and_left _ _).mp (h.imp fun _ _ hk => ⟨fun _ => hk.good, hk⟩)).1

theorem allGood_of_filter (h : AllGood options (ks.filter options.contains)) :
    AllGood options ks := by
  intro key hkey value hs
  exact h key (List.mem_filter.mpr ⟨hkey, by rw [Table.contains, hs]; rfl⟩) value hs

theorem allGood_append : AllGood options (ks ++ rest) ↔ AllGood options ks ∧ AllGood options rest :=
  List.forall_mem_append

theorem Formatted.allGood (h : Formatted options values) : AllGood options keys := by
  obtain ⟨hmeasures, halignment⟩ := allGood_append.mp (allGood_of_holds h)
  exact allGood_append.mpr ⟨allGood_of_filter hmeasures, halignment⟩

theorem FirstBad.exists (h : FirstBad options ks b) :
    b.key ∈ ks ∧ options.get? b.key = some b.value ∧ ¬ Good b.key b.value := by
  induction h with
  | here hs hb => exact ⟨List.mem_cons_self, hs, hb⟩
  | later hg h ih => exact ⟨List.mem_cons_of_mem _ ih.1, ih.2⟩

theorem FirstBad.not_allGood (h : FirstBad options ks b) : ¬ AllGood options ks :=
  fun hgood => h.exists.2.2 (hgood _ h.exists.1 _ h.exists.2.1)

theorem FirstBad.unique (h : FirstBad options ks b) (h' : FirstBad options ks b') : b = b' := by
  induction h with
  | here hs hb =>
    cases h' with
    | here hs' hb' =>
      rw [hs] at hs'
      rw [Option.some.inj hs']
    | later hg h => exact absurd (hg _ hs) hb
  | later hg h ih =>
    cases h' with
    | here hs' hb' => exact absurd (hg _ hs') hb'
    | later hg' h' => exact ih h'

theorem FirstBad.append (h : FirstBad options ks b) (rest : List String) :
    FirstBad options (ks ++ rest) b := by
  induction h with
  | here hs hb => exact .here hs hb
  | later hg h ih => exact .later hg ih

theorem FirstBad.append_left (hg : AllGood options ks) (h : FirstBad options rest b) :
    FirstBad options (ks ++ rest) b := by
  induction ks with
  | nil => exact h
  | cons key ks ih =>
    obtain ⟨hkey, hks⟩ := List.forall_mem_cons.mp hg
    exact .later hkey (ih hks)

/-! ## Looking at one option after the other -/

theorem measures_ok (hks : alignmentKey ∉ ks) (h : measures options ks = .ok values) :
    List.Forall₂ (Holds options) (ks.filter options.contains) values := by
  induction ks generalizing values with
  | nil =>
    obtain rfl := Except.ok.inj h
    exact .nil
  | cons key ks ih =>
    obtain ⟨hkey, hks⟩ := not_or.mp (List.mem_cons.not.mp hks)
    rw [measures] at h
    split at h
    · next hs =>
      rw [List.filter_cons_of_neg (by simp [Table.contains, hs])]
      exact ih hks h
    · next value hs =>
      rw [List.filter_cons_of_pos (by simp [Table.contains, hs])]
      split at h
      · cases h
      · next v hv =>
        split at h
        · cases h
        · next more hmore =>
          obtain rfl := Except.ok.inj h
          exact .cons (.set hs (converts_of_measure (Ne.symm hkey) hv)) (ih hks hmore)

theorem measures_error (hks : alignmentKey ∉ ks) (h : measures options ks = .error b) :
    FirstBad options ks b := by
  induction ks with
  | nil => cases h
  | cons key ks ih =>
    obtain ⟨hkey, hks⟩ := not_or.mp (List.mem_cons.not.mp hks)
    rw [measures] at h
    split at h
    · next hs => exact .later (by rw [hs]; nofun) (ih hks h)
    · next value hs =>
      have hconvert : convert key value = measure key value := if_neg (Ne.symm hkey)
      split at h
      · next b' hb =>
        obtain rfl := Except.error.inj h
        obtain ⟨hbad, rfl⟩ := convert_eq_error_iff.mp (hconvert.trans hb)
        exact .here hs hbad
      · next v hv =>
        split at h
        · next b' hb =>
          obtain rfl := Except.error.inj h
          refine .later (fun value' hs' => ?_) (ih hks hb)
          rw [hs] at hs'
          obtain rfl := Option.some.inj hs'
          exact good_iff.mpr ⟨v, convert_eq_ok_iff.mp (hconvert.trans hv)⟩
        · cases h

theorem parameters_ok (h : parameters options = .ok values) : Formatted options values := by
  unfold parameters at h
  split at h
  · cases h
  · next measured hm =>
    have hmeasured := measures_ok (by decide) hm
    have hlast {v : FormattingValue} (hv : Holds options alignmentKey (alignmentKey, v)) :
        Formatted options (measured ++ [(alignmentKey, v)]) :=
      List.rel_append hmeasured (.cons hv .nil)
    split at h
    · next hs =>
      obtain rfl := Except.ok.inj h
      exact hlast (.unset hs)
    · next value hs =>
      cases ha : alignment value with
      | error b => rw [ha] at h; cases h
      | ok v =>
        rw [ha] at h
        obtain rfl := Except.ok.inj h
        exact hlast (.set hs (converts_of_alignment ha))

theorem parameters_error (h : parameters options = .error b) : FirstBad options keys b := by
  unfold parameters at h
  split at h
  · next b' hm =>
    obtain rfl := Except.error.inj h
    exact (measures_error (by decide) hm).append _
  · next measured hm =>
    have hgood := allGood_of_filter (allGood_of_holds (measures_ok (by decide) hm))
    refine .append_left hgood ?_
    split at h
    · cases h
    · next value hs =>
      cases ha : alignment value with
      | ok v => rw [ha] at h; cases h
      | error b' =>
        rw [ha] at h
        obtain rfl := Except.error.inj h
        have hconvert : convert alignmentKey value = .error b' := by rw [convert, if_pos rfl, ha]
        obtain ⟨hbad, rfl⟩ := convert_eq_error_iff.mp hconvert
        exact .here hs hbad

theorem parameters_eq_ok_iff : parameters options = .ok values ↔ Formatted options values := by
  refine ⟨parameters_ok, fun h => ?_⟩
  cases hp : parameters options with
  | ok values' => rw [(parameters_ok hp).unique h]
  | error b => exact absurd h.allGood (parameters_error hp).not_allGood

theorem parameters_eq_error_iff : parameters options = .error b ↔ FirstBad options keys b := by
  refine ⟨parameters_error, fun h => ?_⟩
  cases hp : parameters options with
  | ok values => exact absurd (parameters_ok hp).allGood h.not_allGood
  | error b' => rw [(parameters_error hp).unique h]

theorem measures_congr (h : ∀ key ∈ ks, other.get? key = options.get? key) :
    measures other ks = measures options ks := by
  induction ks with
  | nil => rfl
  | cons key ks ih =>
    obtain ⟨hkey, hks⟩ := List.forall_mem_cons.mp h
    rw [measures, measures, hkey, ih hks]

/-! ## Exactness -/

/-- A value that fits its option: only the alignment of the second field is an alignment, and it is
one or off. -/
def Fits (key : String) (v : FormattingValue) : Prop :=
  if key = alignmentKey then v = .flag false ∨ v = .alignment .flush ∨ v = .alignment .margin
  else ∀ a, v ≠ .alignment a

theorem Converts.fits (h : Converts key value v) : Fits key v := by
  unfold Fits
  cases h with
  | on hk => rw [if_neg hk]; nofun
  | off => split <;> simp
  | aligned hk a => rw [if_pos hk]; cases a <;> simp
  | whole hk hd hn => rw [if_neg hk]; nofun
  | real hk hd hn => rw [if_neg hk]; nofun

theorem Holds.fits (h : Holds options key entry) : Fits entry.1 entry.2 := by
  cases h with
  | set hs hv => exact hv.fits
  | unset hs => unfold Fits; split <;> simp

theorem Formatted.fits (h : Formatted options values) : ∀ entry ∈ values, Fits entry.1 entry.2 :=
  ((List.forall₂_and_left _ _).mp (List.Forall₂.flip (h.imp fun _ _ hk => ⟨hk.fits, hk⟩))).1

/-- What formatting is made of a table of options, if any. -/
structure Exact (options : Table String) : Prop where
  refused : (∃ b, parameters options = .error b) ↔
    ∃ key ∈ keys, ∃ value, options.get? key = some value ∧ ¬ Good key value
  first : ∀ b, parameters options = .error b ↔ FirstBad options keys b
  named : ∀ b, parameters options = .error b →
    ∃ rest, b.message = "invalid value for " ++ b.key ++ ": " ++ rest
  formatted : ∀ values, parameters options = .ok values ↔ Formatted options values
  fitting : ∀ values, parameters options = .ok values → ∀ entry ∈ values, Fits entry.1 entry.2
  elsewhere : ∀ other : Table String, (∀ key ∈ keys, other.get? key = options.get? key) →
    parameters other = parameters options

/-- **Formatting.** The options of a table are refused exactly if a formatting option has a bad
value, and then the first such option is named. Otherwise there is the value that each formatting
option means, in their order, and the alignment of the second field last, off unless it is set. No
other option matters. -/
theorem parameters_exact (options : Table String) : Exact options := by
  constructor
  case first => exact fun b => parameters_eq_error_iff
  case formatted => exact fun values => parameters_eq_ok_iff
  case fitting => exact fun values h => (parameters_ok h).fits
  case refused =>
    constructor
    · rintro ⟨b, hb⟩
      obtain ⟨hkey, hs, hbad⟩ := (parameters_error hb).exists
      exact ⟨b.key, hkey, b.value, hs, hbad⟩
    · rintro ⟨key, hkey, value, hs, hbad⟩
      cases hp : parameters options with
      | ok values => exact absurd ((parameters_ok hp).allGood key hkey value hs) hbad
      | error b => exact ⟨b, rfl⟩
  case named =>
    intro b _
    unfold BadOption.message
    exact ⟨_, String.append_assoc⟩
  case elsewhere =>
    intro other h
    obtain ⟨hmeasures, halignment⟩ := List.forall_mem_append.mp h
    rw [parameters, parameters, measures_congr hmeasures,
      halignment _ (List.mem_singleton.mpr rfl)]

example : parameters (.ofList [("second-field-align", "flush"), ("line-spacing", " 1_2.5e+1 ")]) =
    .ok [("line-spacing", .integer 125), ("second-field-align", .alignment .flush)] := by
  decide +kernel

end Formatting

end CiteStyle
