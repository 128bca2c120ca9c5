import CiteStyle.Number.Double
import Mathlib.Algebra.Order.Field.Power
import Mathlib.Data.Rat.Cast.Order
import Mathlib.Tactic.FieldSimp
import Mathlib.Tactic.Linarith
import Mathlib.Tactic.NormNum
import Mathlib.Tactic.Positivity
import Mathlib.Tactic.Ring

/-! # Rounding to double precision

`Nearest` says which number a magnitude is rounded to, in terms of exact rational numbers. There is
only one (`Nearest.unique`). The ratio of two whole numbers is rounded to it (`nearest_ofRatio`),
and so is a decimal number, of which the far ones are decided by their length alone
(`nearest_ofDecimal`). The argument is the same at every magnitude: with a unit that leaves a
significand of full length (`Fits`), the nearest number is the nearest whole number of units. -/

namespace CiteStyle.Double

/-! ## What is nearest -/

def Representable (v : ℚ) : Prop :=
  ∃ (m : ℕ) (e : ℤ), m < 2 ^ precision ∧ minExponent ≤ e ∧ e ≤ (maxPower : ℤ) - precision ∧
    v = m * 2 ^ e

/-- From here on a magnitude is too large: half-way from the largest finite number to the power of
two above it. -/
def limit : ℚ := 2 ^ maxPower - 2 ^ (maxPower - precision - 1)

/-- A significand and an exponent of a finite number. The significand is as long as it can be,
unless the exponent is the smallest one. -/
structure Canonical (m : ℕ) (e : ℤ) : Prop where
  short : m < 2 ^ precision
  least : minExponent ≤ e
  most : e ≤ (maxPower : ℤ) - precision
  full : m = 0 ∨ e = minExponent ∨ 2 ^ (precision - 1) ≤ m

/-- The number nearest to a magnitude, with a sign. Of two at the same distance it is the one with
the even significand. -/
inductive Nearest (negative : Bool) (x : ℚ) : Double → Prop
  | finite {m : ℕ} {e : ℤ} (hc : Canonical m e) (hx : x < limit)
      (hnear : ∀ v, Representable v → |x - m * 2 ^ e| ≤ |x - v|)
      (heven : ∀ v, Representable v → v ≠ m * 2 ^ e → |x - v| = |x - m * 2 ^ e| → Even m) :
      Nearest negative x (.finite negative m e)
  | infinite (hx : limit ≤ x) : Nearest negative x (.infinite negative)

/-! ## Whole numbers -/

/-- A whole number nearest to a rational one, the even one if there are two. -/
structure NearestWhole (q : ℚ) (m : ℕ) : Prop where
  half : |q - m| ≤ 1 / 2
  even : |q - m| = 1 / 2 → Even m

theorem nearestWhole_roundQuotient (n : ℕ) {d : ℕ} (hd : 0 < d) :
    NearestWhole ((n : ℚ) / d) (roundQuotient n d) := by
  have hdq : (0 : ℚ) < d := by exact_mod_cast hd
  -- the part of the quotient after the point
  obtain ⟨f, hf⟩ : ∃ f : ℚ, f = ((n % d : ℕ) : ℚ) / d := ⟨_, rfl⟩
  have hf0 : 0 ≤ f := hf ▸ by positivity
  have hf1 : f < 1 := by
    rw [hf, div_lt_one hdq]
    exact_mod_cast Nat.mod_lt n hd
  have hquotient : (n : ℚ) / d = (n / d : ℕ) + f := by
    have hn : (n : ℚ) = d * (n / d : ℕ) + (n % d : ℕ) := by
      exact_mod_cast (Nat.div_add_mod n d).symm
    rw [hf]
    field_simp
    exact hn
  have hhalf : f = 1 / 2 ↔ 2 * (n % d) = d := by
    rw [hf, div_eq_div_iff hdq.ne' two_ne_zero, one_mul, mul_comm]
    exact_mod_cast Iff.rfl
  have hlarge : 1 / 2 < f ↔ d < 2 * (n % d) := by
    rw [hf, div_lt_div_iff₀ two_pos hdq, one_mul, mul_comm _ (2 : ℚ)]
    exact_mod_cast Iff.rfl
  unfold roundQuotient
  dsimp only
  split
  · next hup =>
    simp only [Bool.or_eq_true, decide_eq_true_eq, Bool.and_eq_true, beq_iff_eq] at hup
    have hle : 1 / 2 ≤ f := hup.elim (fun h => (hlarge.mpr h).le) fun h => (hhalf.mpr h.1).ge
    have habs : |(n : ℚ) / d - (n / d + 1 : ℕ)| = 1 - f := by
      rw [hquotient, Nat.cast_add, Nat.cast_one, abs_sub_comm, abs_of_nonneg (by linarith)]
      ring
    refine ⟨by rw [habs]; linarith, fun heq => ?_⟩
    have hf2 : f = 1 / 2 := by rw [habs] at heq; linarith
    obtain hlt | ⟨-, hodd⟩ := hup
    · exact absurd hf2 (hlarge.mpr hlt).ne'
    · exact Nat.even_add_one.mpr (by rw [Nat.not_even_iff_odd, Nat.odd_iff]; exact hodd)
  · next hdown =>
    simp only [Bool.or_eq_true, decide_eq_true_eq, Bool.and_eq_true, beq_iff_eq, not_or,
      not_and] at hdown
    have hle : f ≤ 1 / 2 := not_lt.mp fun h => hdown.1 (hlarge.mp h)
    have habs : |(n : ℚ) / d - (n / d : ℕ)| = f := by
      rw [hquotient, add_sub_cancel_left, abs_of_nonneg hf0]
    refine ⟨by rw [habs]; exact hle, fun heq => ?_⟩
    have hodd := hdown.2 (hhalf.mp (habs ▸ heq))
    exact Nat.even_iff.mpr (by omega)

theorem NearestWhole.abs_sub_le {q : ℚ} {m : ℕ} (h : NearestWhole q m) (k : ℕ) :
    |q - m| ≤ |q - k| ∧ ((k : ℚ) ≠ m → |q - k| = |q - m| → Even m) := by
  by_cases hk : k = m
  · subst hk
    exact ⟨le_rfl, fun hne => absurd rfl hne⟩
  · have hone : (1 : ℚ) ≤ |(m : ℚ) - k| := by
      have : (1 : ℤ) ≤ |(m : ℤ) - k| := Int.one_le_abs (by omega)
      exact_mod_cast this
    have htriangle : |(m : ℚ) - k| ≤ |q - m| + |q - k| := by
      rw [abs_sub_comm q m]
      have := abs_add_le ((m : ℚ) - q) (q - k)
      rwa [sub_add_sub_cancel] at this
    have hhalf := h.half
    exact ⟨by linarith, fun _ heq => h.even (by linarith)⟩

/-! ## Units -/

theorem power_snd_pos {base : ℕ} (hb : 0 < base) (e : ℤ) : 0 < (power base e).2 := by
  unfold power
  split
  · exact Nat.one_pos
  · exact Nat.pow_pos hb

theorem power_fst_pos {base : ℕ} (hb : 0 < base) (e : ℤ) : 0 < (power base e).1 := by
  unfold power
  split
  · exact Nat.pow_pos hb
  · exact Nat.one_pos

theorem power_ratio (base : ℕ) (e : ℤ) :
    ((power base e).1 : ℚ) / (power base e).2 = (base : ℚ) ^ e := by
  unfold power
  split
  · next he =>
    obtain ⟨k, rfl⟩ := Int.eq_ofNat_of_zero_le he
    simp
  · next he =>
    obtain ⟨k, hk⟩ := Int.eq_ofNat_of_zero_le (show 0 ≤ -e by omega)
    obtain rfl : e = -(k : ℤ) := by omega
    simp

/-- A ratio in units of a power of two, as a quotient of whole numbers. -/
theorem ratio_in_units (n d : ℕ) (e : ℤ) :
    (n : ℚ) / d / 2 ^ e = (n * (power 2 e).2 : ℕ) / (d * (power 2 e).1 : ℕ) := by
  have h1 : ((power 2 e).1 : ℚ) ≠ 0 := by exact_mod_cast (power_fst_pos two_pos e).ne'
  have h2 : ((power 2 e).2 : ℚ) ≠ 0 := by exact_mod_cast (power_snd_pos two_pos e).ne'
  have hratio := power_ratio 2 e
  push_cast at hratio ⊢
  rw [← hratio]
  field_simp

theorem nearestWhole_inUnits (n : ℕ) {d : ℕ} (hd : 0 < d) (e : ℤ) :
    NearestWhole ((n : ℚ) / d / 2 ^ e) (inUnits n d e) := by
  rw [ratio_in_units]
  exact nearestWhole_roundQuotient _ (Nat.mul_pos hd (power_fst_pos two_pos e))

theorem le_quotient_iff (n : ℕ) {d : ℕ} (hd : 0 < d) (e : ℤ) (k : ℕ) :
    k ≤ n * (power 2 e).2 / (d * (power 2 e).1) ↔ (k : ℚ) * 2 ^ e ≤ n / d := by
  have hpos : 0 < d * (power 2 e).1 := Nat.mul_pos hd (power_fst_pos two_pos e)
  have hposq : (0 : ℚ) < (d * (power 2 e).1 : ℕ) := by exact_mod_cast hpos
  rw [Nat.le_div_iff_mul_le hpos, ← le_div_iff₀ (by positivity), ratio_in_units, le_div_iff₀ hposq]
  exact_mod_cast Iff.rfl

/-! ## The exponent -/

/-- An exponent at which a magnitude has a significand of full length, or the smallest one. -/
structure Fits (x : ℚ) (e : ℤ) : Prop where
  least : minExponent ≤ e
  short : x < 2 ^ precision * 2 ^ e
  full : e = minExponent ∨ 2 ^ (precision - 1) * 2 ^ e ≤ x

theorem two_zpow_le {a b : ℤ} (h : a ≤ b) : (2 : ℚ) ^ a ≤ 2 ^ b :=
  zpow_le_zpow_right₀ one_le_two h

theorem two_pow_mul_zpow (k : ℕ) (e : ℤ) : (2 : ℚ) ^ k * 2 ^ e = 2 ^ (k + e) := by
  rw [zpow_add₀ two_ne_zero, zpow_natCast]

theorem two_zpow_twice (a : ℤ) : (2 : ℚ) ^ a = 2 * 2 ^ (a - 1) := by
  rw [zpow_sub_one₀ two_ne_zero]
  ring

/-- A significand of full length is larger than all at a smaller exponent. -/
theorem full_le {m : ℕ} {e e' : ℤ} (h : e < e') (hm : 2 ^ (precision - 1) ≤ m) :
    (2 : ℚ) ^ precision * 2 ^ e ≤ m * 2 ^ e' := by
  have hp : (precision : ℤ) = 53 := rfl
  calc (2 : ℚ) ^ precision * 2 ^ e = 2 ^ (precision + e) := two_pow_mul_zpow _ _
    _ ≤ 2 ^ (((precision - 1 : ℕ) : ℤ) + e') := two_zpow_le (by omega)
    _ = 2 ^ (precision - 1) * 2 ^ e' := (two_pow_mul_zpow _ _).symm
    _ ≤ m * 2 ^ e' := by
      gcongr
      exact_mod_cast hm

theorem lt_full {m : ℕ} (h : m < 2 ^ precision) (e : ℤ) :
    (m : ℚ) * 2 ^ e < 2 ^ precision * 2 ^ e := by
  gcongr
  exact_mod_cast h

/-- The ratio of two numbers lies within a power of two of the ratio of their leading bits. -/
theorem ratio_bounds {n d : ℕ} (hn : 0 < n) (hd : 0 < d) :
    (2 : ℚ) ^ ((n.log2 : ℤ) - d.log2 - 1) < n / d ∧
      (n : ℚ) / d < 2 ^ ((n.log2 : ℤ) - d.log2 + 1) := by
  have hdq : (0 : ℚ) < d := by exact_mod_cast hd
  have hn1 : (2 : ℚ) ^ n.log2 ≤ n := by exact_mod_cast Nat.log2_self_le hn.ne'
  have hn2 : (n : ℚ) < 2 ^ (n.log2 + 1) := by exact_mod_cast Nat.lt_log2_self
  have hd1 : (2 : ℚ) ^ d.log2 ≤ d := by exact_mod_cast Nat.log2_self_le hd.ne'
  have hd2 : (d : ℚ) < 2 ^ (d.log2 + 1) := by exact_mod_cast Nat.lt_log2_self
  constructor
  · rw [lt_div_iff₀ hdq]
    calc (2 : ℚ) ^ ((n.log2 : ℤ) - d.log2 - 1) * d
        < 2 ^ ((n.log2 : ℤ) - d.log2 - 1) * 2 ^ (d.log2 + 1) := by gcongr
      _ = 2 ^ n.log2 := by
        rw [mul_comm, two_pow_mul_zpow, ← zpow_natCast]
        congr 1
        push_cast
        ring
      _ ≤ n := hn1
  · rw [div_lt_iff₀ hdq]
    calc (n : ℚ) < 2 ^ (n.log2 + 1) := hn2
      _ = 2 ^ ((n.log2 : ℤ) - d.log2 + 1) * 2 ^ d.log2 := by
        rw [mul_comm, two_pow_mul_zpow, ← zpow_natCast]
        congr 1
        push_cast
        ring
      _ ≤ 2 ^ ((n.log2 : ℤ) - d.log2 + 1) * d := by gcongr

theorem fits_exponentOf {n d : ℕ} (hn : 0 < n) (hd : 0 < d) :
    Fits ((n : ℚ) / d) (exponentOf n d) := by
  obtain ⟨hlow, hhigh⟩ := ratio_bounds hn hd
  unfold exponentOf
  dsimp only
  generalize hl : max ((n.log2 : ℤ) - d.log2 - precision) minExponent = low
  have hlong := le_quotient_iff n hd low (2 ^ precision)
  rw [Nat.cast_pow, Nat.cast_ofNat, two_pow_mul_zpow] at hlong
  have hprecision : (precision : ℤ) = 53 := rfl
  split
  · next h =>
    refine ⟨by omega, ?_, .inr ?_⟩
    · rw [two_pow_mul_zpow]
      exact hhigh.trans_le (two_zpow_le (by omega))
    · rw [two_pow_mul_zpow]
      exact (two_zpow_le (by omega)).trans (hlong.mp h)
  · next h =>
    refine ⟨by omega, ?_, ?_⟩
    · rw [two_pow_mul_zpow]
      exact not_le.mp fun hle => h (hlong.mpr hle)
    · by_cases hmin : low = minExponent
      · exact .inl hmin
      · right
        rw [two_pow_mul_zpow]
        exact (two_zpow_le (by omega)).trans hlow.le

/-! ## Nearest magnitudes -/

variable {x v : ℚ} {e : ℤ} {m : ℕ} {negative : Bool}

theorem abs_sub_mul_zpow (x : ℚ) (k : ℕ) (e : ℤ) : |x - k * 2 ^ e| = |x / 2 ^ e - k| * 2 ^ e := by
  have hpos : (0 : ℚ) < 2 ^ e := by positivity
  calc |x - k * 2 ^ e| = |(x / 2 ^ e - k) * 2 ^ e| := by rw [sub_mul, div_mul_cancel₀ x hpos.ne']
    _ = |x / 2 ^ e - k| * 2 ^ e := by rw [abs_mul, abs_of_pos hpos]

/-- What a finite number can be is a multiple of the unit, or it is smaller than all with a
significand of full length. -/
theorem Representable.cases (hv : Representable v) (hf : Fits x e) :
    (∃ k : ℕ, v = k * 2 ^ e) ∨
      v < 2 ^ (precision - 1) * 2 ^ e ∧ 2 ^ (precision - 1) * 2 ^ e ≤ x := by
  obtain ⟨m', e', hshort, hleast, -, rfl⟩ := hv
  by_cases he : e ≤ e'
  · left
    obtain ⟨k, hk⟩ := Int.eq_ofNat_of_zero_le (show 0 ≤ e' - e by omega)
    refine ⟨m' * 2 ^ k, ?_⟩
    rw [show e' = k + e by omega, ← two_pow_mul_zpow]
    push_cast
    ring
  · right
    have hfull := full_le (show e' < e by omega) le_rfl
    push_cast at hfull
    exact ⟨(lt_full hshort e').trans_le hfull, hf.full.resolve_left (by omega)⟩

theorem NearestWhole.nearest (hm : NearestWhole (x / 2 ^ e) m) (hf : Fits x e)
    (hv : Representable v) :
    |x - m * 2 ^ e| ≤ |x - v| ∧ (v ≠ m * 2 ^ e → |x - v| = |x - m * 2 ^ e| → Even m) := by
  have hpos : (0 : ℚ) < 2 ^ e := by positivity
  have hmultiple (k : ℕ) : |x - m * 2 ^ e| ≤ |x - k * 2 ^ e| := by
    rw [abs_sub_mul_zpow, abs_sub_mul_zpow]
    exact mul_le_mul_of_nonneg_right (hm.abs_sub_le k).1 hpos.le
  obtain ⟨k, rfl⟩ | ⟨hlow, hx⟩ := hv.cases hf
  · refine ⟨hmultiple k, fun hne heq => (hm.abs_sub_le k).2 ?_ ?_⟩
    · rintro hk
      exact hne (by rw [hk])
    · rw [abs_sub_mul_zpow, abs_sub_mul_zpow] at heq
      exact mul_right_cancel₀ hpos.ne' heq
  · -- the least significand of full length is nearer
    have hfull := hmultiple (2 ^ (precision - 1))
    push_cast at hfull
    rw [abs_of_nonneg (sub_nonneg.mpr hx)] at hfull
    have hstrict : |x - m * 2 ^ e| < |x - v| := by
      rw [abs_of_pos (a := x - v) (by linarith)]
      linarith
    exact ⟨hstrict.le, fun _ heq => absurd heq hstrict.ne'⟩

/-! ## Rounded significands -/

theorem precision_eq : (precision : ℤ) = 53 := rfl

theorem maxPower_eq : (maxPower : ℤ) = 1024 := rfl

theorem NearestWhole.le_of_lt (hm : NearestWhole x m) {k : ℕ} (hx : x < k) : m ≤ k := by
  have habs := abs_le.mp hm.half
  have hlt : (m : ℚ) < k + 1 := by linarith
  exact Nat.lt_succ_iff.mp (by exact_mod_cast hlt)

theorem NearestWhole.ge_of_le (hm : NearestWhole x m) {k : ℕ} (hx : k ≤ x) : k ≤ m := by
  have habs := abs_le.mp hm.half
  have hlt : (k : ℚ) < m + 1 := by linarith
  exact Nat.lt_succ_iff.mp (by exact_mod_cast hlt)

/-- Half-way to an even number is rounded up to it. -/
theorem NearestWhole.le_iff_of_even (hm : NearestWhole x m) {k : ℕ} (hk : Even k) :
    k ≤ m ↔ (k : ℚ) - 1 / 2 ≤ x := by
  obtain ⟨hlow, hhigh⟩ := abs_le.mp hm.half
  constructor
  · intro hle
    have hleq : (k : ℚ) ≤ m := by exact_mod_cast hle
    linarith
  · intro hx
    by_contra hlt
    have hleq : (m : ℚ) + 1 ≤ k := by exact_mod_cast not_le.mp hlt
    have hnext : m + 1 = k := by
      have hgeq : (k : ℚ) ≤ m + 1 := by linarith
      exact_mod_cast le_antisymm hleq hgeq
    have heven := hm.even (by rw [abs_of_nonneg] <;> linarith)
    exact Nat.even_add_one.mp (hnext ▸ hk) heven

theorem too_large_iff (m : ℕ) (e : ℤ) :
    m * (power 2 e).1 ≥ Nat.pow 2 maxPower * (power 2 e).2 ↔
      (2 : ℚ) ^ (maxPower : ℤ) ≤ m * 2 ^ e := by
  have hratio := power_ratio 2 e
  have hpos : (0 : ℚ) < (power 2 e).2 := by exact_mod_cast power_snd_pos two_pos e
  rw [Nat.cast_ofNat] at hratio
  generalize maxPower = k
  rw [← hratio, mul_div_assoc', le_div_iff₀ hpos, zpow_natCast]
  exact_mod_cast Iff.rfl

/-- The significand of a magnitude is at most one bit too long, and otherwise of full length or at
the smallest exponent. -/
theorem NearestWhole.significand (hm : NearestWhole (x / 2 ^ e) m) (hf : Fits x e) :
    m ≤ 2 ^ precision ∧ (e = minExponent ∨ 2 ^ (precision - 1) ≤ m) := by
  have hpos : (0 : ℚ) < 2 ^ e := by positivity
  refine ⟨hm.le_of_lt ?_, hf.full.imp_right fun h => hm.ge_of_le ?_⟩
  · rw [div_lt_iff₀ hpos]
    exact_mod_cast hf.short
  · rw [le_div_iff₀ hpos]
    exact_mod_cast h

theorem limit_eq : limit = 2 ^ (maxPower : ℤ) - 2 ^ ((maxPower : ℤ) - precision - 1) := by
  rw [limit, ← zpow_natCast, ← zpow_natCast]
  rfl

/-- A magnitude is too large exactly if its significand is, although that is rounded: half-way to a
power of two it is rounded up, as the significand below is odd. -/
theorem limit_le_iff (hm : NearestWhole (x / 2 ^ e) m) (hf : Fits x e) :
    (2 : ℚ) ^ (maxPower : ℤ) ≤ m * 2 ^ e ↔ limit ≤ x := by
  have hpos : (0 : ℚ) < 2 ^ e := by positivity
  have hp := precision_eq
  have hmax := maxPower_eq
  have hmin : minExponent = -1074 := rfl
  obtain ⟨hshort, hfull⟩ := hm.significand hf
  rw [limit_eq]
  obtain hlarge | hedge | hsmall : maxPower - precision < e ∨ e = maxPower - precision ∨
      e < maxPower - precision := by omega
  · -- a significand of full length is too large here
    have hbig : (2 : ℚ) ^ (maxPower : ℤ) ≤ 2 ^ (precision - 1) * 2 ^ e := by
      rw [two_pow_mul_zpow]
      exact two_zpow_le (by omega)
    have hne : e ≠ minExponent := by omega
    refine iff_of_true (hbig.trans ?_) ?_
    · gcongr
      exact_mod_cast hfull.resolve_left hne
    · refine le_trans ?_ (hbig.trans (hf.full.resolve_left hne))
      exact sub_le_self _ (by positivity)
  · -- only a significand that is rounded up to one bit more is
    have hpower : (2 : ℚ) ^ (maxPower : ℤ) = 2 ^ precision * 2 ^ e := by
      rw [two_pow_mul_zpow, show (maxPower : ℤ) = precision + e by omega]
    have hunit : (2 : ℚ) ^ ((maxPower : ℤ) - precision - 1) = 1 / 2 * 2 ^ e := by
      rw [← hedge, two_zpow_twice e]
      ring
    have hround := hm.le_iff_of_even (show Even (2 ^ precision) by decide)
    rw [hpower, hunit, ← sub_mul, mul_le_mul_iff_left₀ hpos, ← le_div_iff₀ hpos]
    exact_mod_cast hround
  · -- nothing is too large below
    have hbelow : (2 : ℚ) ^ precision * 2 ^ e ≤ 2 ^ ((maxPower : ℤ) - 1) := by
      rw [two_pow_mul_zpow]
      exact two_zpow_le (by omega)
    have htwice := two_zpow_twice maxPower
    have hgap : (2 : ℚ) ^ ((maxPower : ℤ) - precision - 1) ≤ 2 ^ ((maxPower : ℤ) - 1) :=
      two_zpow_le (by omega)
    have hsmall : (m : ℚ) * 2 ^ e ≤ 2 ^ precision * 2 ^ e := by
      gcongr
      exact_mod_cast hshort
    have hpositive : (0 : ℚ) < 2 ^ ((maxPower : ℤ) - 1) := by positivity
    have hx := hf.short
    exact iff_of_false (by linarith) (by linarith)

theorem exponent_lt {k : ℕ} (hk : 2 ^ k ≤ m) (h : (m : ℚ) * 2 ^ e < 2 ^ (maxPower : ℤ)) :
    k + e < maxPower := by
  refine (zpow_lt_zpow_iff_right₀ one_lt_two).mp (lt_of_le_of_lt ?_ h)
  rw [← two_pow_mul_zpow]
  gcongr
  exact_mod_cast hk

theorem nearest_ofRounded (hm : NearestWhole (x / 2 ^ e) m) (hf : Fits x e) :
    Nearest negative x (ofRounded negative m e) := by
  obtain ⟨hshort, hfull⟩ := hm.significand hf
  have hlarge := (too_large_iff m e).trans (limit_le_iff hm hf)
  unfold ofRounded
  split
  · next h => exact .infinite (hlarge.mp h)
  · next h =>
    have hx : x < limit := not_le.mp fun hle => h (hlarge.mpr hle)
    have hsmall : (m : ℚ) * 2 ^ e < 2 ^ (maxPower : ℤ) :=
      not_le.mp fun hle => h ((too_large_iff m e).mpr hle)
    have hnear (v : ℚ) (hv : Representable v) := hm.nearest hf hv
    have hp := precision_eq
    have hmax := maxPower_eq
    have hleast := hf.least
    split
    · next hcarry =>
      have hsame : ((Nat.pow 2 (precision - 1) : ℕ) : ℚ) * 2 ^ (e + 1) = m * 2 ^ e := by
        rw [hcarry, zpow_add_one₀ two_ne_zero]
        norm_num [precision]
        ring
      have he := exponent_lt hcarry.ge hsmall
      refine .finite ⟨by decide, by omega, by omega, .inr (.inr le_rfl)⟩ hx ?_
        fun _ _ _ _ => by decide
      intro v hv
      rw [hsame]
      exact (hnear v hv).1
    · next hcarry =>
      refine .finite ⟨lt_of_le_of_ne hshort hcarry, hleast, ?_, .inr hfull⟩ hx
        (fun v hv => (hnear v hv).1) fun v hv => (hnear v hv).2
      obtain rfl | hlong := hfull
      · decide
      · have he := exponent_lt hlong hsmall
        omega

/-! ## Ratios and decimal numbers -/

/-- What is smaller than half the smallest magnitude is rounded to zero. -/
theorem nearest_zero (hx : 0 ≤ x) (hsmall : x < 2 ^ (minExponent - 1)) :
    Nearest negative x (.finite negative 0 0) := by
  have htwice := two_zpow_twice minExponent
  refine .finite ⟨by decide, by decide, by decide, .inl rfl⟩ ?_ ?_ fun _ _ _ _ => by decide
  · have hedge : (2 : ℚ) ^ (minExponent - 1) ≤ 2 ^ ((maxPower : ℤ) - precision - 1) :=
      two_zpow_le (by decide)
    have hfar : 2 * (2 : ℚ) ^ ((maxPower : ℤ) - precision - 1) ≤ 2 ^ (maxPower : ℤ) := by
      rw [← zpow_one_add₀ two_ne_zero]
      exact two_zpow_le (by decide)
    rw [limit_eq]
    linarith
  · rintro v ⟨m, e, -, hleast, -, rfl⟩
    rw [Nat.cast_zero, zero_mul, sub_zero, abs_of_nonneg hx]
    obtain rfl | hm := Nat.eq_zero_or_pos m
    · simp [abs_of_nonneg hx]
    · have hv : (2 : ℚ) ^ minExponent ≤ m * 2 ^ e := by
        have hone : (1 : ℚ) ≤ m := by exact_mod_cast hm
        calc (2 : ℚ) ^ minExponent ≤ 2 ^ e := two_zpow_le hleast
          _ ≤ m * 2 ^ e := le_mul_of_one_le_left (by positivity) hone
      rw [abs_sub_comm, abs_of_nonneg (by linarith)]
      linarith

/-- **Rounding a ratio.** -/
theorem nearest_ofRatio (negative : Bool) (n : ℕ) {d : ℕ} (hd : 0 < d) :
    Nearest negative ((n : ℚ) / d) (ofRatio negative n d) := by
  unfold ofRatio
  split
  · next hn =>
    rw [hn, Nat.cast_zero, zero_div]
    exact nearest_zero le_rfl (by positivity)
  · next hn =>
    exact nearest_ofRounded (nearestWhole_inUnits n hd _)
      (fits_exponentOf (Nat.pos_of_ne_zero hn) hd)

theorem digitCount_bounds {n : ℕ} (hn : 0 < n) :
    10 ^ (digitCount n - 1) ≤ n ∧ n < 10 ^ digitCount n := by
  have hpos : 0 < digitCount n := Nat.length_toDigits_pos
  refine ⟨not_lt.mp fun hlt => ?_, (Nat.length_toDigits_le_iff (by decide) hpos).mp le_rfl⟩
  obtain hone | hmany := Nat.eq_zero_or_pos (digitCount n - 1)
  · rw [hone] at hlt
    omega
  · have hle : digitCount n ≤ digitCount n - 1 :=
      (Nat.length_toDigits_le_iff (by decide) hmany).mpr hlt
    omega

/-- A decimal number lies between two powers of ten. -/
theorem decimal_bounds {n : ℕ} (hn : 0 < n) (e : ℤ) :
    (10 : ℚ) ^ ((digitCount n : ℤ) + e - 1) ≤ n * 10 ^ e ∧
      (n : ℚ) * 10 ^ e < 10 ^ ((digitCount n : ℤ) + e) := by
  obtain ⟨hlow, hhigh⟩ := digitCount_bounds hn
  have hpos : 0 < digitCount n := Nat.length_toDigits_pos
  constructor
  · rw [show (digitCount n : ℤ) + e - 1 = (digitCount n - 1 : ℕ) + e by omega,
      zpow_add₀ (by norm_num), zpow_natCast]
    gcongr
    exact_mod_cast hlow
  · rw [zpow_add₀ (by norm_num), zpow_natCast]
    gcongr
    exact_mod_cast hhigh

theorem limit_le_far : limit ≤ (10 : ℚ) ^ (310 : ℤ) := by
  have hfar : 2 ^ maxPower ≤ 10 ^ 310 := by decide +kernel
  have hfarq : (2 : ℚ) ^ maxPower ≤ 10 ^ 310 := by exact_mod_cast hfar
  rw [limit, zpow_ofNat]
  exact (sub_le_self _ (by positivity)).trans hfarq

theorem far_lt_smallest : (10 : ℚ) ^ (-331 : ℤ) < 2 ^ (minExponent - 1) := by
  have hfar : 2 ^ 1075 < 10 ^ 331 := by decide +kernel
  have hfarq : (2 : ℚ) ^ 1075 < 10 ^ 331 := by exact_mod_cast hfar
  rw [show minExponent - 1 = -1075 from rfl, zpow_neg, zpow_neg, zpow_ofNat, zpow_ofNat]
  exact inv_strictAnti₀ (by positivity) hfarq

/-- **Rounding a decimal number.** -/
theorem nearest_ofDecimal (negative : Bool) (digits : ℕ) (e : ℤ) :
    Nearest negative (digits * 10 ^ e) (ofDecimal negative digits e) := by
  unfold ofDecimal
  split
  · next hn =>
    rw [hn, Nat.cast_zero, zero_mul]
    exact nearest_zero le_rfl (by positivity)
  · next hn =>
    obtain ⟨hlow, hhigh⟩ := decimal_bounds (Nat.pos_of_ne_zero hn) e
    dsimp only
    split
    · next hfar =>
      refine .infinite (limit_le_far.trans (le_trans ?_ hlow))
      exact zpow_le_zpow_right₀ (by norm_num) (by omega)
    · split
      · next hfar =>
        refine nearest_zero (by positivity) (hhigh.trans_le (le_trans ?_ far_lt_smallest.le))
        exact zpow_le_zpow_right₀ (by norm_num) (by omega)
      · have hratio := nearest_ofRatio negative (digits * (power 10 e).1)
          (power_snd_pos (show 0 < 10 by decide) e)
        rwa [Nat.cast_mul, mul_div_assoc, power_ratio] at hratio

/-! ## Exact values -/

def value? : Double → Option ℚ
  | .finite negative m e => some (if negative then -(m * 2 ^ e) else m * 2 ^ e)
  | _ => none

theorem quotient_eq_iff (a : ℕ) {b : ℕ} (hb : 0 < b) (k : ℤ) :
    (a : ℚ) / b = k ↔ a % b = 0 ∧ ((a / b : ℕ) : ℤ) = k := by
  have hbq : (b : ℚ) ≠ 0 := by exact_mod_cast hb.ne'
  rw [div_eq_iff hbq]
  constructor
  · intro h
    have hint : (a : ℤ) = k * b := by exact_mod_cast h
    have hdvd : b ∣ a := by exact_mod_cast Dvd.intro_left k hint.symm
    refine ⟨Nat.mod_eq_zero_of_dvd hdvd, ?_⟩
    rw [Int.natCast_ediv, hint, Int.mul_ediv_cancel _ (by exact_mod_cast hb.ne')]
  · rintro ⟨hmod, rfl⟩
    exact_mod_cast (Nat.div_mul_cancel (Nat.dvd_of_mod_eq_zero hmod)).symm

/-- **Whole numbers.** A number is given as a whole one exactly if it is one. -/
theorem integer?_eq_some_iff {d : Double} {n : ℤ} :
    d.integer? = some n ↔ d.value? = some (n : ℚ) := by
  cases d with
  | infinite negative => exact ⟨nofun, nofun⟩
  | nan => exact ⟨nofun, nofun⟩
  | finite negative m e =>
    have hpos := power_snd_pos two_pos e
    have hvalue : (m : ℚ) * 2 ^ e = (m * (power 2 e).1 : ℕ) / ((power 2 e).2 : ℕ) := by
      have hratio := power_ratio 2 e
      rw [Nat.cast_ofNat] at hratio
      rw [Nat.cast_mul, mul_div_assoc, hratio]
    have hwhole (k : ℤ) := quotient_eq_iff (m * (power 2 e).1) hpos k
    rw [← hvalue] at hwhole
    cases negative with
    | false =>
      simp only [integer?, value?, Bool.false_eq_true, if_false, Option.some.injEq, hwhole]
      split <;> simp [*]
    | true =>
      simp only [integer?, value?, if_true, Option.some.injEq, neg_eq_iff_eq_neg, ← Int.cast_neg,
        hwhole]
      split <;> simp [*, neg_eq_iff_eq_neg]

/-! ## The one nearest number -/

variable {m' : ℕ} {e' : ℤ} {d d' : Double}

theorem Canonical.representable (h : Canonical m e) : Representable (m * 2 ^ e) :=
  ⟨m, e, h.short, h.least, h.most, rfl⟩

/-- Unless it is zero, a finite number that is not larger has no larger exponent. -/
theorem Canonical.exponent_le (h : Canonical m e) (h' : Canonical m' e') (hm : 0 < m)
    (hle : (m : ℚ) * 2 ^ e ≤ m' * 2 ^ e') : e ≤ e' := by
  by_contra hlt
  have hleast := h'.least
  have hlong := (h.full.resolve_left hm.ne').resolve_left (by omega)
  exact absurd hle (not_le.mpr ((lt_full h'.short e').trans_le (full_le (not_le.mp hlt) hlong)))

/-- A finite number other than zero has one significand and one exponent. -/
theorem Canonical.unique (h : Canonical m e) (h' : Canonical m' e') (hm : 0 < m)
    (heq : (m : ℚ) * 2 ^ e = m' * 2 ^ e') : m = m' ∧ e = e' := by
  have hm' : 0 < m' := by
    refine Nat.pos_of_ne_zero ?_
    rintro rfl
    rw [Nat.cast_zero, zero_mul] at heq
    have hpos : (0 : ℚ) < m * 2 ^ e := by positivity
    exact hpos.ne' heq
  obtain rfl : e = e' := le_antisymm (h.exponent_le h' hm heq.le) (h'.exponent_le h hm' heq.ge)
  have hpos : (0 : ℚ) < 2 ^ e := by positivity
  exact ⟨by exact_mod_cast mul_right_cancel₀ hpos.ne' heq, rfl⟩

/-- Between two numbers with even significands lies another one. -/
theorem Canonical.exists_between (h : Canonical m e) (h' : Canonical m' e') (hm : Even m)
    (hm' : Even m') (hlt : (m : ℚ) * 2 ^ e < m' * 2 ^ e') :
    ∃ w, Representable w ∧ (m : ℚ) * 2 ^ e < w ∧ w < m' * 2 ^ e' := by
  have hpos : (0 : ℚ) < 2 ^ e := by positivity
  have hpos' : (0 : ℚ) < 2 ^ e' := by positivity
  obtain rfl | hm0 := Nat.eq_zero_or_pos m
  · -- half of the other number
    obtain ⟨k, rfl⟩ := hm'
    rw [Nat.cast_zero, zero_mul] at hlt ⊢
    have hk : 0 < k := by
      have hboth : 0 < k + k := by exact_mod_cast pos_of_mul_pos_left hlt hpos'.le
      omega
    have hshort := h'.short
    refine ⟨k * 2 ^ e', ⟨k, e', by omega, h'.least, h'.most, rfl⟩, by positivity, ?_⟩
    gcongr
    omega
  · -- one unit above the smaller number
    have hshort : m + 1 < 2 ^ precision := by
      have hbound := h.short
      have heven : (2 : ℕ) ^ precision = 2 * 2 ^ (precision - 1) := by decide
      obtain ⟨k, rfl⟩ := hm
      omega
    refine ⟨(m + 1 : ℕ) * 2 ^ e, ⟨m + 1, e, hshort, h.least, h.most, rfl⟩, ?_, ?_⟩
    · gcongr
      exact Nat.lt_succ_self m
    · obtain rfl | he := (h.exponent_le h' hm0 hlt.le).eq_or_lt
      · have hmlt : m < m' := by exact_mod_cast lt_of_mul_lt_mul_right hlt hpos.le
        gcongr
        obtain ⟨k, rfl⟩ := hm
        obtain ⟨k', rfl⟩ := hm'
        omega
      · have hm0' : m' ≠ 0 := by
          rintro rfl
          rw [Nat.cast_zero, zero_mul] at hlt
          exact absurd hlt (not_lt.mpr (by positivity))
        have hleast := h.least
        have hlong := (h'.full.resolve_left hm0').resolve_left (by omega)
        exact (lt_full hshort e).trans_le (full_le he hlong)

theorem Nearest.not_smaller (h : Nearest negative x (.finite negative m e))
    (h' : Nearest negative x (.finite negative m' e')) : ¬ (m : ℚ) * 2 ^ e < m' * 2 ^ e' := by
  intro hlt
  obtain ⟨hc, -, hnear, heven⟩ := h
  obtain ⟨hc', -, hnear', heven'⟩ := h'
  have hsame := le_antisymm (hnear _ hc'.representable) (hnear' _ hc.representable)
  obtain ⟨w, hw, hlow, hhigh⟩ := hc.exists_between hc'
    (heven _ hc'.representable hlt.ne' hsame.symm) (heven' _ hc.representable hlt.ne hsame) hlt
  obtain hx | hx := le_total x w
  · have hcloser := hnear' w hw
    rw [abs_of_nonpos (sub_nonpos.mpr hx), abs_of_nonpos (by linarith)] at hcloser
    linarith
  · have hcloser := hnear w hw
    rw [abs_of_nonneg (sub_nonneg.mpr hx), abs_of_nonneg (by linarith)] at hcloser
    linarith

/-- **The nearest number.** There is one, but for the exponent of zero. -/
theorem Nearest.unique (h : Nearest negative x d) (h' : Nearest negative x d') :
    d = d' ∨ d.value? = some 0 ∧ d'.value? = some 0 := by
  cases h with
  | infinite hx =>
    cases h' with
    | infinite => exact .inl rfl
    | finite hc' hx' => exact absurd hx (not_le.mpr hx')
  | @finite m e hc hx hnear heven =>
    cases h' with
    | infinite hx' => exact absurd hx' (not_le.mpr hx)
    | @finite m' e' hc' hx' hnear' heven' =>
      have h : Nearest negative x (.finite negative m e) := .finite hc hx hnear heven
      have h' : Nearest negative x (.finite negative m' e') := .finite hc' hx' hnear' heven'
      have heq := le_antisymm (not_lt.mp (h'.not_smaller h)) (not_lt.mp (h.not_smaller h'))
      obtain rfl | hm := Nat.eq_zero_or_pos m
      · right
        rw [Nat.cast_zero, zero_mul] at heq
        simp [value?, ← heq]
      · obtain ⟨rfl, rfl⟩ := hc.unique hc' hm heq
        exact .inl rfl

end CiteStyle.Double
