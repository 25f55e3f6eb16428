import DataAccess.Decimal.Shortest
import DataAccess.Proofs.Decimal.Digits
import Mathlib.Tactic.Positivity
import Mathlib.Tactic.Ring

/-!
# Intervals of binary numbers

The interval of a binary number ends where that of the next one starts, and their common end belongs
to one of the two: so no real is in the intervals of two numbers (`eq_of_contains`). With seventeen
digits the multiples of a power of ten are closer together than the interval is wide, so the search
for a shortest decimal finds one in the interval (`contains_shortest`).
-/

namespace DataAccess.Decimal

/-- The number that a decimal stands for. -/
def Scientific.toRat (d : Scientific) : ℚ := d.digits * (10 : ℚ) ^ d.exponent

theorem zpow_mul_pow_toNat_neg {a : ℚ} (ha : a ≠ 0) (e : ℤ) :
    a ^ e * a ^ (-e).toNat = a ^ e.toNat := by
  rw [← zpow_natCast, ← zpow_natCast, ← zpow_add₀ ha]
  congr 1
  omega

namespace Interval

variable {i : Interval} {tieUp : Bool} {exponent : Int} {d : Scientific} {n : Nat} {q : ℚ}

/-- The reals of an interval, its ends among them when it is closed. -/
def Contains (i : Interval) (q : ℚ) : Prop :=
  if i.closed then i.low ≤ q * i.denominator ∧ q * i.denominator ≤ i.high
  else i.low < q * i.denominator ∧ q * i.denominator < i.high

/-- A multiple of a power of ten lies in an interval. -/
def hits (i : Interval) (exponent : Int) (n : Nat) : Bool :=
  let up := Nat.pow 10 (-exponent).toNat
  let unit := i.denominator * Nat.pow 10 exponent.toNat
  if i.closed then i.low * up ≤ n * unit && n * unit ≤ i.high * up
  else i.low * up < n * unit && n * unit < i.high * up

theorem hits_iff : i.hits exponent n = true ↔ i.Contains (Scientific.toRat ⟨n, exponent⟩) := by
  have pos : (0 : ℚ) < 10 ^ (-exponent).toNat := by positivity
  have scaled : (n : ℚ) * 10 ^ exponent * i.denominator * 10 ^ (-exponent).toNat =
      n * (i.denominator * 10 ^ exponent.toNat) := by
    rw [← zpow_mul_pow_toNat_neg (by norm_num) exponent]
    ring
  unfold hits Contains Scientific.toRat
  split
  · rw [Bool.and_eq_true, decide_eq_true_eq, decide_eq_true_eq, ← mul_le_mul_iff_left₀ pos,
      ← mul_le_mul_iff_left₀ pos (b := (n : ℚ) * 10 ^ exponent * i.denominator), scaled]
    norm_cast
  · rw [Bool.and_eq_true, decide_eq_true_eq, decide_eq_true_eq, ← mul_lt_mul_iff_left₀ pos,
      ← mul_lt_mul_iff_left₀ pos (b := (n : ℚ) * 10 ^ exponent * i.denominator), scaled]
    norm_cast

/-- The greatest multiple of a power of ten that is not above the number. -/
def below (i : Interval) (exponent : Int) : Nat :=
  i.value * Nat.pow 10 (-exponent).toNat / (i.denominator * Nat.pow 10 exponent.toNat)

theorem contains_of_nearest? (h : i.nearest? tieUp exponent = some d) : i.Contains d.toRat := by
  have found : ∃ n, i.hits exponent n = true ∧ ⟨n, exponent⟩ = d := by
    simp only [nearest?] at h
    split at h
    · rename_i lower upper
      split at h
      · exact ⟨i.below exponent, lower, Option.some.inj h⟩
      · exact ⟨i.below exponent + 1, upper, Option.some.inj h⟩
    · rename_i lower upper
      exact ⟨i.below exponent, lower, Option.some.inj h⟩
    · rename_i lower upper
      exact ⟨i.below exponent + 1, upper, Option.some.inj h⟩
    · cases h
  obtain ⟨n, hit, rfl⟩ := found
  exact hits_iff.mp hit

theorem exists_nearest? (h : i.hits exponent (i.below exponent) = true ∨
    i.hits exponent (i.below exponent + 1) = true) : ∃ d, i.nearest? tieUp exponent = some d := by
  rw [← Option.isSome_iff_exists]
  simp only [nearest?]
  split
  · split <;> rfl
  · rfl
  · rfl
  · rename_i lower upper
    rcases h with h | h
    · exact absurd (lower.symm.trans h) (by decide)
    · exact absurd (upper.symm.trans h) (by decide)

/-- On a grid that is finer than the interval is wide, one of the neighbours of the number hits. -/
theorem exists_nearest?_of_fine (pos : 0 < i.denominator)
    (inside : i.low ≤ i.value ∧ i.value < i.high)
    (fine : i.low * 10 ^ (-exponent).toNat + i.denominator * 10 ^ exponent.toNat <
      i.high * 10 ^ (-exponent).toNat) : ∃ d, i.nearest? tieUp exponent = some d := by
  apply exists_nearest?
  have scale : 0 < 10 ^ (-exponent).toNat := by positivity
  have unit : 0 < i.denominator * 10 ^ exponent.toNat := by positivity
  have below_le : i.below exponent * (i.denominator * 10 ^ exponent.toNat) ≤
      i.value * 10 ^ (-exponent).toNat := Nat.div_mul_le_self _ _
  have lt_above : i.value * 10 ^ (-exponent).toNat <
      i.below exponent * (i.denominator * 10 ^ exponent.toNat) +
        i.denominator * 10 ^ exponent.toNat := Nat.lt_div_mul_add unit
  have low_le := Nat.mul_le_mul_right (10 ^ (-exponent).toNat) inside.1
  have lt_high := Nat.mul_lt_mul_of_pos_right inside.2 scale
  simp only [hits, Nat.pow_eq, Nat.add_one_mul]
  split
  · simp only [Bool.and_eq_true, decide_eq_true_eq]
    omega
  · simp only [Bool.and_eq_true, decide_eq_true_eq]
    omega

/-- The magnitude is no greater than the number. -/
theorem pow_magnitude_le (pos : 0 < i.denominator) (positive : 0 < i.value) :
    (10 : ℚ) ^ (i.magnitude - 1) * i.denominator ≤ i.value := by
  unfold magnitude
  split
  · rename_i large
    have length := length_chars_pos (i.value / i.denominator)
    have digits := pow_length_chars_le (Nat.div_pos large pos)
    rw [show ((chars (i.value / i.denominator)).length : ℤ) - 1 =
      (((chars (i.value / i.denominator)).length - 1 : ℕ) : ℤ) by omega, zpow_natCast]
    exact_mod_cast (Nat.le_div_iff_mul_le pos).mp digits
  · have length := length_chars_pos (i.denominator / i.value)
    have digits := lt_pow_length_chars (i.denominator / i.value)
    rw [Nat.div_lt_iff_lt_mul positive] at digits
    generalize (chars (i.denominator / i.value)).length = places at *
    dsimp only
    split
    · rename_i above
      rw [show (2 : ℤ) - places - 1 = -((places - 1 : ℕ) : ℤ) by omega, zpow_neg, zpow_natCast,
        inv_mul_le_iff₀ (by positivity), mul_comm]
      exact_mod_cast above
    · rw [show (1 : ℤ) - places - 1 = -(places : ℤ) by omega, zpow_neg, zpow_natCast,
        inv_mul_le_iff₀ (by positivity)]
      exact_mod_cast digits.le

/-- The same bound over natural numbers. -/
theorem unit_le_of_pow_le (h : (10 : ℚ) ^ (exponent + 16) * i.denominator ≤ i.value) :
    10 ^ 16 * (i.denominator * 10 ^ exponent.toNat) ≤ i.value * 10 ^ (-exponent).toNat := by
  have scaled := mul_le_mul_of_nonneg_right h (by positivity : (0 : ℚ) ≤ 10 ^ (-exponent).toNat)
  rw [zpow_add₀ (by norm_num)] at scaled
  have split : (10 : ℚ) ^ exponent * 10 ^ (16 : ℤ) * i.denominator * 10 ^ (-exponent).toNat =
      10 ^ 16 * (i.denominator * 10 ^ exponent.toNat) := by
    rw [← zpow_mul_pow_toNat_neg (by norm_num) exponent]
    norm_num
    ring
  rw [split] at scaled
  exact_mod_cast scaled

/-! The numbers are in the order of their bits without the sign. -/

variable {bits bits' : Nat}

/-- The interval of the positive number with given bits. -/
def ofBits (bits : Nat) : Interval :=
  let biased := bits / 0x10000000000000
  let fraction := bits % 0x10000000000000
  let significand := if biased = 0 then fraction else fraction + 0x10000000000000
  let down := if fraction = 0 ∧ biased > 1 then 1 else 2
  let scale := Nat.pow 2 (max biased 1 - 1077)
  { low := (4 * significand - down) * scale
    value := 4 * significand * scale
    high := (4 * significand + 2) * scale
    denominator := Nat.pow 2 (1077 - max biased 1)
    closed := significand % 2 = 0 }

theorem ofFloat_eq (x : Float) : ofFloat x = ofBits (x.toBits.toNat % 0x8000000000000000) := rfl

def significand (bits : Nat) : Nat :=
  if bits / 0x10000000000000 = 0 then bits % 0x10000000000000
  else bits % 0x10000000000000 + 0x10000000000000

def down (bits : Nat) : Nat :=
  if bits % 0x10000000000000 = 0 ∧ bits / 0x10000000000000 > 1 then 1 else 2

/-- A quarter of the last place. -/
def quarter (bits : Nat) : ℚ := 2 ^ ((max (bits / 0x10000000000000) 1 : ℕ) - 1077 : ℤ)

def lower (bits : Nat) : ℚ := (4 * significand bits - down bits) * quarter bits

def upper (bits : Nat) : ℚ := (4 * significand bits + 2) * quarter bits

theorem quarter_pos (bits : Nat) : 0 < quarter bits := zpow_pos (by norm_num) _

theorem lower_lt_upper (bits : Nat) : lower bits < upper bits := by
  apply mul_lt_mul_of_pos_right _ (quarter_pos bits)
  have positive : (0 : ℚ) ≤ down bits := Nat.cast_nonneg _
  linarith

/-- The interval of a number starts where that of the number before it ends. -/
theorem lower_succ (bits : Nat) : lower (bits + 1) = upper bits := by
  unfold lower upper quarter
  by_cases inner : bits % 0x10000000000000 + 1 < 0x10000000000000
  · have same : (bits + 1) / 0x10000000000000 = bits / 0x10000000000000 := by omega
    have next : significand (bits + 1) = significand bits + 1 := by
      unfold significand
      split <;> split <;> omega
    have even : down (bits + 1) = 2 := if_neg (by omega)
    rw [same, next, even]
    push_cast
    ring
  · have same : (bits + 1) / 0x10000000000000 = bits / 0x10000000000000 + 1 := by omega
    have next : significand (bits + 1) = 0x10000000000000 := by
      unfold significand
      split <;> omega
    by_cases first : bits / 0x10000000000000 = 0
    · have last : significand bits + 1 = 0x10000000000000 := by
        unfold significand
        split <;> omega
      have even : down (bits + 1) = 2 := if_neg (by omega)
      rw [same, next, even, first, ← last]
      push_cast
      norm_num
      ring
    · have last : significand bits + 1 = 2 * 0x10000000000000 := by
        unfold significand
        split <;> omega
      have half : down (bits + 1) = 1 := if_pos (by omega)
      have larger : ((max (bits / 0x10000000000000 + 1) 1 : ℕ) : ℤ) - 1077 =
          (max (bits / 0x10000000000000) 1 : ℕ) - 1077 + 1 := by omega
      have cast : (significand bits : ℚ) = 2 * 0x10000000000000 - 1 := by
        rw [eq_sub_iff_add_eq]
        exact_mod_cast last
      rw [same, next, half, larger, zpow_add_one₀ (by norm_num), cast]
      push_cast
      ring

theorem strictMono_lower : StrictMono lower := by
  apply strictMono_nat_of_lt_succ
  intro bits
  rw [lower_succ]
  exact lower_lt_upper bits

theorem significand_pos (positive : 0 < bits) : 0 < significand bits := by
  unfold significand
  split <;> omega

theorem significand_mod_two (bits : Nat) : significand bits % 2 = bits % 2 := by
  unfold significand
  split <;> omega

theorem down_le (bits : Nat) : down bits ≤ 2 := by
  unfold down
  split <;> decide

theorem ofBits_low (bits : Nat) : (ofBits bits).low =
    (4 * significand bits - down bits) * 2 ^ (max (bits / 0x10000000000000) 1 - 1077) := rfl

theorem ofBits_value (bits : Nat) : (ofBits bits).value =
    4 * significand bits * 2 ^ (max (bits / 0x10000000000000) 1 - 1077) := rfl

theorem ofBits_high (bits : Nat) : (ofBits bits).high =
    (4 * significand bits + 2) * 2 ^ (max (bits / 0x10000000000000) 1 - 1077) := rfl

theorem ofBits_denominator_pos (bits : Nat) : 0 < (ofBits bits).denominator :=
  Nat.two_pow_pos _

theorem quarter_mul_denominator (bits : Nat) :
    quarter bits * (ofBits bits).denominator =
      2 ^ (max (bits / 0x10000000000000) 1 - 1077) := by
  have split := zpow_mul_pow_toNat_neg (by norm_num : (2 : ℚ) ≠ 0)
    ((max (bits / 0x10000000000000) 1 : ℕ) - 1077 : ℤ)
  rw [show (-((max (bits / 0x10000000000000) 1 : ℕ) - 1077 : ℤ)).toNat =
      1077 - max (bits / 0x10000000000000) 1 by omega,
    show ((max (bits / 0x10000000000000) 1 : ℕ) - 1077 : ℤ).toNat =
      max (bits / 0x10000000000000) 1 - 1077 by omega] at split
  rw [← split, quarter]
  exact congrArg _ (Nat.cast_pow 2 _)

theorem down_le_significand (positive : 0 < bits) : down bits ≤ 4 * significand bits := by
  have significant := significand_pos positive
  have le := down_le bits
  omega

theorem cast_low (positive : 0 < bits) :
    ((ofBits bits).low : ℚ) = lower bits * (ofBits bits).denominator := by
  have small := down_le_significand positive
  rw [lower, mul_assoc, quarter_mul_denominator, ofBits_low]
  push_cast [small]
  rfl

theorem cast_high (bits : Nat) :
    ((ofBits bits).high : ℚ) = upper bits * (ofBits bits).denominator := by
  rw [upper, mul_assoc, quarter_mul_denominator, ofBits_high]
  push_cast
  rfl

theorem contains_ofBits (positive : 0 < bits) :
    (ofBits bits).Contains q ↔
      if bits % 2 = 0 then lower bits ≤ q ∧ q ≤ upper bits
      else lower bits < q ∧ q < upper bits := by
  have pos : (0 : ℚ) < (ofBits bits).denominator := by exact_mod_cast ofBits_denominator_pos bits
  have closed : (ofBits bits).closed = decide (bits % 2 = 0) := by
    rw [← significand_mod_two]
    rfl
  rw [Contains, closed, cast_low positive, cast_high, mul_le_mul_iff_left₀ pos,
    mul_le_mul_iff_left₀ pos, mul_lt_mul_iff_left₀ pos, mul_lt_mul_iff_left₀ pos]
  simp only [decide_eq_true_eq]

theorem Contains.lower_le (positive : 0 < bits) (h : (ofBits bits).Contains q) :
    lower bits ≤ q := by
  rw [contains_ofBits positive] at h
  split at h
  · exact h.1
  · exact h.1.le

theorem Contains.le_upper (positive : 0 < bits) (h : (ofBits bits).Contains q) :
    q ≤ upper bits := by
  rw [contains_ofBits positive] at h
  split at h
  · exact h.2
  · exact h.2.le

/-- Of two numbers that follow each other only one has the end between them in its interval. -/
theorem not_contains_succ (positive : 0 < bits) (h : (ofBits bits).Contains q) :
    ¬(ofBits (bits + 1)).Contains q := by
  intro h'
  rw [contains_ofBits positive] at h
  rw [contains_ofBits (Nat.succ_pos bits), lower_succ] at h'
  split at h
  · rw [if_neg (by omega)] at h'
    exact absurd h.2 (not_le.mpr h'.1)
  · split at h'
    · exact absurd h'.1 (not_le.mpr h.2)
    · exact absurd h'.1 (not_lt.mpr h.2.le)

/-- The interval of a number ends before the interval of a greater one starts. -/
theorem not_contains_of_lt (positive : 0 < bits) (less : bits < bits')
    (h : (ofBits bits).Contains q) : ¬(ofBits bits').Contains q := by
  intro h'
  rcases Nat.eq_or_lt_of_le (Nat.succ_le_of_lt less) with rfl | apart
  · exact not_contains_succ positive h h'
  · have above := strictMono_lower apart
    rw [lower_succ] at above
    exact absurd (above.trans_le (h'.lower_le (positive.trans less)))
      (not_lt.mpr (h.le_upper positive))

/-- No number is in the intervals of two numbers. -/
theorem eq_of_contains (positive : 0 < bits) (positive' : 0 < bits')
    (h : (ofBits bits).Contains q) (h' : (ofBits bits').Contains q) : bits = bits' := by
  rcases lt_trichotomy bits bits' with less | eq | more
  · exact absurd h' (not_contains_of_lt positive less h)
  · exact eq
  · exact absurd h (not_contains_of_lt positive' more h')

theorem Contains.pos (positive : 0 < bits) (h : (ofBits bits).Contains q) : 0 < q := by
  apply lt_of_lt_of_le _ (h.lower_le positive)
  apply mul_pos _ (quarter_pos bits)
  have significant : (1 : ℚ) ≤ significand bits := by exact_mod_cast significand_pos positive
  have small : (down bits : ℚ) ≤ 2 := by exact_mod_cast down_le bits
  linarith

/-- The width of an interval, in quarters of the last place, is more than the number divided by
`10 ^ 16`. -/
theorem four_mul_significand_lt (bits : Nat) :
    4 * significand bits < 10 ^ 16 * (down bits + 2) := by
  have fraction := Nat.mod_lt bits (show 0x10000000000000 > 0 by decide)
  unfold significand down
  split <;> split <;> omega

/-- A grid is finer than the interval if the number has seventeen digits on it. -/
theorem add_unit_lt {unit step : Nat} (positive : 0 < bits) (pos : 0 < step)
    (fine : 10 ^ 16 * unit ≤ 4 * significand bits * step) :
    (4 * significand bits - down bits) * step + unit < (4 * significand bits + 2) * step := by
  have narrow : unit < (down bits + 2) * step := by
    apply Nat.lt_of_mul_lt_mul_left (a := 10 ^ 16)
    rw [← Nat.mul_assoc]
    exact fine.trans_lt (Nat.mul_lt_mul_of_pos_right (four_mul_significand_lt bits) pos)
  calc (4 * significand bits - down bits) * step + unit
    _ < (4 * significand bits - down bits) * step + (down bits + 2) * step :=
      Nat.add_lt_add_left narrow _
    _ = (4 * significand bits + 2) * step := by
      have small := down_le_significand positive
      rw [← Nat.add_mul]
      congr 1
      omega

/-- Seventeen digits tell every number from the others. -/
theorem exists_nearest?_ofBits (positive : 0 < bits) :
    ∃ d, (ofBits bits).nearest? tieUp ((ofBits bits).magnitude - 17) = some d := by
  have significant := significand_pos positive
  have scale : 0 < 2 ^ (max (bits / 0x10000000000000) 1 - 1077) := Nat.two_pow_pos _
  have value : 0 < (ofBits bits).value := by
    rw [ofBits_value]
    positivity
  have fine : 10 ^ 16 * ((ofBits bits).denominator * 10 ^ ((ofBits bits).magnitude - 17).toNat) ≤
      (ofBits bits).value * 10 ^ (-((ofBits bits).magnitude - 17)).toNat := by
    apply unit_le_of_pow_le
    rw [show (ofBits bits).magnitude - 17 + 16 = (ofBits bits).magnitude - 1 by ring]
    exact pow_magnitude_le (ofBits_denominator_pos bits) value
  apply exists_nearest?_of_fine (ofBits_denominator_pos bits)
  · rw [ofBits_low, ofBits_value, ofBits_high]
    constructor
    · exact Nat.mul_le_mul_right _ (Nat.sub_le _ _)
    · exact Nat.mul_lt_mul_of_pos_right (by omega) scale
  · rw [ofBits_value, Nat.mul_assoc] at fine
    rw [ofBits_low, ofBits_high, Nat.mul_assoc, Nat.mul_assoc]
    exact add_unit_lt positive (by positivity) fine

end Interval

theorem contains_shortest (tieUp : Bool) {x : Float}
    (positive : 0 < x.toBits.toNat % 0x8000000000000000) :
    (Interval.ofFloat x).Contains (shortest tieUp x).toRat := by
  have found : ((List.range 17).findSome? fun (n : Nat) => (Interval.ofFloat x).nearest? tieUp
      ((Interval.ofFloat x).magnitude - (n + 1))).isSome := by
    rw [List.findSome?_isSome_iff]
    refine ⟨16, by simp, ?_⟩
    rw [Option.isSome_iff_exists, Interval.ofFloat_eq]
    exact Interval.exists_nearest?_ofBits positive
  obtain ⟨d, eq⟩ := Option.isSome_iff_exists.mp found
  obtain ⟨n, -, near⟩ := List.exists_of_findSome?_eq_some eq
  have short : shortest tieUp x = d := by
    rw [shortest, eq]
    rfl
  rw [short]
  exact Interval.contains_of_nearest? near

end DataAccess.Decimal
