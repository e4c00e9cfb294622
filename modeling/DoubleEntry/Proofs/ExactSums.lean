import DoubleEntry.Proofs.Balance
import DoubleEntry.Proofs.SixPlaces
import DoubleEntry.Proofs.StatementPages
import Mathlib.Algebra.Order.Field.Basic

/-!
# Sums of any amounts

A sum of decimals is rounded only where no decimal denotes it, and then by half a unit at most.  So
the rule of double entry decides about the exact sums of a journal as long as its running sums are
decimals (`EntryLine.ensureBalanced_iff`).  Where one is not, sums that differ can pass
(`EntryLine.not_exact_of_balanced`), but they differ by half a unit for each line at most
(`EntryLine.sums_of_balanced`).

## Main definitions

* `Decimal.total`: the exact sum of a list. `Decimal.RunsExactly`: every running sum is a decimal.
* `EntryLine.IsOneSided`: a line has no signs, and one side above nought.

## Main results

* `Decimal.exists_add_of_value`, `Decimal.abs_value_sub_le`: what a sum is.
-/

namespace DoubleEntry

namespace Decimal

variable {a b c d e : Decimal} {ds : List Decimal} {q : ℚ}

/-! ### Values -/

theorem tenPow_rat_pos (n : Nat) : (0 : ℚ) < tenPow n := by exact_mod_cast tenPow_pos n

theorem tenPow_rat (n : Nat) : (tenPow n : ℚ) = 10 ^ n := by
  exact_mod_cast (rfl : tenPow n = 10 ^ n)

theorem value_eq_units (d : Decimal) : d.value = d.units / tenPow 28 := by
  have h : (d.units : ℚ) * tenPow d.places = d.numerator * tenPow 28 := by
    exact_mod_cast d.units_mul_tenPow
  rw [value, div_eq_div_iff (tenPow_rat_pos _).ne' (tenPow_rat_pos _).ne', h]

theorem value_inj : a.value = b.value ↔ a.units = b.units := by
  rw [value_eq_units, value_eq_units, div_left_inj' (tenPow_rat_pos 28).ne', Int.cast_inj]

theorem eq_of_value (hs : a.negative = b.negative) (hp : a.places = b.places)
    (hv : a.value = b.value) : a = b := by
  have hcoeff : a.coeff = b.coeff := by
    rw [value_inj, units, units, hp, mul_left_inj' (tenPow_int_pos _).ne', numerator, numerator,
      hs] at hv
    split_ifs at hv <;> omega
  cases a
  cases b
  cases hs
  cases hp
  cases hcoeff
  rfl

theorem sameValue_iff_value : a.sameValue b = true ↔ a.value = b.value := by
  rw [sameValue_iff_units, value_inj]

theorem isZero_iff_value : d.isZero = true ↔ d.value = 0 := by
  rw [isZero_iff_units, value_eq_units, div_eq_zero_iff, Int.cast_eq_zero]
  exact ⟨.inl, fun h => h.resolve_right (tenPow_rat_pos 28).ne'⟩

theorem value_zero : zero.value = 0 := isZero_iff_value.1 rfl

theorem value_nonneg (h : d.negative = false) : 0 ≤ d.value := by
  rw [value, numerator, h]
  exact div_nonneg (by simp) (tenPow_rat_pos _).le

/-! ### Two terms -/

/-- **A sum is exact** if it is a decimal. -/
theorem exists_add_of_value (h : e.value = a.value + b.value) :
    ∃ c, a.add b = some c ∧ c.value = a.value + b.value := by
  have hunits : a.units + b.units = e.units := by
    rw [value_eq_units, value_eq_units, value_eq_units, ← add_div,
      div_left_inj' (tenPow_rat_pos 28).ne'] at h
    exact_mod_cast h.symm
  have hadd := map_units_add a b
  rw [hunits, fitUnits_units] at hadd
  obtain ⟨c, hc, hce⟩ := Option.map_eq_some_iff.1 hadd
  exact ⟨c, hc, by rw [← h, value_inj, hce]⟩

/-- A number with a sign. -/
def signed (negative : Bool) (n : Nat) : ℚ := if negative then -(n : ℚ) else n

theorem value_eq_signed (d : Decimal) : d.value = signed d.negative d.coeff / tenPow d.places := by
  rw [value, numerator, signed]
  split_ifs <;> push_cast <;> rfl

theorem abs_signed_sub (negative : Bool) (m n : Nat) :
    |signed negative m - signed negative n| = |(n : ℚ) - m| := by
  rw [signed, signed]
  split_ifs
  · rw [neg_sub_neg]
  · exact abs_sub_comm _ _

theorem signed_natAbs (s : Int) : signed (decide (s < 0)) s.natAbs = s := by
  rw [signed]
  split_ifs with h
  · have hs := of_decide_eq_true h
    rw [← Int.cast_natCast, ← Int.cast_neg]
    congr 1
    omega
  · have hs := of_decide_eq_false (Bool.eq_false_of_not_eq_true h)
    rw [← Int.cast_natCast]
    congr 1
    omega

theorem abs_value_sub_le_of_ofParts {negative : Bool} {n p k : Nat}
    (h : ofParts? negative (divHalfEven n (tenPow k)) p = some c) :
    |c.value - signed negative n / tenPow (p + k)| ≤ 1 / 2 := by
  obtain ⟨hs, hc, hp⟩ := ofParts?_eq_some h
  have hnear : 2 * |(n : ℚ) - (divHalfEven n (tenPow k) * tenPow k : Nat)| ≤ tenPow k := by
    exact_mod_cast (divHalfEven_nearest n (tenPow_pos k)).1
  have hle : (tenPow k : ℚ) ≤ tenPow (p + k) := by
    exact_mod_cast tenPow_le_tenPow (Nat.le_add_left k p)
  have hpk := tenPow_rat_pos (p + k)
  have hvalue : c.value =
      signed negative (divHalfEven n (tenPow k) * tenPow k) / tenPow (p + k) := by
    have hscale : signed negative (divHalfEven n (tenPow k) * tenPow k) =
        signed negative (divHalfEven n (tenPow k)) * tenPow k := by
      rw [signed, signed]
      split_ifs <;> push_cast <;> ring
    rw [value_eq_signed, hs, hc, hp, hscale, tenPow_add, Nat.cast_mul,
      mul_div_mul_right _ _ (tenPow_rat_pos k).ne']
  rw [hvalue, ← sub_div, abs_div, abs_signed_sub, abs_of_pos hpk, div_le_iff₀ hpk]
  linarith

theorem abs_value_sub_le_of_fitAt {negative : Bool} {n p k : Nat}
    (h : fitAt negative n p k = some c) :
    |c.value - signed negative n / tenPow (p + k)| ≤ 1 / 2 := by
  induction p generalizing k with
  | zero => exact abs_value_sub_le_of_ofParts h
  | succ p ih =>
    rw [fitAt] at h
    obtain h | ⟨-, h⟩ := Option.or_eq_some_iff.1 h
    · exact abs_value_sub_le_of_ofParts h
    · have hnear := ih h
      rwa [← Nat.add_assoc, Nat.add_right_comm] at hnear

/-- **A sum is off by half a unit** at most. -/
theorem abs_value_sub_le (h : a.add b = some c) : |c.value - (a.value + b.value)| ≤ 1 / 2 := by
  have hunits := map_units_add a b
  rw [h, Option.map_some, fitUnits] at hunits
  obtain ⟨c', hfit, hc'⟩ := Option.map_eq_some_iff.1 hunits.symm
  have hnear := abs_value_sub_le_of_fitAt hfit
  rwa [signed_natAbs, Nat.add_zero, value_inj.2 hc', Int.cast_add, add_div, ← value_eq_units,
    ← value_eq_units] at hnear

/-! ### Many terms -/

/-- The exact sum of a list. -/
def total (ds : List Decimal) : ℚ := (ds.map value).sum

/-- Every running sum is a decimal. -/
def RunsExactly (ds : List Decimal) : Prop := ∀ n, ∃ d : Decimal, d.value = total (ds.take n)

theorem total_cons (d : Decimal) (ds : List Decimal) : total (d :: ds) = d.value + total ds :=
  List.sum_cons

theorem total_concat (ds : List Decimal) (d : Decimal) :
    total (ds ++ [d]) = total ds + d.value := by
  simp [total]

theorem total_eq_units (ds : List Decimal) : total ds = ((ds.map units).sum : Int) / tenPow 28 := by
  induction ds with
  | nil => simp [total]
  | cons d ds ih =>
    rw [total_cons, ih, value_eq_units, ← add_div, List.map_cons, List.sum_cons, Int.cast_add]

theorem total_eq_millionths (h : ∀ d ∈ ds, d.IsSix) :
    total ds = ((ds.map millionths).sum : Int) / tenPow amountPlaces := by
  induction ds with
  | nil => simp [total]
  | cons d ds ih =>
    obtain ⟨hd, hds⟩ := List.forall_mem_cons.1 h
    rw [total_cons, ih hds, value_eq hd, ← add_div, List.map_cons, List.sum_cons, Int.cast_add]

instance : DecidablePred IsStored := fun d => decidable_of_iff
  ((d.places ≤ amountPlaces ∧ d.negative = decide (d.millionths < 0)) ∧ 0 ≤ d.millionths ∧
    d.millionths < 100000000000000000000000000)
  ⟨fun ⟨⟨hp, hs⟩, h0, hlt⟩ => ⟨⟨hp, hs⟩, h0, hlt⟩,
    fun h => ⟨⟨h.six.places_le_six, h.six.sign⟩, h.nonneg, h.lt⟩⟩

theorem runsExactly_of_isStored (h : ∀ d ∈ ds, d.IsStored)
    (hfew : ds.length ≤ ManualCommand.maxLines) : RunsExactly ds := by
  intro n
  have hstored : ∀ d ∈ ds.take n, d.IsStored := fun d hd => h d (List.mem_of_mem_take hd)
  obtain ⟨d, -, htotal⟩ := exists_sum hstored ((List.length_take_le' n ds).trans hfew)
  exact ⟨d, by rw [value_eq htotal.six, htotal.millionths_eq,
    total_eq_millionths fun d hd => (hstored d hd).six]⟩

theorem RunsExactly.exists_concat (es : List Decimal) (h : RunsExactly (ds ++ d :: es)) :
    ∃ e : Decimal, e.value = total ds + d.value := by
  obtain ⟨e, he⟩ := h (ds.length + 1)
  refine ⟨e, ?_⟩
  rw [he, ← total_concat, List.take_append, List.take_of_length_le (Nat.le_succ _),
    Nat.add_sub_cancel_left, List.take_succ_cons, List.take_zero]

end Decimal

/-! ### The rule of double entry -/

namespace EntryLine

open Decimal

/-- No side of the line has a sign, and one of them is above nought. -/
structure IsOneSided (l : EntryLine) : Prop where
  unsigned : l.IsUnsigned
  sides : 0 < l.debit.value ∧ l.credit.value = 0 ∨ l.debit.value = 0 ∧ 0 < l.credit.value

/-- The sum of the debits. -/
def debits (lines : List EntryLine) : ℚ := total (lines.map (·.debit))

/-- The sum of the credits. -/
def credits (lines : List EntryLine) : ℚ := total (lines.map (·.credit))

variable {l : EntryLine} {lines : List EntryLine} {a b c d : Decimal} {index : Nat}

theorem debits_cons (l : EntryLine) (lines : List EntryLine) :
    debits (l :: lines) = l.debit.value + debits lines := total_cons _ _

theorem credits_cons (l : EntryLine) (lines : List EntryLine) :
    credits (l :: lines) = l.credit.value + credits lines := total_cons _ _

theorem isOneSided_iff : l.IsOneSided ↔ (l.debit.negative || l.credit.negative) = false ∧
    (l.debit.isZero == l.credit.isZero) = false := by
  have hzero (d : Decimal) (h : d.negative = false) : d.isZero = false ↔ 0 < d.value := by
    rw [← Bool.not_eq_true, isZero_iff_value, lt_iff_le_and_ne, and_iff_right (value_nonneg h),
      ne_comm]
  rw [Bool.or_eq_false_iff]
  constructor
  · rintro ⟨⟨hd, hc⟩, hsides⟩
    refine ⟨⟨hd, hc⟩, ?_⟩
    rw [← hzero _ hd, ← hzero _ hc, ← isZero_iff_value, ← isZero_iff_value] at hsides
    obtain ⟨h, h'⟩ | ⟨h, h'⟩ := hsides <;> rw [h, h'] <;> rfl
  · rintro ⟨⟨hd, hc⟩, hsides⟩
    refine ⟨⟨hd, hc⟩, ?_⟩
    rw [← hzero _ hd, ← hzero _ hc, ← isZero_iff_value, ← isZero_iff_value]
    cases hdz : l.debit.isZero <;> cases hcz : l.credit.isZero <;> simp_all

theorem eq_some_of_orCrash {ε α : Type} {o : Option α} {x : α}
    (h : (Halt.orCrash o : Except (Halt ε) α) = .ok x) : o = some x := by
  cases o with
  | none => cases h
  | some y => cases h; rfl

theorem exists_of_checkLines_cons (h : checkLines index a b (l :: lines) = .ok (c, d)) :
    l.IsOneSided ∧ ∃ a' b', a.add l.debit = some a' ∧ b.add l.credit = some b' ∧
      checkLines (index + 1) a' b' lines = .ok (c, d) := by
  rw [checkLines] at h
  split_ifs at h with hsign hsides
  · cases h
  · cases h
  · obtain ⟨a', ha, h⟩ := exists_of_bind_eq_ok h
    obtain ⟨b', hb, h⟩ := exists_of_bind_eq_ok h
    rw [isOneSided_iff]
    exact ⟨⟨Bool.eq_false_of_not_eq_true hsign, Bool.eq_false_of_not_eq_true hsides⟩, a', b',
      eq_some_of_orCrash ha, eq_some_of_orCrash hb, h⟩

/-- Adding a line is off by half a unit at most, for the two sides together. -/
theorem IsOneSided.abs_add_le (h : l.IsOneSided) (ha : a.add l.debit = some c)
    (hb : b.add l.credit = some d) : |c.value - (a.value + l.debit.value)| +
      |d.value - (b.value + l.credit.value)| ≤ 1 / 2 := by
  -- a nought leaves the other side as it is
  have hexact {x y z : Decimal} (hy : y.value = 0) (hz : x.add y = some z) :
      z.value - (x.value + y.value) = 0 := by
    have hx : x.value = x.value + y.value := by rw [hy, add_zero]
    obtain ⟨w, hw, hvalue⟩ := exists_add_of_value hx
    rw [hz] at hw
    cases hw
    rw [hvalue, sub_self]
  obtain ⟨-, hcredit⟩ | ⟨hdebit, -⟩ := h.sides
  · rw [hexact hcredit hb, abs_zero, add_zero]
    exact abs_value_sub_le ha
  · rw [hexact hdebit ha, abs_zero, zero_add]
    exact abs_value_sub_le hb

/-- **The totals of lines that pass** are off by half a unit for each line at most. -/
theorem abs_totals_le (h : checkLines index a b lines = .ok (c, d)) :
    |c.value - (a.value + debits lines)| + |d.value - (b.value + credits lines)| ≤
      (lines.length : ℚ) / 2 := by
  induction lines generalizing a b index with
  | nil =>
    cases h
    simp [debits, credits, total]
  | cons l lines ih =>
    obtain ⟨hl, a', b', ha, hb, hrest⟩ := exists_of_checkLines_cons h
    have hline := hl.abs_add_le ha hb
    have hlines := ih hrest
    have hdebit := abs_sub_le c.value (a'.value + debits lines)
      (a.value + (l.debit.value + debits lines))
    have hcredit := abs_sub_le d.value (b'.value + credits lines)
      (b.value + (l.credit.value + credits lines))
    rw [← add_assoc, add_sub_add_right_eq_sub] at hdebit hcredit
    rw [debits_cons, credits_cons, List.length_cons, Nat.cast_succ, ← add_assoc, ← add_assoc]
    linarith

/-- **Lines that are one-sided pass** with exact totals, as long as the running sums are decimals.
The earlier lines have passed. -/
theorem checkLines_of_exact (passed : List EntryLine) (hlines : ∀ l ∈ lines, l.IsOneSided)
    (ha : a.value = debits passed) (hb : b.value = credits passed)
    (hd : RunsExactly ((passed ++ lines).map (·.debit)))
    (hc : RunsExactly ((passed ++ lines).map (·.credit))) (index : Nat) :
    ∃ c d, checkLines index a b lines = .ok (c, d) ∧ c.value = debits (passed ++ lines) ∧
      d.value = credits (passed ++ lines) := by
  induction lines generalizing passed a b index with
  | nil => exact ⟨a, b, rfl, by rw [ha, List.append_nil], by rw [hb, List.append_nil]⟩
  | cons l lines ih =>
    obtain ⟨hl, hrest⟩ := List.forall_mem_cons.1 hlines
    have hsplit : passed ++ l :: lines = (passed ++ [l]) ++ lines := by simp
    -- the running sums that end with this line
    have hda : ∃ e : Decimal, e.value = a.value + l.debit.value := by
      rw [ha]
      exact RunsExactly.exists_concat (lines.map (·.debit)) (by simpa using hd)
    have hcb : ∃ e : Decimal, e.value = b.value + l.credit.value := by
      rw [hb]
      exact RunsExactly.exists_concat (lines.map (·.credit)) (by simpa using hc)
    obtain ⟨e, he⟩ := hda
    obtain ⟨a', ha', hvalue⟩ := exists_add_of_value he
    obtain ⟨e', he'⟩ := hcb
    obtain ⟨b', hb', hvalue'⟩ := exists_add_of_value he'
    have hdebit : a'.value = debits (passed ++ [l]) := by
      rw [hvalue, ha, debits, debits, List.map_append]
      exact (total_concat _ _).symm
    have hcredit : b'.value = credits (passed ++ [l]) := by
      rw [hvalue', hb, credits, credits, List.map_append]
      exact (total_concat _ _).symm
    rw [hsplit] at hd hc ⊢
    obtain ⟨hsign, hsides⟩ := isOneSided_iff.1 hl
    obtain ⟨c, d, hcd, hctotal, hdtotal⟩ :=
      ih (passed ++ [l]) hrest hdebit hcredit hd hc (index + 1)
    refine ⟨c, d, ?_, hctotal, hdtotal⟩
    simp only [checkLines, hsign, hsides, Bool.false_eq_true, if_false, ha', hb', Halt.orCrash,
      bind, Except.bind, hcd]

theorem isOneSided_of_checkLines (h : checkLines index a b lines = .ok (c, d)) :
    ∀ l ∈ lines, l.IsOneSided := by
  induction lines generalizing a b index with
  | nil => exact List.forall_mem_nil _
  | cons l lines ih =>
    obtain ⟨hl, a', b', -, -, hrest⟩ := exists_of_checkLines_cons h
    exact List.forall_mem_cons.2 ⟨hl, ih hrest⟩

theorem ensureBalanced_eq_ok_iff : ensureBalanced lines = .ok () ↔ 2 ≤ lines.length ∧
    ∃ c d, checkLines 0 .zero .zero lines = .ok (c, d) ∧ c.value = d.value := by
  rw [ensureBalanced]
  split_ifs with hfew
  · exact iff_of_false (fun h => by cases h) fun h => absurd h.1 (by omega)
  · rw [and_iff_right (by omega)]
    constructor
    · intro h
      obtain ⟨⟨c, d⟩, hcd, h⟩ := exists_of_bind_eq_ok h
      dsimp only at h
      split_ifs at h with hsame
      · exact ⟨c, d, hcd, sameValue_iff_value.1 hsame⟩
      · cases h
    · rintro ⟨c, d, hcd, hvalue⟩
      simp only [hcd, bind, Except.bind, sameValue_iff_value.2 hvalue, if_true]

/-- **The rule of double entry** is one about exact sums, as long as the running sums are
decimals. -/
theorem ensureBalanced_iff (hd : RunsExactly (lines.map (·.debit)))
    (hc : RunsExactly (lines.map (·.credit))) : ensureBalanced lines = .ok () ↔
      2 ≤ lines.length ∧ (∀ l ∈ lines, l.IsOneSided) ∧ debits lines = credits lines := by
  rw [ensureBalanced_eq_ok_iff]
  refine and_congr_right fun _ => ?_
  have hpass (h : ∀ l ∈ lines, l.IsOneSided) := checkLines_of_exact [] h value_zero
    value_zero hd hc 0
  constructor
  · rintro ⟨c, d, hcd, hvalue⟩
    have hlines := isOneSided_of_checkLines hcd
    obtain ⟨c', d', hcd', hctotal, hdtotal⟩ := hpass hlines
    rw [hcd] at hcd'
    cases hcd'
    exact ⟨hlines, by rw [← List.nil_append lines, ← hctotal, ← hdtotal, hvalue]⟩
  · rintro ⟨hlines, hsums⟩
    obtain ⟨c, d, hcd, hctotal, hdtotal⟩ := hpass hlines
    exact ⟨c, d, hcd, by rw [hctotal, hdtotal, List.nil_append, hsums]⟩

/-- **What balanced lines sum up to.**  The exact sums of the two sides are equal if the running
sums are decimals; in any case they differ by half a unit for each line at most. -/
theorem sums_of_balanced (lines : List EntryLine) (h : ensureBalanced lines = .ok ()) :
    (RunsExactly (lines.map (·.debit)) → RunsExactly (lines.map (·.credit)) →
      debits lines = credits lines) ∧
    |debits lines - credits lines| ≤ (lines.length : ℚ) / 2 := by
  refine ⟨fun hd hc => ((ensureBalanced_iff hd hc).1 h).2.2, ?_⟩
  obtain ⟨-, c, d, hcd, hvalue⟩ := ensureBalanced_eq_ok_iff.1 h
  have hnear := abs_totals_le hcd
  rw [value_zero, zero_add, zero_add, hvalue, abs_sub_comm] at hnear
  exact (abs_sub_le _ d.value _).trans hnear

/-- Lines that debit some amounts, and one that credits another. -/
def debiting (amounts : List String) (amount : String) : List EntryLine :=
  amounts.map (fun s => .ofDebit (.ofNat 1) (.ofNat 1) .outgoing none ((ofText? s).getD .zero)) ++
    [.ofCredit (.ofNat 2) (.ofNat 1) .incoming none ((ofText? amount).getD .zero)]

theorem sums_of_tenths : ensureBalanced (debiting ["0.1", "0.2"] "0.3") = .ok () ∧
    RunsExactly ((debiting ["0.1", "0.2"] "0.3").map (·.debit)) ∧
    RunsExactly ((debiting ["0.1", "0.2"] "0.3").map (·.credit)) ∧
    debits (debiting ["0.1", "0.2"] "0.3") = credits (debiting ["0.1", "0.2"] "0.3") := by
  have hbalanced : ensureBalanced (debiting ["0.1", "0.2"] "0.3") = .ok () := by decide +kernel
  have hdebit : RunsExactly ((debiting ["0.1", "0.2"] "0.3").map (·.debit)) :=
    runsExactly_of_isStored (by decide +kernel) (by decide)
  have hcredit : RunsExactly ((debiting ["0.1", "0.2"] "0.3").map (·.credit)) :=
    runsExactly_of_isStored (by decide +kernel) (by decide)
  exact ⟨hbalanced, hdebit, hcredit, (sums_of_balanced _ hbalanced).1 hdebit hcredit⟩

/-- The largest amount but one, and a unit in three parts, against this amount alone. -/
def unitInParts : List EntryLine :=
  debiting ["79228162514264337593543950334", "0.4", "0.4", "0.2"] "79228162514264337593543950334"

/-- **Sums that differ can pass**: each part of the unit is rounded away. -/
theorem not_exact_of_balanced :
    ¬ ∀ lines : List EntryLine, ensureBalanced lines = .ok () → debits lines = credits lines := by
  intro h
  have hsums := h unitInParts (by decide +kernel)
  rw [debits, credits, total_eq_units, total_eq_units, div_left_inj' (tenPow_rat_pos 28).ne',
    Int.cast_inj] at hsums
  exact absurd hsums (by decide +kernel)

end EntryLine

end DoubleEntry
