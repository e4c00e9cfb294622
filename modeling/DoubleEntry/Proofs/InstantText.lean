import DoubleEntry.Instant.Text
import DoubleEntry.Proofs.Calendar
import DoubleEntry.Proofs.OrderedText

/-!
# Instants in tables

The text of an instant with six digits after the point loses nothing of a whole microsecond.  In the
years that have four digits, it is read back, and texts are in the order of their instants.

## Main definitions

* `Instant.IsWhole`: a whole microsecond of a year with four digits.

## Main results

* `Instant.ofStrictText?_microText`: an instant is read back from its text.
* `Instant.microText_lt_iff`: the order of instants is that of their texts.
-/

namespace DoubleEntry

namespace Instant

/-- The date of an instant. -/
def date (i : Instant) : Int × Nat × Nat := civilOfDays (i.seconds / day)

/-- The second of its day. -/
def timeOfDay (i : Instant) : Nat := (i.seconds % day).toNat

/-- An instant of whole microseconds, in a year with four digits. -/
structure IsWhole (i : Instant) : Prop where
  micro : i.nanos % 1000 = 0
  year_nonneg : 0 ≤ i.year
  year_le : i.year ≤ 9999

theorem timeOfDay_lt (i : Instant) : i.timeOfDay < 86400 := by
  unfold timeOfDay day
  omega

theorem seconds_eq (i : Instant) : i.seconds = i.seconds / day * day + i.timeOfDay := by
  unfold timeOfDay day
  omega

theorem timeOfDay_of_leap {i : Instant} (h : second ≤ i.nanos) : i.timeOfDay % 60 = 59 := by
  have := i.leap h
  unfold timeOfDay day
  omega

theorem parts_lt (i : Instant) : i.date.2.1 < 10 ^ 2 ∧ i.date.2.2 < 10 ^ 2 ∧
    i.timeOfDay / 3600 < 10 ^ 2 ∧ i.timeOfDay / 60 % 60 < 10 ^ 2 ∧
    i.timeOfDay % 60 + i.nanos / second < 10 ^ 2 ∧ i.nanos % second / 1000 < 10 ^ 6 := by
  have ht := i.timeOfDay_lt
  have hn := i.nanos_lt
  obtain ⟨-, hm, -, hd⟩ := civilOfDays_bounds (i.seconds / day)
  have hmonth : ∀ y m, daysInMonth y m ≤ 31 := by
    intro y m
    unfold daysInMonth
    split_ifs <;> decide
  have hd' := hd.trans (hmonth _ _)
  unfold date second
  omega

/-! ### Order -/

variable {a b i : Instant}

theorem toList_microText (h0 : 0 ≤ i.year) (h1 : i.year ≤ 9999) :
    i.microText.toList = digitsAt 10 4 i.year.toNat ++ '-' :: (digitsAt 10 2 i.date.2.1 ++
      '-' :: (digitsAt 10 2 i.date.2.2 ++ 'T' :: (digitsAt 10 2 (i.timeOfDay / 3600) ++
      ':' :: (digitsAt 10 2 (i.timeOfDay / 60 % 60) ++
      ':' :: (digitsAt 10 2 (i.timeOfDay % 60 + i.nanos / second) ++
      '.' :: (digitsAt 10 6 (i.nanos % second / 1000) ++ ['Z'])))))) := by
  obtain ⟨hm, hd, hh, hmin, hs, hf⟩ := i.parts_lt
  have hy : yearChars i.year = digitsAt 10 4 i.year.toNat := by
    rw [yearChars, if_pos ⟨h0, h1⟩, paddedDigits_eq (by decide) (by omega)]
  rw [← paddedDigits_eq (by decide) hm, ← paddedDigits_eq (by decide) hd,
    ← paddedDigits_eq (by decide) hh, ← paddedDigits_eq (by decide) hmin,
    ← paddedDigits_eq (by decide) hs, ← paddedDigits_eq (by decide) hf, ← hy]
  simp [microText, secondChars, fraction, date, timeOfDay, year]

/-- Texts that begin with a number of one width and a mark are compared by the number first. -/
theorem number_lt_iff {width m n : Nat} (hm : m < 10 ^ width) (hn : n < 10 ^ width) (mark : Char)
    (rest rest' : List Char) :
    digitsAt 10 width m ++ mark :: rest < digitsAt 10 width n ++ mark :: rest' ↔
      m < n ∨ m = n ∧ rest < rest' := by
  rw [append_lt_append_iff (by simp), digitsAt_lt_iff (by decide) (by decide) hm hn,
    digitsAt_inj (by decide) (by decide) hm hn, List.cons_lt_cons_self]

theorem lt_iff : a < b ↔ a.seconds < b.seconds ∨ a.seconds = b.seconds ∧ a.nanos < b.nanos := by
  change a.before b = true ↔ _
  simp [before]

theorem le_iff : a ≤ b ↔ ¬ b < a := Iff.rfl

instance : LinearOrder Instant where
  le_refl a := by
    rw [le_iff, lt_iff]
    omega
  le_trans a b c hab hbc := by
    rw [le_iff, lt_iff] at *
    omega
  lt_iff_le_not_ge a b := by
    rw [le_iff, le_iff, lt_iff, lt_iff]
    omega
  le_antisymm a b hab hba := by
    rw [le_iff, lt_iff] at *
    have hseconds : a.seconds = b.seconds := by omega
    have hnanos : a.nanos = b.nanos := by omega
    cases a
    cases b
    cases hseconds
    cases hnanos
    rfl
  le_total a b := by
    rw [le_iff, le_iff, lt_iff, lt_iff]
    omega
  toDecidableLE := inferInstance
  toDecidableLT := inferInstance
  toDecidableEq := inferInstance

theorem date_lt_iff : a.seconds / day < b.seconds / day ↔
    a.date.1 < b.date.1 ∨ a.date.1 = b.date.1 ∧ (a.date.2.1 < b.date.2.1 ∨
      a.date.2.1 = b.date.2.1 ∧ a.date.2.2 < b.date.2.2) := lt_iff_civil

theorem time_lt_iff (ha : a.nanos % 1000 = 0) (hb : b.nanos % 1000 = 0) :
    (a.timeOfDay < b.timeOfDay ∨ a.timeOfDay = b.timeOfDay ∧ a.nanos < b.nanos) ↔
      (a.timeOfDay / 3600 < b.timeOfDay / 3600 ∨ a.timeOfDay / 3600 = b.timeOfDay / 3600 ∧
      (a.timeOfDay / 60 % 60 < b.timeOfDay / 60 % 60 ∨
        a.timeOfDay / 60 % 60 = b.timeOfDay / 60 % 60 ∧
      (a.timeOfDay % 60 + a.nanos / second < b.timeOfDay % 60 + b.nanos / second ∨
        a.timeOfDay % 60 + a.nanos / second = b.timeOfDay % 60 + b.nanos / second ∧
      a.nanos % second / 1000 < b.nanos % second / 1000))) := by
  -- a leap second is the sixtieth of its minute
  have hs : a.timeOfDay % 60 + a.nanos / second ≤ 60 ∧
      (second ≤ a.nanos ↔ a.timeOfDay % 60 + a.nanos / second = 60) := by
    have := a.nanos_lt
    have := fun h => timeOfDay_of_leap (i := a) h
    unfold second at *
    omega
  have hs' : b.timeOfDay % 60 + b.nanos / second ≤ 60 ∧
      (second ≤ b.nanos ↔ b.timeOfDay % 60 + b.nanos / second = 60) := by
    have := b.nanos_lt
    have := fun h => timeOfDay_of_leap (i := b) h
    unfold second at *
    omega
  have := a.nanos_lt
  have := b.nanos_lt
  generalize a.timeOfDay = t at *
  generalize b.timeOfDay = t' at *
  generalize a.nanos = n at *
  generalize b.nanos = n' at *
  unfold second at *
  have hd : t / 60 = t / 3600 * 60 + t / 60 % 60 := by omega
  have hd' : t' / 60 = t' / 3600 * 60 + t' / 60 % 60 := by omega
  omega

/-- **The order of instants is that of their texts.** -/
theorem microText_lt_iff (ha : a.IsWhole) (hb : b.IsWhole) : a.microText < b.microText ↔ a < b := by
  obtain ⟨hma, hda, hha, hna, hsa, hfa⟩ := a.parts_lt
  obtain ⟨hmb, hdb, hhb, hnb, hsb, hfb⟩ := b.parts_lt
  obtain ⟨hca, hya0, hya9⟩ := ha
  obtain ⟨hcb, hyb0, hyb9⟩ := hb
  rw [String.lt_iff, toList_microText hya0 hya9, toList_microText hyb0 hyb9,
    number_lt_iff (by omega) (by omega), number_lt_iff hma hmb, number_lt_iff hda hdb,
    number_lt_iff hha hhb, number_lt_iff hna hnb, number_lt_iff hsa hsb,
    append_lt_append_iff (by simp), digitsAt_lt_iff (by decide) (by decide) hfa hfb]
  simp only [List.lt_irrefl, and_false, or_false]
  rw [← time_lt_iff hca hcb, lt_iff]
  have hdate : a.year = a.date.1 := rfl
  have hdate' : b.year = b.date.1 := rfl
  rw [hdate] at hya0 ⊢
  rw [hdate'] at hyb0 ⊢
  -- the days decide before the times of day
  have hsec := a.seconds_eq
  have hsec' := b.seconds_eq
  have ht := a.timeOfDay_lt
  have ht' := b.timeOfDay_lt
  unfold day at hsec hsec'
  obtain hlt | heq | hgt := lt_trichotomy (a.seconds / day) (b.seconds / day)
  · have := date_lt_iff.1 hlt
    unfold day at hlt
    omega
  · have hd : a.date = b.date := congrArg civilOfDays heq
    rw [hd]
    unfold day at heq
    omega
  · have := date_lt_iff.1 hgt
    unfold day at hgt
    omega

theorem microText_inj (ha : a.IsWhole) (hb : b.IsWhole) : a.microText = b.microText ↔ a = b := by
  refine ⟨fun h => le_antisymm (not_lt.1 fun hlt => ?_) (not_lt.1 fun hlt => ?_),
    congrArg microText⟩
  · rw [← microText_lt_iff hb ha, h] at hlt
    exact String.lt_irrefl _ hlt
  · rw [← microText_lt_iff ha hb, h] at hlt
    exact String.lt_irrefl _ hlt

/-- The text of a year before the first begins with a sign, which is before all digits. -/
theorem microText_lt_iff_of_year_le (ha : a.IsWhole) (hb : b.nanos % 1000 = 0)
    (hy : b.year ≤ 9999) : a.microText < b.microText ↔ a < b := by
  by_cases h0 : 0 ≤ b.year
  · exact microText_lt_iff ha ⟨hb, h0, hy⟩
  obtain ⟨-, hya0, hya9⟩ := ha
  obtain ⟨c, cs, hcs⟩ := List.exists_cons_of_length_pos
    (by simp : 0 < (digitsAt 10 4 a.year.toNat).length)
  have hc : (digitValue? c).isSome = true :=
    isSome_digitValue?_of_mem (hcs ▸ List.mem_cons_self : c ∈ digitsAt 10 4 a.year.toNat)
  have hb_eq : ∃ rest, b.microText.toList = '-' :: rest := by
    have hneg : yearChars b.year = '-' :: paddedDigits 4 b.year.natAbs := by
      rw [yearChars, if_neg (by omega), if_pos (by omega)]
    have hsplit : ∃ rest, b.microText.toList = yearChars b.year ++ rest := by
      simp only [microText, String.toList_ofList, secondChars, List.append_assoc]
      exact ⟨_, rfl⟩
    obtain ⟨rest, hrest⟩ := hsplit
    exact ⟨_, by rw [hrest, hneg]; rfl⟩
  obtain ⟨rest, hrest⟩ := hb_eq
  have htext : ¬ a.microText < b.microText := by
    rw [String.lt_iff, toList_microText hya0 hya9, hcs, hrest, List.cons_append,
      List.cons_lt_cons_iff]
    rintro (hlt | ⟨rfl, -⟩)
    · unfold digitValue? at hc
      split_ifs at hc with hd
      · have h48 : 48 ≤ c.toNat := hd.1
        have h45 : c.toNat < 45 := hlt
        omega
      · cases hc
    · exact absurd hc (by decide)
  have hba : b.seconds / day < a.seconds / day := by
    have hdate : a.year = a.date.1 := rfl
    have hdate' : b.year = b.date.1 := rfl
    exact date_lt_iff.2 (.inl (by omega))
  refine iff_of_false htext fun hlt => ?_
  rw [lt_iff] at hlt
  unfold day at hba
  omega

/-! ### Earlier instants -/

theorem shift_neg {i j : Instant} {n : Nat} (h : i.shift (-n) = some j) :
    j.seconds ≤ i.seconds ∧ (i.nanos % 1000 = 0 → n % 1000 = 0 → j.nanos % 1000 = 0) := by
  have parts : ∀ {s : Int} {k : Nat}, of? s k = some j → j.seconds = s ∧ j.nanos = k := by
    intro s k hj
    unfold of? at hj
    split_ifs at hj
    cases hj
    exact ⟨rfl, rfl⟩
  have hn := i.nanos_lt
  have hdiv : (-(n : Int)).tdiv second = -((n / second : Nat) : Int) := by
    rw [Int.neg_tdiv]
    rfl
  have hmod : (-(n : Int)).tmod second = -((n % second : Nat) : Int) := by
    rw [Int.neg_tmod]
    rfl
  simp only [shift, hdiv, hmod] at h
  unfold second at *
  split_ifs at h with h1 h2 h3 h4 h5
  all_goals
    obtain ⟨hs, hk⟩ := parts h
    try dsimp only at hs hk
    omega

theorem year_le_of_seconds_le (h : a.seconds ≤ b.seconds) : a.year ≤ b.year := by
  by_contra hlt
  have hba : b.seconds / day < a.seconds / day := date_lt_iff.2 (.inl (not_le.1 hlt))
  unfold day at hba
  omega

/-! ### Reading -/

theorem scanNumber_digitsAt {least most width n : Nat} {rest : List Char} (hleast : least ≤ width)
    (hmost : width ≤ most) (hn : n < 10 ^ width) (hbound : n < twoPow 63)
    (hrest : ((rest.take (most - width)).takeWhile fun c => (digitValue? c).isSome) = []) :
    scanNumber least most (digitsAt 10 width n ++ rest) = .ok (n, rest) := by
  have htake : (digitsAt 10 width n ++ rest).take most =
      digitsAt 10 width n ++ rest.take (most - width) := by
    rw [List.take_append, List.take_of_length_le (by simpa using hmost), length_digitsAt]
  have hdigits : (((digitsAt 10 width n ++ rest).take most).takeWhile fun c =>
      (digitValue? c).isSome) = digitsAt 10 width n := by
    rw [htake, List.takeWhile_append_of_pos fun c hc => isSome_digitValue?_of_mem hc, hrest,
      List.append_nil]
  have hlen : ¬ (digitsAt 10 width n ++ rest).length < least := by
    rw [List.length_append, length_digitsAt]
    omega
  have hlen' : ¬ (digitsAt 10 width n).length < least := by
    rw [length_digitsAt]
    omega
  have hdrop : (digitsAt 10 width n ++ rest).drop (digitsAt 10 width n).length = rest :=
    List.drop_left
  simp only [scanNumber, hdigits, if_neg hlen, if_neg hlen', foldl_digitsAt hn, hdrop]
  simp [hbound]

theorem scanNumber_fixed {width n : Nat} (hw : width ≤ 6) (hn : n < 10 ^ width)
    (rest : List Char) : scanNumber width width (digitsAt 10 width n ++ rest) = .ok (n, rest) := by
  have hpow := Nat.pow_le_pow_right (by decide : 0 < 10) hw
  have h63 : 10 ^ 6 < twoPow 63 := by decide
  exact scanNumber_digitsAt le_rfl le_rfl hn (by omega) (by simp)

theorem scanFraction_digitsAt {width n : Nat} (hpos : 0 < width) (hw : width ≤ 9)
    (hn : n < 10 ^ width) :
    scanFraction (digitsAt 10 width n ++ ['Z']) = .ok (n * tenPow (9 - width), ['Z']) := by
  have hpow := Nat.pow_le_pow_right (by decide : 0 < 10) hw
  have h63 : 10 ^ 9 < twoPow 63 := by decide
  have hend : ((['Z'].take (9 - width)).takeWhile fun c => (digitValue? c).isSome) = [] := by
    cases 9 - width <;> simp [digitValue?]
  have hscan : scanNumber 1 9 (digitsAt 10 width n ++ ['Z']) = .ok (n, ['Z']) :=
    scanNumber_digitsAt hpos hw hn (by omega) hend
  have hz : (['Z'].dropWhile fun c => (digitValue? c).isSome) = ['Z'] := by decide
  simp [scanFraction, hscan, bind, Except.bind, pure, Except.pure, hz]

theorem scanFraction_micro {n : Nat} (hn : n < 10 ^ 6) :
    scanFraction (digitsAt 10 6 n ++ ['Z']) = .ok (n * 1000, ['Z']) := by
  have hpow : tenPow (9 - 6) = 1000 := by decide
  rw [scanFraction_digitsAt (by decide) (by decide) hn, hpow]

theorem of?_parts (i : Instant) : of? i.seconds i.nanos = some i :=
  dif_pos ⟨⟨i.lower, i.upper⟩, i.nanos_lt, i.leap⟩

theorem year_bounds (i : Instant) : -262143 ≤ i.year ∧ i.year ≤ 262142 := by
  have hfirst : (⟨-8334601228800, 0, by decide, by decide, by decide, by decide⟩ : Instant).year =
      -262143 := by decide +kernel
  have hlast : (⟨8210266876799, 0, by decide, by decide, by decide, by decide⟩ : Instant).year =
      262142 := by decide +kernel
  exact ⟨hfirst ▸ year_le_of_seconds_le i.lower, hlast ▸ year_le_of_seconds_le i.upper⟩

theorem instant_of_parts (i : Instant) :
    Reading.instant ⟨i.year, i.date.2.1, i.date.2.2, i.timeOfDay / 3600, i.timeOfDay / 60 % 60,
      i.timeOfDay % 60 + i.nanos / second, i.nanos % second, 0⟩ = .ok i := by
  obtain ⟨hfirst, hlast⟩ := i.year_bounds
  have hdate := civilOfDays_bounds (i.seconds / day)
  have hinv : daysOfCivil i.year i.date.2.1 i.date.2.2 = i.seconds / day :=
    daysOfCivil_civilOfDays _
  have hsec := i.seconds_eq
  have ht := i.timeOfDay_lt
  have hn := i.nanos_lt
  have hleap := fun h => timeOfDay_of_leap (i := i) h
  change 1 ≤ i.date.2.1 ∧ i.date.2.1 ≤ 12 ∧ 1 ≤ i.date.2.2 ∧
    i.date.2.2 ≤ daysInMonth i.year i.date.2.1 at hdate
  unfold second day at *
  rw [Reading.instant, if_neg (by dsimp only; omega)]
  -- the sixtieth second is the one before, with a second more of nanoseconds
  by_cases h60 : i.timeOfDay % 60 + i.nanos / 1000000000 = 60
  · have hs : i.seconds / 86400 * 86400 + ((i.timeOfDay / 3600 * 3600 +
        i.timeOfDay / 60 % 60 * 60 + 59 : Nat) : Int) - 0 = i.seconds := by omega
    have hf : i.nanos % 1000000000 + 1000000000 = i.nanos := by omega
    simp only [h60, if_true, hinv, hs, hf, of?_parts]
  · have hs : i.seconds / 86400 * 86400 + ((i.timeOfDay / 3600 * 3600 +
        i.timeOfDay / 60 % 60 * 60 + (i.timeOfDay % 60 + i.nanos / 1000000000) : Nat) : Int) - 0 =
        i.seconds := by omega
    have hf : i.nanos % 1000000000 + 0 = i.nanos := by omega
    simp only [h60, if_false, hinv, hs, hf, of?_parts]

theorem instant_parts (h : i.IsWhole) :
    Reading.instant ⟨i.year, i.date.2.1, i.date.2.2, i.timeOfDay / 3600, i.timeOfDay / 60 % 60,
      i.timeOfDay % 60 + i.nanos / second, i.nanos % second / 1000 * 1000, 0⟩ = .ok i := by
  have hmicro : i.nanos % second / 1000 * 1000 = i.nanos % second := by
    have := h.micro
    unfold second
    omega
  rw [hmicro]
  exact i.instant_of_parts

/-- **An instant is read back from its text.** -/
theorem ofStrictText?_microText (h : i.IsWhole) : ofStrictText? i.microText = .ok i := by
  obtain ⟨hm, hd, hh, hmin, hs, hf⟩ := i.parts_lt
  have hy0 := h.year_nonneg
  have hy9 := h.year_le
  have hy : i.year.toNat < 10 ^ 4 := by omega
  have hy_eq : (i.year.toNat : Int) = i.year := by omega
  have hz : scanOffset (scanChar ':') ['Z'] = .ok (0, []) := rfl
  simp only [ofStrictText?, toList_microText hy0 hy9, scanNumber_fixed (by decide) hy,
    scanNumber_fixed (by decide) hm, scanNumber_fixed (by decide) hd,
    scanNumber_fixed (by decide) hh, scanNumber_fixed (by decide) hmin,
    scanNumber_fixed (by decide) hs, scanFraction_micro hf, bind, Except.bind, scanChar, scanMark,
    scanOptFraction, if_true, or_true, true_or, hy_eq, hz]
  exact instant_parts h

theorem microText_truncate (i : Instant) : i.truncate.microText = i.microText := by
  have hs : i.truncate.nanos / second = i.nanos / second := by
    unfold truncate second
    dsimp only
    omega
  have hf : i.truncate.fraction / 1000 = i.fraction / 1000 := by
    unfold fraction truncate second
    dsimp only
    omega
  simp only [microText, secondChars, hs, hf]
  rfl

theorem isWhole_truncate (h0 : 0 ≤ i.year) (h9 : i.year ≤ 9999) : i.truncate.IsWhole := by
  refine ⟨?_, h0, h9⟩
  unfold truncate
  dsimp only
  omega

theorem IsWhole.truncate_eq {i : Instant} (h : i.IsWhole) : i.truncate = i := by
  have hnanos : i.nanos - i.nanos % 1000 = i.nanos := by
    rw [h.micro, Nat.sub_zero]
  rw [truncate, mk.injEq]
  exact ⟨rfl, hnanos⟩

theorem map_truncate {o : Option Instant} (h : ∀ i ∈ o, i.IsWhole) : o.map truncate = o := by
  cases o with
  | none => rfl
  | some i => rw [Option.map_some, (h i rfl).truncate_eq]

@[simp] theorem truncate_truncate (i : Instant) : i.truncate.truncate = i.truncate := by
  have hnanos : i.truncate.nanos - i.truncate.nanos % 1000 = i.truncate.nanos := by
    simp only [truncate]
    omega
  rw [truncate, mk.injEq]
  exact ⟨rfl, hnanos⟩

/-- The year of the instant has four digits. -/
def InFourDigits (i : Instant) : Prop := 0 ≤ i.year ∧ i.year ≤ 9999

instance : DecidablePred InFourDigits := fun _ => inferInstanceAs (Decidable (_ ∧ _))

theorem InFourDigits.truncate {i : Instant} (h : i.InFourDigits) : i.truncate.InFourDigits := h

theorem IsWhole.inFourDigits {i : Instant} (h : i.IsWhole) : i.InFourDigits :=
  ⟨h.year_nonneg, h.year_le⟩

end Instant

end DoubleEntry
