import DoubleEntry.Proofs.AmountText
import DoubleEntry.Proofs.AsciiText
import DoubleEntry.Proofs.InstantText

/-!
# Instants of requests and answers

Every instant is read back from its text with the fewest digits that lose nothing: in all years,
with any fraction, and in a leap second.

## Main results

* `Instant.ofText?_toText`: an instant is read back from its text.
* `Instant.isAscii_toText`: all characters of the text are single bytes.
-/

namespace DoubleEntry

namespace Instant

theorem isBlank_of_digit {c : Char} (h : (digitValue? c).isSome = true) : isBlank c = false := by
  unfold digitValue? at h
  split_ifs at h with hc
  · have h48 : 48 ≤ c.toNat := hc.1
    have h57 : c.toNat ≤ 57 := hc.2
    simp only [isBlank, Bool.or_eq_false_iff, Bool.and_eq_false_iff, decide_eq_false_iff_not,
      beq_eq_false_iff_ne]
    omega
  · cases h

theorem trimStartChars_digitsAt {width : Nat} (hw : 0 < width) (n : Nat) (rest : List Char) :
    trimStartChars (digitsAt 10 width n ++ rest) = digitsAt 10 width n ++ rest := by
  obtain ⟨c, cs, hcs⟩ := List.exists_cons_of_length_pos
    (by simpa using hw : 0 < (digitsAt 10 width n).length)
  have hc : isBlank c = false :=
    isBlank_of_digit (isSome_digitValue?_of_mem (hcs ▸ List.mem_cons_self))
  rw [hcs, trimStartChars, List.cons_append, List.dropWhile_cons_of_neg (by simp [hc])]

theorem trimStartChars_cons {c : Char} (h : isBlank c = false) (cs : List Char) :
    trimStartChars (c :: cs) = c :: cs := List.dropWhile_cons_of_neg (by simp [h])

theorem scanPart_mark {n : Nat} (hn : n < 10 ^ 2) {c : Char} (hc : isBlank c = false)
    (rest : List Char) :
    scanPart (some c) (digitsAt 10 2 n ++ c :: rest) = .ok (n, rest) := by
  have h63 : 10 ^ 2 < twoPow 63 := by decide
  have hscan : scanNumber 1 2 (digitsAt 10 2 n ++ c :: rest) = .ok (n, c :: rest) :=
    scanNumber_digitsAt (by decide) le_rfl hn (by omega) (by simp)
  simp [scanPart, trimStartChars_digitsAt, hscan, trimStartChars_cons hc, scanChar, bind,
    Except.bind, pure, Except.pure]

theorem scanPart_last {n : Nat} (hn : n < 10 ^ 2) (rest : List Char) :
    scanPart none (digitsAt 10 2 n ++ rest) = .ok (n, rest) := by
  have h63 : 10 ^ 2 < twoPow 63 := by decide
  have hscan : scanNumber 1 2 (digitsAt 10 2 n ++ rest) = .ok (n, rest) :=
    scanNumber_digitsAt (by decide) le_rfl hn (by omega) (by simp)
  simp [scanPart, trimStartChars_digitsAt, hscan, bind, Except.bind, pure, Except.pure]

theorem scanNumber_paddedDigits {n : Nat} (hn : n < twoPow 63) (rest : List Char) :
    scanNumber 1 (paddedDigits 4 n ++ '-' :: rest).length (paddedDigits 4 n ++ '-' :: rest) =
      .ok (n, '-' :: rest) := by
  obtain ⟨w, hw, hlt, hdigits⟩ := Decimal.exists_digitsAt (by decide : 0 < 4) n
  rw [hdigits]
  refine scanNumber_digitsAt (by omega) (by simp) hlt hn ?_
  simp only [List.length_append, length_digitsAt, Nat.add_sub_cancel_left, List.take_length]
  rw [List.takeWhile_cons_of_neg (by decide)]

/-- **A year is read back**, with a sign if four digits do not suffice. -/
theorem scanYear_yearChars {y : Int} (hfirst : -262143 ≤ y) (hlast : y ≤ 262142)
    (rest : List Char) : scanYear (yearChars y ++ '-' :: rest) = .ok (y, '-' :: rest) := by
  have h63 : 262143 < twoPow 63 := by decide
  have hscan : y.natAbs < twoPow 63 := by omega
  rw [yearChars]
  split_ifs with h4 hneg
  · have hlt : y.toNat < 10 ^ 4 := by omega
    have hy : (y.toNat : Int) = y := by omega
    have hnumber : scanNumber 1 4 (digitsAt 10 4 y.toNat ++ '-' :: rest) =
        .ok (y.toNat, '-' :: rest) :=
      scanNumber_digitsAt (by decide) le_rfl hlt (by omega) (by simp)
    obtain ⟨c, cs, hcs⟩ := List.exists_cons_of_length_pos
      (by simp : 0 < (digitsAt 10 4 y.toNat).length)
    have hc : (digitValue? c).isSome = true := isSome_digitValue?_of_mem (hcs ▸ List.mem_cons_self)
    -- a digit is not a sign
    have hminus : c ≠ '-' := by
      rintro rfl
      exact absurd hc (by decide)
    have hplus : c ≠ '+' := by
      rintro rfl
      exact absurd hc (by decide)
    rw [paddedDigits_eq (by decide) hlt, scanYear, trimStartChars_digitsAt (by decide)]
    rw [hcs, List.cons_append] at hnumber ⊢
    split
    · rename_i heq
      exact absurd (List.cons.inj heq).1 hminus
    · rename_i heq
      exact absurd (List.cons.inj heq).1 hplus
    · simp [hnumber, bind, Except.bind, pure, Except.pure, hy]
  · have hy : -((y.natAbs : Nat) : Int) = y := by omega
    rw [scanYear, List.cons_append, trimStartChars_cons (by decide)]
    simp only [scanNumber_paddedDigits hscan, bind, Except.bind, pure, Except.pure, hy]
  · have hy : ((y.natAbs : Nat) : Int) = y := by omega
    rw [scanYear, List.cons_append, trimStartChars_cons (by decide)]
    simp only [scanNumber_paddedDigits hscan, bind, Except.bind, pure, Except.pure, hy]

/-- **A fraction is read back** from the fewest digits that lose nothing. -/
theorem scanOptFraction_shortFraction {n : Nat} (hn : n < 10 ^ 9) :
    scanOptFraction (shortFraction n ++ ['Z']) = .ok (n, ['Z']) := by
  have h6 : tenPow (9 - 3) = 1000000 := by decide
  have h3 : tenPow (9 - 6) = 1000 := by decide
  have h0 : tenPow (9 - 9) = 1 := by decide
  rw [shortFraction]
  split_ifs with hnone hmilli hmicro
  · rw [hnone]
    rfl
  · have hlt : n / 1000000 < 10 ^ 3 := by omega
    have heq : n / 1000000 * 1000000 = n := by omega
    rw [paddedDigits_eq (by decide) hlt, List.cons_append, scanOptFraction,
      scanFraction_digitsAt (by decide) (by decide) hlt, h6, heq]
  · have hlt : n / 1000 < 10 ^ 6 := by omega
    have heq : n / 1000 * 1000 = n := by omega
    rw [paddedDigits_eq (by decide) hlt, List.cons_append, scanOptFraction,
      scanFraction_digitsAt (by decide) (by decide) hlt, h3, heq]
  · rw [paddedDigits_eq (by decide) hn, List.cons_append, scanOptFraction,
      scanFraction_digitsAt (by decide) (by decide) hn, h0, Nat.mul_one]

theorem toList_toText (i : Instant) :
    i.toText.toList = yearChars i.year ++ '-' :: (digitsAt 10 2 i.date.2.1 ++
      '-' :: (digitsAt 10 2 i.date.2.2 ++ 'T' :: (digitsAt 10 2 (i.timeOfDay / 3600) ++
      ':' :: (digitsAt 10 2 (i.timeOfDay / 60 % 60) ++
      ':' :: (digitsAt 10 2 (i.timeOfDay % 60 + i.nanos / second) ++
      (shortFraction (i.nanos % second) ++ ['Z'])))))) := by
  obtain ⟨hm, hd, hh, hmin, hs, -⟩ := i.parts_lt
  rw [← paddedDigits_eq (by decide) hm, ← paddedDigits_eq (by decide) hd,
    ← paddedDigits_eq (by decide) hh, ← paddedDigits_eq (by decide) hmin,
    ← paddedDigits_eq (by decide) hs]
  simp [toText, secondChars, fraction, date, timeOfDay, year]

/-- **An instant is read back from its text.** -/
theorem ofText?_toText (i : Instant) : ofText? i.toText = .ok i := by
  obtain ⟨hm, hd, hh, hmin, hs, -⟩ := i.parts_lt
  obtain ⟨hfirst, hlast⟩ := i.year_bounds
  have hf : i.nanos % second < 10 ^ 9 := Nat.mod_lt _ (by decide)
  have hend : trimStartChars ['Z'] = ['Z'] := trimStartChars_cons (by decide) []
  have huniversal : isUniversal ['Z'] = false := by decide
  have hoffset (colon : List Char → Except Unreadable (List Char)) :
      scanOffset colon ['Z'] = .ok (0, []) := rfl
  simp only [ofText?, toList_toText, scanYear_yearChars hfirst hlast,
    trimStartChars_cons (by decide : isBlank '-' = false),
    scanPart_mark hm (by decide : isBlank '-' = false), scanPart_last hd,
    scanPart_mark hh (by decide : isBlank ':' = false),
    scanPart_mark hmin (by decide : isBlank ':' = false), scanPart_last hs,
    scanOptFraction_shortFraction hf, hend, huniversal, hoffset, scanChar, scanMark, bind,
    Except.bind, pure, Except.pure, if_true, or_true, true_or, Bool.false_eq_true, if_false]
  exact i.instant_of_parts

theorem decoder_toText (src : Source) (i : Instant) : decoder src (.str i.toText) = .ok i := by
  simp only [decoder, Decoder.andThen, Decoder.textAs, bind, Except.bind, ofText?_toText]

/-! ### Single bytes -/

theorem isAscii_paddedDigits {width : Nat} (hw : 0 < width) (n : Nat) :
    IsAscii (paddedDigits width n) := by
  obtain ⟨w, -, -, hdigits⟩ := Decimal.exists_digitsAt hw n
  intro c hc
  rw [hdigits] at hc
  have hdigit : (digitValue? c).isSome = true := isSome_digitValue?_of_mem hc
  unfold digitValue? at hdigit
  split_ifs at hdigit with h
  · have h57 : c.toNat ≤ 57 := h.2
    omega
  · cases hdigit

theorem isAscii_yearChars (y : Int) : IsAscii (yearChars y) := by
  have hdigits (n : Nat) : IsAscii (paddedDigits 4 n) := isAscii_paddedDigits (by decide) n
  unfold yearChars
  split_ifs <;> simp [hdigits]

theorem isAscii_shortFraction (n : Nat) : IsAscii (shortFraction n) := by
  have hdigits {width : Nat} (hw : 0 < width) (m : Nat) : IsAscii (paddedDigits width m) :=
    isAscii_paddedDigits hw m
  unfold shortFraction
  split_ifs <;> simp [hdigits]

theorem isAscii_toText (i : Instant) : IsAscii i.toText.toList := by
  have hpart (n : Nat) : IsAscii (paddedDigits 2 n) := isAscii_paddedDigits (by decide) n
  simp [toText, secondChars, isAscii_yearChars, isAscii_shortFraction, hpart]

end Instant

end DoubleEntry
