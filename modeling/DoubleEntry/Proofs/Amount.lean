import DoubleEntry.Command.Field
import DoubleEntry.Proofs.Command
import Mathlib.Tactic.Linarith
import Mathlib.Tactic.Ring

/-!
# Amounts of requests

An amount that a request may ask for has at most six places, so nothing of it is lost where it is
written with six.

## Main results

* `Field.places_of_amount`, `PaymentCommand.places_of_ofRequest`: the places of an amount.
* `Decimal.sameValue_toAmount`: the amount at six places denotes the same number.
-/

namespace DoubleEntry

namespace Decimal

theorem places_roundOff_le {r : Reading} {c : Char} {coeff places : Nat}
    (h : r.roundOff c = some (coeff, places)) : places ≤ r.places := by
  have rounded : ∀ d : Nat, (if d < 5 then some (r.coeff, r.places)
      else if r.coeff + 1 < twoPow 96 then some (r.coeff + 1, r.places)
      else if r.places = 0 then none else some ((r.coeff + 5) / 10, r.places - 1)) =
        some (coeff, places) → places ≤ r.places := by
    intro d h
    split_ifs at h
    all_goals
      cases h
      omega
  unfold Reading.roundOff at h
  dsimp only at h
  by_cases hc : c = '_' ∨ c = '.' ∧ r.point = true
  · rw [if_pos hc] at h
    exact rounded 0 h
  · rw [if_neg hc] at h
    obtain ⟨d, -, h⟩ := Option.bind_eq_some_iff.1 h
    exact rounded d h

theorem places_readDigits_le {r : Reading} (hr : r.point = true) {cs : List Char}
    {coeff places : Nat} (h : readDigits r cs = some (coeff, places)) :
    places ≤ r.places + cs.length := by
  induction cs generalizing r with
  | nil =>
    simp only [readDigits] at h
    split_ifs at h
    cases h
    exact Nat.le_refl _
  | cons c cs ih =>
    simp only [readDigits, hr, Bool.true_and, Bool.not_true] at h
    rw [List.length_cons]
    split at h
    -- a digit: it ends the reading, or the reading goes on with one more place
    · split_ifs at h
      · exact (places_roundOff_le h).trans (Nat.le_add_right _ _)
      · have := ih rfl h
        dsimp only at this
        omega
      · exact (places_roundOff_le h).trans (Nat.le_add_right _ _)
    · split_ifs at h
      · exact (places_roundOff_le h).trans (Nat.le_add_right _ _)
      -- there is no second point
      · exact absurd ‹_ ∧ _›.2 (by decide)
      · have := ih hr h
        omega

/-- What stands behind the first point. -/
def behindPoint (cs : List Char) : List Char := (cs.dropWhile (· != '.')).tail

theorem places_readDigits_le_behindPoint {r : Reading} (hr : r.point = false) (hp : r.places = 0)
    {cs : List Char} {coeff places : Nat} (h : readDigits r cs = some (coeff, places)) :
    places ≤ (behindPoint cs).length := by
  induction cs generalizing r with
  | nil =>
    simp only [readDigits] at h
    split_ifs at h
    cases h
    simp [hp]
  | cons c cs ih =>
    by_cases hc : c = '.'
    · subst hc
      have hb : behindPoint ('.' :: cs) = cs := rfl
      have hd : digitValue? '.' = none := by decide
      simp only [readDigits, hd, hr, Bool.false_and, Bool.not_false] at h
      have := places_readDigits_le (r := { r with point := true }) rfl (by simpa using h)
      rw [hb]
      dsimp only at this
      omega
    · have hb : behindPoint (c :: cs) = behindPoint cs := by simp [behindPoint, hc]
      rw [hb]
      simp only [readDigits, hr, Bool.false_and, Bool.false_eq_true, if_false, hc, false_and] at h
      split at h
      · split_ifs at h
        exact ih rfl rfl h
      · split_ifs at h
        exact ih hr hp h

theorem splitSign_of_ne {c : Char} (cs : List Char) (hm : c ≠ '-') (hp : c ≠ '+') :
    splitSign (c :: cs) = (false, c :: cs) := by
  unfold splitSign
  split
  · exact absurd (List.cons.inj ‹_›).1 hm
  · exact absurd (List.cons.inj ‹_›).1 hp
  · rfl

theorem places_ofChars?_le {c : Char} {cs : List Char} {d : Decimal} (hm : c ≠ '-') (hp : c ≠ '+')
    (h : ofChars? (c :: cs) = some d) : d.places ≤ (behindPoint (c :: cs)).length := by
  simp only [ofChars?, splitSign_of_ne cs hm hp] at h
  obtain ⟨⟨coeff, places⟩, hr, h⟩ := Option.bind_eq_some_iff.1 h
  rw [(ofParts?_eq_some h).2.2]
  exact places_readDigits_le_behindPoint rfl rfl hr

/-! ### Six places -/

theorem sameValue_widenBy (n : Nat) (d : Decimal) : (widenBy n d).sameValue d = true := by
  induction n generalizing d with
  | zero => simp [widenBy, sameValue]
  | succ n ih =>
    unfold widenBy
    split_ifs with h
    · have hd := sameValue_iff.1 (ih { d with
        coeff := d.coeff * 10, places := d.places + 1, coeff_lt := h.1, places_le := h.2 })
      rw [sameValue_iff]
      have hn : ({ d with
          coeff := d.coeff * 10, places := d.places + 1, coeff_lt := h.1
          places_le := h.2 } : Decimal).numerator = d.numerator * 10 := by
        simp only [numerator]
        split_ifs
        · push_cast
          ring
        · push_cast
          ring
      rw [hn, tenPow_succ] at hd
      push_cast at hd
      linarith
    · simp [sameValue]

theorem negative_widenBy (n : Nat) (d : Decimal) : (widenBy n d).negative = d.negative := by
  induction n generalizing d with
  | zero => rfl
  | succ n ih =>
    unfold widenBy
    split_ifs
    · exact ih _
    · rfl

theorem unsigned_toAmount {d : Decimal} (h : d.negative = false) :
    d.toAmount.negative = false := by
  rw [toAmount, widen, negative_widenBy, round]
  split_ifs
  · exact h
  · simp [h]

/-- **Six places are enough** for a decimal that has no more. -/
theorem sameValue_toAmount {d : Decimal} (h : d.places ≤ amountPlaces) :
    d.toAmount.sameValue d = true := by
  rw [toAmount, round_of_le h]
  exact sameValue_widenBy _ d

end Decimal

namespace Field

theorem length_behindPoint_of_isFraction {cs : List Char} (h : isFraction cs = true) :
    (Decimal.behindPoint cs).length ≤ Decimal.amountPlaces := by
  unfold isFraction at h
  split at h
  · exact Nat.zero_le _
  · rename_i ds
    have hb : Decimal.behindPoint ('.' :: ds) = ds := rfl
    rw [hb]
    simp only [Bool.and_eq_true, decide_eq_true_eq] at h
    exact h.2
  · cases h

theorem behindPoint_dropWhile (cs : List Char) :
    Decimal.behindPoint (cs.dropWhile isDecimalDigit) = Decimal.behindPoint cs := by
  induction cs with
  | nil => rfl
  | cons c cs ih =>
    by_cases hc : isDecimalDigit c = true
    · have hne : c ≠ '.' := by
        rintro rfl
        exact absurd hc (by decide)
      rw [List.dropWhile_cons_of_pos hc, ih]
      simp [Decimal.behindPoint, hne]
    · rw [List.dropWhile_cons_of_neg hc]

theorem exists_of_isAmount {cs : List Char} (h : isAmount cs = true) :
    ∃ c rest, cs = c :: rest ∧ c ≠ '-' ∧ c ≠ '+' ∧
      (Decimal.behindPoint cs).length ≤ Decimal.amountPlaces := by
  unfold isAmount at h
  split at h
  · rename_i rest
    have hb : Decimal.behindPoint ('0' :: rest) = Decimal.behindPoint rest := rfl
    refine ⟨'0', rest, rfl, by decide, by decide, ?_⟩
    rw [hb]
    exact length_behindPoint_of_isFraction h
  · rename_i c rest _
    simp only [Bool.and_eq_true, decide_eq_true_eq] at h
    obtain ⟨⟨⟨h1, -⟩, -⟩, hf⟩ := h
    have hne : c ≠ '.' := by
      rintro rfl
      exact absurd h1 (by decide)
    refine ⟨c, rest, rfl, ?_, ?_, ?_⟩
    · rintro rfl
      exact absurd h1 (by decide)
    · rintro rfl
      exact absurd h1 (by decide)
    · have hb : Decimal.behindPoint (c :: rest) = Decimal.behindPoint rest := by
        simp [Decimal.behindPoint, hne]
      rw [hb, ← behindPoint_dropWhile]
      exact length_behindPoint_of_isFraction hf
  · cases h

/-- **An amount of a request** has at most six places. -/
theorem places_of_amount {raw field : String} {d : Decimal} (h : amount raw field = .ok d) :
    d.places ≤ Decimal.amountPlaces := by
  obtain ⟨d', hd, h⟩ := exists_of_bind_eq_ok h
  obtain ⟨s, -, hd⟩ := exists_of_bind_eq_ok hd
  split_ifs at h hd with hz hs
  · cases h
    -- the text was checked before it was read
    obtain ⟨c, rest, hc, hm, hp, hb⟩ := exists_of_isAmount hs
    split at hd
    · rename_i d' hd'
      cases hd
      rw [Decimal.ofText?, hc] at hd'
      rw [hc] at hb
      exact (Decimal.places_ofChars?_le hm hp hd').trans hb
    · cases hd

end Field

theorem PaymentCommand.places_of_ofRequest {r : PaymentRequest} {c : PaymentCommand}
    (h : ofRequest r = .ok c) : c.amount.places ≤ Decimal.amountPlaces :=
  Field.places_of_amount (ofRequest_eq_ok_iff.1 h).amount

end DoubleEntry
