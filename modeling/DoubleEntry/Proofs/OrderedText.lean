import DoubleEntry.Decimal.Text
import DoubleEntry.Proofs.Identifier

/-!
# Texts of one width

Numbers written at one width have texts in the order of the numbers, in any base up to 16, and so
have identifiers, whose hyphens stand at the same places.

## Main definitions

* `digitsAt`: the digits of a number in a base, at a width.

## Main results

* `digitsAt_lt_iff`, `digitsAt_inj`: the order of numbers at one width.
* `paddedDigits_eq`, `Uuid.hexDigits_eq`: the written forms of numbers are of this kind.
* `foldl_digitsAt`: a number is read back from its digits in base ten.
* `Uuid.toText_lt_iff`: the order of identifiers.
-/

namespace DoubleEntry

/-- The digits of a number in a base, at a width. -/
def digitsAt (base : Nat) : (width : Nat) → Nat → List Char
  | 0, _ => []
  | width + 1, n => digitsAt base width (n / base) ++ [Nat.digitChar (n % base)]

/-! ### Lists of one length -/

/-- Of two texts that begin with as many characters, the beginnings decide first. -/
theorem append_lt_append_iff {a a' b b' : List Char} (h : a.length = a'.length) :
    a ++ b < a' ++ b' ↔ a < a' ∨ a = a' ∧ b < b' := by
  induction a generalizing a' with
  | nil =>
    obtain rfl : a' = [] := List.length_eq_zero_iff.1 h.symm
    simp
  | cons c a ih =>
    obtain ⟨c', a', rfl⟩ := List.exists_cons_of_length_eq_add_one h.symm
    have hl : a.length = a'.length := by simpa using h
    simp only [List.cons_append, List.cons_lt_cons_iff, ih hl, List.cons.injEq]
    by_cases hc : c = c'
    · subst hc
      simp
    · simp [hc]

theorem digitChar_lt_iff : ∀ m < 16, ∀ n < 16, Nat.digitChar m < Nat.digitChar n ↔ m < n := by
  decide

theorem digitChar_inj : ∀ m < 16, ∀ n < 16, Nat.digitChar m = Nat.digitChar n ↔ m = n := by
  decide

@[simp] theorem length_digitsAt (base width n : Nat) : (digitsAt base width n).length = width := by
  induction width generalizing n with
  | zero => rfl
  | succ width ih => simp [digitsAt, ih]

section

variable {base : Nat} (hpos : 0 < base) (hle : base ≤ 16)

include hpos hle

/-- **Numbers of one width have one text only if they are one.** -/
theorem digitsAt_inj {width m n : Nat} (hm : m < base ^ width) (hn : n < base ^ width) :
    digitsAt base width m = digitsAt base width n ↔ m = n := by
  refine ⟨fun h => ?_, fun h => h ▸ rfl⟩
  induction width generalizing m n with
  | zero =>
    rw [Nat.pow_zero] at hm hn
    omega
  | succ width ih =>
    have hm' : m / base < base ^ width := Nat.div_lt_of_lt_mul (by rwa [Nat.mul_comm])
    have hn' : n / base < base ^ width := Nat.div_lt_of_lt_mul (by rwa [Nat.mul_comm])
    obtain ⟨hq, hr⟩ := List.append_inj' h (by simp)
    have hr' := (digitChar_inj (m % base) ((Nat.mod_lt m hpos).trans_le hle) (n % base)
      ((Nat.mod_lt n hpos).trans_le hle)).1 (List.cons.inj hr).1
    rw [← Nat.div_add_mod m base, ← Nat.div_add_mod n base, ih hm' hn' hq, hr']

/-- **The order of numbers of one width is that of their texts.** -/
theorem digitsAt_lt_iff {width m n : Nat} (hm : m < base ^ width) (hn : n < base ^ width) :
    digitsAt base width m < digitsAt base width n ↔ m < n := by
  induction width generalizing m n with
  | zero =>
    rw [Nat.pow_zero] at hm hn
    obtain rfl : m = n := by omega
    simp
  | succ width ih =>
    have hm' : m / base < base ^ width := Nat.div_lt_of_lt_mul (by rwa [Nat.mul_comm])
    have hn' : n / base < base ^ width := Nat.div_lt_of_lt_mul (by rwa [Nat.mul_comm])
    have hd := digitChar_lt_iff (m % base) ((Nat.mod_lt m hpos).trans_le hle) (n % base)
      ((Nat.mod_lt n hpos).trans_le hle)
    have hlast : [Nat.digitChar (m % base)] < [Nat.digitChar (n % base)] ↔ m % base < n % base := by
      simp [List.cons_lt_cons_iff, hd]
    rw [digitsAt, digitsAt, append_lt_append_iff (by simp), ih hm' hn',
      digitsAt_inj hpos hle hm' hn', hlast]
    -- numbers are compared by their quotients, and then by their remainders
    have hmb := Nat.div_add_mod m base
    have hnb := Nat.div_add_mod n base
    have hmr := Nat.mod_lt m hpos
    have hnr := Nat.mod_lt n hpos
    constructor
    · rintro (hq | ⟨hq, hr⟩)
      · have := Nat.mul_le_mul_left base hq
        rw [Nat.mul_succ] at this
        omega
      · rw [hq] at hmb
        omega
    · intro hlt
      by_cases hq : m / base = n / base
      · rw [hq] at hmb
        exact .inr ⟨hq, by omega⟩
      · exact .inl (lt_of_le_of_ne (Nat.div_le_div_right hlt.le) hq)

end

/-! ### Numbers in base ten -/

theorem digitValue?_digitChar : ∀ n < 10, digitValue? (Nat.digitChar n) = some n := by decide

theorem isSome_digitValue?_of_mem {width n : Nat} {c : Char} (h : c ∈ digitsAt 10 width n) :
    (digitValue? c).isSome = true := by
  induction width generalizing n with
  | zero => cases h
  | succ width ih =>
    rw [digitsAt, List.mem_append, List.mem_singleton] at h
    obtain h | rfl := h
    · exact ih h
    · rw [digitValue?_digitChar _ (Nat.mod_lt n (by decide))]
      rfl

theorem paddedDigits_eq {width n : Nat} (hw : 0 < width) (hn : n < 10 ^ width) :
    paddedDigits width n = digitsAt 10 width n := by
  induction width, hw using Nat.le_induction generalizing n with
  | base =>
    have hn' : n < 10 := by simpa using hn
    simp [paddedDigits, decimalDigits, Nat.toDigits_of_lt_base hn', digitsAt,
      Nat.mod_eq_of_lt hn']
  | succ width hw ih =>
    have hn' : n / 10 < 10 ^ width := Nat.div_lt_of_lt_mul (by rwa [Nat.mul_comm])
    rw [digitsAt, ← ih hn']
    by_cases hlt : n < 10
    · -- a single digit, with noughts in front of it
      obtain ⟨w, rfl⟩ := Nat.exists_eq_add_of_le' hw
      have h0 : n / 10 = 0 := by omega
      simp [paddedDigits, decimalDigits, Nat.toDigits_of_lt_base hlt, h0, Nat.mod_eq_of_lt hlt,
        List.replicate_succ']
    · have hd := Nat.toDigits_of_base_le (by decide : 1 < 10) (not_lt.1 hlt)
      simp [paddedDigits, decimalDigits, hd]

/-- **A number is read back from its digits**, behind those that were read before. -/
theorem foldl_digitsAt {width n : Nat} (hn : n < 10 ^ width) (a : Nat) :
    (digitsAt 10 width n).foldl (fun k c => k * 10 + (digitValue? c).getD 0) a =
      a * 10 ^ width + n := by
  induction width generalizing n with
  | zero =>
    rw [Nat.pow_zero] at hn
    simp only [digitsAt, List.foldl_nil, Nat.pow_zero]
    omega
  | succ width ih =>
    have hn' : n / 10 < 10 ^ width := Nat.div_lt_of_lt_mul (by rwa [Nat.mul_comm])
    rw [digitsAt, List.foldl_append, ih hn', List.foldl_cons, List.foldl_nil,
      digitValue?_digitChar _ (Nat.mod_lt n (by decide)), Option.getD_some, Nat.pow_succ,
      ← Nat.mul_assoc]
    omega

/-! ### Identifiers -/

namespace Uuid

theorem hexDigits_eq (width n : Nat) : hexDigits width n = digitsAt 16 width n := by
  induction width generalizing n with
  | zero => rfl
  | succ width ih => rw [hexDigits, ih]; rfl

theorem hyphenate_lt_iff {ns : List Nat} {cs cs' : List Char} (h : cs.length = ns.sum)
    (h' : cs'.length = ns.sum) : hyphenate ns cs < hyphenate ns cs' ↔ cs < cs' := by
  induction ns generalizing cs cs' with
  | nil =>
    obtain rfl : cs = [] := by simpa using h
    obtain rfl : cs' = [] := by simpa using h'
    rfl
  | cons n ns ih =>
    cases ns with
    | nil => rfl
    | cons m ns =>
      rw [List.sum_cons] at h h'
      have hl : (cs.take n).length = (cs'.take n).length := by
        simp only [List.length_take]
        omega
      have hrest : hyphenate (m :: ns) (cs.drop n) < hyphenate (m :: ns) (cs'.drop n) ↔
          cs.drop n < cs'.drop n :=
        ih (by rw [List.length_drop]; omega) (by rw [List.length_drop]; omega)
      conv_rhs => rw [← List.take_append_drop n cs, ← List.take_append_drop n cs']
      simp only [hyphenate, append_lt_append_iff hl, List.cons_lt_cons_self, hrest]

/-- **The order of identifiers** is that of their texts. -/
theorem toText_lt_iff {u v : Uuid} : u.toText < v.toText ↔ u.bits < v.bits := by
  have fits : ∀ w : Uuid, w.bits < 16 ^ 32 := fun w => by simpa [twoPow] using w.bits_lt
  rw [String.lt_iff, toText, toText, String.toList_ofList, String.toList_ofList, toChars, toChars,
    hyphenate_lt_iff (length_hexDigits 32 _) (length_hexDigits 32 _), hexDigits_eq, hexDigits_eq,
    digitsAt_lt_iff (by decide) (by decide) (fits u) (fits v)]

end Uuid

end DoubleEntry
