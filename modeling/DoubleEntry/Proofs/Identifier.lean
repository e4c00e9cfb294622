import DoubleEntry.Uuid
import Mathlib.Tactic.IntervalCases

/-!
# Identifiers are read back from their texts

The text of an identifier is its hexadecimal digits, in groups with hyphens between them.  The
groups are found again, and the digits give the number back.

## Main results

* `Uuid.ofText?_toText`: an identifier is read back from its text.
* `Uuid.toText_injective`: no two identifiers have one text.
-/

namespace DoubleEntry

theorem hexDigit_cases {n : Nat} (h : n < 16) :
    Json.hexValue? (Json.hexDigit n) = some n ∧ (Json.hexDigit n).toLower ≠ 'u' ∧
      Json.hexDigit n ≠ '\x7b' := by
  interval_cases n <;> decide

namespace Uuid

/-! ### Digits -/

@[simp] theorem length_hexDigits (width n : Nat) : (hexDigits width n).length = width := by
  induction width generalizing n with
  | zero => rfl
  | succ width ih => simp [hexDigits, ih]

theorem exists_of_mem_hexDigits {width n : Nat} {c : Char} (h : c ∈ hexDigits width n) :
    ∃ d, d < 16 ∧ c = Json.hexDigit d := by
  induction width generalizing n with
  | zero => cases h
  | succ width ih =>
    rw [hexDigits, List.mem_append, List.mem_singleton] at h
    obtain h | rfl := h
    · exact ih h
    · exact ⟨n % 16, Nat.mod_lt _ (by decide), rfl⟩

theorem foldlM_hexDigits (width n a : Nat) :
    (hexDigits width n).foldlM (fun n c => (Json.hexValue? c).map (n * 16 + ·)) a =
      some (a * 16 ^ width + n % 16 ^ width) := by
  induction width generalizing n with
  | zero => simp [hexDigits, Nat.mod_one]
  | succ width ih =>
    have hd := (hexDigit_cases (Nat.mod_lt n (by decide : 0 < 16))).1
    rw [hexDigits, List.foldlM_append, ih]
    simp only [List.foldlM_cons, List.foldlM_nil, Option.bind_eq_bind, Option.bind_some, hd,
      Option.map_some, Option.pure_def, Option.some.injEq]
    -- all digits but the last are those of the quotient
    have hn : n % 16 ^ (width + 1) = n / 16 % 16 ^ width * 16 + n % 16 := by
      rw [Nat.pow_succ, Nat.mul_comm, Nat.mod_mul]
      omega
    rw [hn, Nat.pow_succ, ← Nat.mul_assoc]
    omega

theorem ofDigits?_hexDigits (u : Uuid) : ofDigits? (hexDigits 32 u.bits) = some u := by
  have h : u.bits % 16 ^ 32 = u.bits := Nat.mod_eq_of_lt (by simpa [twoPow] using u.bits_lt)
  rw [ofDigits?, if_pos (length_hexDigits 32 _), foldlM_hexDigits, h]
  simp [ofNat, Nat.mod_eq_of_lt u.bits_lt]

/-! ### Groups -/

theorem unhyphenate_hyphenate (ns : List Nat) (cs : List Char) (h : cs.length = ns.sum) :
    unhyphenate ns (hyphenate ns cs) = some cs := by
  induction ns generalizing cs with
  | nil =>
    have : cs = [] := by simpa using h
    simp [this, hyphenate, unhyphenate]
  | cons n ns ih =>
    cases ns with
    | nil => exact if_pos (by simpa [hyphenate] using h)
    | cons m ns =>
      have hl : (cs.take n).length = n := by
        simp only [List.sum_cons] at h
        simp only [List.length_take]
        omega
      have hd : (cs.take n ++ '-' :: hyphenate (m :: ns) (cs.drop n)).drop n =
          '-' :: hyphenate (m :: ns) (cs.drop n) := by
        rw [List.drop_append_of_le_length (by omega), List.drop_eq_nil_of_le (by omega)]
        rfl
      have ht : (cs.take n ++ '-' :: hyphenate (m :: ns) (cs.drop n)).take n = cs.take n := by
        rw [List.take_append_of_le_length (by omega), List.take_of_length_le (by omega)]
      have hrest : (cs.drop n).length = (m :: ns).sum := by
        simp only [List.sum_cons, List.length_drop] at h ⊢
        omega
      simp [hyphenate, unhyphenate, hd, ht, ih _ hrest]

theorem length_toChars (u : Uuid) : u.toChars.length = 36 := by
  simp [toChars, groups, hyphenate]

theorem mem_hyphenate {ns : List Nat} {cs : List Char} {c : Char} (h : c ∈ hyphenate ns cs) :
    c = '-' ∨ c ∈ cs := by
  induction ns generalizing cs with
  | nil => cases h
  | cons n ns ih =>
    cases ns with
    | nil => exact .inr h
    | cons m ns =>
      simp only [hyphenate, List.mem_append, List.mem_cons] at h
      obtain h | h | h := h
      · exact .inr (List.mem_of_mem_take h)
      · exact .inl h
      · exact (ih h).imp_right List.mem_of_mem_drop

theorem mem_toChars {u : Uuid} {c : Char} (h : c ∈ u.toChars) :
    c = '-' ∨ ∃ d, d < 16 ∧ c = Json.hexDigit d :=
  (mem_hyphenate h).imp_right exists_of_mem_hexDigits

theorem exists_toChars_eq_cons (u : Uuid) : ∃ d cs, d < 16 ∧ u.toChars = Json.hexDigit d :: cs := by
  obtain ⟨c, cs, hc⟩ := List.exists_cons_of_length_pos
    (by rw [length_hexDigits]; decide : 0 < (hexDigits 32 u.bits).length)
  obtain ⟨d, hd, rfl⟩ := exists_of_mem_hexDigits (hc ▸ List.mem_cons_self : c ∈ hexDigits 32 u.bits)
  refine ⟨d, cs.take 7 ++ '-' :: hyphenate [4, 4, 4, 12] (cs.drop 7), hd, ?_⟩
  rw [toChars, hc]
  rfl

theorem unwrap_toChars (u : Uuid) : unwrap u.toChars = u.toChars := by
  obtain ⟨d, cs, hd, hu⟩ := exists_toChars_eq_cons u
  obtain ⟨-, hl, hb⟩ := hexDigit_cases hd
  rw [hu]
  unfold unwrap
  split
  · rename_i heq
    exact absurd (List.cons.inj heq).1 hb
  · rw [if_neg]
    intro h
    exact hl (List.cons.inj h).1

/-- **An identifier is read back from its text.** -/
theorem ofText?_toText (u : Uuid) : ofText? u.toText = some u := by
  have hl : u.toChars.length ≠ 32 := by simp [length_toChars]
  rw [ofText?, toText, String.toList_ofList, ofChars?, if_neg hl, unwrap_toChars, toChars,
    unhyphenate_hyphenate _ _ (length_hexDigits 32 _), Option.bind_some, ofDigits?_hexDigits]

theorem toText_injective : Function.Injective toText := by
  intro u v h
  have := ofText?_toText u
  rw [h, ofText?_toText] at this
  exact (Option.some.inj this).symm

@[simp] theorem toText_inj {u v : Uuid} : u.toText = v.toText ↔ u = v := toText_injective.eq_iff

end Uuid

end DoubleEntry
