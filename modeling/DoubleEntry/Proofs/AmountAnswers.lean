import DoubleEntry.Proofs.AmountGrammar

/-!
# Answers to texts of amounts

A field for an amount answers every text.  It reads the texts of amounts, each as the number that is
written and with the places that are written, and refuses all others: a text that is blank, too long
or holds control characters as one that no field takes, and any other as no amount
(`Field.amount_answers`).  The field for an amount above nought refuses a nought as no amount, too.

## Main definitions

* `Field.IsLegible`: a text whose form a field looks at.
* `Field.Reads`: a decimal is the number that a text writes, place by place.
-/

namespace DoubleEntry

theorem WrittenAmount.number_bounds (a : WrittenAmount) : 0 ≤ a.number ∧ a.number < 10 ^ 20 := by
  have hpos : (0 : ℚ) < 10 ^ a.part.length := pow_pos (by norm_num) _
  have hwhole : numeral a.whole + 1 ≤ 10 ^ 20 :=
    (numeral_lt a.whole).trans_le (Nat.pow_le_pow_right (by decide) a.length_whole)
  have hwhole' : (numeral a.whole : ℚ) + 1 ≤ 10 ^ 20 := by exact_mod_cast hwhole
  have hpart : (numeral a.part : ℚ) / 10 ^ a.part.length < 1 := by
    rw [div_lt_one hpos]
    exact_mod_cast numeral_lt a.part
  have hpart' : 0 ≤ (numeral a.part : ℚ) / 10 ^ a.part.length :=
    div_nonneg (Nat.cast_nonneg _) hpos.le
  rw [number]
  exact ⟨add_nonneg (Nat.cast_nonneg _) hpart', by linarith⟩

namespace Field

/-- Without the blanks around it the text is not empty, it is not too long, and it holds no control
characters. -/
structure IsLegible (most : Nat) (raw : String) : Prop where
  ne_empty : trim raw ≠ ""
  length_le : (trim raw).toList.length ≤ most
  plain : ∀ c ∈ (trim raw).toList, isControl c = false

/-- The text writes an amount with ASCII digits, and the decimal is that number, with as many places
as digits stand behind the point. -/
def Reads (raw : String) (d : Decimal) : Prop :=
  ∃ a : WrittenAmount, (trim raw).toList = a.chars ∧ d.negative = false ∧
    d.places = a.part.length ∧ d.value = a.number

variable {raw field : String} {d : Decimal} {most : Nat}

theorem reads_iff : Reads raw d ↔ ∃ a : WrittenAmount, (trim raw).toList = a.chars ∧
    d = a.decimal := by
  constructor
  · rintro ⟨a, ha, hs, hplaces, hvalue⟩
    exact ⟨a, ha, Decimal.eq_of_value hs hplaces (hvalue.trans a.value_decimal.symm)⟩
  · rintro ⟨a, ha, rfl⟩
    exact ⟨a, ha, rfl, rfl, a.value_decimal⟩

theorem decimal_eq_ok_iff_reads : decimal raw field = .ok d ↔ Reads raw d := by
  rw [decimal_eq_ok_iff, reads_iff]

theorem Reads.bounds (h : Reads raw d) : 0 ≤ d.value ∧ d.value < 10 ^ 20 := by
  obtain ⟨a, -, -, -, hvalue⟩ := h
  rw [hvalue]
  exact a.number_bounds

theorem required_cases (raw field : String) (most : Nat) :
    IsLegible most raw ∧ required raw field most = .ok (trim raw) ∨
      ¬ IsLegible most raw ∧ ∃ c, required raw field most = .error (.validation c) := by
  by_cases h : IsLegible most raw
  · exact .inl ⟨h, required_eq_ok_of h.ne_empty h.length_le h.plain⟩
  · refine .inr ⟨h, ?_⟩
    rw [required]
    split_ifs with hempty hcontrol hlong
    · exact ⟨_, rfl⟩
    · exact ⟨_, rfl⟩
    · exact ⟨_, rfl⟩
    · refine absurd ⟨?_, not_lt.1 hlong, ?_⟩ h
      · rwa [List.isEmpty_iff, String.toList_eq_nil_iff] at hempty
      · simpa using hcontrol

/-- How a field answers a text: it reads some decimals, refuses every other legible text as no
amount, and a text that is not legible as one that no field takes. -/
structure Answers (raw : String) (reads : Decimal → Prop) (answer : Except DomainError Decimal) :
    Prop where
  ok : ∀ d, answer = .ok d ↔ reads d
  invalidAmount : (∃ c, answer = .error (.invalidAmount c)) ↔
    IsLegible 32 raw ∧ ¬ ∃ d, reads d
  validation : (∃ c, answer = .error (.validation c)) ↔ ¬ IsLegible 32 raw

/-- There are no other answers than these three. -/
theorem answers_of_cases {answer : Except DomainError Decimal} {reads : Decimal → Prop}
    (hok : ∀ d, answer = .ok d ↔ reads d)
    (hcases : IsLegible 32 raw ∧ ((∃ d, answer = .ok d) ∨ ∃ c, answer = .error (.invalidAmount c)) ∨
      ¬ IsLegible 32 raw ∧ ∃ c, answer = .error (.validation c)) : Answers raw reads answer := by
  obtain ⟨h, ⟨d, hd⟩ | ⟨c, hc⟩⟩ | ⟨h, c, hc⟩ := hcases
  · have hreads : ∃ d, reads d := ⟨d, (hok d).1 hd⟩
    exact ⟨hok, by simp [hd, h, hreads], by simp [hd, h]⟩
  · have hnone : ¬ ∃ d, reads d := by
      rintro ⟨d, hd⟩
      rw [← hok, hc] at hd
      cases hd
    exact ⟨hok, by simp [hc, h, hnone], by simp [hc, h]⟩
  · exact ⟨hok, by simp [hc, h], by simp [hc, h]⟩

theorem decimal_cases (raw field : String) :
    IsLegible 32 raw ∧ ((∃ d, decimal raw field = .ok d) ∨
        ∃ c, decimal raw field = .error (.invalidAmount c)) ∨
      ¬ IsLegible 32 raw ∧ ∃ c, decimal raw field = .error (.validation c) := by
  obtain ⟨h, hread⟩ | ⟨h, c, hread⟩ := required_cases raw field 32
  · refine .inl ⟨h, ?_⟩
    simp only [decimal, hread, bind, Except.bind]
    split_ifs
    · split
      · exact .inl ⟨_, rfl⟩
      · exact .inr ⟨_, rfl⟩
    · exact .inr ⟨_, rfl⟩
  · exact .inr ⟨h, c, by simp only [decimal, hread, bind, Except.bind]⟩

/-- What is read as a nought is refused as no amount, too. -/
theorem amount_cases (raw field : String) :
    IsLegible 32 raw ∧ ((∃ d, amount raw field = .ok d) ∨
        ∃ c, amount raw field = .error (.invalidAmount c)) ∨
      ¬ IsLegible 32 raw ∧ ∃ c, amount raw field = .error (.validation c) := by
  obtain ⟨h, ⟨d, hd⟩ | ⟨c, hc⟩⟩ | ⟨h, c, hc⟩ := decimal_cases raw field
  · refine .inl ⟨h, ?_⟩
    simp only [amount, hd, bind, Except.bind]
    split_ifs
    · exact .inr ⟨_, rfl⟩
    · exact .inl ⟨_, rfl⟩
  · exact .inl ⟨h, .inr ⟨c, by simp only [amount, hc, bind, Except.bind]⟩⟩
  · exact .inr ⟨h, c, by simp only [amount, hc, bind, Except.bind]⟩

theorem amount_eq_ok_iff : amount raw field = .ok d ↔ decimal raw field = .ok d ∧ 0 < d.value := by
  rw [amount, bind_eq_ok_iff]
  constructor
  · rintro ⟨e, he, h⟩
    split_ifs at h with hzero
    cases h
    have hnonneg := (decimal_eq_ok_iff_reads.1 he).bounds.1
    refine ⟨he, lt_of_le_of_ne hnonneg fun h0 => hzero ?_⟩
    rw [Decimal.isZero_iff_value, h0]
  · rintro ⟨h, hpos⟩
    refine ⟨d, h, if_neg fun hzero => ?_⟩
    rw [Decimal.isZero_iff_value] at hzero
    exact hpos.ne' hzero

/-- **Every text has its answer.**  The texts of amounts are read as the numbers that they write,
the noughts among them only where an amount may be one. -/
theorem amount_answers (raw field : String) :
    Answers raw (fun d => Reads raw d ∧ 0 ≤ d.value ∧ d.value < 10 ^ 20) (decimal raw field) ∧
      Answers raw (fun d => decimal raw field = .ok d ∧ 0 < d.value) (amount raw field) := by
  refine ⟨answers_of_cases (fun d => ?_) (decimal_cases raw field),
    answers_of_cases (fun d => amount_eq_ok_iff) (amount_cases raw field)⟩
  rw [decimal_eq_ok_iff_reads]
  exact ⟨fun h => ⟨h, h.bounds⟩, And.left⟩

/-- Digits of other scripts pass for those of an amount, and are refused all the same. -/
example : decimal " 1٢.٥ " "amount" = .error (.invalidAmount (.outOfRange "amount")) := by
  decide +kernel

end Field

end DoubleEntry
