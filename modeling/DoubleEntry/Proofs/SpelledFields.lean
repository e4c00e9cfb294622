import DoubleEntry.Proofs.AmountAnswers
import DoubleEntry.Proofs.ManualRequests

/-!
# Fields in other spellings

Of a text that stands in a field only some is looked at: not the blanks around it, not the case of a
currency, and of an identifier not its spelling.  Two texts that are the same but for these are
answered the same, be they read or refused.  What a field has read is written as a text that it
reads again, as the same value.

## Main definitions

* `Field.given`: the text of a field that may be left out.
* `Field.SameAccount`, `Field.SameCurrency`: two texts are those of one account, of one currency.

## Main results

* `Field.account_congr`, `Field.optionalAccount_congr`, `Field.currency_congr`: spellings are
  answered the same.
* `Field.toText_of_decimal`: an amount is shown as it was written.
-/

namespace DoubleEntry

theorem isControl_toLower : ∀ c : Char, isControl c.toLower = isControl c :=
  forall_toLower (p := fun c l => isControl l = isControl c) (fun _ => rfl) (by decide +kernel)

theorem isControl_toUpper (c : Char) : isControl c.toUpper = isControl c := by
  by_cases hc : c.toNat < 128
  · exact forall_ascii (p := fun c => isControl c.toUpper = isControl c) (by decide +kernel) hc
  · have hupper : c.toUpper = c := by
      refine dif_neg fun h => hc ?_
      have h122 : c.toNat ≤ 122 := h.2
      omega
    rw [hupper]

theorem isControl_of_isCapital {c : Char} (h : isCapital c = true) : isControl c = false := by
  simp only [isCapital, Bool.and_eq_true, decide_eq_true_eq] at h
  have h65 : 65 ≤ c.toNat := h.1
  have h90 : c.toNat ≤ 90 := h.2
  simp only [isControl, Bool.or_eq_false_iff, decide_eq_false_iff_not, beq_eq_false_iff_ne]
  omega

/-! ### Amounts as they are written -/

theorem digitsAt_numeral (ds : List (Fin 10)) :
    digitsAt 10 ds.length (numeral ds) = ds.map digit := by
  induction ds using List.reverseRecOn with
  | nil => rfl
  | append_singleton ds d ih =>
    have hnumeral : numeral (ds ++ [d]) = numeral ds * 10 + d.val := by simp [numeral]
    have hdiv : (numeral ds * 10 + d.val) / 10 = numeral ds := by omega
    have hmod : (numeral ds * 10 + d.val) % 10 = d.val := by omega
    rw [List.length_append, List.length_singleton, hnumeral, digitsAt, hdiv, hmod, ih,
      List.map_append]
    rfl

theorem paddedDigits_of_le {width w n : Nat} (hw : width ≤ w + 1) (hle : 10 ^ w ≤ n)
    (hlt : n < 10 ^ (w + 1)) : paddedDigits width n = digitsAt 10 (w + 1) n := by
  have hlength : (Nat.toDigits 10 n).length = w + 1 := by
    refine le_antisymm ((Nat.length_toDigits_le_iff (by decide) (Nat.succ_pos w)).2 hlt) ?_
    by_contra hshort
    obtain rfl | hpos := Nat.eq_zero_or_pos w
    · exact hshort Nat.length_toDigits_pos
    · exact absurd ((Nat.length_toDigits_le_iff (by decide) hpos).1 (by omega)) (not_lt.2 hle)
  rw [← paddedDigits_eq (Nat.succ_pos w) hlt]
  simp [paddedDigits, decimalDigits, hlength, Nat.sub_eq_zero_of_le hw]

namespace WrittenAmount

variable (a : WrittenAmount)

theorem paddedDigits_decimal :
    paddedDigits (a.part.length + 1) (numeral (a.whole ++ a.part)) =
      (a.whole ++ a.part).map digit := by
  rw [← digitsAt_numeral]
  obtain h | ⟨d, ds, h, hd⟩ := a.leads
  · have hlength : (a.whole ++ a.part).length = a.part.length + 1 := by
      rw [h, List.length_append, List.length_singleton, Nat.add_comm]
    rw [hlength]
    exact paddedDigits_eq (Nat.succ_pos _) (hlength ▸ numeral_lt _)
  · have hlength : (a.whole ++ a.part).length = (ds ++ a.part).length + 1 := by
      rw [h, List.cons_append, List.length_cons]
    -- the first digit is no nought
    have hle : 10 ^ (ds ++ a.part).length ≤ numeral (a.whole ++ a.part) := by
      have hfirst : numeral [d] = d.val := by simp [numeral]
      have hpos : 1 ≤ d.val := Nat.pos_of_ne_zero fun h0 => hd (Fin.ext h0)
      rw [h, ← List.singleton_append, List.append_assoc, numeral_append, hfirst]
      exact (Nat.le_mul_of_pos_left _ hpos).trans (Nat.le_add_right _ _)
    rw [hlength]
    refine paddedDigits_of_le ?_ hle (hlength ▸ numeral_lt _)
    rw [List.length_append]
    omega

/-- **An amount is shown as it is written.** -/
theorem toChars_decimal : a.decimal.toChars = a.chars := by
  have hdigits := a.paddedDigits_decimal
  have hwhole : (a.whole.map digit).length = a.whole.length := List.length_map digit
  rw [Decimal.toChars]
  simp only [decimal, hdigits, List.map_append, List.length_append, List.length_map,
    Nat.add_sub_cancel, List.take_left' hwhole, List.drop_left' hwhole]
  simp [chars, tail]

end WrittenAmount

namespace Field

variable {s t raw field : String}

/-! ### What is looked at -/

theorem required_congr (h : trim s = trim t) (field : String) (most : Nat) :
    required s field most = required t field most := by
  simp only [required, h]

/-- What comes of two texts is the same if they are of one length, with control characters in the
same places, and if it is the same once they are legible. -/
theorem required_bind_congr {α : Type} {f : String → Except DomainError α} (most : Nat)
    (hcontrol : (trim s).toList.map isControl = (trim t).toList.map isControl)
    (h : f (trim s) = f (trim t)) :
    required s field most >>= f = required t field most >>= f := by
  have hempty := congrArg List.isEmpty hcontrol
  have hany := congrArg (List.any · id) hcontrol
  have hlength := congrArg List.length hcontrol
  simp only [List.isEmpty_map] at hempty
  simp only [List.any_map, Function.id_comp] at hany
  simp only [List.length_map] at hlength
  simp only [required, hempty, hany, hlength]
  split_ifs
  · rfl
  · rfl
  · rfl
  · exact h

/-- The text of a field that may be left out, if there is any. -/
def given (raw : Option String) : Option String := (raw.map trim).filter (· ≠ "")

theorem given_some (hne : trim s ≠ "") : given (some s) = some (trim s) := by
  simp [given, hne]

theorem given_eq_none_iff {raw : Option String} : given raw = none ↔ IsBlank raw := by
  cases raw <;> simp [given, IsBlank, Option.filter_eq_none_iff]

theorem given_eq_some_iff {raw : Option String} :
    given raw = some t ↔ ∃ s, raw = some s ∧ trim s = t ∧ t ≠ "" := by
  cases raw with
  | none => simp [given]
  | some s => simp [given, Option.filter_eq_some_iff]

theorem given_given (raw : Option String) : given (given raw) = given raw := by
  cases h : given raw with
  | none => rfl
  | some t =>
    obtain ⟨s, -, rfl, hne⟩ := given_eq_some_iff.1 h
    rw [given_some (by rwa [trim_trim]), trim_trim]

/-! ### Texts -/

theorem key_congr (h : trim s = trim t) : key s = key t := by
  simp only [key, required_congr h]

theorem actor_congr (h : trim s = trim t) : actor s = actor t := by
  simp only [actor, required_congr h]

theorem decimal_congr (h : trim s = trim t) : decimal s field = decimal t field := by
  simp only [decimal, required_congr h]

theorem amount_congr (h : trim s = trim t) : amount s field = amount t field := by
  simp only [amount, decimal_congr h]

theorem key_of_key (h : key raw = .ok s) : key s = .ok s := by
  obtain rfl := key_eq_ok h
  rwa [key_congr (trim_trim raw)]

theorem actor_of_actor (h : actor raw = .ok s) : actor s = .ok s := by
  obtain ⟨u, hu, h'⟩ := exists_of_bind_eq_ok h
  obtain rfl := required_eq_ok hu
  split_ifs at h'
  · cases h'
    rwa [actor_congr (trim_trim raw)]
  · cases h'

theorem key_cases (raw : String) :
    (∃ s, key raw = .ok s) ∨ ∃ c, key raw = .error (.validation c) := by
  obtain ⟨-, h⟩ | ⟨-, c, h⟩ := required_cases raw "idempotency_key" 128
  · simp only [key, h, bind, Except.bind]
    split_ifs
    · exact .inl ⟨_, rfl⟩
    · exact .inr ⟨_, rfl⟩
  · exact .inr ⟨c, by simp only [key, h, bind, Except.bind]⟩

/-! ### Amounts -/

/-- **An amount is shown as it was written**, without the blanks around it. -/
theorem toText_of_decimal {d : Decimal} (h : decimal raw field = .ok d) : d.toText = trim raw := by
  obtain ⟨a, ha, rfl⟩ := decimal_eq_ok_iff.1 h
  rw [Decimal.toText, a.toChars_decimal, ← ha, String.ofList_toList]

theorem decimal_toText {d : Decimal} (h : decimal raw field = .ok d) (field' : String) :
    decimal d.toText field' = .ok d := by
  obtain ⟨a, ha, rfl⟩ := decimal_eq_ok_iff.1 h
  refine decimal_eq_ok_iff.2 ⟨a, ?_, rfl⟩
  rw [toText_of_decimal h, trim_trim, ha]

theorem amount_toText {d : Decimal} (h : amount raw field = .ok d) :
    amount d.toText field = .ok d := by
  obtain ⟨hread, hpos⟩ := amount_eq_ok_iff.1 h
  exact amount_eq_ok_iff.2 ⟨decimal_toText hread field, hpos⟩

/-! ### Texts that may be left out -/

variable {o p : Option String}

theorem optional_eq (o : Option String) (field : String) (most : Nat) :
    optional o field most = (given o).elim (.ok none) fun s => some <$> required s field most := by
  cases h : given o with
  | none => exact optional_of_isBlank (given_eq_none_iff.1 h)
  | some t =>
    obtain ⟨s, rfl, rfl, hne⟩ := given_eq_some_iff.1 h
    exact optional_some hne

theorem optional_congr (h : given o = given p) (field : String) (most : Nat) :
    optional o field most = optional p field most := by
  rw [optional_eq, optional_eq, h]

theorem externalRef_congr (h : given o = given p) : externalRef o = externalRef p := by
  simp only [externalRef, optional_congr h]

theorem reason_congr (h : given o = given p) : reason o = reason p := by
  simp only [reason, optional_congr h]

theorem externalRef_eq_ok {ref : Option String} (h : externalRef o = .ok ref) : ref = given o := by
  obtain ⟨t, ht, h⟩ := exists_of_bind_eq_ok h
  rw [optional_eq] at ht
  cases hgiven : given o with
  | none =>
    rw [hgiven] at ht
    cases ht
    cases h
    rfl
  | some s =>
    rw [hgiven] at ht
    obtain ⟨u, hu, rfl⟩ := map_eq_ok_iff.1 ht
    obtain rfl := required_eq_ok hu
    obtain ⟨r, -, rfl, -⟩ := given_eq_some_iff.1 hgiven
    dsimp only at h
    split_ifs at h
    · cases h
      rw [trim_trim]
    · cases h

/-- A reference is written, or left out if it is empty. -/
def written (ref : String) : Option String := if ref = "" then none else some ref

theorem written_getD (o : Option String) : written ((given o).getD "") = given o := by
  cases h : given o with
  | none => rfl
  | some t =>
    obtain ⟨s, -, -, hne⟩ := given_eq_some_iff.1 h
    exact if_neg hne

theorem externalRef_written {s : String} (h : (Option.getD · "") <$> externalRef o = .ok s) :
    (Option.getD · "") <$> externalRef (written s) = .ok s := by
  obtain ⟨ref, href, rfl⟩ := map_eq_ok_iff.1 h
  refine map_eq_ok_iff.2 ⟨ref, ?_, rfl⟩
  rw [externalRef_eq_ok href, written_getD, externalRef_congr (given_given o), href,
    externalRef_eq_ok href]

/-! ### Identifiers -/

/-- The two texts are those of one account, whatever their spellings are, or the same but for case
and the blanks around them. -/
inductive SameAccount (s t : String) : Prop
  | spelled {u : AccountId} (hs : u.Spells (trim s)) (ht : u.Spells (trim t))
  | text (h : (trim s).toList.map Char.toLower = (trim t).toList.map Char.toLower)

/-- **An account is read from its spellings**, and other texts are refused the same. -/
theorem account_congr (h : SameAccount s t) : account s field = account t field := by
  cases h with
  | spelled hs ht =>
    rw [account_eq_ok_iff.2 (Uuid.ofText?_eq_some_iff.2 hs),
      account_eq_ok_iff.2 (Uuid.ofText?_eq_some_iff.2 ht)]
  | text h =>
    refine required_bind_congr 64 ?_ ?_
    · have hcontrol := congrArg (List.map isControl) h
      simpa only [List.map_map, Function.comp_def, isControl_toLower] using hcontrol
    · have hread : Uuid.ofText? (trim s) = Uuid.ofText? (trim t) := by
        rw [Uuid.ofText?, Uuid.ofText?, ← Uuid.ofChars?_map_toLower, h, Uuid.ofChars?_map_toLower]
      rw [hread]

theorem account_cases (raw field : String) :
    (∃ u, account raw field = .ok u) ∨ ∃ c, account raw field = .error (.validation c) := by
  obtain ⟨-, h⟩ | ⟨-, c, h⟩ := required_cases raw field 64
  · simp only [account, h, bind, Except.bind]
    cases Uuid.ofText? (trim raw) with
    | some u => exact .inl ⟨u, rfl⟩
    | none => exact .inr ⟨_, rfl⟩
  · exact .inr ⟨c, by simp only [account, h, bind, Except.bind]⟩

theorem optionalAccount_eq (o : Option String) (field : String) :
    optionalAccount o field = (given o).elim (.ok none) fun s => some <$> account s field := by
  cases h : given o with
  | none => simp only [optionalAccount, optional_eq, h]; rfl
  | some t =>
    obtain ⟨s, -, rfl, -⟩ := given_eq_some_iff.1 h
    -- the text is asked for its length twice
    have htwice : required (trim s) field 64 >>= (account · field) = account (trim s) field := by
      cases hread : required (trim s) field 64 with
      | error e => simp only [account, hread, bind, Except.bind]
      | ok u =>
        obtain rfl := required_eq_ok hread
        simp only [bind, Except.bind]
        have hsame : SameAccount (trim (trim s)) (trim s) := .text (by rw [trim_trim (trim s)])
        rw [account_congr hsame]
    simp only [optionalAccount, optional_eq, h, Option.elim_some, ← htwice]
    cases required (trim s) field 64 with
    | error e => rfl
    | ok u => simp only [Functor.map, Except.map, bind, Except.bind]

theorem optionalAccount_congr (h : Option.Rel SameAccount (given o) (given p)) :
    optionalAccount o field = optionalAccount p field := by
  rw [optionalAccount_eq, optionalAccount_eq]
  revert h
  generalize given o = a, given p = b
  rintro (h | _)
  · rw [Option.elim_some, Option.elim_some, account_congr h]
  · rfl

theorem optionalAccount_toText (c : Option AccountId) (field : String) :
    optionalAccount (c.map Uuid.toText) field = .ok c := by
  rw [optionalAccount_eq_ok_iff]
  cases c with
  | none => exact .blank (by simp [IsBlank])
  | some u => exact .uuid (Option.mem_some_self _) (account_eq_ok_iff.1 (account_toText u field))

/-! ### Currencies -/

/-- The two texts are the same but for case and the blanks around them. -/
def SameCurrency (s t : String) : Prop := Currency.capitals (trim s) = Currency.capitals (trim t)

instance (s t : String) : Decidable (SameCurrency s t) := inferInstanceAs (Decidable (_ = _))

theorem currency_congr (h : SameCurrency s t) : currency s = currency t := by
  have hchars := congrArg String.toList h
  simp only [Currency.capitals, String.toList_ofList] at hchars
  refine required_bind_congr 3 ?_ ?_
  · have hcontrol := congrArg (List.map isControl) hchars
    simpa only [List.map_map, Function.comp_def, isControl_toUpper] using hcontrol
  · have hcapitals (s : String) :
        Currency.capitals (trim (trim s)) = Currency.capitals (trim s) := by
      rw [trim_trim]
    simp only [Currency.parse, hcapitals, h.symm]
    cases Currency.ofCode? (Currency.capitals (trim s)) <;> rfl

theorem currency_code (c : Currency) : currency c.code = .ok c := by
  have hcapital := List.all_eq_true.1 c.capital
  have htrim : trim c.code = c.code := trim_of_all fun x hx => isBlank_of_isCapital (hcapital x hx)
  have hrequired : required c.code "currency" 3 = .ok (trim c.code) := by
    refine required_eq_ok_of ?_ ?_ ?_ <;> rw [htrim]
    · intro h
      have hlength := c.length_eq
      rw [h] at hlength
      exact absurd hlength (by decide)
    · exact c.length_eq.le
    · exact fun x hx => isControl_of_isCapital (hcapital x hx)
  simp only [currency, hrequired, htrim, Currency.parse_code, bind, Except.bind]

/-! ### Sides of lines -/

theorem side_eq (index : Nat) (name : String) (o : Option String) :
    ManualLine.side index name o = (given o).elim (.ok .zero) fun s =>
      decimal s ("lines[" ++ toString index ++ "]." ++ name) := by
  cases h : given o with
  | none =>
    cases o with
    | none => rfl
    | some s => simp [ManualLine.side, given_eq_none_iff.1 h s rfl]
  | some t =>
    obtain ⟨s, rfl, rfl, hne⟩ := given_eq_some_iff.1 h
    simp [ManualLine.side, hne]

theorem side_congr (h : given o = given p) (index : Nat) (name : String) :
    ManualLine.side index name o = ManualLine.side index name p := by
  rw [side_eq, side_eq, h]

theorem side_toText {index : Nat} {name : String} {d : Decimal}
    (h : ManualLine.side index name o = .ok d) :
    ManualLine.side index name (some d.toText) = .ok d := by
  -- a side that is left out is written as a nought
  obtain ⟨raw, field, hread⟩ : ∃ raw field, decimal raw field = .ok d := by
    rw [side_eq] at h
    cases hgiven : given o with
    | none =>
      rw [hgiven] at h
      cases h
      exact ⟨"0", "", by decide⟩
    | some s =>
      rw [hgiven] at h
      exact ⟨s, _, h⟩
  have hwritten (field : String) := decimal_toText hread field
  have hne : trim d.toText ≠ "" := by
    obtain ⟨a, ha, -⟩ := decimal_eq_ok_iff.1 (hwritten "")
    intro h
    rw [h] at ha
    exact absurd ha.symm (by simp [WrittenAmount.chars, a.whole_ne_nil])
  rw [side_eq, given_some hne, Option.elim_some, decimal_congr (trim_trim d.toText), hwritten]

end Field

end DoubleEntry
