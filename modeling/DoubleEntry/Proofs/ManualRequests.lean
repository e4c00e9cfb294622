import DoubleEntry.Proofs.AmountGrammar
import DoubleEntry.Proofs.Spelling
import Mathlib.Data.List.DropRight
import Mathlib.Logic.Basic

/-!
# Requests for journals of given lines

What a request asks for is said without its reader: a line names an account of the chart by its
code, a customer by the text of an identifier, or none, and writes an amount on each of its sides,
where a blank one is nought.  The requests that ask for a journal are those that are read, and the
command that is read says what was asked for (`ManualRequest.asks_iff`).

## Main definitions

* `LineContent`, `JournalContent`: what a line and a journal say, their amounts as numbers.
* `JournalContent.IsBalanced`: the rule of double entry about these numbers.
* `ManualRequest.Asks`: a request asks for a journal.

## Main results

* `Field.account_eq_ok_iff`, `Field.optionalAccount_eq_ok_iff`: which texts name a customer.
* `Field.writesAmount_iff`: which texts write an amount.
* `GlAccount.ofCode_eq_ok_iff`: which texts name an account of the chart.
-/

namespace DoubleEntry

/-- What a line says, the amounts on its sides as numbers. -/
structure LineContent where
  account : GlAccount
  counterparty : Option AccountId
  debit : ℚ
  credit : ℚ

/-- What a journal says. -/
structure JournalContent where
  currency : Currency
  createdBy : String
  externalRef : String
  lines : List LineContent

namespace JournalContent

/-- The sum of the debits. -/
def debits (q : JournalContent) : ℚ := (q.lines.map (·.debit)).sum

/-- The sum of the credits. -/
def credits (q : JournalContent) : ℚ := (q.lines.map (·.credit)).sum

/-- The rule of double entry: there are two lines, each has one side above nought, and the sides are
of one sum. -/
structure IsBalanced (q : JournalContent) : Prop where
  two_le : 2 ≤ q.lines.length
  sides : ∀ l ∈ q.lines, Xor (0 < l.debit) (0 < l.credit)
  sums : q.debits = q.credits

end JournalContent

/-! ### What is asked for -/

namespace Field

/-- The field is left out, or holds nothing but blanks. -/
def IsBlank (raw : Option String) : Prop := ∀ s ∈ raw, trim s = ""

/-- The customer that a field names, if it is not blank. -/
inductive NamesCustomer (raw : Option String) : Option AccountId → Prop
  | blank (h : IsBlank raw) : NamesCustomer raw none
  | uuid {s : String} {u : AccountId} (hs : s ∈ raw) (h : Uuid.ofText? (trim s) = some u) :
    NamesCustomer raw (some u)

/-- The number that a field writes, nought if it is blank. -/
inductive WritesAmount (raw : Option String) : ℚ → Prop
  | blank (h : IsBlank raw) : WritesAmount raw 0
  | amount {s : String} (hs : s ∈ raw) (a : WrittenAmount) (h : (trim s).toList = a.chars) :
    WritesAmount raw a.number

end Field

/-- The line that is asked for. -/
structure ManualLineRequest.Asks (r : ManualLineRequest) (q : LineContent) : Prop where
  account : trim r.glAccountCode = q.account.code
  counterparty : Field.NamesCustomer r.counterpartyRef q.counterparty
  debit : Field.WritesAmount r.debit q.debit
  credit : Field.WritesAmount r.credit q.credit

/-- The journal that is asked for, balanced or not.  A request may ask for a hundred lines. -/
structure ManualRequest.Asks (r : ManualRequest) (q : JournalContent) : Prop where
  currency : Field.currency r.currency = .ok q.currency
  createdBy : Field.actor r.initiatedBy = .ok q.createdBy
  externalRef : (Option.getD · "") <$> Field.externalRef r.externalRef = .ok q.externalRef
  few : r.lines.length ≤ 100
  lines : List.Forall₂ ManualLineRequest.Asks r.lines q.lines

/-- What a line of a command says. -/
def ManualLine.content (l : ManualLine) : LineContent :=
  ⟨l.glAccount, l.counterparty, l.debit.value, l.credit.value⟩

/-- What a command says. -/
def ManualCommand.content (c : ManualCommand) : JournalContent :=
  ⟨c.currency, c.initiatedBy, c.externalRef, c.lines.map ManualLine.content⟩

/-! ### Texts -/

theorem trim_trim (s : String) : trim (trim s) = trim s := by
  have hchars (cs : List Char) : trimChars (trimChars cs) = trimChars cs := by
    have htrim (cs : List Char) :
        trimChars cs = (cs.dropWhile isBlank).rdropWhile isBlank := rfl
    -- what is left begins as the text without its blanks in front
    have hfront : (trimChars cs).dropWhile isBlank = trimChars cs := by
      have hprefix : trimChars cs <+: cs.dropWhile isBlank := List.rdropWhile_prefix _ _
      rw [List.dropWhile_eq_self_iff]
      intro hlength
      have hsame : (cs.dropWhile isBlank).dropWhile isBlank = cs.dropWhile isBlank :=
        List.dropWhile_idempotent _ _
      have hfirst := hprefix.getElem hlength
      rw [hfirst]
      exact List.dropWhile_eq_self_iff.1 hsame (hlength.trans_le hprefix.length_le)
    rw [htrim (trimChars cs), hfront, htrim cs]
    exact List.rdropWhile_idempotent _ _
  rw [trim, toList_trim, hchars, trim]

/-! ### Identifiers -/

namespace Uuid

theorem ofText?_empty : ofText? "" = none := by decide

/-- **The text of an identifier** is short, and has no control characters. -/
theorem spec_of_ofText? {s : String} {u : Uuid} (h : ofText? s = some u) :
    s.toList.length ≤ 64 ∧ ∀ c ∈ s.toList, isControl c = false := by
  rw [ofText?_eq_some_iff] at h
  have hlower : (alphabet.all fun c => !isControl c) = true := by decide
  exact ⟨h.length_le.trans (by decide), h.forall_mem
    (fun c hc => by simpa using List.all_eq_true.1 hlower c hc) (by decide +kernel)⟩

end Uuid

/-! ### Fields -/

namespace Field

variable {raw : Option String} {s field : String}

theorem account_eq_ok_iff {u : AccountId} :
    account s field = .ok u ↔ Uuid.ofText? (trim s) = some u := by
  rw [account, bind_eq_ok_iff]
  constructor
  · rintro ⟨t, ht, h⟩
    obtain rfl := required_eq_ok ht
    split at h
    · rename_i v hv
      cases h
      exact hv
    · cases h
  · intro h
    have hne : trim s ≠ "" := by
      intro hs
      rw [hs, Uuid.ofText?_empty] at h
      cases h
    obtain ⟨hshort, hchars⟩ := Uuid.spec_of_ofText? h
    exact ⟨_, required_eq_ok_of hne hshort hchars, by rw [h]⟩

theorem optional_of_isBlank {most : Nat} (h : IsBlank raw) :
    optional raw field most = .ok none := by
  cases raw with
  | none => rfl
  | some s => simp [optional, h s rfl]

theorem optional_some {most : Nat} (hne : trim s ≠ "") :
    optional (some s) field most = some <$> required (trim s) field most := by
  simp [optional, hne]

theorem exists_of_not_isBlank (h : ¬ IsBlank raw) : ∃ s, raw = some s ∧ trim s ≠ "" := by
  simpa [IsBlank, Option.mem_def] using h

theorem optionalAccount_eq_ok_iff {c : Option AccountId} :
    optionalAccount raw field = .ok c ↔ NamesCustomer raw c := by
  by_cases hraw : IsBlank raw
  · have hread : optionalAccount raw field = .ok none := by
      rw [optionalAccount, optional_of_isBlank hraw]
      rfl
    rw [hread]
    constructor
    · intro h
      cases h
      exact .blank hraw
    · rintro (h | ⟨hs, hu⟩)
      · rfl
      · rw [hraw _ hs, Uuid.ofText?_empty] at hu
        cases hu
  · obtain ⟨s, rfl, hne⟩ := exists_of_not_isBlank hraw
    rw [optionalAccount, optional_some hne, bind_eq_ok_iff]
    constructor
    · rintro ⟨_, hread, h⟩
      obtain ⟨t, ht, rfl⟩ := map_eq_ok_iff.1 hread
      obtain rfl := required_eq_ok ht
      obtain ⟨u, hu, rfl⟩ := map_eq_ok_iff.1 h
      rw [account_eq_ok_iff, trim_trim, trim_trim] at hu
      exact .uuid (Option.mem_some_self s) hu
    · rintro (h | @⟨_, u, ⟨⟩, hu⟩)
      · exact absurd h hraw
      · obtain ⟨hshort, hchars⟩ := Uuid.spec_of_ofText? hu
        have hrequired : required (trim s) field 64 = .ok (trim s) := by
          refine (required_eq_ok_of ?_ ?_ ?_).trans (congrArg Except.ok (trim_trim s)) <;>
            rwa [trim_trim]
        have haccount : account (trim s) field = .ok u := by
          rw [account_eq_ok_iff, trim_trim]
          exact hu
        exact ⟨some (trim s), by rw [hrequired]; rfl, by simp only [haccount]; rfl⟩

theorem writesAmount_iff (index : Nat) (name : String) {q : ℚ} :
    WritesAmount raw q ↔ ∃ d, ManualLine.side index name raw = .ok d ∧ d.value = q := by
  by_cases hraw : IsBlank raw
  · have hread : ManualLine.side index name raw = .ok .zero := by
      cases raw with
      | none => rfl
      | some s => simp [ManualLine.side, hraw s rfl]
    rw [hread]
    constructor
    · rintro (h | ⟨hs, a, ha⟩)
      · exact ⟨_, rfl, Decimal.value_zero⟩
      · rw [hraw _ hs] at ha
        exact absurd ha.symm (by simp [WrittenAmount.chars, a.whole_ne_nil])
    · rintro ⟨d, hd, rfl⟩
      cases hd
      rw [Decimal.value_zero]
      exact .blank hraw
  · obtain ⟨s, rfl, hne⟩ := exists_of_not_isBlank hraw
    have hread : ManualLine.side index name (some s) =
        decimal (trim s) ("lines[" ++ toString index ++ "]." ++ name) := by
      simp [ManualLine.side, hne]
    simp only [hread, decimal_eq_ok_iff, trim_trim]
    constructor
    · rintro (h | ⟨⟨⟩, a, ha⟩)
      · exact absurd h hraw
      · exact ⟨_, ⟨a, ha, rfl⟩, a.value_decimal⟩
    · rintro ⟨_, ⟨a, ha, rfl⟩, rfl⟩
      rw [a.value_decimal]
      exact .amount (Option.mem_some_self s) a ha

end Field

/-! ### Lines and requests -/

/-- **The accounts of the chart** are found by their codes, which no field refuses. -/
theorem GlAccount.ofCode_eq_ok_iff (field : String) {raw : String} {a : GlAccount} :
    Field.required raw field 64 >>= GlAccount.ofCode = .ok a ↔ trim raw = a.code := by
  rw [bind_eq_ok_iff]
  constructor
  · rintro ⟨code, hcode, h⟩
    obtain rfl := Field.required_eq_ok hcode
    unfold ofCode at h
    split at h
    · rename_i b hb
      cases h
      have hfound := List.find?_some hb
      exact (of_decide_eq_true hfound).symm
    · cases h
  · intro h
    have hcode : a.code ≠ "" ∧ a.code.toList.length ≤ 64 ∧
        (a.code.toList.all fun c => !isControl c) = true := by
      cases a <;> decide
    rw [← h] at hcode
    have hplain : ∀ c ∈ (trim raw).toList, isControl c = false := fun c hc => by
      simpa using List.all_eq_true.1 hcode.2.2 c hc
    exact ⟨_, Field.required_eq_ok_of hcode.1 hcode.2.1 hplain, h ▸ ofCode_code a⟩

/-- **What a line asks for** is what the line that is read says. -/
theorem ManualLineRequest.asks_iff (index : Nat) {r : ManualLineRequest} {q : LineContent} :
    r.Asks q ↔ ∃ l, ManualLine.ofRequest index r = .ok l ∧ l.content = q := by
  constructor
  · rintro ⟨haccount, hcounterparty, hdebit, hcredit⟩
    obtain ⟨debit, hdebit, hvalue⟩ := (Field.writesAmount_iff index "debit").1 hdebit
    obtain ⟨credit, hcredit, hvalue'⟩ := (Field.writesAmount_iff index "credit").1 hcredit
    refine ⟨⟨q.account, q.counterparty, debit, credit⟩, ?_, ?_⟩
    · exact ManualLine.ofRequest_eq_ok_iff.2 ⟨(GlAccount.ofCode_eq_ok_iff _).2 haccount,
        Field.optionalAccount_eq_ok_iff.2 hcounterparty, hdebit, hcredit⟩
    · rw [ManualLine.content, hvalue, hvalue']
  · rintro ⟨l, h, rfl⟩
    have hreads := ManualLine.ofRequest_eq_ok_iff.1 h
    exact ⟨(GlAccount.ofCode_eq_ok_iff _).1 hreads.account,
      Field.optionalAccount_eq_ok_iff.1 hreads.counterparty,
      (Field.writesAmount_iff index "debit").2 ⟨l.debit, hreads.debit, rfl⟩,
      (Field.writesAmount_iff index "credit").2 ⟨l.credit, hreads.credit, rfl⟩⟩

theorem ManualLine.ofRequests_iff (index : Nat) {rs : List ManualLineRequest}
    {qs : List LineContent} : List.Forall₂ ManualLineRequest.Asks rs qs ↔
      ∃ ls, ofRequests index rs = .ok ls ∧ ls.map content = qs := by
  induction rs generalizing index qs with
  | nil => simp [ofRequests, eq_comm]
  | cons r rs ih =>
    rw [List.forall₂_cons_left_iff]
    constructor
    · rintro ⟨q, qs, hq, hqs, rfl⟩
      obtain ⟨l, hl, rfl⟩ := (ManualLineRequest.asks_iff index).1 hq
      obtain ⟨ls, hls, rfl⟩ := (ih (index + 1)).1 hqs
      exact ⟨l :: ls, by simp only [ofRequests, hl, hls, bind, Except.bind]; rfl, rfl⟩
    · rintro ⟨ls, h, rfl⟩
      obtain ⟨l, hl, h⟩ := exists_of_bind_eq_ok h
      obtain ⟨ls', hls, h⟩ := exists_of_bind_eq_ok h
      cases h
      exact ⟨l.content, ls'.map content, (ManualLineRequest.asks_iff index).2 ⟨l, hl, rfl⟩,
        (ih (index + 1)).2 ⟨ls', hls, rfl⟩, rfl⟩

/-- **What a request asks for** is what the command that is read says. -/
theorem ManualRequest.asks_iff {r : ManualRequest} {q : JournalContent} :
    r.Asks q ↔ ∃ c, ManualCommand.ofRequest r = .ok c ∧ c.content = q := by
  constructor
  · rintro ⟨hcurrency, hactor, href, hfew, hlines⟩
    obtain ⟨ls, hls, hcontent⟩ := (ManualLine.ofRequests_iff 0).1 hlines
    refine ⟨⟨q.currency, q.createdBy, q.externalRef, ls⟩, ?_, ?_⟩
    · exact ManualCommand.ofRequest_eq_ok_iff.2 ⟨hfew, hls, hcurrency, hactor, href⟩
    · rw [ManualCommand.content, hcontent]
  · rintro ⟨c, h, rfl⟩
    have hreads := ManualCommand.ofRequest_eq_ok_iff.1 h
    exact ⟨hreads.currency, hreads.actor, hreads.externalRef, hreads.few,
      (ManualLine.ofRequests_iff 0).2 ⟨c.lines, hreads.lines, rfl⟩⟩

end DoubleEntry
