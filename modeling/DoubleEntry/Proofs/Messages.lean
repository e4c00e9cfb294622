import DoubleEntry.Client.Call
import DoubleEntry.Proofs.LenientText
import DoubleEntry.Proofs.RecordFields

/-!
# Requests and answers are read back

What one side of an exchange writes the other side reads: requests with fields that are left out,
queries whose fields are texts, and answers down to the lines of their journals.  An answer that
shows steps of a payment is read back if the details of the steps are values as they are read, with
sorted keys.

## Main definitions

* `Decoder.ReadsBack`: a value is read back from the JSON value that shows it.
* `LedgerCall.details`: the details of steps in an answer. `LedgerCall.numbers`: its page numbers.

## Main results

* `PaymentRequest.readsBack`, `CreditRequest.readsBack`, `ManualRequest.readsBack`: requests.
* `ActivityQuery.runForm_fields`, `StatementQuery.runForm_fields`: queries.
* `LedgerCall.readsBack`: the answers to all calls.
-/

namespace DoubleEntry

/-! ### Spelt-out numbers -/

theorem digitsBelow_eq {bound : Nat} {cs : List Char} {n : Nat}
    (hcs : ∀ c ∈ cs, c.isDigit = true) (hfit : Nat.ofDigitChars 10 cs n < bound) :
    digitsBelow bound n cs = .ok (Nat.ofDigitChars 10 cs n) := by
  induction cs generalizing n with
  | nil => rfl
  | cons c cs ih =>
    have hd : digitValue? c = some (c.toNat - 48) := by
      have hc := hcs c List.mem_cons_self
      simp only [Char.isDigit, Bool.and_eq_true, decide_eq_true_eq] at hc
      exact if_pos hc
    have hof : Nat.ofDigitChars 10 (c :: cs) n =
        Nat.ofDigitChars 10 cs (n * 10 + (c.toNat - 48)) := by
      rw [Nat.ofDigitChars_cons, Nat.mul_comm]
      rfl
    rw [hof] at hfit ⊢
    have hle : n * 10 + (c.toNat - 48) < bound := by
      rw [Nat.ofDigitChars_eq_ofDigitChars_zero] at hfit
      have := Nat.le_mul_of_pos_left (n * 10 + (c.toNat - 48)) (Nat.pow_pos (n := cs.length)
        (by decide : 0 < 10))
      omega
    simp only [digitsBelow, hd, hle, if_true]
    exact ih (fun c hc => hcs c (List.mem_cons_of_mem _ hc)) hfit

/-- **A number below a bound** is read back from its digits. -/
theorem numberBelow_toString {bound n : Nat} (h : n < bound) :
    numberBelow bound (toString n) = .ok n := by
  have hdigits : ∀ c ∈ Nat.toDigits 10 n, c.isDigit = true :=
    fun c hc => Nat.isDigit_of_mem_toDigits (by decide) (by decide) hc
  have hof : Nat.ofDigitChars 10 (Nat.toDigits 10 n) 0 = n := Nat.ofDigitChars_ten_toDigits
  have hread := digitsBelow_eq hdigits (by rwa [hof])
  rw [hof] at hread
  obtain ⟨d, cs, hd, hcs, -⟩ := Json.exists_toDigits_eq_cons n
  have hplus : Nat.digitChar d ≠ '+' := by
    interval_cases d <;> decide
  have htext : (toString n).toList = Nat.digitChar d :: cs := by
    rw [← hcs]
    exact String.toList_ofList
  rw [hcs] at hread
  rw [numberBelow, htext]
  split
  · rename_i heq
    cases heq
  · rename_i heq
    exact absurd (List.cons.inj heq).1 hplus
  · rename_i heq
    exact absurd (List.cons.inj heq).1 hplus
  · exact hread

namespace Decoder

variable {α : Type}

/-- The value is read back from the JSON value that shows it. -/
def ReadsBack (dec : Decoder α) (enc : α → Json) (a : α) : Prop := dec .text (enc a).toDraft = .ok a

theorem readsBack_text (s : String) : ReadsBack text .str s := rfl

theorem readsBack_uuid (u : Uuid) : ReadsBack Uuid.decoder Uuid.toJson u := uuid_toText .text u

theorem readsBack_instant (i : Instant) : ReadsBack Instant.decoder Instant.toJson i :=
  Instant.decoder_toText .text i

theorem readsBack_word32 {n : Nat} (h : n < twoPow 32) : ReadsBack word32 .nat n := by
  have hint : 0 ≤ (n : Int) ∧ (n : Int) < twoPow 32 := ⟨n.cast_nonneg, by exact_mod_cast h⟩
  simp only [ReadsBack, Json.nat, Json.toDraft, word32, natBelow, if_pos hint, Int.toNat_natCast]

theorem readsBack_list {dec : Decoder α} {enc : α → Json} {as : List α}
    (h : ∀ a ∈ as, ReadsBack dec enc a) : ReadsBack (list dec) (fun as => .arr (as.map enc)) as :=
  list_toDraft h

end Decoder

open Decoder (ReadsBack)

namespace Fields

variable {α : Type} {fields : List (String × Json)} {name : String} {dec : Decoder α}
  {enc : α → Json}

theorem reads_shown {a : α} (h : ReadsBack dec enc a) (hj : fields.lookup name = some (enc a)) :
    Reads .text (Json.fieldsToDraft fields) (required name dec) a :=
  reads_required hj h

/-- A field that is left out where it has no value is read back. -/
theorem reads_shown? {o : Option α} (positional : Bool) (h : ∀ a, ReadsBack dec enc a)
    (henc : ∀ a, (enc a).toDraft ≠ .null) (hj : fields.lookup name = o.map enc) :
    Reads .text (Json.fieldsToDraft fields)
      (one name (Decoder.option dec) false positional (some none)) o :=
  reads_optField hj henc h

theorem reads_text? {o : Option String} (positional : Bool)
    (hj : fields.lookup name = o.map .str) :
    Reads .text (Json.fieldsToDraft fields)
      (one name (Decoder.option Decoder.text) false positional (some none)) o :=
  reads_shown? positional Decoder.readsBack_text (fun _ h => by cases h) hj

theorem reads_uuid? {o : Option Uuid} (positional : Bool)
    (hj : fields.lookup name = o.map Uuid.toJson) :
    Reads .text (Json.fieldsToDraft fields)
      (one name (Decoder.option Uuid.decoder) false positional (some none)) o :=
  reads_shown? positional Decoder.readsBack_uuid (fun _ h => by cases h) hj

end Fields

open Fields Decoder

/-! ### Requests -/

theorem PaymentRequest.readsBack (r : PaymentRequest) : ReadsBack decoder toJson r := by
  obtain ⟨key, source, destination, currency, amount, initiatedBy, customer⟩ := r
  refine Reads.decoder_json ((((((((reads_shown (readsBack_text key) ?_).map _).seq
    (reads_shown (readsBack_text source) ?_)).seq (reads_shown (readsBack_text destination) ?_)).seq
    (reads_shown (readsBack_text currency) ?_)).seq (reads_shown (readsBack_text amount) ?_)).seq
    (reads_shown (readsBack_text initiatedBy) ?_)).seq (reads_text? false ?_)) ?_ _
  case refine_8 => cases customer <;> simp [Json.optField]
  all_goals simp [List.lookup_cons, Json.lookup_optField]

theorem CreditRequest.readsBack (r : CreditRequest) : ReadsBack decoder toJson r := by
  obtain ⟨key, account, currency, amount, initiatedBy, ref, reason, customer⟩ := r
  refine Reads.decoder_json (((((((((reads_shown (readsBack_text key) ?_).map _).seq
    (reads_shown (readsBack_text account) ?_)).seq (reads_shown (readsBack_text currency) ?_)).seq
    (reads_shown (readsBack_text amount) ?_)).seq (reads_shown (readsBack_text initiatedBy) ?_)).seq
    (reads_text? false ?_)).seq (reads_text? false ?_)).seq (reads_text? false ?_)) ?_ _
  case refine_9 => cases ref <;> cases reason <;> cases customer <;> simp [Json.optField]
  all_goals simp [List.lookup_cons, List.lookup_append, Json.lookup_optField]

theorem ManualLineRequest.readsBack (l : ManualLineRequest) : ReadsBack decoder toJson l := by
  obtain ⟨code, counterparty, debit, credit⟩ := l
  refine Reads.decoder_json (((((reads_shown (readsBack_text code) ?_).map _).seq
    (reads_text? false ?_)).seq (reads_text? false ?_)).seq (reads_text? false ?_)) ?_ _
  case refine_5 => cases counterparty <;> cases debit <;> cases credit <;> simp [Json.optField]
  all_goals simp [List.lookup_cons, List.lookup_append, Json.lookup_optField]

theorem ManualRequest.readsBack (r : ManualRequest) : ReadsBack decoder toJson r := by
  obtain ⟨currency, initiatedBy, ref, lines⟩ := r
  refine Reads.decoder_json (((((reads_shown (readsBack_text currency) ?_).map _).seq
    (reads_shown (readsBack_text initiatedBy) ?_)).seq (reads_text? false ?_)).seq
    (reads_shown (readsBack_list fun l _ => l.readsBack) ?_)) ?_ _
  case refine_5 => cases ref <;> simp [Json.optField]
  all_goals simp [List.lookup_cons, List.lookup_append, Json.lookup_optField]

/-! ### Answers -/

theorem PaymentStatus.readsBack (s : PaymentStatus) : ReadsBack decoder toJson s := by
  cases s <;> rfl

theorem Direction.readsBack (d : Direction) : ReadsBack decoder toJson d := by
  cases d <;> rfl

theorem StatementKind.readsBack (k : StatementKind) : ReadsBack decoder toJson k := by
  cases k <;> rfl

theorem PaymentPosted.readsBack (p : PaymentPosted) : ReadsBack decoder toJson p := by
  refine Reads.decoder_json (((reads_shown (readsBack_uuid p.paymentId) ?_).map _).seq
    (reads_shown p.status.readsBack ?_)) ?_ _
  all_goals simp [List.lookup_cons]

theorem JournalPosted.readsBack (p : JournalPosted) : ReadsBack decoder toJson p := by
  refine Reads.decoder_json (((reads_shown (readsBack_uuid p.journalId) ?_).map _).seq
    (reads_shown (readsBack_text p.status) ?_)) ?_ _
  all_goals simp [List.lookup_cons]

theorem StepView.readsBack {s : StepView} (h : s.details.toDraft.toJson = .ok s.details) :
    ReadsBack decoder toJson s := by
  have hdetails : ReadsBack Decoder.json id s.details := by
    rw [ReadsBack, Decoder.json, id, h]
  refine Reads.decoder_json (((((reads_shown (readsBack_text s.step) ?_).map _).seq
    (reads_shown (readsBack_text s.state) ?_)).seq (reads_shown hdetails ?_)).seq
    (reads_shown (readsBack_instant s.attemptedAt) ?_)) ?_ _
  all_goals simp [List.lookup_cons]

theorem PaymentView.readsBack {p : PaymentView}
    (h : ∀ s ∈ p.steps, s.details.toDraft.toJson = .ok s.details) :
    ReadsBack decoder toJson p := by
  obtain ⟨id, key, source, destination, currency, amount, status, customer, hold, journal,
    createdAt, updatedAt, steps⟩ := p
  refine Reads.decoder_json ((((((((((((((reads_shown (readsBack_uuid id) ?_).map _).seq
    (reads_shown (readsBack_text key) ?_)).seq (reads_shown (readsBack_uuid source) ?_)).seq
    (reads_shown (readsBack_uuid destination) ?_)).seq
    (reads_shown (readsBack_text currency) ?_)).seq (reads_shown (readsBack_text amount) ?_)).seq
    (reads_shown status.readsBack ?_)).seq (reads_text? true ?_)).seq
    (reads_shown (readsBack_uuid hold) ?_)).seq (reads_uuid? true ?_)).seq
    (reads_shown (readsBack_instant createdAt) ?_)).seq
    (reads_shown (readsBack_instant updatedAt) ?_)).seq
    (reads_shown (readsBack_list fun s hs => StepView.readsBack (h s hs)) ?_)) ?_ _
  case refine_14 => cases customer <;> cases journal <;> simp [Json.optField]
  all_goals simp [List.lookup_cons, List.lookup_append, Json.lookup_optField]

theorem LineView.readsBack (l : LineView) : ReadsBack decoder toJson l := by
  obtain ⟨code, counterparty, debit, credit⟩ := l
  refine Reads.decoder_json (((((reads_shown (readsBack_text code) ?_).map _).seq
    (reads_uuid? true ?_)).seq (reads_shown (readsBack_text debit) ?_)).seq
    (reads_shown (readsBack_text credit) ?_)) ?_ _
  case refine_5 => cases counterparty <;> simp [Json.optField]
  all_goals simp [List.lookup_cons, List.lookup_append, Json.lookup_optField]

theorem JournalView.readsBack (j : JournalView) : ReadsBack decoder toJson j := by
  refine Reads.decoder_json ((((((((reads_shown (readsBack_uuid j.journalId) ?_).map _).seq
    (reads_shown (readsBack_text j.currency) ?_)).seq
    (reads_shown (readsBack_text j.status) ?_)).seq
    (reads_shown (readsBack_instant j.bookedAt) ?_)).seq
    (reads_shown (readsBack_text j.externalRef) ?_)).seq
    (reads_shown (readsBack_text j.createdBy) ?_)).seq
    (reads_shown (readsBack_list fun l _ => LineView.readsBack l) ?_)) ?_ _
  all_goals simp [List.lookup_cons]

theorem JournalPage.readsBack {p : JournalPage} (hpage : p.page < twoPow 32)
    (hsize : p.size < twoPow 32) : ReadsBack decoder toJson p := by
  refine Reads.decoder_json ((((reads_shown (readsBack_list fun j _ => JournalView.readsBack j)
    ?_).map _).seq (reads_shown (readsBack_word32 hpage) ?_)).seq
    (reads_shown (readsBack_word32 hsize) ?_)) ?_ _
  all_goals simp [List.lookup_cons]

theorem AccountSummary.readsBack (s : AccountSummary) : ReadsBack decoder toJson s := by
  refine Reads.decoder_json (((((reads_shown (readsBack_uuid s.account) ?_).map _).seq
    (reads_shown (readsBack_text s.accountNumber) ?_)).seq
    (reads_shown (readsBack_text s.displayName) ?_)).seq
    (reads_shown (readsBack_text s.accountType) ?_)) ?_ _
  all_goals simp [List.lookup_cons]

theorem StatementItem.readsBack (i : StatementItem) : ReadsBack decoder toJson i := by
  obtain ⟨journal, bookedAt, currency, direction, amount, kind, memo, counterparty, summary⟩ := i
  refine Reads.decoder_json ((((((((((reads_shown (readsBack_uuid journal) ?_).map _).seq
    (reads_shown (readsBack_instant bookedAt) ?_)).seq
    (reads_shown (readsBack_text currency) ?_)).seq (reads_shown direction.readsBack ?_)).seq
    (reads_shown (readsBack_text amount) ?_)).seq (reads_shown kind.readsBack ?_)).seq
    (reads_shown (readsBack_text memo) ?_)).seq (reads_uuid? true ?_)).seq
    (reads_shown? true AccountSummary.readsBack (fun _ h => by cases h) ?_)) ?_ _
  case refine_10 => cases counterparty <;> cases summary <;> simp [Json.optField]
  all_goals simp [List.lookup_cons, List.lookup_append, Json.lookup_optField]

theorem StatementPage.readsBack {p : StatementPage} (hpage : p.page < twoPow 32)
    (hsize : p.size < twoPow 32) : ReadsBack decoder toJson p := by
  refine Reads.decoder_json ((((reads_shown (readsBack_list fun i _ => StatementItem.readsBack i)
    ?_).map _).seq (reads_shown (readsBack_word32 hpage) ?_)).seq
    (reads_shown (readsBack_word32 hsize) ?_)) ?_ _
  all_goals simp [List.lookup_cons]

/-! ### Queries -/

namespace Fields

variable {α : Type} {fields : List (String × String)} {name : String} {a : α}

/-- The entries of a form: all of them are texts. -/
def formEntries (fields : List (String × String)) : List (String × Draft) :=
  fields.map fun (key, value) => (key, .str value)

theorem lookup_formEntries (name : String) (fields : List (String × String)) :
    (formEntries fields).lookup name = (fields.lookup name).map .str := by
  induction fields with
  | nil => rfl
  | cons f fields ih =>
    obtain ⟨key, value⟩ := f
    change List.lookup name ((key, Draft.str value) :: formEntries fields) = _
    rw [List.lookup_cons, List.lookup_cons, ih]
    cases name == key <;> rfl

theorem reads_instant_form {i : Instant} (h : fields.lookup name = some i.toText) :
    Reads .form (formEntries fields) (required name Instant.decoder) i :=
  reads_one _ _ _ (by rw [lookup_formEntries, h]; rfl) (Instant.decoder_toText .form i)

theorem reads_number_form? {o : Option Nat} (ho : ∀ n ∈ o, n < twoPow 32)
    (h : fields.lookup name = o.map toString) :
    Reads .form (formEntries fields) (optional name Decoder.word32) o := by
  have hd := lookup_formEntries name fields
  rw [h] at hd
  cases o with
  | none => exact reads_missing true hd
  | some n =>
    refine reads_one _ _ _ hd (option_of_ne_null (by simp) ?_)
    simp only [Decoder.word32, Decoder.natBelow, numberBelow_toString (ho n rfl)]

theorem reads_flag_form {b c : Bool}
    (h : fields.lookup name = some (if b then "true" else "false")) :
    Reads .form (formEntries fields) (defaulted name Decoder.bool c) b := by
  refine reads_one _ _ _ (by rw [lookup_formEntries, h]; rfl) ?_
  cases b <;> rfl

theorem Reads.runForm {F : Fields α} (h : Reads .form (formEntries fields) F a)
    (hnodup : (fields.map Prod.fst).Nodup) (record : String) :
    (Fields.decoder record F).runForm fields = .ok a := by
  refine h.decoder (List.forall_mem_map.2 fun f _ => rfl) ?_ record
  rwa [formEntries, List.map_map]

end Fields

theorem ActivityQuery.runForm_fields {q : ActivityQuery} (hpage : ∀ n ∈ q.page, n < twoPow 32)
    (hsize : ∀ n ∈ q.size, n < twoPow 32) :
    decoder.runForm (LedgerCall.windowFields q.start q.stop q.page q.size) = .ok q := by
  obtain ⟨start, stop, page, size⟩ := q
  refine Reads.runForm (((((reads_instant_form ?_).map _).seq (reads_instant_form ?_)).seq
    (reads_number_form? hpage ?_)).seq (reads_number_form? hsize ?_)) ?_ _
  all_goals cases page <;> cases size <;> simp [LedgerCall.windowFields, List.lookup_cons]

theorem StatementQuery.runForm_fields {account : String} {q : StatementQuery}
    (hpage : ∀ n ∈ q.page, n < twoPow 32) (hsize : ∀ n ∈ q.size, n < twoPow 32) :
    decoder.runForm (LedgerCall.statement account q).fields = .ok q := by
  obtain ⟨start, stop, page, size, names⟩ := q
  refine Reads.runForm ((((((reads_instant_form ?_).map _).seq (reads_instant_form ?_)).seq
    (reads_number_form? hpage ?_)).seq (reads_number_form? hsize ?_)).seq (reads_flag_form ?_)) ?_ _
  all_goals cases page <;> cases size <;>
    simp [LedgerCall.fields, LedgerCall.windowFields, List.lookup_cons]

/-! ### Calls -/

namespace LedgerCall

/-- The details of the steps in an answer. -/
def details : (q : LedgerCall) → q.Answer → List Json
  | findPayment _ => fun p : PaymentView => p.steps.map StepView.details
  | health | payment _ | credit _ | manual _ | activity _ _ | statement _ _ => fun _ => []

/-- The number of a page and its size, where the answer is a page. -/
def numbers : (q : LedgerCall) → q.Answer → List Nat
  | activity _ _ => fun p : JournalPage => [p.page, p.size]
  | statement _ _ => fun p : StatementPage => [p.page, p.size]
  | health | payment _ | findPayment _ | credit _ | manual _ => fun _ => []

/-- **The answer to a call is read back**, if the details in it are values as they are read and the
numbers are words. -/
theorem readsBack {q : LedgerCall} {a : q.Answer}
    (hdetails : ∀ d ∈ q.details a, d.toDraft.toJson = .ok d)
    (hnumbers : ∀ n ∈ q.numbers a, n < twoPow 32) : ReadsBack q.decoder q.encode a := by
  cases q with
  | health => cases a <;> rfl
  | payment r => exact PaymentPosted.readsBack a
  | findPayment id => exact PaymentView.readsBack (List.forall_mem_map.1 hdetails)
  | credit r => exact JournalPosted.readsBack a
  | manual r => exact JournalPosted.readsBack a
  | activity account q =>
    exact JournalPage.readsBack (hnumbers _ List.mem_cons_self)
      (hnumbers _ (List.mem_cons_of_mem _ List.mem_cons_self))
  | statement account q =>
    exact StatementPage.readsBack (hnumbers _ List.mem_cons_self)
      (hnumbers _ (List.mem_cons_of_mem _ List.mem_cons_self))

end LedgerCall

end DoubleEntry
