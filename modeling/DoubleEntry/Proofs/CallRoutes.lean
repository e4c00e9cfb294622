import DoubleEntry.Proofs.MaskedErrors
import DoubleEntry.Proofs.Messages

/-!
# Calls reach their services

A call of a client names its service by a path, by the fields of a query and by what it carries.
The route of that path has the same service, with the same values read back.

## Main definitions

* `LedgerCall.program`: the service that a call is for.
* `LedgerCall.IsCarried`: what a call must be for its request to be carried.
* `LedgerCall.Asks`: a request asks a server for a call.

## Main results

* `LedgerCall.Asks.service?_eq`: the request of a call has the service of the call.
* `LedgerCall.gives_numbers`: the numbers in an answer are words.
-/

namespace DoubleEntry

/-- The value is what is read from its text. -/
def Json.IsRead (j : Json) : Prop := draftOf j.compact = (j.toDraft, none)

namespace LedgerCall

/-- The service that a call is for. -/
def program : (q : LedgerCall) → Program (Except ServiceError q.Answer)
  | health => .answer true
  | payment r => Payments.post r
  | findPayment id => Payments.find id
  | credit r => Postings.credit r
  | manual r => Postings.postManual r
  | activity account q => Listings.journals account q
  | statement account q => Listings.statement account q

/-- The status of an answer. -/
def success : LedgerCall → Status
  | payment _ | credit _ | manual _ => 201
  | health | findPayment _ | activity _ _ | statement _ _ => 200

/-- The segments of the path of a call. -/
def segments : LedgerCall → List String
  | health => ["health"]
  | payment _ => ["v1", "payments"]
  | findPayment id => ["v1", "payments", id.toText]
  | credit _ => ["v1", "ledger", "credits"]
  | manual _ => ["v1", "ledger", "journal-entries"]
  | activity account _ => ["v1", "ledger", "accounts", account, "journal-entries"]
  | statement account _ => ["v1", "ledger", "accounts", account, "statement"]

/-- The account whose listing is asked for. -/
def account? : LedgerCall → Option String
  | activity account _ | statement account _ => some account
  | health | payment _ | findPayment _ | credit _ | manual _ => none

/-- The number of the page that is asked for, and its size. -/
def asked : LedgerCall → List (Option Nat)
  | activity _ q => [q.page, q.size]
  | statement _ q => [q.page, q.size]
  | health | payment _ | findPayment _ | credit _ | manual _ => []

/-- A call whose request is carried: it names accounts by identifiers in any form and pages by
words, and what it carries is not too large and is what is read from its text. -/
structure IsCarried (q : LedgerCall) : Prop where
  isService : q ≠ health
  account : ∀ account ∈ q.account?, (Uuid.ofText? account).isSome = true
  asked : ∀ o ∈ q.asked, ∀ n ∈ o, n < twoPow 32
  size : q.body.toText.utf8ByteSize ≤ Server.maxBody
  body : ∀ j, q.body = .json j → j.IsRead

/-! ### Paths -/

theorem path_eq (q : LedgerCall) : q.path = pathOf q.segments := by
  cases q with
  | health => exact eq_pathOf (s := "/health") (by simp [segments])
  | payment r => exact eq_pathOf (s := "/v1/payments") (by simp [segments])
  | findPayment id => exact eq_pathOf (s := "/v1/payments/" ++ id.toText) (by simp [segments])
  | credit r => exact eq_pathOf (s := "/v1/ledger/credits") (by simp [segments])
  | manual r => exact eq_pathOf (s := "/v1/ledger/journal-entries") (by simp [segments])
  | activity account q =>
    exact eq_pathOf (s := "/v1/ledger/accounts/" ++ account ++ "/journal-entries")
      (by simp [segments])
  | statement account q =>
    exact eq_pathOf (s := "/v1/ledger/accounts/" ++ account ++ "/statement") (by simp [segments])

/-- The segments that do not depend on the call. -/
def fixedSegments : List String :=
  ["health", "v1", "payments", "ledger", "credits", "journal-entries", "accounts", "statement"]

theorem percentEncode_fixed :
    ∀ s ∈ fixedSegments, percentEncode Address.inPath s = s := by
  decide +kernel

theorem isPlain_fixed : ∀ s ∈ fixedSegments, s.toList.all (fun c => decide (IsPlain c)) = true := by
  decide +kernel

theorem mem_segments {q : LedgerCall} (hq : q.IsCarried) {s : String} (hs : s ∈ q.segments) :
    s ∈ fixedSegments ∨ (Uuid.ofText? s).isSome = true := by
  cases q with
  | findPayment id =>
    obtain rfl | rfl | rfl : s = "v1" ∨ s = "payments" ∨ s = id.toText := by
      simpa [segments] using hs
    · exact .inl (by decide)
    · exact .inl (by decide)
    · exact .inr (by rw [Uuid.ofText?_toText]; rfl)
  | activity account q =>
    obtain rfl | hs : s = account ∨ s ∈ fixedSegments := by
      simp only [segments, List.mem_cons] at hs
      simp only [fixedSegments, List.mem_cons]
      tauto
    · exact .inr (hq.account _ rfl)
    · exact .inl hs
  | statement account q =>
    obtain rfl | hs : s = account ∨ s ∈ fixedSegments := by
      simp only [segments, List.mem_cons] at hs
      simp only [fixedSegments, List.mem_cons]
      tauto
    · exact .inr (hq.account _ rfl)
    · exact .inl hs
  | health | payment _ | credit _ | manual _ =>
    refine .inl ?_
    simp only [segments, List.mem_cons] at hs
    simp only [fixedSegments, List.mem_cons]
    tauto

theorem isPlain_segments {q : LedgerCall} (hq : q.IsCarried) :
    ∀ s ∈ q.segments, ∀ c ∈ s.toList, IsPlain c := by
  intro s hs
  obtain hs | hs := mem_segments hq hs
  · exact isPlain_of_all (isPlain_fixed s hs)
  · exact Uuid.isPlain_of_ofText? hs

/-! ### Services -/

section

variable {q : LedgerCall} {r : HttpRequest}

/-- The request of a call, as the server sees it. -/
structure Asks (q : LedgerCall) (r : HttpRequest) : Prop where
  method : r.method = q.method
  segments : (Uri.ofText r.target).segments = q.segments.map (percentEncode Address.inPath)
  form : (Uri.ofText r.target).form = q.fields
  body : r.body = q.body
  type : ∀ j, q.body = .json j → r.header? "content-type" = some "application/json"

theorem Asks.body_eq (h : Asks q r) (hq : q.IsCarried) {α : Type} {dec : Decoder α}
    {enc : α → Json} {a : α} (hbody : q.body = .json (enc a)) (ha : Decoder.ReadsBack dec enc a) :
    Server.body dec r = .ok a := by
  have hjson : MediaType.isJson "application/json" = true := by decide +kernel
  have hsize : (enc a).compact.utf8ByteSize ≤ Server.maxBody := by
    have := hq.size
    rwa [hbody] at this
  have hread : dec.runText (enc a).compact = .ok a :=
    Decoder.runText_of_draftOf (hq.body _ hbody) ha
  simp only [Server.body, h.type _ hbody, h.body, hbody, Option.any_some, hjson, Bool.not_true,
    Bool.false_eq_true, if_false, if_neg (Nat.not_lt.2 hsize), Body.toText, hread]

/-- The route of a call, with its identifier as it stands in the path. -/
def route (f : String → String) : LedgerCall → Route
  | health => .health
  | payment _ => .payments
  | findPayment id => .payment (f id.toText)
  | credit _ => .credits
  | manual _ => .journals
  | activity account _ => .activity (f account)
  | statement account _ => .statement (f account)

theorem segmentText?_eq {s : String} (hs : (Uuid.ofText? s).isSome = true) :
    Uri.segmentText? (percentEncode Address.inPath s) = some s :=
  have hplain := Uuid.isPlain_of_ofText? hs
  Uri.segmentText?_percentEncode (IsPlain.isAscii hplain) (IsPlain.not_mem hplain (by decide))

theorem ofSegments_map (q : LedgerCall) :
    Route.ofSegments (q.segments.map (percentEncode Address.inPath)) =
      some (q.route (percentEncode Address.inPath)) := by
  have hfixed : ∀ s ∈ fixedSegments, percentEncode Address.inPath s = s := percentEncode_fixed
  simp only [fixedSegments, List.forall_mem_cons] at hfixed
  obtain ⟨h1, h2, h3, h4, h5, h6, h7, h8, -⟩ := hfixed
  cases q with
  | findPayment id =>
    have hne : (percentEncode Address.inPath id.toText).isEmpty = false := by
      have hid : (Uuid.ofText? id.toText).isSome = true := by rw [Uuid.ofText?_toText]; rfl
      have hread := segmentText?_eq hid
      rw [String.isEmpty_eq_false_iff]
      intro hempty
      have hnil : Uri.segmentText? "" = some "" := by decide +kernel
      have htext : id.toText = "" := Option.some.inj (hread.symm.trans (hempty ▸ hnil))
      exact absurd (htext ▸ id.isEmpty_toText) (by decide)
    simp [segments, route, Route.ofSegments, h2, h3, hne]
  | health | payment _ | credit _ | manual _ | activity _ _ | statement _ _ =>
    simp [segments, route, Route.ofSegments, h1, h2, h3, h4, h5, h6, h7, h8]

theorem decoded?_route {q : LedgerCall} (hq : q.IsCarried) :
    (q.route (percentEncode Address.inPath)).decoded? = some (q.route id) := by
  cases q with
  | findPayment u =>
    have hu : (Uuid.ofText? u.toText).isSome = true := by rw [Uuid.ofText?_toText]; rfl
    simp only [route, Route.decoded?, segmentText?_eq hu]
    rfl
  | activity account q | statement account q =>
    simp only [route, Route.decoded?, segmentText?_eq (hq.account account rfl)]
    rfl
  | health | payment _ | credit _ | manual _ => rfl

theorem answer_route {u : Uri} (h : q.Asks r) (hq : q.IsCarried) (hu : u.form = q.fields) :
    (q.route id).answer r u = Server.showing q.success q.encode q.program := by
  cases q with
  | health => exact absurd rfl hq.isService
  | payment p =>
    simp only [route, Route.answer, h.body_eq hq rfl p.readsBack, Server.reading]
    rfl
  | findPayment u =>
    simp only [route, Route.answer, id, Uuid.ofText?_toText]
    rfl
  | credit p =>
    simp only [route, Route.answer, h.body_eq hq rfl p.readsBack, Server.reading]
    rfl
  | manual p =>
    simp only [route, Route.answer, h.body_eq hq rfl p.readsBack, Server.reading]
    rfl
  | activity account p =>
    have hread : ActivityQuery.decoder.runForm u.form = .ok p := by
      rw [hu]
      exact ActivityQuery.runForm_fields (hq.asked _ List.mem_cons_self)
        (hq.asked _ (List.mem_cons_of_mem _ List.mem_cons_self))
    have hquery : Server.query ActivityQuery.decoder u = .ok p := by
      simp only [Server.query, hread]
    simp only [route, Route.answer, id, hquery, Server.reading]
    rfl
  | statement account p =>
    have hread : StatementQuery.decoder.runForm u.form = .ok p := by
      rw [hu]
      exact StatementQuery.runForm_fields (hq.asked _ List.mem_cons_self)
        (hq.asked _ (List.mem_cons_of_mem _ List.mem_cons_self))
    have hquery : Server.query StatementQuery.decoder u = .ok p := by
      simp only [Server.query, hread]
    simp only [route, Route.answer, id, hquery, Server.reading]
    rfl

/-- **The request of a call** has the service of the call. -/
theorem Asks.service?_eq (h : q.Asks r) (hq : q.IsCarried) :
    Server.service? r = some (Server.showing q.success q.encode q.program) := by
  have hroute := ofSegments_map q
  rw [← h.segments] at hroute
  have hmethod : r.method ∈ (q.route (percentEncode Address.inPath)).methods := by
    rw [h.method]
    cases q <;> exact List.mem_cons_self
  rw [Server.service?_of_route hroute hmethod (decoded?_route hq), answer_route h hq h.form]

end

/-! ### Numbers of pages -/

theorem page_lt_of_ofFields {account : String} {start stop : Instant} {page size : Option Nat}
    {days : Nat} {l : Listing} (hpage : ∀ n ∈ page, n < twoPow 32)
    (hsize : ∀ n ∈ size, n < twoPow 32)
    (h : Listing.ofFields account start stop page size days = .ok l) :
    l.page < twoPow 32 ∧ l.size < twoPow 32 := by
  have hword {o : Option Nat} {n : Nat} (ho : ∀ m ∈ o, m < twoPow 32) (hn : n < twoPow 32) :
      (o.filter (0 < ·)).getD n < twoPow 32 := by
    cases o with
    | none => exact hn
    | some m =>
      rw [Option.filter_some]
      split_ifs
      · exact ho m rfl
      · exact hn
  obtain ⟨account, -, h⟩ := exists_of_bind_eq_ok h
  obtain ⟨⟨start, stop⟩, -, h⟩ := exists_of_bind_eq_ok h
  obtain ⟨⟨p, n⟩, hfield, h⟩ := exists_of_bind_eq_ok h
  cases h
  rw [Field.page] at hfield
  split_ifs at hfield
  · cases hfield
  · cases hfield
    exact ⟨hword hpage (by decide), hword hsize (by decide)⟩

theorem gives_enrich {α : Type} {P : α → Prop} {k : List StatementItem → Program _}
    (h : ∀ items, (k items).Gives P) (items : List StatementItem) :
    (Listings.enrich items k).Gives P := by
  unfold Listings.enrich
  split
  · exact h items
  · refine .ask fun found => ?_
    cases found with
    | ok summaries => exact h _
    | error e => exact h items

/-- **The numbers in an answer** are words. -/
theorem gives_numbers {q : LedgerCall} (hq : q.IsCarried) :
    q.program.Gives fun a => ∀ n ∈ q.numbers a, n < twoPow 32 := by
  cases q with
  | activity account q =>
    simp only [program, Listings.journals]
    cases hl : Listing.ofQuery account q with
    | error e => exact Program.gives_fail _
    | ok l =>
      obtain ⟨hpage, hsize⟩ := page_lt_of_ofFields (hq.asked _ List.mem_cons_self)
        (hq.asked _ (List.mem_cons_of_mem _ List.mem_cons_self)) hl
      refine .ask (Program.gives_stored fun entries => Program.gives_answer ?_)
      exact List.forall_mem_cons.2 ⟨hpage, List.forall_mem_singleton.2 hsize⟩
  | statement account q =>
    simp only [program, Listings.statement]
    cases hc : StatementCommand.ofQuery account q with
    | error e => exact Program.gives_fail _
    | ok c =>
      obtain ⟨l, hl, hlc⟩ := exists_of_bind_eq_ok hc
      cases hlc
      obtain ⟨hpage, hsize⟩ := page_lt_of_ofFields (hq.asked _ List.mem_cons_self)
        (hq.asked _ (List.mem_cons_of_mem _ List.mem_cons_self)) hl
      have hfinish (items : List StatementItem) :
          (Listings.finish ⟨l, q.includeCounterparty⟩ items).Gives
            fun p => ∀ n ∈ [p.page, p.size], n < twoPow 32 :=
        .ask fun _ => .ask fun _ => Program.gives_answer
          (List.forall_mem_cons.2 ⟨hpage, List.forall_mem_singleton.2 hsize⟩)
      refine .ask (Program.gives_stored fun entries => ?_)
      split
      · exact .crash
      · split_ifs
        · exact gives_enrich hfinish _
        · exact hfinish _
  | health | payment _ | findPayment _ | credit _ | manual _ =>
    exact Program.gives_of_forall (fun _ _ hn => absurd hn List.not_mem_nil) _

end LedgerCall

end DoubleEntry
