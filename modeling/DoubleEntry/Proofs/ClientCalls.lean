import DoubleEntry.Client.Basic
import DoubleEntry.Proofs.CallRoutes
import DoubleEntry.Proofs.JsonRecord
import DoubleEntry.Proofs.JsonStored
import DoubleEntry.Proofs.Ledger
import DoubleEntry.Proofs.Session

/-!
# Calls of a client

A call of a client over the network does what the service does when it is called directly: it leaves
the same world behind, has the answer of the service, or is refused with the status and the text of
its error.

## Main definitions

* `LedgerClient.IsConnected`: what a client must be to reach a server.
* `Server.network`: a network that leads to a server in a world.
* `Server.exposed`: what a client sees of the text of an error.

## Main results

* `LedgerClient.exists_request`: the request of a call asks a server for the call.
* `LedgerClient.call_agrees`: a call agrees with its service.
-/

namespace DoubleEntry

/-! ### Requests -/

namespace LedgerClient

variable {σ : Type} {c : LedgerClient} {q : LedgerCall} {environment : String}

/-- A client that reaches a server: it has the address of one, and marks its requests with what a
header can hold. -/
structure IsConnected (c : LedgerClient) : Prop where
  address : Address.IsServer (Address.base c.address)
  correlation : ∀ id ∈ c.correlation, isHeaderValue id = true

theorem isAscii_toDigits (n : Nat) : IsAscii (Nat.toDigits 10 n) := by
  intro c hc
  have hdigit := Nat.isDigit_of_mem_toDigits (by decide) (by decide) hc
  simp only [Char.isDigit, Bool.and_eq_true, decide_eq_true_eq] at hdigit
  exact lt_of_le_of_lt (show c.toNat ≤ '9'.toNat from hdigit.2) (by decide)

theorem isAscii_fields (q : LedgerCall) :
    ∀ f ∈ q.fields, IsAscii f.1.toList ∧ IsAscii f.2.toList := by
  have hwindow (start stop : Instant) (page size : Option Nat) :
      ∀ f ∈ LedgerCall.windowFields start stop page size,
        IsAscii f.1.toList ∧ IsAscii f.2.toList := by
    cases page <;> cases size <;>
      simp [LedgerCall.windowFields, Instant.isAscii_toText, isAscii_toDigits]
  cases q with
  | activity account q => exact hwindow _ _ _ _
  | statement account q =>
    intro f hf
    obtain hf | hf := List.mem_append.1 hf
    · exact hwindow _ _ _ _ f hf
    · obtain rfl := List.mem_singleton.1 hf
      cases q.includeCounterparty <;> simp
  | health | payment _ | findPayment _ | credit _ | manual _ =>
    exact fun _ hf => absurd hf List.not_mem_nil

theorem headers_cases (hc : c.IsConnected) (q : LedgerCall) :
    ((c.headers q).all fun h => isHeaderValue h.2) = true ∧
      ∀ j, q.body = .json j → (c.headers q).lookup "content-type" = some "application/json" := by
  have hjson : isHeaderValue "application/json" = true := by decide +kernel
  cases hcorrelation : c.correlation with
  | none => cases q <;> simp [headers, LedgerCall.body, hcorrelation, hjson]
  | some id =>
    have hid := hc.correlation id hcorrelation
    cases q <;> simp [headers, LedgerCall.body, hcorrelation, hid, hjson, List.lookup_cons]

/-- **The request of a call** can be written, and asks the server for the call. -/
theorem exists_request (hc : c.IsConnected) (hq : q.IsCarried) :
    ∃ r, c.request? q = some r ∧ q.Asks r := by
  obtain ⟨hheaders, htype⟩ := headers_cases hc q
  have hplain := LedgerCall.isPlain_segments hq
  obtain ⟨host, number, haddress⟩ := Address.ofText?_pathOf hc.address hplain
  obtain ⟨a, ha⟩ : ∃ a : Address, a =
      ⟨host, number, pathOf (q.segments.map (percentEncode Address.inPath)), none⟩ := ⟨_, rfl⟩
  have hpath : a.path = pathOf (q.segments.map (percentEncode Address.inPath)) := by rw [ha]
  have hrequest : c.request? q = some ⟨q.method, a.target q.fields, c.headers q, q.body⟩ := by
    rw [request?, q.path_eq, HttpRequest.to?, haddress, ha]
    simp only [Option.bind_eq_bind, Option.bind_some, hheaders, if_true]
  have hmem : ∀ s ∈ q.segments.map (percentEncode Address.inPath), ∀ d ∈ s.toList,
      d ≠ '?' ∧ d ≠ '#' ∧ d ≠ '/' := by
    refine List.forall_mem_map.2 fun s hs d hd => ?_
    obtain ⟨hquery, hhash, hslash⟩ := mem_percentEncode (IsPlain.isAscii (hplain s hs)) hd
    exact ⟨hquery, hhash, fun h => IsPlain.not_mem (hplain s hs) (by decide) (hslash h)⟩
  have huri : Uri.ofText (a.target q.fields) = ⟨a.path, queryOf q.fields⟩ := by
    refine Uri.ofText_target (by rw [ha]) (fun d hd => ?_) _
    rw [hpath] at hd
    exact ne_of_mem_pathOf (fun s hs d hd => ⟨(hmem s hs d hd).1, (hmem s hs d hd).2.1⟩) hd
  refine ⟨_, hrequest, rfl, ?_, ?_, rfl, htype⟩
  · change (Uri.ofText (a.target q.fields)).segments = _
    rw [huri, hpath]
    exact Uri.segments_pathOf (by cases q <;> simp [LedgerCall.segments])
      (fun s hs hslash => (hmem s hs _ hslash).2.2 rfl) _
  · change (Uri.ofText (a.target q.fields)).form = _
    rw [huri]
    exact Uri.form_queryOf (isAscii_fields q) _

/-! ### Responses -/

theorem answered_eq_ok {a : q.Answer} {r : HttpResponse} (hstatus : r.status = q.success)
    (hbody : r.body = .json (q.encode a)) (hread : (q.encode a).IsRead)
    (hback : Decoder.ReadsBack q.decoder q.encode a) : answered q r = .ok a := by
  have hsuccess : q.success.isSuccess = true := by cases q <;> rfl
  have htext : q.decoder.runText r.body.toText = .ok a := by
    rw [hbody]
    exact Decoder.runText_of_draftOf hread hback
  rw [answered, hstatus, if_pos hsuccess, htext]
  rfl

theorem answered_eq_error {status : Status} {text : String} (hstatus : status.isSuccess = false)
    (hword : status < twoPow 64) {r : HttpResponse} (hr : r.status = status)
    (hbody : r.body = (HttpResponse.refusal status text).body) :
    ∃ correlation, answered q r = .error (.refused status text correlation) := by
  obtain ⟨j, hj⟩ : ∃ j, j = Json.record [("error", .str text), ("code", .nat status)] := ⟨_, rfl⟩
  have hatoms : ∀ f ∈ [("error", Json.str text), ("code", .nat status)], f.2.IsAtom := by
    refine List.forall_mem_cons.2 ⟨trivial, List.forall_mem_singleton.2 ?_⟩
    exact ⟨Int.natCast_nonneg status, by exact_mod_cast hword⟩
  have hparse : Json.parse r.body.toText = .ok j := by
    rw [hbody, hj]
    exact Json.isStored_record hatoms
  have hfield : j.field? "error" = some (.str text) := by
    rw [hj, Json.field?_record]
    simp [List.lookup_cons]
  have hmessage : ((((Json.parse r.body.toText).toOption.bind (·.field? "error")).bind
      Json.text?).getD r.body.toText) = text := by
    rw [hparse]
    simp only [Except.toOption, Option.bind_some, hfield, Json.text?, Option.getD_some]
  refine ⟨(r.header? "x-correlation-id").filter fun id =>
    id.toList.all fun c => c = '\t' || (' ' ≤ c && c ≤ '~'), ?_⟩
  rw [answered, hr, if_neg (by simp [hstatus])]
  simp only [refusal, hmessage, hr]

end LedgerClient

namespace Server

/-- What a client sees of the text of an error. -/
def exposed (environment : String) (e : ServiceError) : String :=
  if exposesDetails environment then e.text else sanitized e.status e.text

/-- A network that leads to a server in a world. -/
def network {σ : Type} (w : (r : Request) → σ → Option r.Answer × σ) (environment : String)
    (fresh : Uuid) (clock : σ → Nat) : Network σ where
  clock := clock
  send r s := let (a, s) := serve w environment r fresh s; (.answered a, s)

end Server

namespace LedgerClient

variable {σ : Type} {c : LedgerClient} {q : LedgerCall}
  {w : (r : Request) → σ → Option r.Answer × σ} {environment : String} {fresh : Uuid}
  {clock : σ → Nat} {s : σ}

theorem exists_call (hc : c.IsConnected) (hq : q.IsCarried) :
    ∃ r : HttpRequest, r.method ≠ "HEAD" ∧
      c.call (Server.network w environment fresh clock) q s =
        (answered q (Server.complete r fresh ((q.program.run w s).1.map fun x =>
          Server.respond environment (x.map fun a => (q.success, q.encode a)))),
          (q.program.run w s).2) := by
  obtain ⟨r, hr, hasks⟩ := exists_request hc hq
  have hhandle : Server.handle environment r = _ := Server.handle_of_service (hasks.service?_eq hq)
  have hserve : Server.serve w environment r fresh s =
      (Server.complete r fresh ((q.program.run w s).1.map fun x =>
        Server.respond environment (x.map fun a => (q.success, q.encode a))),
        (q.program.run w s).2) := by
    rw [Server.serve, hhandle, Server.showing, Program.run_map, Program.run_map, Option.map_map]
    rfl
  have hread (a : HttpResponse) : read (.ok a) q = answered q a := by
    cases q with
    | health => exact absurd rfl hq.isService
    | _ => rfl
  refine ⟨r, ?_, ?_⟩
  · rw [hasks.method]
    cases q <;> simp [LedgerCall.method]
  · simp only [call, hr, Network.exchange, Server.network, hserve, hread]

/-- **A call agrees with its service** in every world: it leaves the same behind, it has the answer
that the service has when it is called directly, and where the service answers with an error it is
refused with the status of the error and the text that the server exposes. -/
theorem call_agrees (hc : c.IsConnected) (hq : q.IsCarried)
    (hread : ∀ a, (q.program.run w s).1 = some (.ok a) →
      (q.encode a).IsRead ∧ ∀ d ∈ q.details a, d.toDraft.toJson = .ok d) :
    let called := c.call (Server.network w environment fresh clock) q s
    let direct := q.program.run w s
    called.2 = direct.2 ∧ (∀ a, called.1 = .ok a ↔ direct.1 = some (.ok a)) ∧
      ∀ e, direct.1 = some (.error e) → ∃ error, called.1 = .error error ∧
        (∃ correlation, error = .refused e.status (Server.exposed environment e) correlation) ∧
        (error.isRetryable = true ↔ ∃ text, e = .unavailable text ∨ e = .internal text) := by
  intro called direct
  obtain ⟨r, hmethod, hcall⟩ : ∃ r : HttpRequest, r.method ≠ "HEAD" ∧ called = _ :=
    exists_call hc hq
  have hresult : called.1 = answered q (Server.complete r fresh (direct.1.map fun x =>
      Server.respond environment (x.map fun a => (q.success, q.encode a)))) :=
    congrArg Prod.fst hcall
  have hok {a : q.Answer} (ha : direct.1 = some (.ok a)) : called.1 = .ok a := by
    obtain ⟨hisRead, hdetails⟩ := hread a ha
    have hback := LedgerCall.readsBack hdetails ((LedgerCall.gives_numbers hq).of_run ha)
    rw [hresult, ha]
    exact answered_eq_ok (Server.status_complete ..) (Server.body_complete hmethod ..) hisRead hback
  have herror {e : ServiceError} (he : direct.1 = some (.error e)) : ∃ correlation,
      called.1 = .error (.refused e.status (Server.exposed environment e) correlation) := by
    rw [hresult, he]
    exact answered_eq_error (by cases e <;> rfl) (by cases e <;> simp [ServiceError.status, twoPow])
      (Server.status_complete ..) (Server.body_complete hmethod ..)
  have hcrash (h : direct.1 = none) : ∃ correlation,
      called.1 = .error (.refused 500 "internal error" correlation) := by
    rw [hresult, h]
    exact answered_eq_error rfl (by decide) (Server.status_complete ..)
      (Server.body_complete hmethod ..)
  refine ⟨congrArg Prod.snd hcall, fun a => ⟨fun ha => ?_, hok⟩, fun e he => ?_⟩
  · cases hdirect : direct.1 with
    | none =>
      obtain ⟨correlation, h⟩ := hcrash hdirect
      cases ha.symm.trans h
    | some x =>
      cases x with
      | error e =>
        obtain ⟨correlation, h⟩ := herror hdirect
        cases ha.symm.trans h
      | ok b =>
        have hab : Except.ok a = Except.ok b := ha.symm.trans (hok hdirect)
        rw [Except.ok.inj hab]
  · obtain ⟨correlation, h⟩ := herror he
    refine ⟨_, h, ⟨correlation, rfl⟩, ?_⟩
    cases e <;> simp [ClientError.isRetryable, ServiceError.status]

/-- A client of a ledger on the same machine. -/
def localClient : LedgerClient := ⟨"http://localhost:3000/", some "batch-7"⟩

theorem isConnected_localClient : localClient.IsConnected where
  address := by
    refine ⟨"http", "localhost:3000".toList, by decide, by decide +kernel, by decide +kernel, ?_⟩
    have h : "localhost:3000".toList.all
        (fun c => decide (32 < c.toNat ∧ c ∉ ['/', '\\', '?', '#'])) = true := by decide +kernel
    exact fun c hc => of_decide_eq_true (List.all_eq_true.1 h c hc)
  correlation id h := by
    obtain rfl : "batch-7" = id := Option.some.inj h
    decide +kernel

theorem isCarried_raceRequest : (LedgerCall.payment Ledger.raceRequest).IsCarried where
  isService h := by cases h
  account _ h := by cases h
  asked _ h := by cases h
  size := by decide +kernel
  body j h := by
    cases h
    refine Json.draftOf_compact_obj ?_
    simp [Ledger.raceRequest, Json.optField, Json.isAtom_str]

/-- An empty ledger among partners that grant everything. -/
def emptyLedger : Session.State := (.inMemory, ⟨[], [.epoch], [1, 2, 3, 4, 5].map .ofNat⟩)

/-- A payment over the network is answered like a payment that the service is asked for. -/
theorem call_agrees_payment : localClient.IsConnected ∧
    (LedgerCall.payment Ledger.raceRequest).IsCarried ∧
    (localClient.call (Server.network (Session.world .granting) "prod" (.ofNat 9) fun _ => 0)
      (.payment Ledger.raceRequest) emptyLedger).1 = .ok (PaymentCommand.answer (.ofNat 1)) := by
  have hdirect : ((Payments.post Ledger.raceRequest).run (Session.world .granting)
      emptyLedger).1 = some (.ok (PaymentCommand.answer (.ofNat 1))) := by decide +kernel
  have hread (a : PaymentPosted) : a.toJson.IsRead := by
    refine Json.draftOf_compact_obj fun f hf => ?_
    simp only [List.mem_cons, List.not_mem_nil, or_false] at hf
    obtain rfl | rfl := hf <;> trivial
  exact ⟨isConnected_localClient, isCarried_raceRequest,
    ((call_agrees isConnected_localClient isCarried_raceRequest fun a _ =>
      ⟨hread a, fun _ hd => absurd hd List.not_mem_nil⟩).2.1 _).2 hdirect⟩

end LedgerClient

end DoubleEntry
