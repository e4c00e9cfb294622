import DoubleEntry.Http.Server
import DoubleEntry.Proofs.Agreement
import DoubleEntry.Proofs.Paths

/-!
# Errors are masked

Outside the environments of developers nobody learns why the server failed.  Every response with the
status of such a failure comes from the error of a service or from a crash, and its body depends on
the status alone, whatever was in the store and whatever the error was; a request for the header
alone is answered without a body.  Of an error that is the caller's doing no more is told than a
piece of its text.

## Main definitions

* `Server.service?`: the program that answers a request.
* `Server.Reacts`: where a response comes from.
* `Server.Tells`: what the body of a response tells of an error.

## Main results

* `Server.reacts_handle`: a response comes from a route, the error of a service or a crash.
* `Server.masks_errors`: failures of the server cannot be told apart.
-/

namespace DoubleEntry

namespace Server

variable {σ τ α β : Type} {environment : String}

/-- The program of the service that answers a request, if it has a route and a method of it. -/
def service? (r : HttpRequest) : Option (Program (Except ServiceError (Status × Json))) :=
  let u := Uri.ofText r.target
  match Route.ofSegments u.segments with
  | none => none
  | some route =>
    if route.methods.contains r.method then route.decoded?.map fun route => route.answer r u
    else none

/-- Where a response comes from: from a route, from the error of a service, or from a crash. -/
inductive Reacts (environment : String) : Option HttpResponse → Prop
  | plain (response : HttpResponse) (h : response.status.isServerError = false) :
    Reacts environment (some response)
  | refused (e : ServiceError) : Reacts environment (some (respond environment (.error e)))
  | crashed : Reacts environment none

/-- What a body tells of an error: its status, and a text; if it was the caller's doing, the text is
a piece of that of the error without its control characters. -/
def Tells (e : ServiceError) (body : Body) : Prop :=
  ∃ text, body = .json (.record [("error", .str text), ("code", .nat e.status)]) ∧
    (e.status < 500 → text.length ≤ maxMessageLength ∧
      (∀ c ∈ text.toList, isControlCode c = false) ∧
      text.toList <+: e.text.toList.filter fun c => !isControlCode c)

/-! ### Services -/

theorem exists_route {r : HttpRequest} {p : Program (Except ServiceError (Status × Json))}
    (h : service? r = some p) : ∃ route route' : Route,
      Route.ofSegments (Uri.ofText r.target).segments = some route ∧
      route.methods.contains r.method = true ∧ route.decoded? = some route' ∧
      p = route'.answer r (Uri.ofText r.target) := by
  cases hroute : Route.ofSegments (Uri.ofText r.target).segments with
  | none =>
    simp only [service?, hroute] at h
    cases h
  | some route =>
    simp only [service?, hroute] at h
    split_ifs at h with hmethod
    obtain ⟨route', hdecoded, hp⟩ := Option.map_eq_some_iff.1 h
    exact ⟨route, route', rfl, hmethod, hdecoded, hp.symm⟩

theorem service?_of_route {r : HttpRequest} {route route' : Route}
    (hroute : Route.ofSegments (Uri.ofText r.target).segments = some route)
    (hmethod : r.method ∈ route.methods) (hdecoded : route.decoded? = some route') :
    service? r = some (route'.answer r (Uri.ofText r.target)) := by
  have hcontains : route.methods.contains r.method = true := List.contains_iff_mem.2 hmethod
  simp only [service?, hroute, hcontains, hdecoded, if_true, Option.map_some]

theorem handle_of_service {r : HttpRequest} {p : Program (Except ServiceError (Status × Json))}
    (h : service? r = some p) : handle environment r = p.map (respond environment) := by
  obtain ⟨route, route', hroute, hmethod, hdecoded, rfl⟩ := exists_route h
  simp only [handle, hroute, hmethod, hdecoded, Bool.not_true, Bool.false_eq_true, if_false]

theorem handle_of_none (environment : String) {r : HttpRequest} (h : service? r = none) :
    ∃ response, handle environment r = .done response ∧ response.status.isServerError = false := by
  cases hroute : Route.ofSegments (Uri.ofText r.target).segments with
  | none =>
    simp only [handle, hroute]
    exact ⟨_, rfl, rfl⟩
  | some route =>
    simp only [service?, hroute] at h
    simp only [handle, hroute]
    split_ifs at h with hmethod
    · rw [Option.map_eq_none_iff] at h
      simp only [hmethod, h, Bool.not_true, Bool.false_eq_true, if_false]
      exact ⟨_, rfl, rfl⟩
    · simp only [hmethod, Bool.not_false, if_true]
      exact ⟨_, rfl, rfl⟩

/-- A status that is not a failure of the server. -/
def Succeeds (x : Status × Json) : Prop := x.1.isServerError = false

theorem gives_showing {status : Status} (h : status.isServerError = false) (f : α → Json)
    (p : Program (Except ServiceError α)) : (showing status f p).Gives Succeeds :=
  have hshown (a : α) : Succeeds (status, f a) := h
  Program.gives_map_ok hshown p

theorem gives_service {r : HttpRequest} {p : Program (Except ServiceError (Status × Json))}
    (h : service? r = some p) : p.Gives Succeeds := by
  obtain ⟨-, route, -, -, -, rfl⟩ := exists_route h
  cases route with
  | health | document => exact Program.gives_answer rfl
  | _ => exact gives_showing rfl _ _

/-- **Where a response comes from**, whatever the world is. -/
theorem reacts_handle (w : (q : Request) → σ → Option q.Answer × σ) (environment : String)
    (r : HttpRequest) (s : σ) : Reacts environment ((handle environment r).run w s).1 := by
  cases hservice : service? r with
  | none =>
    obtain ⟨response, hresponse, hstatus⟩ := handle_of_none environment hservice
    rw [hresponse]
    exact .plain response hstatus
  | some p =>
    rw [handle_of_service hservice, Program.run_map]
    cases hrun : (p.run w s).1 with
    | none => exact .crashed
    | some result =>
      cases result with
      | error e => exact .refused e
      | ok x => exact .plain _ ((gives_service hservice).of_run hrun)

/-! ### Errors -/

theorem exposesDetails_eq_false
    (h : ∀ name ∈ ["", "local", "dev"],
      (trimChars environment.toList).map Char.toLower ≠ name.toList) :
    exposesDetails environment = false := by
  simp only [List.forall_mem_cons] at h
  obtain ⟨hempty, hlocal, hdev, -⟩ := h
  simp only [exposesDetails, Bool.or_eq_false_iff, decide_eq_false_iff_not]
  exact ⟨⟨hempty, hlocal⟩, hdev⟩

theorem respond_error (hmask : exposesDetails environment = false) (e : ServiceError) :
    respond environment (.error e) = .refusal e.status (sanitized e.status e.text) := by
  rw [respond, hmask]
  rfl

/-- Of a failure of the server only the status is told. -/
theorem sanitized_of_isServerError {e : ServiceError} (h : e.status.isServerError = true)
    (text : String) : sanitized e.status e.text = sanitized e.status text := by
  cases e with
  | unavailable _ | internal _ => rfl
  | _ => cases h

theorem tells_sanitized (e : ServiceError) :
    Tells e (HttpResponse.refusal e.status (sanitized e.status e.text)).body := by
  refine ⟨_, rfl, fun hlt => ?_⟩
  have hcaller : sanitized e.status e.text = String.ofList
      ((e.text.toList.filter fun c => !isControlCode c).take maxMessageLength) := by
    cases e with
    | unavailable _ | internal _ => exact absurd hlt (by simp [ServiceError.status])
    | _ => rfl
  rw [hcaller, String.length_ofList, String.toList_ofList]
  refine ⟨List.length_take_le _ _, fun c hc => ?_, List.take_prefix _ _⟩
  simpa using (List.mem_filter.1 (List.mem_of_mem_take hc)).2

/-! ### Responses -/

theorem serve_fst (w : (q : Request) → σ → Option q.Answer × σ) (r : HttpRequest) (fresh : Uuid)
    (s : σ) : (serve w environment r fresh s).1 =
      complete r fresh ((handle environment r).run w s).1 := rfl

theorem status_complete (r : HttpRequest) (fresh : Uuid) (response : Option HttpResponse) :
    (complete r fresh response).status =
      (response.getD (.refusal 500 "internal error")).status := by
  unfold complete
  dsimp only
  split_ifs <;> rfl

theorem body_complete_of_head {r : HttpRequest} (h : r.method = "HEAD") (fresh : Uuid)
    (response : Option HttpResponse) : (complete r fresh response).body = .none := by
  rw [complete, if_pos h]

theorem body_complete {r : HttpRequest} (h : r.method ≠ "HEAD") (fresh : Uuid)
    (response : Option HttpResponse) :
    (complete r fresh response).body = (response.getD (.refusal 500 "internal error")).body := by
  rw [complete, if_neg h]
  rfl

/-- **A failure of the server** is answered by its status, whatever it came from. -/
theorem Reacts.body_eq {response : Option HttpResponse} (h : Reacts environment response)
    (hmask : exposesDetails environment = false) {status : Status}
    (hstatus : (response.getD (.refusal 500 "internal error")).status = status)
    (hserver : status.isServerError = true) :
    (response.getD (.refusal 500 "internal error")).body =
      (HttpResponse.refusal status (sanitized status "")).body := by
  subst hstatus
  cases h with
  | plain response hplain => exact absurd hserver (by simp [hplain])
  | refused e =>
    rw [Option.getD_some, respond_error hmask] at hserver ⊢
    have htext : sanitized e.status e.text = sanitized e.status "" :=
      sanitized_of_isServerError hserver ""
    rw [htext]
    rfl
  | crashed => rfl

/-- Two failures with one status have one body, if both have a body or neither has. -/
theorem body_complete_eq {x y : Option HttpResponse} (hx : Reacts environment x)
    (hy : Reacts environment y) (hmask : exposesDetails environment = false) {r r' : HttpRequest}
    {fresh fresh' : Uuid}
    (hstatus : (complete r fresh x).status = (complete r' fresh' y).status)
    (hserver : (complete r fresh x).status.isServerError = true)
    (hhead : r.method = "HEAD" ↔ r'.method = "HEAD") :
    (complete r fresh x).body = (complete r' fresh' y).body := by
  by_cases h : r.method = "HEAD"
  · rw [body_complete_of_head h, body_complete_of_head (hhead.1 h)]
  · rw [status_complete, status_complete] at hstatus
    rw [status_complete] at hserver
    rw [body_complete h, body_complete fun h' => h (hhead.2 h'), hx.body_eq hmask rfl hserver,
      hy.body_eq hmask hstatus.symm hserver]

/-- **Failures of the server cannot be told apart**, outside the environments of developers: of two
responses with one such status the bodies are the same, whatever the requests, the stores and the
rest of the world are; a request for the header alone has none.  Of every error that a service
answers with, the body tells its status and, if it was the caller's doing, a piece of its text. -/
theorem masks_errors (henvironment : ∀ name ∈ ["", "local", "dev"],
    (trimChars environment.toList).map Char.toLower ≠ name.toList) :
    (∀ {σ τ : Type} (w : (q : Request) → σ → Option q.Answer × σ)
        (v : (q : Request) → τ → Option q.Answer × τ) (r r' : HttpRequest) (fresh fresh' : Uuid)
        (s : σ) (t : τ),
      let a := (serve w environment r fresh s).1
      let b := (serve v environment r' fresh' t).1
      a.status = b.status → a.status.isServerError = true →
        (r.method = "HEAD" ↔ r'.method = "HEAD") → a.body = b.body) ∧
    ∀ {σ : Type} (w : (q : Request) → σ → Option q.Answer × σ) (r : HttpRequest) (fresh : Uuid)
        (s : σ) (p : Program (Except ServiceError (Status × Json))) (e : ServiceError),
      service? r = some p → (p.run w s).1 = some (.error e) →
      let a := (serve w environment r fresh s).1
      a.status = e.status ∧ (r.method = "HEAD" → a.body = .none) ∧
        (r.method ≠ "HEAD" → Tells e a.body) := by
  have hmask := exposesDetails_eq_false henvironment
  refine ⟨fun w v r r' fresh fresh' s t => ?_, fun w r fresh s p e hservice hrun => ?_⟩
  · simp only [serve_fst]
    exact body_complete_eq (reacts_handle w environment r s) (reacts_handle v environment r' t)
      hmask
  · have hresponse : ((handle environment r).run w s).1 =
        some (.refusal e.status (sanitized e.status e.text)) := by
      rw [handle_of_service hservice, Program.run_map, hrun, Option.map_some, respond_error hmask]
    rw [serve_fst, hresponse]
    refine ⟨status_complete .., fun h => body_complete_of_head h .., fun h => ?_⟩
    rw [body_complete h]
    exact tells_sanitized e

/-- A world whose store fails with some text, and where nothing else answers. -/
def failing (text : String) : (q : Request) → Unit → Option q.Answer × Unit
  | .store _, s => (some (.error (.database text)), s)
  | _, s => (none, s)

/-- Asks for a payment. -/
def lookup (method : String) (id : PaymentId) : HttpRequest :=
  ⟨method, pathOf ["v1", "payments", id.toText], [], .none⟩

theorem service?_lookup {method : String} (hmethod : method ∈ ["GET", "HEAD"]) (id : PaymentId) :
    service? (lookup method id) = some (showing 200 PaymentView.toJson (Payments.find id)) := by
  have hplain : ∀ s ∈ ["v1", "payments", id.toText], ∀ c ∈ s.toList, IsPlain c :=
    List.forall_mem_cons.2 ⟨isPlain_of_all (by decide), List.forall_mem_cons.2
      ⟨isPlain_of_all (by decide), List.forall_mem_singleton.2 id.isPlain_toText⟩⟩
  have hpath : ∀ c ∈ (pathOf ["v1", "payments", id.toText]).toList, c ≠ '?' ∧ c ≠ '#' :=
    fun c hc => ne_of_mem_pathOf (fun s hs d hd => (hplain s hs d hd).ne) hc
  have hsegments : (Uri.ofText (lookup method id).target).segments =
      ["v1", "payments", id.toText] := by
    rw [lookup, Uri.ofText_path hpath]
    exact Uri.segments_pathOf (by simp) (fun s hs => IsPlain.not_mem (hplain s hs) (by decide)) ""
  have hroute : Route.ofSegments (Uri.ofText (lookup method id).target).segments =
      some (.payment id.toText) := by
    rw [hsegments]
    simp [Route.ofSegments, id.isEmpty_toText]
  have hdecoded : (Route.payment id.toText).decoded? = some (.payment id.toText) := by
    rw [Route.decoded?, Uri.segmentText?_of_isPlain id.isPlain_toText]
    rfl
  rw [service?_of_route hroute hmethod hdecoded, Route.answer, Uuid.ofText?_toText]

/-- The response of a server over a failing store. -/
def ofFailing (text method : String) : HttpResponse :=
  (serve (failing text) "prod" (lookup method (.ofNat 1)) (.ofNat 2) ()).1

theorem status_ofFailing {method : String} (hmethod : method ∈ ["GET", "HEAD"]) (text : String) :
    (ofFailing text method).status = 500 := by
  rw [ofFailing, serve_fst, status_complete, handle_of_service (service?_lookup hmethod (.ofNat 1)),
    Program.run_map]
  rfl

/-- Two failures of a store are told apart by nobody. -/
theorem masks_failing_store :
    (∀ name ∈ ["", "local", "dev"],
      (trimChars "prod".toList).map Char.toLower ≠ name.toList) ∧
      (ofFailing "disk full" "GET").status = 500 ∧ (ofFailing "no table" "GET").status = 500 ∧
      (ofFailing "disk full" "GET").body = (ofFailing "no table" "GET").body := by
  have henvironment : ∀ name ∈ ["", "local", "dev"],
      (trimChars "prod".toList).map Char.toLower ≠ name.toList := by decide
  have hfull : (ofFailing "disk full" "GET").status = 500 := status_ofFailing (by decide) _
  have hmissing : (ofFailing "no table" "GET").status = 500 := status_ofFailing (by decide) _
  have hserver : (ofFailing "disk full" "GET").status.isServerError = true := by rw [hfull]; rfl
  exact ⟨henvironment, hfull, hmissing, (masks_errors henvironment).1 _ _ _ _ _ _ _ _
    (hfull.trans hmissing.symm) hserver Iff.rfl⟩

/-- **A request for the header alone** is answered without a body, whatever the status. -/
theorem not_same_body_of_head : ¬ ∀ (environment : String),
    (∀ name ∈ ["", "local", "dev"],
      (trimChars environment.toList).map Char.toLower ≠ name.toList) →
    ∀ (σ τ : Type) (w : (q : Request) → σ → Option q.Answer × σ)
      (v : (q : Request) → τ → Option q.Answer × τ) (r r' : HttpRequest) (fresh fresh' : Uuid)
      (s : σ) (t : τ),
      let a := (serve w environment r fresh s).1
      let b := (serve v environment r' fresh' t).1
      a.status = b.status → a.status.isServerError = true → a.body = b.body := by
  intro h
  have hget : (ofFailing "disk full" "GET").status = 500 := status_ofFailing (by decide) _
  have hhead : (ofFailing "disk full" "HEAD").status = 500 := status_ofFailing (by decide) _
  have hsame : (ofFailing "disk full" "GET").body = (ofFailing "disk full" "HEAD").body :=
    h "prod" (by decide) _ _ (failing "disk full") (failing "disk full") (lookup "GET" (.ofNat 1))
      (lookup "HEAD" (.ofNat 1)) (.ofNat 2) (.ofNat 2) () () (hget.trans hhead.symm)
      (congrArg Status.isServerError hget)
  have hnone : (ofFailing "disk full" "HEAD").body = .none := body_complete_of_head rfl _ _
  rw [hnone, ofFailing, serve_fst, body_complete (by decide),
    handle_of_service (service?_lookup (by decide) (.ofNat 1)), Program.run_map] at hsame
  cases hsame

end Server

end DoubleEntry
