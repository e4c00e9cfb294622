import DoubleEntry.Proofs.Memory
import DoubleEntry.Proofs.Trace

/-!
# What exchanges amount to

Of all that a program asks, only a few answers count later: the identifiers it draws, the holds that
are answered for, the holds it releases and the rows it commits.  Each is read off an exchange by
itself, and off a list of exchanges one after another.

An exchange that amounts to nothing but an identifier is plain.  So are all exchanges of a request
that neither writes nor is about a hold (`Request.IsPlain.exchange`), which are most of the steps of
the services, and those of a request that failed.

## Main definitions

* `Exchange.drawn?`, `Exchange.hold?`, `Exchange.release?`, `Exchange.commit?`: what an exchange
  amounts to.
* `Log.drawn`, `Log.holds`, `Log.releases`, `Log.commits`: what a list of them amounts to.
* `Exchange.IsPlain`: the exchange amounts to nothing but an identifier.
* `Request.IsPlain`: the request neither writes nor is about a hold.
* `Program.Tolerant`: a statement about traces that plain exchanges do not touch.
-/

namespace DoubleEntry

namespace Exchange

/-- The identifier that was drawn. -/
def drawn? : Exchange → Option Uuid
  | ⟨.freshId, some u⟩ => some u
  | _ => none

/-- The request to reserve a hold with its answer, if the accounts service gave one. -/
def hold? : Exchange → Option (HoldRequest × HoldOutcome)
  | ⟨.accounts (.reserve h), some (.ok o)⟩ => some (h, o)
  | _ => none

/-- The request to release a hold, whatever became of it. -/
def release? : Exchange → Option HoldRequest
  | ⟨.accounts (.release h), _⟩ => some h
  | _ => none

/-- The rows of a unit of work that inserted them. -/
def commit? : Exchange → Option (List Row)
  | ⟨.store (.post rows), some (.ok _)⟩ => some rows
  | _ => none

/-- The exchange amounts to nothing but an identifier. -/
structure IsPlain (e : Exchange) : Prop where
  hold : e.hold? = none
  release : e.release? = none
  commit : e.commit? = none

end Exchange

/-- The request neither writes nor is about a hold. -/
def Request.IsPlain : Request → Prop
  | .store q => q.writes = false
  | .accounts (.reserve _) | .accounts (.release _) => False
  | _ => True

theorem Request.IsPlain.exchange {r : Request} (h : r.IsPlain) (a : Option r.Answer) :
    (Exchange.mk r a).IsPlain := by
  cases r with
  | store q =>
    cases q with
    | record _ | payment _ | activity _ => exact ⟨rfl, rfl, rfl⟩
    -- these write
    | post _ | claim _ _ _ _ | settle _ _ _ _ => cases h
  | accounts c =>
    cases c with
    | reserve _ | release _ => exact h.elim
    | validate _ _ _ _ | summaries _ => exact ⟨rfl, rfl, rfl⟩
  | audit _ | publish _ _ _ | now | freshId => exact ⟨rfl, rfl, rfl⟩

namespace Log

/-- The identifiers that were drawn. -/
def drawn (es : List Exchange) : List Uuid := es.filterMap Exchange.drawn?

/-- The requests to reserve a hold that were answered, with their answers. -/
def holds (es : List Exchange) : List (HoldRequest × HoldOutcome) := es.filterMap Exchange.hold?

/-- The requests to release a hold. -/
def releases (es : List Exchange) : List HoldRequest := es.filterMap Exchange.release?

/-- The rows of each unit of work that inserted some. -/
def commits (es : List Exchange) : List (List Row) := es.filterMap Exchange.commit?

theorem holds_cons_of_none {e : Exchange} (h : e.hold? = none) (es : List Exchange) :
    holds (e :: es) = holds es := by
  simp [holds, h]

theorem releases_cons_of_none {e : Exchange} (h : e.release? = none) (es : List Exchange) :
    releases (e :: es) = releases es := by
  simp [releases, h]

theorem commits_cons_of_none {e : Exchange} (h : e.commit? = none) (es : List Exchange) :
    commits (e :: es) = commits es := by
  simp [commits, h]

theorem releases_release (h : HoldRequest) (a : Option (Request.accounts (.release h)).Answer)
    (es : List Exchange) : releases (⟨.accounts (.release h), a⟩ :: es) = h :: releases es := rfl

theorem holds_reserve (h : HoldRequest) (o : HoldOutcome) (es : List Exchange) :
    holds (⟨.accounts (.reserve h), some (.ok o)⟩ :: es) = (h, o) :: holds es := rfl

theorem commits_post (rows : List Row) (u : Unit) (es : List Exchange) :
    commits (⟨.store (.post rows), some (.ok u)⟩ :: es) = rows :: commits es := rfl

theorem drawn_subset (e : Exchange) (es : List Exchange) : drawn es ⊆ drawn (e :: es) := by
  intro u h
  simp only [drawn, List.mem_filterMap, List.mem_cons] at h ⊢
  obtain ⟨f, hf, hu⟩ := h
  exact ⟨f, .inr hf, hu⟩

theorem mem_drawn (u : Uuid) (es : List Exchange) : u ∈ drawn (⟨.freshId, some u⟩ :: es) :=
  List.mem_cons_self

theorem eq_nil_of_plain {es : List Exchange} (h : ∀ e ∈ es, e.IsPlain) :
    holds es = [] ∧ releases es = [] ∧ commits es = [] :=
  ⟨List.filterMap_eq_nil_iff.2 fun e he => (h e he).hold,
    List.filterMap_eq_nil_iff.2 fun e he => (h e he).release,
    List.filterMap_eq_nil_iff.2 fun e he => (h e he).commit⟩

end Log

namespace Program

variable {α : Type}

/-- A statement about traces that holds as long as nothing happened, and that a plain exchange does
not touch. -/
structure Tolerant (P : List Exchange → Program α → Prop) : Prop where
  unended : ∀ {q : Program α}, (∀ a, q ≠ .done a) → P [] q
  plain : ∀ {e : Exchange} {es : List Exchange} {q : Program α}, e.IsPlain → P es q →
    P (e :: es) q

theorem Tolerant.waits {P : List Exchange → Program α → Prop} (hP : Tolerant P) (r : Request)
    (k : r.Answer → Program α) : P [] (.ask r k) :=
  hP.unended nofun

/-- A request that amounts to nothing where it crashes may crash. -/
theorem Tolerant.crashes {P : List Exchange → Program α → Prop} (hP : Tolerant P) {e : Exchange}
    (he : e.IsPlain) : P [e] .crash :=
  hP.plain he (hP.unended nofun)

theorem Tolerant.ask {P : List Exchange → Program α → Prop} (hP : Tolerant P) {r : Request}
    {k : r.Answer → Program α} (hr : r.IsPlain) (h : ∀ a, (k a).Always P) :
    (Program.ask r k).Always P :=
  always_ask (hP.waits r k) (hP.crashes (hr.exchange none)) fun a =>
    (h a).mono fun _ _ => hP.plain (hr.exchange (some a))

theorem Tolerant.crash {P : List Exchange → Program α → Prop} (hP : Tolerant P) :
    (Program.crash : Program α).Always P :=
  always_crash (hP.unended nofun)

theorem always_ofHalt {ε β : Type} {r : Except (Halt ε) β} {refused : ε → Program α}
    {k : β → Program α} {P : List Exchange → Program α → Prop}
    (hr : ∀ e, r = .error (.refused e) → (refused e).Always P)
    (hc : (Program.crash : Program α).Always P) (hk : ∀ b, r = .ok b → (k b).Always P) :
    (ofHalt r refused k).Always P := by
  rcases r with (e | _) | b
  · exact hr e rfl
  · exact hc
  · exact hk b rfl

end Program

end DoubleEntry
