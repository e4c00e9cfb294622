import DoubleEntry.Proofs.Effects
import DoubleEntry.Service.Payments

/-!
# The look at the earlier answer

A service that is given a key looks for an earlier answer first, and gives that one again.  What it
gives then was in the record that it found, and it asks for nothing else.

## Main definitions

* `Replayed`: an answer that a program gives is one that it found in a record.
* `Quiet`: nothing was done, and an answer is an earlier one.

## Main results

* `Payments.always_unlessAnswered`: following the look at the earlier answer.
* `Payments.unlessAnswered_begins`: it comes first, and ends the program if there is an answer.
-/

namespace DoubleEntry

variable {α : Type}

/-- An answer that the program gives is the one of a record that it found under the key. -/
def Replayed (key operation : String) (dec : Decoder α) (es : List Exchange)
    (q : Program (Except ServiceError α)) : Prop :=
  ∀ a, q = .done (.ok a) → ∃ r : IdempotencyRecord, r.replay operation dec = .ok a ∧
    ⟨.store (.record key), some (.ok (some r))⟩ ∈ es

theorem Replayed.cons {key operation : String} {dec : Decoder α} {es : List Exchange}
    {q : Program (Except ServiceError α)} (h : Replayed key operation dec es q) (e : Exchange) :
    Replayed key operation dec (e :: es) q := by
  intro a hq
  obtain ⟨r, hr, hm⟩ := h a hq
  exact ⟨r, hr, List.mem_cons_of_mem e hm⟩

theorem replayed_of_ne {key operation : String} {dec : Decoder α} {es : List Exchange}
    {q : Program (Except ServiceError α)} (h : ∀ a, q ≠ .done (.ok a)) :
    Replayed key operation dec es q := fun a hq => absurd hq (h a)

/-- Nothing was done, and an answer that the program gives is an earlier one. -/
structure Quiet (key operation : String) (dec : Decoder α) (es : List Exchange)
    (q : Program (Except ServiceError α)) : Prop where
  held : Log.holds es = []
  released : Log.releases es = []
  written : Log.commits es = []
  answers : Replayed key operation dec es q

theorem tolerant_quiet (key operation : String) (dec : Decoder α) :
    Program.Tolerant (Quiet key operation dec) where
  unended hq := ⟨rfl, rfl, rfl, replayed_of_ne fun _ => hq _⟩
  plain {_ es _} he h := ⟨(Log.holds_cons_of_none he.hold es).trans h.held,
    (Log.releases_cons_of_none he.release es).trans h.released,
    (Log.commits_cons_of_none he.commit es).trans h.written, h.answers.cons _⟩

theorem quiet_fail {key operation : String} {dec : Decoder α} (e : ServiceError) :
    (Program.fail e).Always (Quiet key operation dec) :=
  Program.always_done ⟨rfl, rfl, rfl, replayed_of_ne nofun⟩

namespace Payments

theorem replayed_eq_ok {operation : String} {dec : Decoder α} {a : α}
    {found : Except StoreError (Option IdempotencyRecord)}
    (h : replayed operation dec found = .ok (some a)) :
    ∃ r, found = .ok (some r) ∧ r.replay operation dec = .ok a := by
  rcases found with _ | (_ | r)
  · cases h
  · cases h
  · refine ⟨r, rfl, ?_⟩
    simp only [replayed] at h
    cases hr : r.replay operation dec with
    | error e => rw [hr] at h; cases h
    | ok b => rw [hr] at h; cases h; rfl

theorem replayed_some_ne_none {operation : String} {dec : Decoder α} (r : IdempotencyRecord) :
    replayed operation dec (.ok (some r)) ≠ .ok none := by
  intro h
  simp only [replayed] at h
  cases hr : r.replay operation dec <;> rw [hr] at h <;> cases h

variable {key operation : String} {dec : Decoder α} {k : Program (Except ServiceError α)}
  {P : List Exchange → Program (Except ServiceError α) → Prop}

/-- **The look at the earlier answer.**  Either the program ends with it, giving again the answer of
the record that it found, or it goes on. -/
theorem always_unlessAnswered (hP : Program.Tolerant P)
    (quiet : ∀ es q, Quiet key operation dec es q → P es q) (hk : k.Always P) :
    (unlessAnswered key operation dec k).Always P := by
  have hr : (Request.store (.record key)).IsPlain := rfl
  have ends : ∀ a q, Replayed key operation dec [⟨.store (.record key), a⟩] q →
      P [⟨.store (.record key), a⟩] q := by
    intro a q h
    have he := hr.exchange a
    exact quiet _ _ ⟨Log.holds_cons_of_none he.hold [], Log.releases_cons_of_none he.release [],
      Log.commits_cons_of_none he.commit [], h⟩
  refine Program.always_ask (hP.waits _ _) (hP.crashes (hr.exchange none)) fun found => ?_
  cases h : replayed operation dec found with
  | error e => exact Program.always_done (ends (some found) _ (replayed_of_ne nofun))
  | ok o =>
    cases o with
    | none => exact hk.mono fun _ _ => hP.plain (hr.exchange (some found))
    | some a =>
      obtain ⟨r, rfl, hr⟩ := replayed_eq_ok h
      refine Program.always_done (ends _ _ ?_)
      rintro _ ⟨⟩
      exact ⟨r, hr, List.mem_singleton_self _⟩

/-- The look at the earlier answer comes first; if it finds a record, it is all that is done. -/
theorem unlessAnswered_begins : (unlessAnswered key operation dec k).Always fun es _ =>
    es = [] ∨ ∃ a es', es = ⟨.store (.record key), a⟩ :: es' ∧
      ∀ r, a = some (.ok (some r)) → es' = [] := by
  refine Program.always_ask (.inl rfl) (.inr ⟨none, [], rfl, fun _ _ => rfl⟩) fun found => ?_
  cases h : replayed operation dec found with
  | error e => exact Program.always_done (.inr ⟨some found, [], rfl, fun _ _ => rfl⟩)
  | ok o =>
    cases o with
    | none =>
      intro es _ _
      refine .inr ⟨some found, es, rfl, ?_⟩
      rintro r ⟨⟩
      exact absurd h (replayed_some_ne_none r)
    | some a => exact Program.always_done (.inr ⟨some found, [], rfl, fun _ _ => rfl⟩)

theorem always_whenValid {source destination : AccountId} {currency : Currency} {amount : Decimal}
    (hP : Program.Tolerant P) (quiet : ∀ es q, Quiet key operation dec es q → P es q)
    (hk : k.Always P) : (whenValid source destination currency amount k).Always P := by
  refine hP.ask trivial fun v => ?_
  rcases v with e | v
  · exact (quiet_fail _).mono quiet
  · simp only [Program.served]
    split_ifs
    · exact hk
    · exact (quiet_fail _).mono quiet

end Payments

end DoubleEntry
