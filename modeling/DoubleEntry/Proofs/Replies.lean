import DoubleEntry.Proofs.LookUps

/-!
# What readers are told

A job that reads asks the store once, so that what it ends with is settled by what the store keeps
at this moment (`Store.Keeps.replies_find`, `Store.Keeps.replies_journals`).

## Main definitions

* `Store.Replies`: what a job ends with that is carried out without a pause.
* `PaymentView.ofLookup`: what is shown of a payment that was looked up.
-/

namespace DoubleEntry

namespace Store

/-- The job ends with the reply when it is carried out without a pause, whatever is outside. -/
def Replies (s : Store) (j : Job) (r : Job.Reply) : Prop :=
  ∀ w : Surroundings, (j.program.run w.answer s).1 = some r

theorem Replies.unique {s : Store} {j : Job} {r r' : Job.Reply} (h : s.Replies j r)
    (h' : s.Replies j r') : r = r' :=
  Option.some.inj ((h (.granting .epoch (.ofNat 0))).symm.trans (h' _))

end Store

/-- What is shown of a payment that was looked up. -/
def PaymentView.ofLookup :
    Except StoreError (Payment × List PaymentStep) → Except ServiceError PaymentView
  | .ok (p, steps) => .ok (.ofParts p steps)
  | .error e => .error e.toService

theorem Listings.journals_eq {account : String} {q : ActivityQuery} {l : Listing}
    (hl : Listing.ofQuery account q = .ok l) :
    journals account q = .ask (.store (.activity l)) (.stored fun entries =>
      .answer ⟨entries.map JournalView.ofEntry, l.page, l.size⟩) := by
  rw [journals, hl]

namespace Store.Keeps

variable {k : Layout} {m : Memory} {s : Store}

theorem run_ask {α : Type} (h : s.Keeps k m) (hr : s.readsData = true) {q : StoreRequest}
    (hq : q.writes = false) {found : Except StoreError q.Value}
    (hfound : (q.work.run (k.database m)).1 = Halt.refusing found)
    (f : Except StoreError q.Value → Program α) (w : Surroundings) :
    (Program.ask (.store q) f).run w.answer s = (f found).run w.answer s := by
  refine Program.run_ask ?_
  simp only [Surroundings.answer, h.serve_lookup hr hq, hfound]
  cases found <;> rfl

/-- **A payment** is shown as it is looked up. -/
theorem replies_find (h : s.Keeps k m) (hr : s.readsData = true) {id : PaymentId}
    {found : Except StoreError (Payment × List PaymentStep)}
    (hfound : ((StoreRequest.payment id).work.run (k.database m)).1 =
      Halt.refusing (some <$> found)) :
    s.Replies (.find id) (.shown (PaymentView.ofLookup found)) := by
  intro w
  rw [Job.program, Program.run_map, Payments.find, h.run_ask hr (q := .payment id) rfl hfound]
  cases found <;> rfl

/-- **The journals of a page** are listed as they are read. -/
theorem replies_journals (h : s.Keeps k m) (hr : s.readsData = true)
    (hids : (m.journals.map (·.id)).Nodup) {account : String} {q : ActivityQuery} {l : Listing}
    (hl : Listing.ofQuery account q = .ok l) {entries : List JournalEntry}
    (hread : (k.page l m).mapM k.entry = .ok entries) :
    s.Replies (.journals account q)
      (.listed (.ok ⟨entries.map JournalView.ofEntry, l.page, l.size⟩)) := by
  intro w
  have hfound := k.run_activity l hids
  rw [hread] at hfound
  rw [Job.program, Program.run_map, Listings.journals_eq hl,
    h.run_ask hr (q := .activity l) rfl hfound]
  rfl

end Store.Keeps

end DoubleEntry
