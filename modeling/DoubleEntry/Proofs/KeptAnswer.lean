import DoubleEntry.Proofs.Identifier
import DoubleEntry.Proofs.JsonText
import DoubleEntry.Service.Postings

/-!
# Answers kept in records

The record of an answer gives that answer again to requests of its operation, and to no others.

## Main results

* `IdempotencyRecord.replay_payment`: the record of a posted payment.
* `IdempotencyRecord.replay_credit`: the record of a top-up.
-/

namespace DoubleEntry

namespace Decoder

/-- A text without a break is read as its draft is. -/
theorem runText_of_draftOf {α : Type} {dec : Decoder α} {s : String} {d : Draft} {a : α}
    (h : Json.draftOf s = (d, none)) (ha : dec .text d = .ok a) : dec.runText s = .ok a := by
  simp only [runText, h, bind, Except.bind, ha]
  rfl

theorem uuid_toText (src : Source) (u : Uuid) : Uuid.decoder src (.str u.toText) = .ok u := by
  have h : Uuid.read u.toText = .ok u := by rw [Uuid.read, Uuid.ofText?_toText]
  simp only [Uuid.decoder, andThen, textAs, bind, Except.bind, h, Except.mapError]

end Decoder

theorem Fields.decoder_pair {α β γ : Type} (name : String) (mk : α → β → γ) {k l : String}
    (hkl : k ≠ l) {dec : Decoder α} {dec' : Decoder β} {src : Source} {d d' : Draft} {a : α} {b : β}
    (ha : dec src d = .ok a) (hb : dec' src d' = .ok b) :
    Fields.decoder name (mk <$> .required k dec <*> .required l dec') src
      (.obj [(k, d), (l, d')] .closed) = .ok (mk a b) := by
  have hlk : (l == k) = false := beq_false_of_ne hkl.symm
  simp [decoder, Functor.map, Seq.seq, seq, required, one, checkFields, ha, hb, hkl, hkl.symm, hlk,
    bind, Except.bind, Except.mapError, Ending.fault?, Except.map, List.lookup_cons, Pure.pure,
    Except.pure, List.find?]

theorem PaymentPosted.decoder_answer (id : PaymentId) :
    PaymentPosted.decoder .text (.obj (Json.stringDrafts
      [("payment_id", id.toText), ("status", PaymentStatus.posted.name)]) .closed) =
      .ok (PaymentCommand.answer id) :=
  Fields.decoder_pair _ _ (by decide) (Decoder.uuid_toText .text id) rfl

theorem JournalPosted.decoder_of (id : JournalId) :
    JournalPosted.decoder .text (.obj (Json.stringDrafts
      [("journal_id", id.toText), ("status", "posted")]) .closed) = .ok (JournalPosted.of id) :=
  Fields.decoder_pair _ _ (by decide) (Decoder.uuid_toText .text id) rfl

namespace IdempotencyRecord

theorem replay_payment (key : String) (id : PaymentId) (now : Instant) :
    (of key postPayment (PaymentCommand.answer id).toJson now).replay postPayment
      PaymentPosted.decoder = .ok (PaymentCommand.answer id) := by
  have h := Decoder.runText_of_draftOf (Json.draftOf_compact _ _)
    (PaymentPosted.decoder_answer id)
  have h' : PaymentPosted.decoder.runText (PaymentCommand.answer id).toJson.compact =
      .ok (PaymentCommand.answer id) := h
  simp [replay, of, h']

theorem replay_credit (key : String) (id : JournalId) (now : Instant) :
    (of key creditAccount (JournalPosted.of id).toJson now).replay creditAccount
      JournalPosted.decoder = .ok (JournalPosted.of id) := by
  have h := Decoder.runText_of_draftOf (Json.draftOf_compact _ _) (JournalPosted.decoder_of id)
  have h' : JournalPosted.decoder.runText (JournalPosted.of id).toJson.compact =
      .ok (JournalPosted.of id) := h
  simp [replay, of, h']

theorem operation_eq_of_replay {α : Type} {r : IdempotencyRecord} {operation : String}
    {dec : Decoder α} {a : α} (h : r.replay operation dec = .ok a) : r.operation = operation := by
  by_contra hne
  rw [replay, if_pos hne] at h
  cases h

end IdempotencyRecord

end DoubleEntry
