import DoubleEntry.Proofs.OutboxRows

/-!
# The outbox as a queue

With one worker the rows of the outbox lie in three parts, in the order of their insertion: those
that were published, those that the worker has claimed, and those that are free (`Laid`).  If
the times of creation grow along the rows, a claim takes the first free ones (`Laid.batch_eq`,
`Laid.claim`), and the end of an iteration moves the bounds between the parts (`Laid.settle`).

## Main definitions

* `OutboxEvent.IsFree`: the event was not published, and nobody works on it.
* `Laid`: the three parts of an outbox.
-/

namespace DoubleEntry

/-- The event was not published, and nobody works on it. -/
structure OutboxEvent.IsFree (e : OutboxEvent) : Prop where
  published : e.published = false
  processing : e.processing = false

namespace OutboxEvent

theorem createdAt_eq_of_bare {e e' : OutboxEvent} (h : e'.bare = e.bare) :
    e'.createdAt = e.createdAt := by
  have := congrArg createdAt h
  exact this

theorem isFree_bare {e : OutboxEvent} (h : e.bare = e) : e.IsFree := by
  rw [← h]
  exact ⟨rfl, rfl⟩

theorem IsFree.isClaimable {e : OutboxEvent} (h : e.IsFree) (now : Instant) (ttl : Int) :
    e.isClaimable now ttl = some true := by
  simp [OutboxEvent.isClaimable, h.published, h.processing]

theorem isClaimable_of_published {e : OutboxEvent} (h : e.published = true) (now : Instant)
    (ttl : Int) : e.isClaimable now ttl = some false := by
  simp [isClaimable, h]

theorem isFree_unclaimed {e : OutboxEvent} (h : e.published = false) :
    (Memory.unclaimed e).IsFree :=
  ⟨h, rfl⟩

end OutboxEvent

/-! ### Changing a part of the rows -/

namespace Memory

/-- Where identifiers are distinct, an update of the identifiers of a part changes that part. -/
theorem update_part {a b c : List OutboxEvent} (f : OutboxEvent → OutboxEvent)
    (h : ((a ++ b ++ c).map (·.id)).Nodup) :
    ((a ++ b ++ c).map fun e => if (b.map OutboxEvent.id).contains e.id then f e else e) =
      a ++ b.map f ++ c := by
  have inside : ∀ e ∈ b, (b.map OutboxEvent.id).contains e.id = true := fun e he =>
    List.contains_iff_mem.2 (List.mem_map_of_mem he)
  have outside : ∀ l : List OutboxEvent, (∀ e ∈ l, ∀ e' ∈ b, e.id ≠ e'.id) →
      (l.map fun e => if (b.map OutboxEvent.id).contains e.id then f e else e) = l := by
    intro l hl
    refine (List.map_congr_left fun e he => if_neg fun hmem => ?_).trans (List.map_id l)
    obtain ⟨e', he', hid⟩ := List.mem_map.1 (List.contains_iff_mem.1 hmem)
    exact hl e he e' he' hid.symm
  simp only [List.map_append, List.nodup_append, List.mem_append, List.mem_map] at h
  obtain ⟨⟨-, -, hab⟩, -, habc⟩ := h
  have ha := outside a fun e he e' he' => hab _ ⟨e, he, rfl⟩ _ ⟨e', he', rfl⟩
  have hc := outside c fun e he e' he' =>
    (habc _ (.inr ⟨e', he', rfl⟩) _ ⟨e, he, rfl⟩).symm
  have hb : (b.map fun e => if (b.map OutboxEvent.id).contains e.id then f e else e) = b.map f :=
    List.map_congr_left fun e he => if_pos (inside e he)
  simp only [List.map_append, ha, hb, hc]

end Memory

/-! ### The three parts of an outbox -/

/-- The parts of an outbox with one worker, in the order of insertion: events that were published,
events that the worker has claimed, and free ones. -/
structure Laid (owner : String) (done held waiting outbox : List OutboxEvent) : Prop where
  rows : outbox = done ++ held ++ waiting
  published : ∀ e ∈ done, e.published = true
  held : ∀ e ∈ held, e.published = false ∧ e.processingOwner = some owner
  free : ∀ e ∈ waiting, e.IsFree

namespace Laid

variable {owner : String} {done held waiting outbox : List OutboxEvent}

theorem append (h : Laid owner done held waiting outbox) {new : List OutboxEvent}
    (hnew : ∀ e ∈ new, e.bare = e) : Laid owner done held (waiting ++ new) (outbox ++ new) where
  rows := by rw [h.rows, List.append_assoc _ waiting new]
  published := h.published
  held := h.held
  free e he := by
    obtain he | he := List.mem_append.1 he
    · exact h.free e he
    · exact OutboxEvent.isFree_bare (hnew e he)

theorem claimables_eq (h : Laid owner done [] waiting outbox) (now : Instant) (ttl : Int) :
    Memory.claimables now ttl outbox = .ok waiting := by
  have free : ∀ l : List OutboxEvent, (∀ e ∈ l, e.IsFree) →
      Memory.claimables now ttl l = .ok l := by
    intro l hl
    induction l with
    | nil => rfl
    | cons e l ih =>
      obtain ⟨he, hl⟩ := List.forall_mem_cons.1 hl
      simp only [Memory.claimables, he.isClaimable now ttl, ih hl]
      rfl
  have skip : ∀ l : List OutboxEvent, (∀ e ∈ l, e.published = true) →
      Memory.claimables now ttl (l ++ waiting) = .ok waiting := by
    intro l hl
    induction l with
    | nil => exact free waiting h.free
    | cons e l ih =>
      obtain ⟨he, hl⟩ := List.forall_mem_cons.1 hl
      simp only [List.cons_append, Memory.claimables, OutboxEvent.isClaimable_of_published he now,
        ih hl]
      rfl
  rw [h.rows, List.append_nil]
  exact skip done h.published

theorem filter_unpublished (h : Laid owner done held waiting outbox) :
    (outbox.filter fun e => !e.published) = held ++ waiting := by
  have hdone : (done.filter fun e => !e.published) = [] :=
    List.filter_eq_nil_iff.2 fun e he => by simp [h.published e he]
  have hheld : (held.filter fun e => !e.published) = held :=
    List.filter_eq_self.2 fun e he => by simp [(h.held e he).1]
  have hwaiting : (waiting.filter fun e => !e.published) = waiting :=
    List.filter_eq_self.2 fun e he => by simp [(h.free e he).published]
  rw [h.rows, List.filter_append, List.filter_append, hdone, hheld, hwaiting, List.nil_append]

theorem published_iff (h : Laid owner done [] waiting outbox) {k : Nat} {e : OutboxEvent}
    (he : outbox[k]? = some e) : e.published = true ↔ k < done.length := by
  rw [h.rows, List.append_nil] at he
  obtain hk | hk := Nat.lt_or_ge k done.length
  · rw [List.getElem?_append_left hk] at he
    exact ⟨fun _ => hk, fun _ => h.published e (List.mem_of_getElem? he)⟩
  · rw [List.getElem?_append_right hk] at he
    have hfree := (h.free e (List.mem_of_getElem? he)).published
    exact ⟨fun hp => by simp [hfree] at hp, fun hlt => by omega⟩

variable {m : Memory}

/-- **A batch** is taken from the front of the free events, if the times of creation grow. -/
theorem batch_eq (h : Laid owner done [] waiting m.outbox)
    (sorted : m.outbox.Pairwise fun a b => a.createdAt ≤ b.createdAt) (limit : Nat) (now : Instant)
    (ttl : Int) : m.batch limit now ttl = .ok (waiting.take limit) := by
  have hwaiting : waiting.Pairwise fun a b => decide (a.createdAt ≤ b.createdAt) = true := by
    have hsub : waiting.Sublist m.outbox := by
      rw [h.rows]
      exact List.sublist_append_right _ _
    exact (sorted.sublist hsub).imp fun h => decide_eq_true h
  simp only [Memory.batch, h.claimables_eq now ttl]
  exact congrArg (fun l => Except.ok (List.take limit l)) (List.mergeSort_of_pairwise hwaiting)

/-- **A claim** moves the events of the batch from the free ones to the claimed ones. -/
theorem claim (h : Laid owner done [] waiting m.outbox) (hm : m.Sound) (limit : Nat)
    (now : Instant) :
    Laid owner done ((waiting.take limit).map (Memory.claimed owner now)) (waiting.drop limit)
      (m.update ((waiting.take limit).map OutboxEvent.id) (Memory.claimed owner now)).outbox where
  rows := by
    have hrows : m.outbox = done ++ waiting.take limit ++ waiting.drop limit := by
      rw [h.rows, List.append_nil, List.append_assoc, List.take_append_drop]
    have hids := hm.eventIds
    simp only [Memory.update, hrows] at hids ⊢
    exact Memory.update_part _ hids
  published := h.published
  held e he := by
    obtain ⟨e₀, he₀, rfl⟩ := List.mem_map.1 he
    exact ⟨(h.free e₀ (List.mem_of_mem_take he₀)).published, rfl⟩
  free e he := h.free e (List.mem_of_mem_drop he)

/-- **The end of an iteration** that has published the first `count` of its events: these are now
published, and the others are free again. -/
theorem settle (h : Laid owner done held waiting m.outbox) (hm : m.Sound) (count : Nat)
    (now : Instant) :
    Laid owner (done ++ (held.take count).map (Memory.publishedAt now)) []
      ((held.drop count).map Memory.unclaimed ++ waiting)
      (Memory.settled ((held.take count).map OutboxEvent.id) now
        ((held.drop count).map OutboxEvent.id) owner m).outbox where
  rows := by
    have hrows : m.outbox = done ++ held.take count ++ (held.drop count ++ waiting) := by
      rw [h.rows, List.append_assoc, List.append_assoc, ← List.append_assoc (held.take count),
        List.take_append_drop]
    have hids := hm.eventIds
    rw [hrows] at hids
    have hfirst := Memory.update_part (Memory.publishedAt now) hids
    have hids' : ((done ++ (held.take count).map (Memory.publishedAt now) ++ held.drop count ++
        waiting).map (·.id)).Nodup := by
      simpa [Memory.publishedAt, Memory.unclaimed, Function.comp_def] using hids
    have hsecond := Memory.update_part
      (fun e => if Memory.isHeldBy owner e then Memory.unclaimed e else e) hids'
    have hheld : ((held.drop count).map fun e =>
        if Memory.isHeldBy owner e then Memory.unclaimed e else e) =
          (held.drop count).map Memory.unclaimed := by
      refine List.map_congr_left fun e he => if_pos ?_
      obtain ⟨hp, ho⟩ := h.held e (List.mem_of_mem_drop he)
      simp [Memory.isHeldBy, hp, ho]
    rw [hheld] at hsecond
    simp only [Memory.settled, Memory.update, hrows, hfirst]
    rw [← List.append_assoc, hsecond]
    simp only [List.append_assoc, List.append_nil]
  published e he := by
    obtain he | he := List.mem_append.1 he
    · exact h.published e he
    · obtain ⟨e, -, rfl⟩ := List.mem_map.1 he
      rfl
  held := List.forall_mem_nil _
  free e he := by
    obtain he | he := List.mem_append.1 he
    · obtain ⟨e₀, he₀, rfl⟩ := List.mem_map.1 he
      exact OutboxEvent.isFree_unclaimed (h.held e₀ (List.mem_of_mem_drop he₀)).1
    · exact h.free e he

end Laid

end DoubleEntry
