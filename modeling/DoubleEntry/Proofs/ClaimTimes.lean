import DoubleEntry.Config
import DoubleEntry.Proofs.AllOrNothing
import DoubleEntry.Proofs.GrowingStores
import DoubleEntry.Proofs.Iterations
import DoubleEntry.Proofs.KeyedEvents

/-!
# Claims that are not taken over

A worker that claims events leaves alone those on which somebody else has a claim that is younger
than its time to live, and its iteration comes to an end (`Relay.runOnce_respects_claims`).  That is
so for every time to live that leads back to a moment of the calendar, which is more than two
hundred thousand years.  Tables compare the times of claims by their texts, whose order is not that
of the times before the year 0; there the time to live must not lead back so far, or no claim may be
so old.

A longer time to live makes an iteration crash that has to reckon with it, and one that is beyond
the longest span of time counts as two minutes (`Relay.long_claims_fail`).

## Main definitions

* `Instant.IsPresent`: readings of a clock of these days.
* `Instant.IsOver`: a span of time has passed.
* `Database.ClaimedSince`: an event is claimed since a time.
* `RelayConfig.Reckons`: a time to live that can be reckoned with.
-/

namespace DoubleEntry

/-! ### Spans of time -/

namespace Instant

/-- A reading of a clock of these days. -/
structure IsPresent (i : Instant) : Prop where
  since : 2000 ≤ i.year
  upTo : i.year ≤ 2100
  /-- Clocks do not show leap seconds. -/
  ordinary : i.nanos < second

/-- A span of time that began at `since` has passed at `now`. -/
def IsOver (span : Nat) (since now : Instant) : Prop := ∃ t, since.shift span = some t ∧ t ≤ now

variable {now stale t : Instant} {n : Nat}

theorem parts_neg (n : Nat) : (-(n : Int)).tdiv second = -((n / second : Nat) : Int) ∧
    (-(n : Int)).tmod second = -((n % second : Nat) : Int) := by
  rw [Int.neg_tdiv, Int.neg_tmod]
  exact ⟨rfl, rfl⟩

theorem parts_of_shift_neg (hnow : now.nanos < second) (h : now.shift (-n) = some stale) :
    stale.nanos < second ∧
      (stale.seconds * second + stale.nanos : Int) + n = now.seconds * second + now.nanos := by
  have parts {s : Int} {k : Nat} (hstale : of? s k = some stale) :
      stale.seconds = s ∧ stale.nanos = k := by
    unfold of? at hstale
    split_ifs at hstale
    cases hstale
    exact ⟨rfl, rfl⟩
  have hn := Nat.div_add_mod n second
  have hm : n % second < second := Nat.mod_lt _ (by decide)
  obtain ⟨hdiv, hmod⟩ := parts_neg n
  simp only [shift, hdiv, hmod] at h
  unfold second at *
  split_ifs at h with h1 h2 h3 h4 h5
  all_goals
    obtain ⟨hs, hk⟩ := parts h
    try dsimp only at hs hk
    omega

theorem exists_of?_le {seconds : Int} {nanos : Nat} (hlower : -8334601228800 ≤ seconds)
    (hnanos : nanos < 2000000000) (hleap : 1000000000 ≤ nanos → seconds % 60 = 59)
    (hle : seconds < now.seconds ∨ seconds = now.seconds ∧ nanos ≤ now.nanos) :
    ∃ t, of? seconds nanos = some t ∧ t ≤ now := by
  have hupper := now.upper
  refine ⟨⟨seconds, nanos, hlower, by omega, hnanos, hleap⟩,
    dif_pos ⟨⟨hlower, by omega⟩, hnanos, hleap⟩, ?_⟩
  rw [le_iff, lt_iff]
  dsimp only
  omega

/-- **What is before the moment a span of time ago** began before that span. -/
theorem isOver_of_lt (hnow : now.nanos < second) (h : now.shift (-n) = some stale)
    (hlt : t < stale) : IsOver n t now := by
  obtain ⟨hordinary, htotal⟩ := parts_of_shift_neg hnow h
  rw [lt_iff] at hlt
  have hn := Nat.div_add_mod n second
  have hm : n % second < second := Nat.mod_lt _ (by decide)
  have hlower := t.lower
  have hleap := t.leap
  have hnanos := t.nanos_lt
  have hdiv : (n : Int).tdiv second = ((n / second : Nat) : Int) := rfl
  have hmod : (n : Int).tmod second = ((n % second : Nat) : Int) := rfl
  simp only [IsOver, shift, hdiv, hmod]
  by_cases hordinary' : t.nanos < second
  · have hnot : ¬ second ≤ t.nanos := not_le.2 hordinary'
    simp only [hnot, false_and, if_false]
    unfold second at *
    split_ifs
    · omega
    · refine exists_of?_le ?_ ?_ ?_ ?_ <;> omega
    · refine exists_of?_le ?_ ?_ ?_ ?_ <;> omega
  · have hleaps : second ≤ t.nanos := not_lt.1 hordinary'
    simp only [hleaps, true_and, if_true]
    unfold second at *
    split_ifs with hstays hmoves
    -- within the leap second
    · refine exists_of?_le ?_ ?_ ?_ ?_ <;> omega
    -- past it
    · omega
    · refine exists_of?_le ?_ ?_ ?_ ?_ <;> dsimp only <;> omega
    · refine exists_of?_le ?_ ?_ ?_ ?_ <;> dsimp only <;> omega
    -- a span of nothing does not lead past it
    all_goals omega

theorem seconds_of_year (h : 2000 ≤ t.year) : 946684800 ≤ t.seconds := by
  obtain ⟨last, hlast⟩ : ∃ i : Instant, i = ⟨946684799, 0, by decide, by decide, by decide,
    by decide⟩ := ⟨_, rfl⟩
  by_contra hlt
  have hle : t.seconds ≤ last.seconds := by
    rw [hlast]
    dsimp only
    omega
  have hyear := year_le_of_seconds_le hle
  have h1999 : last.year = 1999 := by
    rw [hlast]
    decide
  omega

/-- **Some 264 000 years lead back to a moment of the calendar.** -/
theorem IsPresent.isSome_shift (h : now.IsPresent) (hn : n ≤ 8335547913600 * second) :
    (now.shift (-n)).isSome := by
  have hfirst := seconds_of_year h.since
  have hupper := now.upper
  have hordinary := h.ordinary
  have hn' := Nat.div_add_mod n second
  have hm : n % second < second := Nat.mod_lt _ (by decide)
  obtain ⟨hdiv, hmod⟩ := parts_neg n
  have within {seconds : Int} {nanos : Nat} (h1 : -8334601228800 ≤ seconds)
      (h2 : seconds ≤ 8210266876799) (h3 : nanos < 1000000000) : (of? seconds nanos).isSome := by
    rw [of?, dif_pos ⟨⟨h1, h2⟩, by omega, by omega⟩]
    rfl
  simp only [shift, hdiv, hmod]
  have hnot : ¬ second ≤ now.nanos := not_le.2 hordinary
  simp only [hnot, false_and, if_false]
  unfold second at *
  split_ifs
  · refine within ?_ ?_ ?_ <;> omega
  · omega
  · refine within ?_ ?_ ?_ <;> omega

/-- **The order of texts**, as far as the years are written with four digits. -/
theorem lt_of_microText_lt (ht : t.InFourDigits) (hstale : stale.year ≤ 9999)
    (h : t.microText < stale.microText) : t < stale := by
  rw [← microText_truncate t, ← microText_truncate stale] at h
  have hmicro : stale.truncate.nanos % 1000 = 0 := by
    show (stale.nanos - stale.nanos % 1000) % 1000 = 0
    omega
  rw [microText_lt_iff_of_year_le (isWhole_truncate ht.1 ht.2) hmicro hstale, lt_iff] at h
  simp only [truncate] at h
  rw [lt_iff]
  omega

end Instant

/-! ### Claims on events -/

/-- The event of an identifier is claimed since a time. -/
def Database.ClaimedSince (id : EventId) (since : Instant) : Database → Prop
  | .memory m => ∃ e ∈ m.outbox, e.id = id ∧ e.processing = true ∧ e.processingAt = some since
  | .tables t => ∃ r ∈ t.outbox,
    r.id = id.toText ∧ r.processing ≠ 0 ∧ r.processingAt = some since.microText
  | .bare => False

theorem Memory.le_of_claimedSince {m : Memory} {now : Instant}
    (h : ∀ e ∈ m.outbox, ∀ t ∈ e.processingAt, t ≤ now) (id : EventId) (since : Instant)
    (hsince : Database.ClaimedSince id since (.memory m)) : since ≤ now := by
  obtain ⟨e, he, -, -, hat⟩ := hsince
  exact h e he since hat

/-- The time to live of claims can be reckoned with over the data at a time: it leads back to a
moment of the calendar, and where claims are older than the year 0 it leads to a later year, or the
data tell such times apart. -/
structure RelayConfig.Reckons (c : RelayConfig) (now : Instant) (d : Database) : Prop where
  inReach : (now.shift (-c.claimTtl)).isSome
  inOrder : ∀ stale, now.shift (-c.claimTtl) = some stale →
    0 ≤ stale.year ∨ ∀ id since, d.ClaimedSince id since → d.Admits since

/-- **Times to live of some 264 000 years** can be reckoned with, where data tell claims apart. -/
theorem RelayConfig.reckons_of_le {c : RelayConfig} {now : Instant} {d : Database}
    (hnow : now.IsPresent) (hc : c.claimTtl ≤ 8335547913600 * Instant.second)
    (hd : ∀ id since, d.ClaimedSince id since → d.Admits since) : c.Reckons now d :=
  ⟨hnow.isSome_shift hc, fun _ _ => .inr hd⟩

section Claims

variable {limit n : Nat} {owner : String} {now stale since : Instant} {ttl : Int}
  {given : List OutboxEvent} {e : OutboxEvent} {ids : List EventId}

theorem Memory.stale_of_claim {m : Memory} (hids : (m.outbox.map (·.id)).Nodup)
    (h : (m.call (.claim limit owner now ttl)).1 = .ok given) (he : e ∈ given)
    (hsince : Database.ClaimedSince e.id since (.memory m)) :
    ∃ stale, now.shift (-ttl) = some stale ∧ since < stale := by
  obtain ⟨events, hbatch, rfl, -⟩ := batch_of_call h
  obtain ⟨e', he', rfl⟩ := List.mem_map.1 he
  obtain ⟨hmem, hfree⟩ := (batch_eq_ok hbatch).1 e' he'
  obtain ⟨e'', hmem', hid, hprocessing, hat⟩ := hsince
  obtain rfl : e'' = e' := List.inj_on_of_nodup_map hids hmem' hmem hid
  exact (OutboxEvent.isClaimable_eq_some_true hfree).2 since hprocessing hat

theorem Tables.stale_of_claim {t : Tables} (hkeyed : Database.Keyed ids (.tables t))
    (h : (t.claim limit owner now ttl).1 = .ok given) (he : e ∈ given)
    (hsince : Database.ClaimedSince e.id since (.tables t)) :
    ∃ stale, now.shift (-ttl) = some stale ∧ since.microText < stale.microText := by
  obtain ⟨stale, rows, hstale, hfree, -, -, hgiven⟩ := exists_of_claim h
  obtain ⟨r, hr, hid, hread⟩ := hgiven e he
  have hrows : t.outbox.map (·.id) = ids.map Uuid.toText := hkeyed.events
  have hnodup : (t.outbox.map (·.id)).Nodup :=
    hrows ▸ hkeyed.nodup.map Uuid.toText_injective
  obtain ⟨id, -, hrid⟩ : ∃ id ∈ ids, id.toText = r.id := by
    have hmem : r.id ∈ t.outbox.map (·.id) := List.mem_map_of_mem hr
    rw [hrows] at hmem
    exact List.mem_map.1 hmem
  obtain rfl : e.id = id := id_of_read hread hrid.symm
  obtain ⟨r', hr', hid', hprocessing, hat⟩ := hsince
  obtain ⟨r'', hr'', hid'', hfree⟩ := hfree r.id hid
  obtain rfl : r'' = r := List.inj_on_of_nodup_map hnodup hr'' hr hid''
  obtain rfl : r' = r'' := List.inj_on_of_nodup_map hnodup hr' hr'' (hid'.trans hrid)
  refine ⟨stale, hstale, ?_⟩
  obtain ⟨-, hfree⟩ := Bool.and_eq_true_iff.1 hfree
  rw [hat, Option.all_some] at hfree
  obtain hidle | hlt := Bool.or_eq_true_iff.1 hfree
  · exact absurd (beq_iff_eq.1 hidle) hprocessing
  · exact of_decide_eq_true hlt

/-- **A claim leaves alone what is claimed already**, unless that claim is over. -/
theorem Database.isOver_of_claim {c : RelayConfig} {d : Database} (hkeyed : d.Keyed ids)
    (hnow : now.IsPresent) (hreckons : c.Reckons now d)
    (hpast : ∀ id since, d.ClaimedSince id since → since ≤ now)
    (h : (d.call (.claim limit owner now (c.claimTtl : Int))).1 = .ok given) (he : e ∈ given)
    (hsince : d.ClaimedSince e.id since) : since.IsOver c.claimTtl now := by
  cases d with
  | memory m =>
    have hids : m.outbox.map (·.id) = ids := hkeyed.events
    obtain ⟨stale, hstale, hlt⟩ := Memory.stale_of_claim (hids ▸ hkeyed.nodup) h he hsince
    exact Instant.isOver_of_lt hnow.ordinary hstale hlt
  | tables t =>
    obtain ⟨stale, hstale, htext⟩ := Tables.stale_of_claim hkeyed h he hsince
    refine Instant.isOver_of_lt hnow.ordinary hstale ?_
    have hyear : stale.year ≤ 9999 := by
      have := Instant.year_le_of_seconds_le (Instant.shift_neg hstale).1
      have := hnow.upTo
      omega
    have hyear' : since.year ≤ 9999 := by
      have hle := hpast _ _ hsince
      rw [Instant.le_iff, Instant.lt_iff] at hle
      have := Instant.year_le_of_seconds_le (show since.seconds ≤ now.seconds by omega)
      have := hnow.upTo
      omega
    by_cases h0 : 0 ≤ since.year
    · exact Instant.lt_of_microText_lt ⟨h0, hyear'⟩ hyear htext
    -- so old a claim is older than the stale ones, or the data admit no time before the year 0
    · obtain hstale0 | hadmits := hreckons.inOrder stale hstale
      · by_contra hlt
        rw [Instant.lt_iff] at hlt
        have := Instant.year_le_of_seconds_le (show stale.seconds ≤ since.seconds by omega)
        omega
      · exact absurd (hadmits _ _ hsince).1 h0
  | bare => cases hsince

end Claims

/-! ### Calls that do not crash -/

theorem Surroundings.isSome_ofOutcome {α : Type} {a : Outcome α} (h : a ≠ .error .crashed) :
    (ofOutcome a).isSome := by
  rcases a with (e | _) | a
  · rfl
  · exact absurd rfl h
  · rfl

theorem Surroundings.eq_ok_of_ofOutcome {α : Type} {a : Outcome α} {b : α}
    (h : ofOutcome a = some (.ok b)) : a = .ok b := by
  rcases a with (e | _) | a
  · cases h
  · cases h
  · cases h
    rfl

theorem Work.Makes.run_ne_crashed {α σ : Type} [Backend σ] {w : Work α}
    (hw : w.Makes fun c => ∀ s : σ, (Backend.call c s).1 ≠ .error .crashed) (s : σ) :
    (w.run s).1 ≠ .error .crashed := by
  induction hw generalizing s with
  | done a => rintro ⟨⟩
  | @call c k hc _ ih =>
    have hne := hc s
    rw [run]
    rcases hcall : Backend.call c s with ⟨e | a, s'⟩
    · rw [hcall] at hne
      rintro ⟨⟩
      exact hne rfl
    · exact ih a s'

namespace Store

theorem write_ne_crashed {α : Type} {w : Work α} {s : Store}
    (h : (w.run s.data).1 ≠ .error .crashed) : (s.write w).1 ≠ .error .crashed := by
  rw [write]
  rcases hw : w.run s.data with ⟨e | a, d⟩
  · rw [hw] at h
    exact h
  · rw [conclude]
    split_ifs <;> rintro ⟨⟩

variable {ids : List EventId} {now : Instant} {ttl : Int}

theorem claim_ne_crashed {s : Store} (hkeyed : s.data.Keyed ids) (h : (now.shift (-ttl)).isSome)
    (limit : Nat) (owner : String) :
    (s.serve (.claim limit owner now ttl)).1 ≠ .error .crashed := by
  obtain ⟨stale, hstale⟩ := Option.isSome_iff_exists.1 h
  refine write_ne_crashed ?_
  show ((Work.single (.claim limit owner now ttl)).run s.data).1 ≠ .error .crashed
  rw [Work.run_single]
  obtain ⟨d, hd⟩ : ∃ d, d = s.data := ⟨_, rfl⟩
  rw [← hd] at hkeyed ⊢
  cases d with
  | memory m =>
    have hids : m.outbox.map (·.id) = ids := hkeyed.events
    obtain ⟨given, m', hcall, -⟩ := m.exists_grant (hids ▸ hkeyed.nodup) limit owner h
    show (m.call (.claim limit owner now ttl)).1 ≠ .error .crashed
    rw [hcall]
    rintro ⟨⟩
  | tables t =>
    show (t.claim limit owner now ttl).1 ≠ .error .crashed
    simp only [Tables.claim, hstale]
    split <;> rintro ⟨⟩
  | bare =>
    show Database.bareCall (.claim limit owner now ttl) ≠ .error .crashed
    simp only [Database.bareCall, hstale]
    rintro ⟨⟩

theorem settle_ne_crashed (s : Store) (published : List EventId) (now : Instant)
    (rest : List EventId) (owner : String) :
    (s.serve (.settle published now rest owner)).1 ≠ .error .crashed := by
  refine write_ne_crashed (Work.Makes.run_ne_crashed (Work.Makes.settle ?_ ?_) s.data)
  · rintro (m | t | _)
    · rintro ⟨⟩
    · rintro ⟨⟩
    · show Database.bareCall (.markPublished published now) ≠ .error .crashed
      simp only [Database.bareCall]
      split_ifs <;> rintro ⟨⟩
  · rintro (m | t | _)
    · rintro ⟨⟩
    · rintro ⟨⟩
    · show Database.bareCall (.releaseClaims rest owner) ≠ .error .crashed
      simp only [Database.bareCall]
      split_ifs <;> rintro ⟨⟩

end Store

/-! ### Iterations -/

namespace Relay

variable {σ : Type}

theorem noting_store (o : Partners σ) {q : StoreRequest} {s : Store} {a : Except StoreError q.Value}
    (h : Surroundings.ofOutcome (s.serve q).1 = some a) (x : σ) (es : List Exchange) :
    Program.noting o.world (.store q) ((s, x), es) =
      (some a, (((s.serve q).2, x), es ++ [⟨.store q, some a⟩])) := by
  simp only [Program.noting, Partners.world, h]
  rfl

variable (o : Partners σ) (c : RelayConfig) (claimed : List OutboxEvent)

theorem isSome_settle (count : Nat) (now : Instant) (s : Store) (x : σ) (es : List Exchange) :
    ((settle c claimed count now).run (Program.noting o.world) ((s, x), es)).1.isSome := by
  obtain ⟨a, ha⟩ := Option.isSome_iff_exists.1 (Surroundings.isSome_ofOutcome
    (s.settle_ne_crashed ((claimed.take count).map OutboxEvent.id) now
      ((claimed.drop count).map OutboxEvent.id) c.workerId))
  rw [settle, Program.run_ask (noting_store o ha x es)]
  cases a <;> rfl

theorem isSome_finish (count : Nat) (s : Store) (x : σ) (es : List Exchange) :
    ((finish c claimed count).run (Program.noting o.world) ((s, x), es)).1.isSome := by
  unfold finish
  split_ifs
  · exact isSome_settle o c claimed count _ s x es
  · exact isSome_settle o c claimed count (o.now x).1 s (o.now x).2 _

/-- **Whatever the publisher answers**, an iteration that was given its events comes to its end. -/
theorem isSome_publishAll (queue : List OutboxEvent) (count : Nat) (s : Store) (x : σ)
    (es : List Exchange) :
    ((publishAll c claimed count queue).run (Program.noting o.world) ((s, x), es)).1.isSome := by
  induction queue generalizing count x es with
  | nil => exact isSome_finish o c claimed count s x es
  | cons e queue ih =>
    obtain ⟨a, x', hpublish⟩ : ∃ a x',
      o.publish e.eventType e.aggregateId.toText e.payload x = (a, x') := ⟨_, _, rfl⟩
    have hworld : Program.noting o.world (.publish e.eventType e.aggregateId.toText e.payload)
        ((s, x), es) = (some a, ((s, x'),
          es ++ [⟨.publish e.eventType e.aggregateId.toText e.payload, some a⟩])) := by
      simp only [Program.noting, Partners.world, hpublish]
      rfl
    rw [publishAll, Program.run_ask hworld]
    cases a with
    | error err => exact isSome_finish o c claimed count s x' _
    | ok u => exact ih (count + 1) x' _

theorem run_runOnce {s : Store} {x x' : σ} {now : Instant} (hnow : o.now x = (now, x'))
    {a : Except StoreError (List OutboxEvent)}
    (ha : Surroundings.ofOutcome (s.serve (.claim c.batchSize c.workerId now (ttl c))).1 = some a) :
    let y := ((s.serve (.claim c.batchSize c.workerId now (ttl c))).2, x')
    let es : List Exchange :=
      [⟨.now, some now⟩, ⟨.store (.claim c.batchSize c.workerId now (ttl c)), some a⟩]
    (runOnce c).run (Program.noting o.world) ((s, x), []) =
      match a with
      | .error e => (some (.failed ("claim: " ++ e.message)), (y, es))
      | .ok [] => (some .idle, (y, es))
      | .ok (e :: events) =>
        (publishAll c (e :: events) 0 (e :: events)).run (Program.noting o.world) (y, es) := by
  have hclock : Program.noting o.world .now ((s, x), []) =
      (some now, ((s, x'), [⟨.now, some now⟩])) := by
    simp only [Program.noting, Partners.world, hnow]
    rfl
  refine (Program.run_ask hclock).trans ?_
  refine (Program.run_ask (noting_store o ha x' [⟨.now, some now⟩])).trans ?_
  rcases a with e | (_ | ⟨e, events⟩) <;> rfl

/-- **Whatever the publisher answers**, an iteration whose claim is answered comes to its end, and
makes no other claim. -/
theorem claims_runOnce {s : Store} {x x' : σ} {now : Instant} (hnow : o.now x = (now, x'))
    {a : Except StoreError (List OutboxEvent)}
    (ha : Surroundings.ofOutcome (s.serve (.claim c.batchSize c.workerId now (ttl c))).1 = some a) :
    let r := (runOnce c).run (Program.noting o.world) ((s, x), [])
    r.1.isSome ∧ ∀ ex ∈ r.2.2, ∀ t given, ex.claim? = some (t, given) →
      t = now ∧ a = .ok given := by
  have hrun := run_runOnce o c hnow ha
  have hfirst : ∀ ex ∈ [⟨.now, some now⟩,
      ⟨.store (.claim c.batchSize c.workerId now (ttl c)), some a⟩], ∀ t given,
      Exchange.claim? ex = some (t, given) → t = now ∧ a = .ok given := by
    intro ex hex t given hclaim
    obtain rfl | hex := List.mem_cons.1 hex
    · cases hclaim
    obtain rfl := List.mem_singleton.1 hex
    rcases a with e | given'
    · cases hclaim
    · cases hclaim
      exact ⟨rfl, rfl⟩
  rcases a with e | (_ | ⟨e, events⟩)
  · rw [hrun]
    exact ⟨rfl, hfirst⟩
  · rw [hrun]
    exact ⟨rfl, hfirst⟩
  · let start : List Exchange := [⟨.now, some now⟩,
      ⟨.store (.claim c.batchSize c.workerId now (ttl c)), some (.ok (e :: events))⟩]
    have hgiven : (runOnce c).run (Program.noting o.world) ((s, x), []) =
        (publishAll c (e :: events) 0 (e :: events)).run (Program.noting o.world)
          (((s.serve (.claim c.batchSize c.workerId now (ttl c))).2, x'), start) := hrun
    rw [hgiven]
    refine ⟨isSome_publishAll o c _ _ _ _ _ _, fun ex hex t given hclaim => ?_⟩
    obtain ⟨more, q, htrace, hlog⟩ := Program.exists_trace_of_noting o.world
      (publishAll c (e :: events) 0 (e :: events))
      ((s.serve (.claim c.batchSize c.workerId now (ttl c))).2, x') start
    rw [hlog] at hex
    obtain hex | hex := List.mem_append.1 hex
    · exact hfirst ex hex t given hclaim
    -- nothing is claimed while events are published
    · have hnone := (always_publishAll (c := c) (e :: events) rfl htrace).claims_eq_nil
      have := List.filterMap_eq_nil_iff.1 hnone ex hex
      rw [hclaim] at this
      cases this

theorem ttl_of_isSome_shift {now : Instant} (hnow : now.nanos < Instant.second)
    (h : (now.shift (-c.claimTtl)).isSome) : ttl c = c.claimTtl := by
  obtain ⟨stale, hstale⟩ := Option.isSome_iff_exists.1 h
  obtain ⟨hordinary, htotal⟩ := Instant.parts_of_shift_neg hnow hstale
  have hlower := stale.lower
  have hupper := now.upper
  refine if_pos ?_
  unfold maxTtl
  unfold Instant.second at *
  omega

/-- **A worker leaves the claims of others alone**, and its iteration comes to an end, over any data
over which its time to live can be reckoned with, and whatever its partners answer. -/
theorem runOnce_respects_claims {ids : List EventId} (s : Store) (x : σ)
    (keyed : s.data.Keyed ids) (present : (o.now x).1.IsPresent)
    (past : ∀ id since, s.data.ClaimedSince id since → since ≤ (o.now x).1)
    (reckons : c.Reckons (o.now x).1 s.data) :
    let r := (runOnce c).run (Program.noting o.world) ((s, x), [])
    r.1.isSome ∧ ∀ ex ∈ r.2.2, ∀ now given, ex.claim? = some (now, given) →
      now = (o.now x).1 ∧ ∀ e ∈ given, ∀ since, s.data.ClaimedSince e.id since →
        since.IsOver c.claimTtl now := by
  obtain ⟨now, x', hnow⟩ : ∃ now x', o.now x = (now, x') := ⟨_, _, rfl⟩
  simp only [hnow] at present past reckons ⊢
  have httl := ttl_of_isSome_shift c present.ordinary reckons.inReach
  obtain ⟨a, ha⟩ := Option.isSome_iff_exists.1 (Surroundings.isSome_ofOutcome
    (Store.claim_ne_crashed keyed (httl ▸ reckons.inReach) c.batchSize c.workerId))
  obtain ⟨hends, hclaims⟩ := claims_runOnce o c hnow ha
  refine ⟨hends, fun ex hex t given hclaim => ?_⟩
  obtain ⟨rfl, rfl⟩ := hclaims ex hex t given hclaim
  have hserve : (s.serve (.claim c.batchSize c.workerId t (ttl c))).1 = .ok given :=
    Surroundings.eq_ok_of_ofOutcome ha
  have hcall := (Store.conclude_eq_ok
    ((congrArg Prod.fst (s.serve_claim ..)).symm.trans hserve)).1
  rw [httl] at hcall
  exact ⟨rfl, fun e he since hsince =>
    Database.isOver_of_claim keyed present reckons past hcall he hsince⟩

/-- The first moment of a year. -/
def newYear : Instant := (Instant.of? 1704067200 0).getD .epoch

/-- Some moments before the new year. -/
def earlier (seconds : Nat) : Instant :=
  (newYear.shift (-(seconds * Instant.second : Nat))).getD newYear

/-- Partners that grant everything at the new year. -/
def atNewYear : Partners Nat := { Partners.granting with now := fun n => (newYear, n) }

/-- An event that was claimed five minutes ago. -/
def fiveMinutesClaimed : Memory :=
  { Memory.empty with outbox := [Memory.claimed "slow" (earlier 300) parcel] }

/-- Another event that was claimed one minute ago. -/
def twoClaimed : Memory :=
  { Memory.empty with outbox := fiveMinutesClaimed.outbox ++
      [Memory.claimed "quick" (earlier 60) { parcel with id := .ofNat 8 }] }

/-- The claim of five minutes is over, and the one of a minute is not. -/
theorem respects_two_claims : (Database.memory twoClaimed).Keyed [.ofNat 7, .ofNat 8] ∧
    newYear.IsPresent ∧
    (∀ id since, (Database.memory twoClaimed).ClaimedSince id since → since ≤ newYear) ∧
    RelayConfig.Reckons {} newYear (.memory twoClaimed) ∧
    let r := (runOnce {}).run (Program.noting atNewYear.world) ((.ofMemory twoClaimed false, 0), [])
    ((r.2.2.filterMap Exchange.claim?).map fun x => x.2.map (·.id)) = [[.ofNat 7]] ∧
      r.1.isSome ∧ ∀ ex ∈ r.2.2, ∀ now given, ex.claim? = some (now, given) →
        now = newYear ∧ ∀ e ∈ given, ∀ since,
          (Database.memory twoClaimed).ClaimedSince e.id since → since.IsOver 120000000000 now := by
  have hkeyed : (Database.memory twoClaimed).Keyed [.ofNat 7, .ofNat 8] := ⟨rfl, by decide⟩
  have hpresent : newYear.IsPresent := ⟨by decide +kernel, by decide +kernel, by decide +kernel⟩
  have hpast : ∀ id since, (Database.memory twoClaimed).ClaimedSince id since →
      since ≤ newYear := Memory.le_of_claimedSince (by decide +kernel)
  have hreckons : RelayConfig.Reckons {} newYear (.memory twoClaimed) :=
    RelayConfig.reckons_of_le hpresent (by decide) fun _ _ _ => trivial
  exact ⟨hkeyed, hpresent, hpast, hreckons, by decide +kernel,
    runOnce_respects_claims atNewYear {} (.ofMemory twoClaimed false) 0 hkeyed hpresent hpast
      hreckons⟩

/-- How an iteration ends, over the event that was claimed five minutes ago, of a worker whose time
to live is set to so many seconds. -/
def outcomeWithin (seconds : String) : Option (Option RunOutcome) :=
  let env : Environment
    | "DB_WRITE_DSN" => some "memory"
    | "OUTBOX_CLAIM_TTL_SECS" => some seconds
    | _ => none
  (Config.ofEnvironment env).toOption.map fun c =>
    ((runOnce c.relay).run atNewYear.world (.ofMemory fiveMinutesClaimed false, 0)).1

/-- **Long times to live fail**: the iteration crashes if the moment that is so far back is not in
the calendar, and the longest time that can be set counts as two minutes. -/
theorem long_claims_fail :
    (Database.memory fiveMinutesClaimed).Keyed [.ofNat 7] ∧ newYear.IsPresent ∧
    (∀ id since, (Database.memory fiveMinutesClaimed).ClaimedSince id since → since ≤ newYear) ∧
    outcomeWithin "300" = some (some .idle) ∧
    outcomeWithin "10000000000000" = some none ∧
    outcomeWithin "18446744073709551615" = some (some (.published 1)) := by
  exact ⟨⟨rfl, by decide⟩, ⟨by decide +kernel, by decide +kernel, by decide +kernel⟩,
    Memory.le_of_claimedSince (by decide +kernel), by decide +kernel, by decide +kernel,
    by decide +kernel⟩

end Relay

end DoubleEntry
