import DoubleEntry.Proofs.SingleWorker

/-!
# What a single worker delivers

The messages of a single worker are the beginning of the events, the events marked between two
iterations are those whose messages were published, and an iteration whose messages are not refused
publishes the next batch (`Relay.delivery_in_order`).

## Main definitions

* `Relay.Extends`: an iteration has published the next batch.
* `Relay.DeliversInOrder`: what may be relied on.
-/

namespace DoubleEntry

namespace Pool

variable {ι α : Type} [DecidableEq ι] {x : Pool ι α}

theorem filterMap_log_sublist {β : Type} (g : Exchange → Option β) (es : List (Event ι)) (i : ι) :
    ((es.filterMap fun e => if e.call = i then some e.exchange else none).filterMap g).Sublist
      (es.filterMap fun e => g e.exchange) := by
  induction es with
  | nil => exact List.Sublist.slnil
  | cons e es ih =>
    by_cases hi : e.call = i
    · cases hg : g e.exchange with
      | none => simpa [hi, hg] using ih
      | some b => simpa [hi, hg] using ih
    · cases hg : g e.exchange with
      | none => simpa [hi, hg] using ih
      | some b => simpa [hi, hg] using ih.cons b

end Pool

namespace Program

variable {α β : Type}

theorem ended_map (f : α → β) (q : Program α) : (q.map f).ended = q.ended := by
  cases q <;> rfl

end Program

namespace Relay

open Log

variable {c : RelayConfig}

/-! ### Iterations in which nothing is refused -/

/-- If no message was refused and the iteration has ended, it has published what it was left. -/
def Sends (left : Nat) (es : List Exchange) (q : Program RunOutcome) : Prop :=
  claimed es = [] ∧ (q.ended = true → (∀ e ∈ es, e.refused = false) → (messages es).length = left)

theorem sends_settle (events : List OutboxEvent) (count : Nat) (now : Instant) :
    (settle c events count now).Always (Sends 0) := by
  refine Program.always_ask ⟨rfl, nofun⟩ ⟨rfl, nofun⟩ fun a => ?_
  rcases a with e | u
  · exact Program.always_done ⟨rfl, fun _ _ => rfl⟩
  · exact Program.always_done ⟨rfl, fun _ _ => rfl⟩

theorem sends_finish (events : List OutboxEvent) (count : Nat) :
    (finish c events count).Always (Sends 0) := by
  unfold finish
  split_ifs
  · exact sends_settle events count _
  · refine Program.always_ask ⟨rfl, nofun⟩ ⟨rfl, nofun⟩ fun now => ?_
    refine (sends_settle events count now).mono fun es q h => ⟨h.1, fun hq hes => ?_⟩
    exact h.2 hq fun e he => hes e (List.mem_cons_of_mem _ he)

theorem sends_publishAll (events : List OutboxEvent) (count : Nat) (queue : List OutboxEvent) :
    (publishAll c events count queue).Always (Sends queue.length) := by
  induction queue generalizing count with
  | nil => exact sends_finish events count
  | cons e queue ih =>
    refine Program.always_ask ⟨rfl, nofun⟩ ⟨rfl, nofun⟩ fun a => ?_
    rcases a with err | u
    · refine (sends_finish events count).mono fun es q h => ⟨h.1, fun _ hes => ?_⟩
      have hrefused := hes _ List.mem_cons_self
      cases hrefused
    · refine (ih (count + 1)).mono fun es q h => ⟨h.1, fun hq hes => ?_⟩
      have hlength := h.2 hq fun e he => hes e (List.mem_cons_of_mem _ he)
      rw [messages_publish, List.length_cons, hlength, List.length_cons]

/-- **An iteration without refusals** publishes all that it has claimed. -/
theorem always_length_messages (c : RelayConfig) : (runOnce c).Always fun es q =>
    q.ended = true → (∀ e ∈ es, e.refused = false) →
      (messages es).length = (claimed es).length := by
  refine Program.always_ask nofun nofun fun now => ?_
  refine Program.always_ask nofun nofun fun a => ?_
  rcases a with e | (_ | ⟨e, events⟩)
  · exact Program.always_done fun _ _ => rfl
  · exact Program.always_done fun _ _ => rfl
  · refine (sends_publishAll (e :: events) 0 (e :: events)).mono fun es q h hq hes => ?_
    have hclaimed : claimed (⟨.now, some now⟩ ::
        ⟨.store (.claim c.batchSize c.workerId now (ttl c)), some (.ok (e :: events))⟩ :: es) =
          (e :: events) ++ claimed es := rfl
    have hmessages : Log.messages (⟨.now, some now⟩ ::
        ⟨.store (.claim c.batchSize c.workerId now (ttl c)), some (.ok (e :: events))⟩ :: es) =
          Log.messages es := rfl
    rw [hclaimed, hmessages, h.1, List.append_nil]
    exact h.2 hq fun e he => hes e (List.mem_cons_of_mem _ (List.mem_cons_of_mem _ he))

/-! ### What was published since a moment -/

variable {ι : Type} [DecidableEq ι]

theorem log_append {x₁ x : Workers ι} {t : List (Event ι)} (h : x.history = x₁.history ++ t)
    (i : ι) : Log.messages (x.log i) = Log.messages (x₁.log i) ++
      Log.messages (t.filterMap fun e => if e.call = i then some e.exchange else none) := by
  simp only [Pool.log, h, List.filterMap_append, Log.messages]

theorem length_delivered_le {x₁ x : Workers ι} (h : x₁.history <+: x.history) {i : ι}
    (hi : Log.messages (x₁.log i) = []) :
    (delivered x₁).length + (Log.messages (x.log i)).length ≤ (delivered x).length := by
  obtain ⟨t, ht⟩ := h
  have hsub := (Pool.filterMap_log_sublist Exchange.message? t i).length_le
  rw [log_append ht.symm, hi, List.nil_append, delivered, delivered, ← ht, List.filterMap_append,
    List.length_append]
  exact Nat.add_le_add_left hsub _

theorem delivered_eq {x₁ x : Workers ι} (h : x₁.history <+: x.history) {i : ι}
    (hi : Log.messages (x₁.log i) = [])
    (others : ∀ j, j ≠ i → Log.messages (x.log j) = Log.messages (x₁.log j)) :
    delivered x = delivered x₁ ++ Log.messages (x.log i) := by
  obtain ⟨t, ht⟩ := h
  rw [log_append ht.symm, hi, List.nil_append, delivered, delivered, ← ht, List.filterMap_append,
    Log.messages, List.filterMap_filterMap]
  refine congrArg _ (List.filterMap_congr fun e he => ?_)
  by_cases hj : e.call = i
  · simp [hj]
  · have hsame := others e.call hj
    rw [log_append ht.symm, List.append_right_eq_self, Log.messages, List.filterMap_eq_nil_iff]
      at hsame
    have hnone := hsame e.exchange (List.mem_filterMap.2 ⟨e, he, if_pos rfl⟩)
    simp [hj, hnone]

/-! ### What may be relied on -/

/-- Since its claim an iteration has published the next batch of the events that waited then. -/
structure Extends (c : RelayConfig) (x₁ x : Workers ι) (i : ι) : Prop where
  /-- It has published events that were not published at its claim, in their order. -/
  messages : Log.messages (x.log i) =
    ((x₁.memory.outbox.filter fun e => !e.published).take c.batchSize).map OutboxEvent.message
  /-- These are as many as there were, but at most a batch. -/
  count : (Log.messages (x.log i)).length =
    min c.batchSize (x₁.memory.outbox.filter fun e => !e.published).length
  /-- They come next after what was published before. -/
  next : delivered x₁ ++ Log.messages (x.log i) <+: delivered x
  /-- Unless another iteration has published since, they are all that was published since. -/
  alone : (∀ j, j ≠ i → Log.messages (x.log j) = Log.messages (x₁.log j)) →
    delivered x = delivered x₁ ++ Log.messages (x.log i)

/-- After a run of a single worker its messages are in the order of insertion, without a gap and
without a repetition, the marked events are those that went out, and iterations get on. -/
structure DeliversInOrder (c : RelayConfig) (tasks : ι → Task) (ms : List (Move ι)) : Prop where
  /-- What was published is the beginning of the events in the order of their insertion. -/
  beginning : delivered ((start false tasks).after ms) <+:
    ((start false tasks).after ms).memory.outbox.map OutboxEvent.message
  /-- If no iteration is under way, the events of this beginning are the ones that are marked. -/
  marked : (∀ i, Rests tasks ((start false tasks).after ms) i) → ∀ (k : Nat) (e : OutboxEvent),
    ((start false tasks).after ms).memory.outbox[k]? = some e →
      (e.published = true ↔ k < (delivered ((start false tasks).after ms)).length)
  /-- An iteration that has ended without a refusal has published the next batch. -/
  whole : ∀ (ms₁ ms₂ : List (Move ι)) (i : ι) (w : Surroundings) (limit : Nat) (owner : String)
    (now : Instant) (ttl : Int) k, ms = ms₁ ++ .turn i w :: ms₂ →
    ((start false tasks).after ms₁).rest i = .ask (.store (.claim limit owner now ttl)) k →
    (((start false tasks).after ms).rest i).ended = true →
    (∀ e ∈ ((start false tasks).after ms).log i, e.refused = false) →
      Extends c ((start false tasks).after ms₁) ((start false tasks).after ms) i

variable {tasks : ι → Task}

theorem laid_of_claim {x : Workers ι} (h : InOrder c tasks x) {i : ι} {limit : Nat}
    {owner : String} {now : Instant} {ttl : Int}
    {k : Except StoreError (List OutboxEvent) → Program (Option RunOutcome)}
    (asks : x.rest i = .ask (.store (.claim limit owner now ttl)) k) (hlog : x.log i ≠ [])
    (worker : (tasks i).worker?.isSome) (rests : ∀ j, j ≠ i → Rests tasks x j) :
    limit = c.batchSize ∧ owner = c.workerId ∧ ∃ done waiting,
      Laid c.workerId done [] waiting x.memory.outbox ∧ (delivered x).length = done.length := by
  cases h.state with
  | between hall _ _ =>
    obtain hempty | hended := hall i worker
    · exact absurd (List.isEmpty_iff.1 hempty) hlog
    · rw [asks] at hended
      cases hended
  | @under j iterates begun hothers busy =>
    obtain rfl : j = i := by
      by_contra hj
      obtain hempty | hended := rests j hj (by rw [iterates]; rfl)
      · exact begun (List.isEmpty_iff.1 hempty)
      · rw [busy.ended_eq] at hended
        cases hended
    rw [asks] at busy
    generalize hq : Program.ask (.store (.claim limit owner now ttl)) k = q at busy
    cases busy with
    | claiming laid hcount =>
      cases hq
      exact ⟨rfl, rfl, _, _, laid, hcount⟩
    | @publishing _ held _ p _ hlt _ =>
      rw [List.drop_eq_getElem_cons hlt] at hq
      cases hq
    | @ending _ held _ p _ _ _ =>
      unfold finish at hq
      split_ifs at hq <;> cases hq
    | settling _ _ _ => cases hq

/-- Where nothing is held, what was published are the events that are done with. -/
theorem InOrder.delivered_of_laid {x : Workers ι} (h : InOrder c tasks x)
    {done waiting : List OutboxEvent} (laid : Laid c.workerId done [] waiting x.memory.outbox)
    (hcount : (delivered x).length = done.length) :
    delivered x = done.map OutboxEvent.message := by
  rw [List.prefix_iff_eq_take.1 h.beginning, hcount, laid.rows, List.append_nil, List.map_append,
    List.take_left' (List.length_map _)]

variable {ms : List (Move ι)}

theorem iterates_of_claim (single : ∀ i d, tasks i = .iterate d → d = c) {i : ι} {limit : Nat}
    {owner : String} {now : Instant} {ttl : Int}
    {k : Except StoreError (List OutboxEvent) → Program (Option RunOutcome)}
    (asks : ((start false tasks).after ms).rest i = .ask (.store (.claim limit owner now ttl)) k) :
    tasks i = .iterate c ∧ ((start false tasks).after ms).log i ≠ [] := by
  have hhistory := Pool.history_turn asks (.granting now (.ofNat 0))
  rw [after_move] at hhistory
  obtain ⟨d, hi, -⟩ := claim_of_mem false tasks _ (Pool.mem_log_of_append hhistory)
  obtain rfl := single i d hi
  refine ⟨hi, fun hnil => ?_⟩
  rw [rest_of_log_eq_nil hnil, hi] at asks
  cases asks

theorem claimed_of_claim {ms' : List (Move ι)} {past : List Exchange} {i : ι} {limit : Nat}
    {owner : String} {now : Instant} {ttl : Int} {events : List OutboxEvent}
    (h : past ++ [⟨.store (.claim limit owner now ttl), some (.ok events)⟩] <+:
      ((start false tasks).after ms').log i) :
    claimed (((start false tasks).after ms').log i) = events ∧ claimed past = [] := by
  obtain ⟨later, hlater⟩ := h
  have hlen := length_claims_le false tasks ms' i
  have hclaim : (Exchange.mk (.store (.claim limit owner now ttl)) (some (.ok events))).claim? =
      some (now, events) := rfl
  simp only [← hlater, List.filterMap_append, List.filterMap_cons_some hclaim, List.length_append,
    List.length_cons] at hlen
  have hpast : past.filterMap Exchange.claim? = [] := List.eq_nil_of_length_eq_zero (by omega)
  have hrest : later.filterMap Exchange.claim? = [] := List.eq_nil_of_length_eq_zero (by omega)
  refine ⟨?_, by rw [claimed, hpast]; rfl⟩
  rw [claimed, ← hlater, List.filterMap_append, List.filterMap_append, hpast, hrest]
  simp [hclaim]

/-- An iteration that has ended without a refusal has published all that it has claimed. -/
theorem messages_eq_of_ended {i : ι} (hi : tasks i = .iterate c)
    (ended : (((start false tasks).after ms).rest i).ended = true)
    (unrefused : ∀ e ∈ ((start false tasks).after ms).log i, e.refused = false) :
    Log.messages (((start false tasks).after ms).log i) =
      (claimed (((start false tasks).after ms).log i)).map OutboxEvent.message := by
  have ht : (tasks i).program.Trace (((start false tasks).after ms).log i)
      (((start false tasks).after ms).rest i) :=
    Pool.trace_log (.ofMemory .empty false) (fun i => (tasks i).program) ms i
  rw [hi] at ht
  obtain ⟨q, ht, hq⟩ := Program.exists_trace_of_trace_map ht
  rw [hq, Program.ended_map] at ended
  have hlength := always_length_messages c ht ended unrefused
  rw [messages_eq false tasks ms i, sent, hlength, List.take_length]

/-- **An iteration has published the next batch** when it has ended without a refusal. -/
theorem extends_of_claim (single : ∀ i d, tasks i = .iterate d → d = c) {ms₁ ms₂ : List (Move ι)}
    {i : ι} {w : Surroundings}
    (orderly : Orderly tasks (start false tasks) (ms₁ ++ .turn i w :: ms₂))
    (sorted : ((start false tasks).after (ms₁ ++ .turn i w :: ms₂)).memory.outbox.Pairwise
      fun a b => a.createdAt ≤ b.createdAt)
    {limit : Nat} {owner : String} {now : Instant} {ttl : Int}
    {k : Except StoreError (List OutboxEvent) → Program (Option RunOutcome)}
    (asks : ((start false tasks).after ms₁).rest i =
      .ask (.store (.claim limit owner now ttl)) k)
    (ended : (((start false tasks).after (ms₁ ++ .turn i w :: ms₂)).rest i).ended = true)
    (unrefused : ∀ e ∈ ((start false tasks).after (ms₁ ++ .turn i w :: ms₂)).log i,
      e.refused = false) :
    Extends c ((start false tasks).after ms₁)
      ((start false tasks).after (ms₁ ++ .turn i w :: ms₂)) i := by
  -- the moment of the claim
  obtain ⟨orderly₁, ⟨-, halone⟩, -⟩ := orderly_append.1 orderly
  have sorted₁ := sorted_of_append sorted
  have h₁ := inOrder single ms₁ orderly₁ sorted₁
  obtain ⟨hi, hlog⟩ := iterates_of_claim single asks
  have worker : (tasks i).worker?.isSome := by rw [hi]; rfl
  obtain ⟨rfl, rfl, done, waiting, laid, hcount⟩ :=
    laid_of_claim h₁ asks hlog worker (halone worker)
  have hanswer := answer_claim sorted₁ w laid c.batchSize now ttl
  rw [← h₁.store] at hanswer
  -- what it claims is all that the iteration claims, and it publishes all of it
  have hpre := Pool.log_turn_isPrefix asks w ms₂
  rw [hanswer, ← Pool.after_append] at hpre
  obtain ⟨hclaimed, hpast⟩ := claimed_of_claim hpre
  have hmessages := messages_eq_of_ended hi ended unrefused
  rw [hclaimed, List.map_map] at hmessages
  have hfilter : (((start false tasks).after ms₁).memory.outbox.filter fun e => !e.published) =
      waiting := laid.filter_unpublished
  have hbefore : Log.messages (((start false tasks).after ms₁).log i) = [] := by
    rw [messages_eq false tasks ms₁ i, sent, hpast, List.take_nil, List.map_nil]
  have hgrow : ((start false tasks).after ms₁).history <+:
      ((start false tasks).after (ms₁ ++ .turn i w :: ms₂)).history := by
    rw [Pool.after_append]
    exact Pool.history_isPrefix_after _ _
  refine ⟨?_, ?_, ?_, delivered_eq hgrow hbefore⟩
  · rw [hmessages, hfilter]
    rfl
  · rw [hmessages, hfilter, List.length_map, List.length_take]
  -- both are beginnings of the events, and what was published since is at least as long
  · have hbatch : delivered ((start false tasks).after ms₁) ++
        Log.messages (((start false tasks).after (ms₁ ++ .turn i w :: ms₂)).log i) <+:
          ((start false tasks).after ms₁).memory.outbox.map OutboxEvent.message := by
      rw [h₁.delivered_of_laid laid hcount, hmessages, laid.rows, List.append_nil, List.map_append]
      exact (List.prefix_append_right_inj _).2 ((List.take_prefix _ _).map _)
    refine List.prefix_of_prefix_length_le (hbatch.trans (messages_isPrefix_after ms₁ _))
      (inOrder single _ orderly sorted).beginning ?_
    rw [List.length_append]
    exact length_delivered_le hgrow hbefore

/-- **A single worker delivers in the order of insertion.**  At every moment of a run the messages
published so far are those of the first events of the outbox, each once.  While no iteration is under
way the marked events are exactly these, and an iteration that ends without a refusal adds the
messages of the next batch, or of all the events that wait if they are fewer. -/
theorem delivery_in_order (single : ∀ i d, tasks i = .iterate d → d = c) (ms : List (Move ι))
    (orderly : Orderly tasks (start false tasks) ms)
    (sorted : ((start false tasks).after ms).memory.outbox.Pairwise
      fun a b => a.createdAt ≤ b.createdAt) : DeliversInOrder c tasks ms where
  beginning := (inOrder single ms orderly sorted).beginning
  marked rests k e he := by
    obtain ⟨done, waiting, laid, hcount⟩ := (inOrder single ms orderly sorted).state.laid rests
    rw [hcount]
    exact laid.published_iff he
  whole ms₁ ms₂ i w limit owner now ttl k hms asks ended unrefused := by
    subst hms
    exact extends_of_claim single orderly sorted asks ended unrefused

/-! ### A run with a refusal -/

/-- An event, told by its number. -/
def letter (n : Nat) : OutboxEvent :=
  .pending (.ofNat n) "ledger" (.ofNat n) OutboxEvent.ledgerPosted (.obj []) .epoch

/-- Two events are inserted one after the other, and a worker iterates three times. -/
def letterTasks : Fin 5 → Task
  | 0 => .insert [.event (letter 1)] (by rintro e he; cases List.mem_singleton.1 he; rfl)
  | 1 => .insert [.event (letter 2)] (by rintro e he; cases List.mem_singleton.1 he; rfl)
  | _ => .iterate {}

/-- A turn of a task, everything being granted. -/
def grant (i : Fin 5) : Move (Fin 5) := .turn i (.granting .epoch (.ofNat 0))

/-- A turn of a task, messages being refused. -/
def refuse (i : Fin 5) : Move (Fin 5) :=
  .turn i { Surroundings.granting .epoch (.ofNat 0) with
    publisher := some (.error (.transport "down")) }

/-- The first event is refused once and then published; the second one is inserted while the second
iteration works, and is left to the third. -/
def letterMoves : List (Move (Fin 5)) :=
  [grant 0, grant 2, grant 2, refuse 2, grant 2, grant 3, grant 3, grant 1] ++
    List.replicate 3 (grant 3) ++ List.replicate 5 (grant 4)

theorem single_letterTasks : ∀ i d, letterTasks i = .iterate d → d = {} := by
  intro i d h
  match i with
  | 0 => cases h
  | 1 => cases h
  | 2 => cases h; rfl
  | 3 => cases h; rfl
  | 4 => cases h; rfl

/-- Both events are published in the order of their insertion. -/
theorem letters_in_order : (∀ i d, letterTasks i = .iterate d → d = {}) ∧
    Orderly letterTasks (start false letterTasks) letterMoves ∧
    (((start false letterTasks).after letterMoves).memory.outbox.Pairwise
      fun a b => a.createdAt ≤ b.createdAt) ∧
    (((start false letterTasks).after letterMoves).memory.outbox.map (·.published)) =
      [true, true] ∧ DeliversInOrder {} letterTasks letterMoves := by
  have orderly : Orderly letterTasks (start false letterTasks) letterMoves := by decide +kernel
  have sorted : ((start false letterTasks).after letterMoves).memory.outbox.Pairwise
      fun a b => a.createdAt ≤ b.createdAt := by decide +kernel
  exact ⟨single_letterTasks, orderly, sorted, by decide +kernel,
    delivery_in_order single_letterTasks letterMoves orderly sorted⟩

end Relay

end DoubleEntry
