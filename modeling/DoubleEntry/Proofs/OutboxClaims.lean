import DoubleEntry.Proofs.Delivery
import DoubleEntry.Proofs.EncodedOutbox

/-!
# Claims on the outbox

Whatever calls are made to a store in memory, a call does one of four things to a row of the outbox
that is there (`Memory.Turn.Step`), and only an insertion adds one.  From this follows what is the
case after every sequence of calls (`Memory.claims_exclude`): a row that was published has no claim,
a claim gives the oldest rows that are free, and of two claims on one row, the first of which was
not given up, the second one found the first stale.

## Main definitions

* `Memory.afterCalls`: the store after some calls. `Memory.turns`: the calls of a run, each with the
  store that it finds.
* `OutboxEvent.IsRegular`: what holds of every row of an outbox.
* `Memory.Turn.Step`: what a call does to a row.
* `Memory.Grant`: what a claim gives to a worker.

## Main results

* `Memory.pairwise_older_mergeSort`: rows that are sorted by their times remain in the order of
  their insertion where these are equal.
* `Memory.grant_of_call`: a claim gives the oldest free rows.
* `Memory.Standing.turn`: a claim stands until it is stale.
-/

namespace DoubleEntry

/-- A row is published at some time, and then has no claim; if it is being worked on, it is known
who does so since when. -/
structure OutboxEvent.IsRegular (e : OutboxEvent) : Prop where
  published : e.published = true → e.publishedAt.isSome ∧ e.processing = false ∧
    e.processingOwner = none ∧ e.processingAt = none
  processing : e.processing = true ↔ e.processingOwner.isSome ∧ e.processingAt.isSome

theorem OutboxEvent.isRegular_of_bare {e : OutboxEvent} (h : e.bare = e) : e.IsRegular := by
  rw [← h]
  exact ⟨nofun, by simp [bare, pending]⟩

namespace Memory

/-! ### Calls -/

/-- The store after some calls, whether these succeeded or not. -/
def afterCalls (m : Memory) (cs : List Call) : Memory := cs.foldl (fun m c => (m.call c).2) m

/-- A call, with the store that it finds. -/
structure Turn where
  memory : Memory
  call : Call

/-- The calls of a run, each with the store that it finds. -/
def turns (m : Memory) : List Call → List Turn
  | [] => []
  | c :: cs => ⟨m, c⟩ :: turns (m.call c).2 cs

/-- The call claims an event for a worker. -/
def Turn.Claims (s : Turn) (owner : String) (now : Instant) (ttl : Int) (id : EventId) : Prop :=
  ∃ limit given, s.call = .claim limit owner now ttl ∧
    (s.memory.call (.claim limit owner now ttl)).1 = .ok given ∧ id ∈ given.map OutboxEvent.id

variable {m : Memory} {s : Turn} {limit : Nat} {owner : String} {now : Instant} {ttl : Int}
  {id : EventId} {e : OutboxEvent}

theorem call_claim (m : Memory) (limit : Nat) (owner : String) (now : Instant) (ttl : Int) :
    m.call (.claim limit owner now ttl) =
      match m.batch limit now ttl with
      | .ok es => (.ok (es.map (claimed owner now)), m.update (es.map (·.id)) (claimed owner now))
      | .error h => (.error h, m) := by
  rw [call, claim]
  rcases m.batch limit now ttl with _ | es <;> rfl

theorem batch_of_call {given : List OutboxEvent}
    (h : (m.call (.claim limit owner now ttl)).1 = .ok given) :
    ∃ es, m.batch limit now ttl = .ok es ∧ given = es.map (claimed owner now) ∧
      (m.call (.claim limit owner now ttl)).2 =
        m.update (es.map (·.id)) (claimed owner now) := by
  rw [call_claim] at h ⊢
  cases hb : m.batch limit now ttl with
  | error err => rw [hb] at h; cases h
  | ok es =>
    rw [hb] at h
    exact ⟨es, rfl, (Except.ok.inj h).symm, rfl⟩

theorem ids_claimed (owner : String) (now : Instant) (es : List OutboxEvent) :
    (es.map (claimed owner now)).map (·.id) = es.map (·.id) := by
  simp [claimed]

theorem Turn.Claims.eq_of_claims {owner' : String} {now' : Instant} {ttl' : Int} {id' : EventId}
    (h : s.Claims owner now ttl id) (h' : s.Claims owner' now' ttl' id') :
    owner' = owner ∧ now' = now ∧ ttl' = ttl := by
  obtain ⟨_, _, hcall, -⟩ := h
  obtain ⟨_, _, hcall', -⟩ := h'
  rw [hcall] at hcall'
  cases hcall'
  exact ⟨rfl, rfl, rfl⟩

theorem Turn.Claims.exists_free (h : s.Claims owner now ttl id) :
    ∃ e ∈ s.memory.outbox, e.id = id ∧ e.isClaimable now ttl = some true := by
  obtain ⟨limit, given, -, hgiven, hid⟩ := h
  obtain ⟨es, hbatch, rfl, -⟩ := batch_of_call hgiven
  rw [ids_claimed] at hid
  obtain ⟨e, he, rfl⟩ := List.mem_map.1 hid
  obtain ⟨hmem, hfree⟩ := (batch_eq_ok hbatch).1 e he
  exact ⟨e, hmem, rfl, hfree⟩

/-! ### What a call does to a row -/

/-- What a call does to a row of the outbox that is there. -/
inductive Turn.Step (s : Turn) (e : OutboxEvent) : OutboxEvent → Prop
  | kept (unclaimed : ∀ owner now ttl, ¬ s.Claims owner now ttl e.id) : Step s e e
  | claimed {owner : String} {now : Instant} {ttl : Int} (claims : s.Claims owner now ttl e.id)
    (free : e.isClaimable now ttl = some true) : Step s e (claimed owner now e)
  | published {ids : List EventId} {now : Instant} (call : s.call = .markPublished ids now) :
    Step s e (publishedAt now e)
  | released {ids : List EventId} {owner : String} (call : s.call = .releaseClaims ids owner)
    (mem : e.id ∈ ids) (held : isHeldBy owner e = true) : Step s e (unclaimed e)

theorem Turn.Step.id_eq {e' : OutboxEvent} (h : s.Step e e') : e'.id = e.id := by
  cases h <;> rfl

theorem Turn.not_claims (h : ∀ limit owner now ttl, s.call ≠ .claim limit owner now ttl) :
    ∀ owner now ttl, ¬ s.Claims owner now ttl id :=
  fun owner now ttl ⟨limit, _, hcall, _⟩ => h limit owner now ttl hcall

theorem step_update {ids : List EventId} {f : OutboxEvent → OutboxEvent}
    (hin : ∀ e ∈ s.memory.outbox, e.id ∈ ids → s.Step e (f e))
    (hout : ∀ e ∈ s.memory.outbox, e.id ∉ ids → s.Step e e) :
    ∃ g new, (s.memory.update ids f).outbox = s.memory.outbox.map g ++ new ∧
      (∀ e ∈ new, s.call = .insert (.event e)) ∧ ∀ e ∈ s.memory.outbox, s.Step e (g e) := by
  refine ⟨_, [], (List.append_nil _).symm, List.forall_mem_nil _, fun e he => ?_⟩
  split_ifs with hid
  · exact hin e he (List.contains_iff_mem.1 hid)
  · exact hout e he fun h => hid (List.contains_iff_mem.2 h)

/-- A call that leaves the outbox as it is keeps all rows. -/
theorem step_same {c : Call} (h : (m.call c).2.outbox = m.outbox)
    (hno : ∀ id owner now ttl, ¬ (⟨m, c⟩ : Turn).Claims owner now ttl id) :
    ∃ g new, (m.call c).2.outbox = m.outbox.map g ++ new ∧
      (∀ e ∈ new, c = .insert (.event e)) ∧ ∀ e ∈ m.outbox, (⟨m, c⟩ : Turn).Step e (g e) :=
  ⟨id, [], by simp [h], List.forall_mem_nil _, fun e _ => .kept (hno e.id)⟩

theorem step_insert (m : Memory) (row : Row) :
    ∃ g new, (m.call (.insert row)).2.outbox = m.outbox.map g ++ new ∧
      (∀ e ∈ new, Call.insert row = .insert (.event e)) ∧
        ∀ e ∈ m.outbox, (⟨m, .insert row⟩ : Turn).Step e (g e) := by
  have hno : ∀ id owner now ttl, ¬ (⟨m, .insert row⟩ : Turn).Claims owner now ttl id :=
    fun _ => Turn.not_claims (by rintro _ _ _ _ ⟨⟩)
  cases h : m.insert row with
  | error err => exact step_same (by simp only [call, h]; rfl) hno
  | ok m' =>
    have hadd : m'.outbox = m.outbox ++ [row].filterMap Row.event? := by
      rw [(insert_eq_ok h).1, ← addAll_nil (m.add row), ← addAll_cons, addAll_eq]
    refine ⟨id, [row].filterMap Row.event?, ?_, fun e he => ?_, fun e _ => .kept (hno e.id)⟩
    · rw [List.map_id, ← hadd, call, h]
      rfl
    cases row <;> simp [Row.event?] at he
    rw [he]

theorem step_claim (hm : m.Sound) (limit : Nat) (owner : String) (now : Instant) (ttl : Int) :
    ∃ g new, (m.call (.claim limit owner now ttl)).2.outbox = m.outbox.map g ++ new ∧
      (∀ e ∈ new, Call.claim limit owner now ttl = .insert (.event e)) ∧
        ∀ e ∈ m.outbox, (⟨m, .claim limit owner now ttl⟩ : Turn).Step e (g e) := by
  cases hbatch : m.batch limit now ttl with
  | error err =>
    refine step_same (by rw [call_claim, hbatch]) ?_
    rintro id _ _ _ ⟨_, given, hcall, hgiven, -⟩
    cases hcall
    simp [call_claim, hbatch] at hgiven
  | ok es =>
    have hcall : m.call (.claim limit owner now ttl) =
        (.ok (es.map (claimed owner now)), m.update (es.map (·.id)) (claimed owner now)) := by
      rw [call_claim, hbatch]
    have hgiven := congrArg Prod.fst hcall
    rw [hcall]
    refine step_update (s := ⟨m, .claim limit owner now ttl⟩) (fun e he hid => ?_)
      fun e _ hid => ?_
    · obtain ⟨f, hf, hfe⟩ := List.mem_map.1 hid
      obtain ⟨hmem, hfree⟩ := (batch_eq_ok hbatch).1 f hf
      obtain rfl := hm.event_eq hmem he hfe
      exact .claimed ⟨limit, _, rfl, hgiven, (ids_claimed owner now es).symm ▸ hid⟩ hfree
    · refine .kept ?_
      rintro _ _ _ ⟨_, given, hcall, hgiven', hmem⟩
      cases hcall
      rw [hgiven] at hgiven'
      cases hgiven'
      exact hid (ids_claimed owner now es ▸ hmem)

/-- **What a call does to the outbox**: one step for each row, and a new one if it inserts it. -/
theorem step_call (hm : s.memory.Sound) :
    ∃ g new, (s.memory.call s.call).2.outbox = s.memory.outbox.map g ++ new ∧
      (∀ e ∈ new, s.call = .insert (.event e)) ∧ ∀ e ∈ s.memory.outbox, s.Step e (g e) := by
  obtain ⟨m, c⟩ := s
  cases c with
  | insert row => exact step_insert m row
  | claim limit owner now ttl => exact step_claim hm limit owner now ttl
  | markPublished ids now =>
    exact step_update (fun e _ _ => .published rfl) fun e _ _ =>
      .kept (Turn.not_claims (by rintro _ _ _ _ ⟨⟩))
  | releaseClaims ids owner' =>
    have hno : ∀ e : OutboxEvent, ∀ owner now ttl,
        ¬ (⟨m, .releaseClaims ids owner'⟩ : Turn).Claims owner now ttl e.id :=
      fun _ => Turn.not_claims (by rintro _ _ _ _ ⟨⟩)
    refine step_update (fun e _ hid => ?_) fun e _ _ => .kept (hno e)
    split_ifs with hheld
    · exact .released rfl hid hheld
    · exact .kept (hno e)
  | _ => exact step_same rfl fun _ => Turn.not_claims (by rintro _ _ _ _ ⟨⟩)

/-! ### What holds after every call -/

theorem Sound.call (hm : m.Sound) (c : Call) : (m.call c).2.Sound := by
  cases c with
  | insert row =>
    simp only [Memory.call]
    cases h : m.insert row with
    | error err => exact hm
    | ok m' => exact (insert_eq_ok h).2 hm
  | claim limit owner now ttl =>
    rw [call_claim]
    cases m.batch limit now ttl with
    | error err => exact hm
    | ok es => exact hm.of_bare (bare_update (keepsEvents_claimed owner now) _ m)
  | markPublished ids now => exact hm.of_bare (bare_update (keepsEvents_publishedAt now) ids m)
  | releaseClaims ids owner => exact hm.of_bare (bare_update (keepsEvents_release owner) ids m)
  | _ => exact hm

theorem Sound.afterCalls (hm : m.Sound) (cs : List Call) : (m.afterCalls cs).Sound := by
  induction cs generalizing m with
  | nil => exact hm
  | cons c cs ih => exact ih (hm.call c)

theorem Turn.Step.isRegular {e' : OutboxEvent} (h : s.Step e e') (he : e.IsRegular) :
    e'.IsRegular := by
  cases h with
  | kept _ => exact he
  | claimed _ free =>
    have hunpublished := (OutboxEvent.isClaimable_eq_some_true free).1
    exact ⟨fun hp => absurd (hunpublished.symm.trans hp) Bool.false_ne_true,
      by simp [Memory.claimed]⟩
  | published _ => exact ⟨fun _ => ⟨rfl, rfl, rfl, rfl⟩, by simp [publishedAt, unclaimed]⟩
  | released _ _ _ =>
    exact ⟨fun hp => ⟨(he.published hp).1, rfl, rfl, rfl⟩, by simp [unclaimed]⟩

/-- **Rows stay regular**, whatever calls are made. -/
theorem isRegular_afterCalls {cs : List Call} (hm : m.Sound)
    (hregular : ∀ e ∈ m.outbox, e.IsRegular) (hcs : ∀ e, .insert (.event e) ∈ cs → e.bare = e) :
    ∀ e ∈ (m.afterCalls cs).outbox, e.IsRegular := by
  induction cs generalizing m with
  | nil => exact hregular
  | cons c cs ih =>
    refine ih (hm.call c) ?_ fun e he => hcs e (List.mem_cons_of_mem c he)
    obtain ⟨g, new, hout, hnew, hstep⟩ := step_call (s := ⟨m, c⟩) hm
    rw [hout]
    refine List.forall_mem_append.2 ⟨List.forall_mem_map.2 fun e he => ?_, fun e he => ?_⟩
    · exact (hstep e he).isRegular (hregular e he)
    · exact OutboxEvent.isRegular_of_bare (hcs e (hnew e he ▸ List.mem_cons_self))

/-! ### What a claim gives -/

/-- One row was created before another one, or at the same time and stands before it. -/
def Older (rows : List OutboxEvent) (e f : OutboxEvent) : Prop :=
  e.createdAt < f.createdAt ∨ e.createdAt = f.createdAt ∧ [e, f].Sublist rows

theorem Older.sublist {rows rows' : List OutboxEvent} {f : OutboxEvent}
    (hsub : rows.Sublist rows') (h : Older rows e f) : Older rows' e f :=
  h.imp_right fun ⟨heq, hpair⟩ => ⟨heq, hpair.trans hsub⟩

/-- **Rows sorted by their times** remain in the order of their insertion where these are equal. -/
theorem pairwise_older_mergeSort (rows : List OutboxEvent) :
    (rows.mergeSort fun a b => decide (a.createdAt ≤ b.createdAt)).Pairwise (Older rows) := by
  have trans (a b c : OutboxEvent) (hab : decide (a.createdAt ≤ b.createdAt) = true)
      (hbc : decide (b.createdAt ≤ c.createdAt) = true) :
      decide (a.createdAt ≤ c.createdAt) = true :=
    decide_eq_true (le_trans (of_decide_eq_true hab) (of_decide_eq_true hbc))
  have total (a b : OutboxEvent) :
      (decide (a.createdAt ≤ b.createdAt) || decide (b.createdAt ≤ a.createdAt)) = true := by
    simpa using le_total a.createdAt b.createdAt
  induction rows with
  | nil => simp
  | cons a rows ih =>
    -- the first row is put behind those that are older only
    obtain ⟨before, behind, hcons, hrows, holder⟩ := List.mergeSort_cons trans total a rows
    have hsorted := List.pairwise_mergeSort trans total (a :: rows)
    have hrest : (before ++ behind).Pairwise (Older (a :: rows)) :=
      List.Pairwise.imp (Older.sublist (List.sublist_cons_self a rows)) (hrows ▸ ih)
    rw [hcons] at hsorted ⊢
    rw [List.pairwise_append, List.pairwise_cons] at hsorted
    rw [List.pairwise_append] at hrest
    obtain ⟨hbefore, hbehind, hacross⟩ := hrest
    refine List.pairwise_append.2 ⟨hbefore, List.pairwise_cons.2 ⟨fun c hc => ?_, hbehind⟩, ?_⟩
    · have hmem : c ∈ rows :=
        List.mem_mergeSort.1 (hrows ▸ List.mem_append_right before hc)
      obtain hlt | heq := lt_or_eq_of_le (of_decide_eq_true (hsorted.2.1.1 c hc))
      · exact .inl hlt
      · exact .inr ⟨heq, (List.singleton_sublist.2 hmem).cons_cons a⟩
    · intro b hb c hc
      obtain rfl | hc := List.mem_cons.1 hc
      · exact .inl (lt_of_not_ge (by simpa using holder b hb))
      · exact hacross b hb c hc

/-- What a claim gives to a worker, and what it leaves. -/
structure Grant (m : Memory) (limit : Nat) (owner : String) (now : Instant) (ttl : Int)
    (given : List OutboxEvent) (m' : Memory) : Prop where
  length_le : given.length ≤ limit
  nodup : (given.map (·.id)).Nodup
  /-- What is given are rows of the outbox that are not published, and the worker owns them. -/
  owned : ∀ e ∈ given, e ∈ m'.outbox ∧ e.published = false ∧ e.IsHeld owner now
  /-- They are the first of the free rows, the older ones before the younger ones. -/
  oldest : ∃ chosen rest, given = chosen.map (claimed owner now) ∧
    (chosen ++ rest).Perm (m.outbox.filter fun e => e.isClaimable now ttl = some true) ∧
    (chosen ++ rest).Pairwise (Older m.outbox) ∧ (given.length < limit → rest = [])
  /-- Nothing else changes. -/
  others : m' = { m with outbox := m.outbox.map fun e =>
    if (given.map (·.id)).contains e.id then claimed owner now e else e }

theorem isSome_isClaimable (h : (now.shift (-ttl)).isSome) (e : OutboxEvent) :
    e.isClaimable now ttl = some (decide (e.isClaimable now ttl = some true)) := by
  have hsome : (e.isClaimable now ttl).isSome := by
    obtain ⟨stale, hstale⟩ := Option.isSome_iff_exists.1 h
    rw [OutboxEvent.isClaimable, hstale]
    split_ifs
    · rfl
    · split <;> rfl
  obtain ⟨b, hb⟩ := Option.isSome_iff_exists.1 hsome
  cases b <;> simp [hb]

/-- **A claim gives the oldest free rows**, if the time before which claims are stale is in the
calendar. -/
theorem grant_of_call (hm : m.Sound) (limit : Nat) (owner : String)
    (h : (now.shift (-ttl)).isSome) : ∃ given m',
      m.call (.claim limit owner now ttl) = (.ok given, m') ∧
        m.Grant limit owner now ttl given m' := by
  obtain ⟨free, hfree⟩ : ∃ free, free =
    m.outbox.filter fun e => e.isClaimable now ttl = some true := ⟨_, rfl⟩
  obtain ⟨sorted, hsorted⟩ : ∃ sorted, sorted =
    free.mergeSort fun a b => decide (a.createdAt ≤ b.createdAt) := ⟨_, rfl⟩
  have hbatch : m.batch limit now ttl = .ok (sorted.take limit) := by
    rw [batch, Tables.claimables_eq fun e _ => isSome_isClaimable h e, hsorted, hfree]
    rfl
  have hcall := call_claim m limit owner now ttl
  rw [hbatch] at hcall
  obtain ⟨hmem, hnodup⟩ := batch_eq_ok hbatch
  refine ⟨_, _, hcall, ?_, ?_, ?_, ?_, ?_⟩
  · rw [List.length_map]
    exact List.length_take_le limit sorted
  · rw [ids_claimed]
    exact hnodup hm
  · refine List.forall_mem_map.2 fun e he => ⟨?_, ?_, ⟨rfl, rfl, rfl⟩⟩
    · refine List.mem_map.2 ⟨e, (hmem e he).1, if_pos ?_⟩
      exact List.contains_iff_mem.2 (List.mem_map_of_mem he)
    · exact (OutboxEvent.isClaimable_eq_some_true (hmem e he).2).1
  · refine ⟨sorted.take limit, sorted.drop limit, rfl, ?_, ?_, fun hshort => ?_⟩
    · rw [List.take_append_drop, hsorted, hfree]
      exact List.mergeSort_perm _ _
    · rw [List.take_append_drop, hsorted, hfree]
      exact (pairwise_older_mergeSort _).imp (Older.sublist List.filter_sublist)
    · rw [List.length_map, List.length_take] at hshort
      exact List.drop_eq_nil_of_le (by omega)
  · rw [ids_claimed]
    rfl

/-! ### Claims that stand -/

/-- The claim of a worker on an event stands, unless the event was published. -/
def Standing (m : Memory) (id : EventId) (owner : String) (now : Instant) : Prop :=
  ∃ e ∈ m.outbox, e.id = id ∧ (e.published = true ∨ e.IsHeld owner now)

theorem Turn.Claims.standing (hm : s.memory.Sound) (h : s.Claims owner now ttl id) :
    (s.memory.call s.call).2.Standing id owner now := by
  obtain ⟨e, he, rfl, -⟩ := h.exists_free
  obtain ⟨g, new, hout, -, hstep⟩ := step_call hm
  refine ⟨g e, ?_, (hstep e he).id_eq, .inr ?_⟩
  · rw [hout]
    exact List.mem_append_left new (List.mem_map_of_mem he)
  obtain ⟨_, _, hclaim, -⟩ := id h
  have hstep := hstep e he
  generalize g e = e' at hstep
  cases hstep with
  | kept unclaimed => exact absurd h (unclaimed owner now ttl)
  | claimed claims _ =>
    obtain ⟨rfl, rfl, -⟩ := h.eq_of_claims claims
    exact ⟨rfl, rfl, rfl⟩
  | published call => cases hclaim.symm.trans call
  | released call _ _ => cases hclaim.symm.trans call

/-- **A claim goes on standing** as long as nobody claims the event anew and the worker does not
give it up. -/
theorem Standing.call (hm : s.memory.Sound) (h : s.memory.Standing id owner now)
    (unclaimed : ∀ owner' now' ttl', ¬ s.Claims owner' now' ttl' id)
    (kept : ∀ ids, s.call = .releaseClaims ids owner → id ∉ ids) :
    (s.memory.call s.call).2.Standing id owner now := by
  obtain ⟨e, he, rfl, hstands⟩ := h
  obtain ⟨g, new, hout, -, hstep⟩ := step_call hm
  refine ⟨g e, ?_, (hstep e he).id_eq, ?_⟩
  · rw [hout]
    exact List.mem_append_left new (List.mem_map_of_mem he)
  have hstep := hstep e he
  generalize g e = e' at hstep
  cases hstep with
  | kept _ => exact hstands
  | claimed claims _ => exact absurd claims (unclaimed _ _ _)
  | published _ => exact .inl rfl
  -- a claim is given up by the worker itself only
  | released call mem held =>
    obtain hp | hheld := hstands
    · simp [isHeldBy, hp] at held
    · have howner := owner_of_isHeldBy held
      rw [hheld.owner] at howner
      cases howner
      exact absurd mem (kept _ call)

theorem Standing.turn {cs : List Call} {between future : List Turn} (hm : m.Sound)
    (h : m.Standing id owner now) (hturns : m.turns cs = between ++ s :: future)
    (unclaimed : ∀ r ∈ between, ∀ owner' now' ttl', ¬ r.Claims owner' now' ttl' id)
    (kept : ∀ r ∈ between, ∀ ids, r.call = .releaseClaims ids owner → id ∉ ids) :
    s.memory.Sound ∧ s.memory.Standing id owner now := by
  induction cs generalizing m between with
  | nil => simp [turns] at hturns
  | cons c cs ih =>
    cases between with
    | nil =>
      obtain rfl := (List.cons.inj hturns).1
      exact ⟨hm, h⟩
    | cons r between =>
      obtain ⟨rfl, hrest⟩ := List.cons.inj hturns
      obtain ⟨hfirst, unclaimed⟩ := List.forall_mem_cons.1 unclaimed
      obtain ⟨hkept, kept⟩ := List.forall_mem_cons.1 kept
      exact ih (hm.call c) (h.call (s := ⟨m, c⟩) hm hfirst hkept) hrest unclaimed kept

/-- Whoever claims an event on which a claim stands found that one stale. -/
theorem Standing.stale {owner' : String} {now' : Instant} {ttl' : Int} (hm : s.memory.Sound)
    (h : s.memory.Standing id owner now) (hclaim : s.Claims owner' now' ttl' id) :
    ∃ stale, now'.shift (-ttl') = some stale ∧ now < stale := by
  obtain ⟨e, he, hid, hstands⟩ := h
  obtain ⟨f, hf, hid', hfree⟩ := hclaim.exists_free
  obtain rfl := hm.event_eq he hf (hid.trans hid'.symm)
  obtain ⟨hunpublished, hstale⟩ := OutboxEvent.isClaimable_eq_some_true hfree
  obtain hp | hheld := hstands
  · rw [hunpublished] at hp
    cases hp
  · exact hstale now hheld.processing hheld.claimedAt

theorem exists_of_turns {cs : List Call} {past future : List Turn} (hm : m.Sound)
    (h : m.turns cs = past ++ s :: future) :
    s.memory.Sound ∧ ∃ cs', future = (s.memory.call s.call).2.turns cs' := by
  induction cs generalizing m past with
  | nil => simp [turns] at h
  | cons c cs ih =>
    cases past with
    | nil =>
      obtain ⟨rfl, rfl⟩ := List.cons.inj h
      exact ⟨hm, cs, rfl⟩
    | cons r past => exact ih (hm.call c) (List.cons.inj h).2

/-! ### Claims of a run -/

/-- **The outbox after every sequence of calls**, if events are inserted without claims: every row
is regular; a claim gives the oldest free rows and changes nothing else; and where a row is claimed
by one worker and then by another one, without being given up in between, the first claim is
stale. -/
theorem claims_exclude (cs : List Call) (hcs : ∀ e, .insert (.event e) ∈ cs → e.bare = e) :
    (∀ e ∈ (empty.afterCalls cs).outbox, e.IsRegular) ∧
    (∀ limit owner now ttl, (now.shift (-ttl)).isSome → ∃ given m',
      (empty.afterCalls cs).call (.claim limit owner now ttl) = (.ok given, m') ∧
        (empty.afterCalls cs).Grant limit owner now ttl given m') ∧
    ∀ past s between s' future id owner now ttl owner' now' ttl',
      empty.turns cs = past ++ s :: (between ++ s' :: future) →
      s.Claims owner now ttl id → s'.Claims owner' now' ttl' id →
      (∀ r ∈ between, ∀ owner' now' ttl', ¬ r.Claims owner' now' ttl' id) →
      (∀ r ∈ between, ∀ ids, r.call = .releaseClaims ids owner → id ∉ ids) →
      ∃ stale, now'.shift (-ttl') = some stale ∧ now < stale := by
  refine ⟨isRegular_afterCalls sound_empty (List.forall_mem_nil _) hcs, ?_, ?_⟩
  · exact fun limit owner now ttl h => grant_of_call (sound_empty.afterCalls cs) limit owner h
  · intro past s between s' future id owner now ttl owner' now' ttl' hturns hfirst hsecond hnone
      hkept
    obtain ⟨hm, cs', hrest⟩ := exists_of_turns sound_empty hturns
    obtain ⟨hm', hstanding⟩ :=
      (hfirst.standing hm).turn (hm.call s.call) hrest.symm hnone hkept
    exact hstanding.stale hm' hsecond

/-- Two workers claim an event, the second one five minutes after the first. -/
def takeover : List Call :=
  [.insert (.event Relay.parcel), .claim 5 "slow" .epoch 120000000000,
    .claim 5 "quick" Relay.fiveMinutes 120000000000]

theorem claims_takeover : ∃ first second : Turn,
    empty.turns takeover = [⟨empty, .insert (.event Relay.parcel)⟩, first, second] ∧
      first.Claims "slow" .epoch 120000000000 Relay.parcel.id ∧
      second.Claims "quick" Relay.fiveMinutes 120000000000 Relay.parcel.id := by
  refine ⟨_, _, rfl, ⟨5, [claimed "slow" .epoch Relay.parcel], rfl, ?_, by decide⟩,
    5, [claimed "quick" Relay.fiveMinutes Relay.parcel], rfl, ?_, by decide⟩
  · with_unfolding_all rfl
  · with_unfolding_all rfl

theorem stale_takeover : (∀ e, .insert (.event e) ∈ takeover → e.bare = e) ∧
    ∃ stale, Relay.fiveMinutes.shift (-120000000000) = some stale ∧ Instant.epoch < stale := by
  have hinserted : ∀ e, .insert (.event e) ∈ takeover → e.bare = e := by
    intro e he
    simp only [takeover, List.mem_cons, Call.insert.injEq, Row.event.injEq, reduceCtorEq,
      List.not_mem_nil, or_false] at he
    rw [he]
    rfl
  obtain ⟨first, second, hturns, hfirst, hsecond⟩ := claims_takeover
  refine ⟨hinserted, (claims_exclude takeover hinserted).2.2 [⟨empty, _⟩] first [] second [] _ _ _ _
    _ _ _ hturns hfirst hsecond ?_ ?_⟩
  · exact List.forall_mem_nil _
  · exact List.forall_mem_nil _

end Memory

end DoubleEntry
