import DoubleEntry.Proofs.ExactBooks
import DoubleEntry.Proofs.Layouts
import DoubleEntry.Proofs.Posting
import Mathlib.Logic.Relation

/-!
# Runs with any failures

Programs are carried out over a store of either layout, one request at a time and in any order.
Everything but the store answers in any way, or crashes.  A request to the store may fail although
it could have been carried out, and it may be carried out although the program is told of a failure,
or of nothing at all (`Store.Serves`).

Whatever happens, the store keeps the rows of some postings, among them all that programs were told
to be committed, and later of these and some more (`Ledger.Filled.later`).

## Main definitions

* `Store.Serves`: what can become of a request.
* `Pool.Next`, `Pool.Later`: what a pool can be next, and later.
* `Posting.content`: the data of some postings. `Posting.Kept`: a store keeps them.
* `Ledger.Filled`: the store keeps some postings, among them all that was committed.
-/

namespace DoubleEntry

/-- What can become of a request: the answer, and the store after it. -/
inductive Store.Serves (s : Store) : (r : Request) → Option r.Answer → Store → Prop
  /-- A request that does not go to the store is answered in any way. -/
  | elsewhere {r : Request} (h : ∀ q, r ≠ .store q) (a : Option r.Answer) : Serves s r a s
  /-- The store answers. -/
  | answered (q : StoreRequest) :
    Serves s (.store q) (Surroundings.ofOutcome (s.serve q).1) (s.serve q).2
  /-- The request fails or crashes before it is carried out. -/
  | failed (q : StoreRequest) (e : Option StoreError) : Serves s (.store q) (e.map .error) s
  /-- The request is carried out, but then it fails or crashes. -/
  | lost (q : StoreRequest) (e : Option StoreError) :
    Serves s (.store q) (e.map .error) (s.serve q).2

theorem Store.Serves.readsData {s s' : Store} {r : Request} {a : Option r.Answer}
    (h : s.Serves r a s') : s'.readsData = s.readsData := by
  cases h with
  | elsewhere _ _ => rfl
  | answered q => exact readsData_serve q s
  | failed q e => rfl
  | lost q e => exact readsData_serve q s

namespace Pool

variable {ι α : Type} [DecidableEq ι]

/-- The pool after a request of a program, with its answer and the store after it. -/
def asked (x : Pool ι α) (i : ι) (r : Request) (k : r.Answer → Program α) (a : Option r.Answer)
    (s : Store) : Pool ι α :=
  ⟨s, Function.update x.rest i (Program.resume k a), x.history ++ [⟨i, r, a⟩]⟩

/-- What a pool can be next. -/
inductive Next (x : Pool ι α) : Pool ι α → Prop
  /-- The next write is made to fail. -/
  | failNext : Next x { x with store := x.store.failNext }
  /-- A program makes its next request. -/
  | ask {i : ι} {r : Request} {k : r.Answer → Program α} (asks : x.rest i = .ask r k)
    {a : Option r.Answer} {s : Store} (serves : x.store.Serves r a s) : Next x (x.asked i r k a s)

/-- What a pool can be later. -/
def Later : Pool ι α → Pool ι α → Prop := Relation.ReflTransGen Next

theorem Later.readsData {x y : Pool ι α} (h : x.Later y) :
    y.store.readsData = x.store.readsData := by
  induction h with
  | refl => rfl
  | tail _ hn ih =>
    refine Eq.trans ?_ ih
    cases hn with
    | failNext => exact Store.readsData_failNext _
    | ask _ hs => exact hs.readsData

theorem later_after (x : Pool ι α) (ms : List (Move ι)) : x.Later (x.after ms) := by
  refine after_induction (P := x.Later) .refl (fun y m hy => ?_) ms
  cases m with
  | failNext => exact hy.tail .failNext
  | turn i w =>
    obtain hm | ⟨r, k, hk, hm⟩ := y.turn_cases i w
    · rwa [move, hm]
    · have hserves : y.store.Serves r (w.answer r y.store).1 (w.answer r y.store).2 := by
        cases r with
        | store q => exact .answered q
        | _ => exact .elsewhere (by rintro _ ⟨⟩) _
      rw [move, hm]
      exact hy.tail (.ask hk hserves)

theorem trace_asked {p : ι → Program α} {x : Pool ι α} {i : ι} {r : Request}
    {k : r.Answer → Program α} (hk : x.rest i = .ask r k)
    (h : ∀ j, (p j).Trace (x.log j) (x.rest j)) (a : Option r.Answer) (s : Store) (j : ι) :
    (p j).Trace ((x.asked i r k a s).log j) ((x.asked i r k a s).rest j) := by
  by_cases hij : i = j
  · subst hij
    have hi := h i
    rw [hk] at hi
    simpa [asked, log] using hi.snoc a
  · simpa [asked, log, hij, Ne.symm hij] using h j

theorem commits_asked (x : Pool ι α) (i : ι) (r : Request) (k : r.Answer → Program α)
    (a : Option r.Answer) (s : Store) :
    (x.asked i r k a s).commits = x.commits ++ (Exchange.commit? ⟨r, a⟩).toList := by
  rw [commits, asked, List.filterMap_append, commits]
  cases h : Exchange.commit? ⟨r, a⟩ <;> simp [h]

end Pool

theorem Exchange.commit?_ofOutcome {q : StoreRequest} {o : Outcome q.Value} {rows : List Row}
    (h : Exchange.commit? ⟨.store q, Surroundings.ofOutcome o⟩ = some rows) :
    q.rows = rows ∧ ∃ a, o = .ok a := by
  cases q with
  | post rows' =>
    rcases o with (e | _) | a
    · cases h
    · cases h
    · cases h
      exact ⟨rfl, a, rfl⟩
  | _ => cases h

theorem Exchange.commit?_of_failure (q : StoreRequest) (e : Option StoreError) :
    Exchange.commit? ⟨.store q, e.map .error⟩ = none := by
  cases e <;> cases q <;> rfl

namespace Posting

/-- The data of some postings. -/
def content (L : List Posting) : Memory := Memory.empty.addAll (L.flatMap rows)

theorem content_append (L L' : List Posting) :
    content (L ++ L') = (content L).addAll (L'.flatMap rows) := by
  rw [content, List.flatMap_append, Memory.addAll_append, content]

/-- The store keeps the rows of these postings, and their journals are exact. -/
structure Kept (k : Layout) (L : List Posting) (s : Store) : Prop where
  store : s.Keeps k (content L)
  sound : (content L).Sound
  exact : ∀ P ∈ L, P.entry.IsExact

theorem fill_content {L : List Posting} (h : (content L).Sound) : Fill L (content L) := by
  have table {β : Type} (g : Row → Option β) :
      (L.flatMap rows).filterMap g = L.flatMap (Posting.table g) := by
    rw [List.filterMap_flatMap]
    rfl
  have hbare : ∀ e ∈ L.flatMap (Posting.table Row.event?), e.bare = id e := by
    intro e he
    obtain ⟨P, -, he⟩ := List.mem_flatMap.1 he
    exact bare_of_mem he
  refine ⟨h, ?_, ?_, ?_, ?_, ?_⟩
  · rw [content, Memory.addAll_eq, ← table]
    exact List.nil_append _
  · rw [content, Memory.addAll_eq, ← table]
    exact List.nil_append _
  · rw [content, Memory.addAll_eq, ← table]
    exact List.nil_append _
  · rw [content, Memory.addAll_eq, ← table]
    exact List.nil_append _
  · have houtbox : (content L).outbox = L.flatMap (Posting.table Row.event?) := by
      rw [content, Memory.addAll_eq, ← table]
      exact List.nil_append _
    rw [houtbox]
    exact (List.map_congr_left hbare).trans (List.map_id _)

theorem journal_mem_rows (P : Posting) : .journal P.entry ∈ P.rows := by
  cases P <;> simp [rows, entry, PaymentCommand.rows, CreditCommand.rows, ManualCommand.rows]

/-- The rows that a job asks to insert are those of a posting, and its journal is exact. -/
theorem exists_of_ask {j : Job} {es : List Exchange} {rows : List Row}
    {k : Except StoreError Unit → Program Job.Reply}
    (h : j.program.Trace es (.ask (.store (.post rows)) k)) :
    ∃ P : Posting, P.rows = rows ∧ P.entry.IsExact := by
  -- they would be committed if the store said so
  have hprogress := Job.progress_of_trace (h.snoc (some (.ok ())))
  have hrows : rows ∈ Log.commits (es ++ [⟨.store (.post rows), some (.ok ())⟩]) := by
    simp [Log.commits, Exchange.commit?]
  obtain ⟨P, rfl⟩ := exists_of_commit hprogress hrows
  exact ⟨P, rfl, hprogress.isExact_of_commit hrows P.journal_mem_rows⟩

end Posting

namespace Ledger

variable {ι : Type} [DecidableEq ι] {k : Layout} {jobs : ι → Job} {L : List Posting}
  {x y : Ledger ι}

/-- The store keeps the rows of some postings, among them all that was committed. -/
structure Filled (k : Layout) (jobs : ι → Job) (L : List Posting) (x : Ledger ι) : Prop
    extends Posting.Kept k L x.store where
  trace : ∀ i, (jobs i).program.Trace (x.log i) (x.rest i)
  commits : ∀ rows ∈ x.commits, rows ⊆ L.flatMap Posting.rows

namespace Filled

theorem start {s : Store} (hs : s.Keeps k .empty) (jobs : ι → Job) :
    Filled k jobs [] (Pool.start s fun i => (jobs i).program) :=
  ⟨⟨hs, Memory.sound_empty, List.forall_mem_nil _⟩, fun _ => .nil _, List.forall_mem_nil _⟩

/-- What a request leaves in the store that is carried out: the rows of the postings, or those of
another one as well. -/
theorem serve (h : Filled k jobs L x) {i : ι} {q : StoreRequest}
    {f : Except StoreError q.Value → Program Job.Reply} (hi : x.rest i = .ask (.store q) f) :
    ∃ L', Posting.Kept k (L ++ L') (x.store.serve q).2 ∧
      ((∃ a, (x.store.serve q).1 = .ok a) → L'.flatMap Posting.rows = q.rows) := by
  have htrace := h.trace i
  rw [hi] at htrace
  obtain ⟨⟨e, he⟩, hstore⟩ | ⟨-, hstore, hsound⟩ := h.store.serve_cases q
  · refine ⟨[], ?_, ?_⟩
    · rw [List.append_nil]
      exact ⟨hstore, h.sound, h.exact⟩
    · rintro ⟨a, ha⟩
      cases he.symm.trans ha
  · obtain ⟨L', hL', hexact⟩ : ∃ L' : List Posting, L'.flatMap Posting.rows = q.rows ∧
        ∀ P ∈ L', P.entry.IsExact := by
      cases q with
      | post rows =>
        obtain ⟨P, hP, hexact⟩ := Posting.exists_of_ask htrace
        exact ⟨[P], by simp [hP, StoreRequest.rows], List.forall_mem_singleton.2 hexact⟩
      | _ => exact ⟨[], rfl, List.forall_mem_nil _⟩
    rw [← hL', ← Posting.content_append] at hstore hsound
    have hall := List.forall_mem_append.2 ⟨h.exact, hexact⟩
    exact ⟨L', ⟨hstore, hsound h.sound, hall⟩, fun _ => hL'⟩

theorem serves (h : Filled k jobs L x) {i : ι} {r : Request} {f : r.Answer → Program Job.Reply}
    (hi : x.rest i = .ask r f) {a : Option r.Answer} {s : Store} (hs : x.store.Serves r a s) :
    ∃ L', Posting.Kept k (L ++ L') s ∧
      ∀ rows, Exchange.commit? ⟨r, a⟩ = some rows → L'.flatMap Posting.rows = rows := by
  have unchanged : Posting.Kept k (L ++ []) x.store := by
    rw [List.append_nil]
    exact h.toKept
  cases hs with
  | elsewhere hr a =>
    refine ⟨[], unchanged, fun rows hrows => ?_⟩
    cases r with
    | store q => exact absurd rfl (hr q)
    | _ => cases hrows
  | answered q =>
    obtain ⟨L', hkept, hL'⟩ := h.serve hi
    refine ⟨L', hkept, fun rows hrows => ?_⟩
    obtain ⟨hq, ha⟩ := Exchange.commit?_ofOutcome hrows
    exact (hL' ha).trans hq
  | failed q e =>
    refine ⟨[], unchanged, ?_⟩
    rw [Exchange.commit?_of_failure]
    exact nofun
  | lost q e =>
    obtain ⟨L', hkept, -⟩ := h.serve hi
    refine ⟨L', hkept, ?_⟩
    rw [Exchange.commit?_of_failure]
    exact nofun

/-- **What a store keeps next**: the rows of the same postings, and of some more. -/
theorem next (h : Filled k jobs L x) (hn : x.Next y) : ∃ L', Filled k jobs (L ++ L') y := by
  cases hn with
  | failNext =>
    refine ⟨[], ?_⟩
    rw [List.append_nil]
    exact ⟨⟨h.store.failNext, h.sound, h.exact⟩, h.trace, h.commits⟩
  | @ask i r f hi a s hs =>
    obtain ⟨L', hkept, hcommit⟩ := h.serves hi hs
    refine ⟨L', hkept, Pool.trace_asked hi h.trace a s, fun rows hrows => ?_⟩
    rw [Pool.commits_asked, List.mem_append, Option.mem_toList] at hrows
    rw [List.flatMap_append]
    obtain hrows | hrows := hrows
    · exact List.subset_append_of_subset_left _ (h.commits rows hrows)
    · exact hcommit rows hrows ▸ List.subset_append_right _ _

theorem later (h : Filled k jobs L x) (hl : x.Later y) : ∃ L', Filled k jobs (L ++ L') y := by
  induction hl with
  | refl => exact ⟨[], by rwa [List.append_nil]⟩
  | tail _ hn ih =>
    obtain ⟨L', h'⟩ := ih
    obtain ⟨L'', h''⟩ := h'.next hn
    exact ⟨L' ++ L'', by rwa [← List.append_assoc]⟩

end Filled

end Ledger

end DoubleEntry
