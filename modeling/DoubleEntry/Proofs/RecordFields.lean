import DoubleEntry.Proofs.KeptAnswer
import Mathlib.Data.List.Nodup

/-!
# Records are read from their fields

A record is described field by field, and read if each part of the description finds its field, or
may do without.  What a part finds does not depend on the order in which the fields stand, nor on
fields that no part asks for.

## Main definitions

* `Fields.Reads`: every part of a description finds its field among some entries.

## Main results

* `Fields.Reads.decoder`: then the record is read from an object of these entries.
* `Decoder.list_toDraft`: so are lists of what can be read.
-/

namespace DoubleEntry

namespace Fields

variable {α β : Type} {src : Source} {entries : List (String × Draft)} {name : String}
  {dec : Decoder α} {a : α}

/-- Every part of the description finds its field among the entries, or may do without, and the
record that is made of them is `a`. -/
structure Reads (src : Source) (entries : List (String × Draft)) (F : Fields α) (a : α) : Prop where
  checks : ∀ s ∈ F.specs, ∀ d, entries.lookup s.name = some d → s.check src d = .ok ()
  needed : ∀ s ∈ F.specs, s.required = true → (entries.lookup s.name).isSome = true
  builds : F.build src (fun key => entries.lookup key) = .ok a

theorem Reads.map {F : Fields α} (h : Reads src entries F a) (f : α → β) :
    Reads src entries (f <$> F) (f a) where
  checks := h.checks
  needed := h.needed
  builds := congrArg (Functor.map f) h.builds

theorem Reads.seq {F : Fields (α → β)} {X : Fields α} {f : α → β} (hf : Reads src entries F f)
    (hx : Reads src entries X a) : Reads src entries (F <*> X) (f a) where
  checks s hs := (List.mem_append.1 hs).elim (hf.checks s) (hx.checks s)
  needed s hs := (List.mem_append.1 hs).elim (hf.needed s) (hx.needed s)
  builds := by
    change (do return (← F.build src _) (← X.build src _)) = _
    rw [hf.builds, hx.builds]
    rfl

theorem reads_one {d : Draft} (required positional : Bool) (missing : Option α)
    (hd : entries.lookup name = some d) (ha : dec src d = .ok a) :
    Reads src entries (one name dec required positional missing) a where
  checks s hs d' hd' := by
    obtain rfl := List.mem_singleton.1 hs
    obtain rfl : d = d' := Option.some.inj (hd.symm.trans hd')
    change (do let _ ← dec src d; return ()) = _
    rw [ha]
    rfl
  needed s hs _ := by
    obtain rfl := List.mem_singleton.1 hs
    rw [hd]
    rfl
  builds := by
    simp only [one, hd]
    exact ha

theorem reads_missing (positional : Bool) (hd : entries.lookup name = none) :
    Reads src entries (one name dec false positional (some a)) a where
  checks s hs d' hd' := by
    obtain rfl := List.mem_singleton.1 hs
    cases hd.symm.trans hd'
  needed s hs hreq := by
    obtain rfl := List.mem_singleton.1 hs
    cases hreq
  builds := by simp only [one, hd]

theorem exists_checkFields {specs : List FieldSpec} {seen : List String}
    (hchecks : ∀ s ∈ specs, ∀ e ∈ entries, s.name = e.1 → s.check src e.2 = .ok ())
    (hfault : ∀ e ∈ entries, e.2.fault? = none) (hnodup : (entries.map Prod.fst).Nodup)
    (hseen : ∀ e ∈ entries, e.1 ∉ seen) :
    ∃ seen', checkFields src specs seen entries = .ok seen' ∧
      ∀ s ∈ specs, s.name ∈ seen ∨ s.name ∈ entries.map Prod.fst → s.name ∈ seen' := by
  induction entries generalizing seen with
  | nil => exact ⟨seen, rfl, fun s _ h => h.resolve_right List.not_mem_nil⟩
  | cons e entries ih =>
    obtain ⟨key, d⟩ := e
    rw [List.map_cons, List.nodup_cons] at hnodup
    have hchecks' := fun s hs e he => hchecks s hs e (List.mem_cons_of_mem _ he)
    have hfault' := fun e he => hfault e (List.mem_cons_of_mem _ he)
    rw [checkFields]
    cases hfind : specs.find? fun s => s.name = key with
    | none =>
      -- nobody asks for this entry
      have hskip : Decoder.skip d = .ok () := by
        rw [Decoder.skip, hfault _ List.mem_cons_self]
      obtain ⟨seen', hcheck, hall⟩ := ih hchecks' hfault' hnodup.2
        fun e he => hseen e (List.mem_cons_of_mem _ he)
      refine ⟨seen', by simp [hskip, hcheck, bind, Except.bind, Except.mapError], ?_⟩
      intro s hs h
      refine hall s hs (h.imp_right fun h => (List.mem_cons.1 h).resolve_left fun hkey => ?_)
      simpa [hkey] using List.find?_eq_none.1 hfind s hs
    | some s =>
      have hs := List.mem_of_find?_eq_some hfind
      have hname : s.name = key := of_decide_eq_true (List.find?_some hfind :)
      have hcheck := hchecks s hs (key, d) List.mem_cons_self hname
      have hnew : seen.contains key = false := by
        simpa using hseen (key, d) List.mem_cons_self
      have hseen' : ∀ e ∈ entries, e.1 ∉ key :: seen := by
        intro e he hmem
        obtain heq | hmem := List.mem_cons.1 hmem
        · have hkey : e.1 ∈ entries.map Prod.fst := List.mem_map_of_mem he
          exact hnodup.1 (heq ▸ hkey)
        · exact hseen e (List.mem_cons_of_mem _ he) hmem
      obtain ⟨seen', hrest, hall⟩ := ih hchecks' hfault' hnodup.2 hseen'
      refine ⟨seen', ?_, ?_⟩
      · simp only [hnew, Bool.false_eq_true, if_false, hcheck, Except.mapError, bind, Except.bind]
        exact hrest
      · intro t ht h
        refine hall t ht ?_
        rw [List.map_cons, List.mem_cons] at h
        rw [List.mem_cons]
        tauto

theorem lookup_of_mem (hnodup : (entries.map Prod.fst).Nodup) {e : String × Draft}
    (he : e ∈ entries) : entries.lookup e.1 = some e.2 := by
  induction entries with
  | nil => cases he
  | cons f entries ih =>
    rw [List.map_cons, List.nodup_cons] at hnodup
    rw [List.lookup_cons]
    obtain rfl | he := List.mem_cons.1 he
    · simp
    · have hne : e.1 ≠ f.1 := fun h => hnodup.1 (h ▸ List.mem_map_of_mem he)
      rw [beq_false_of_ne hne]
      exact ih hnodup.2 he

/-- **A record is read** from an object of entries of different names. -/
theorem Reads.decoder {F : Fields α} (h : Reads src entries F a)
    (hfault : ∀ e ∈ entries, e.2.fault? = none) (hnodup : (entries.map Prod.fst).Nodup)
    (record : String) : Fields.decoder record F src (.obj entries .closed) = .ok a := by
  have hnone : ∀ e ∈ entries, e.1 ∉ ([] : List String) := fun _ _ => List.not_mem_nil
  obtain ⟨seen, hcheck, hall⟩ := exists_checkFields
    (fun s hs e he hname => h.checks s hs e.2 (hname ▸ lookup_of_mem hnodup he)) hfault hnodup hnone
  have hfind : F.specs.find? (fun s => s.required && !seen.contains s.name) = none := by
    refine List.find?_eq_none.2 fun s hs hmissing => ?_
    simp only [Bool.and_eq_true, Bool.not_eq_true', List.contains_eq_mem, decide_eq_false_iff_not]
      at hmissing
    obtain ⟨d, hd⟩ := Option.isSome_iff_exists.1 (h.needed s hs hmissing.1)
    have hmem : (s.name, d) ∈ entries := by
      obtain ⟨l₁, l₂, hl, -⟩ := List.lookup_eq_some_iff.1 hd
      rw [hl]
      simp
    exact hmissing.2 (hall s hs (.inr (List.mem_map_of_mem (f := Prod.fst) hmem)))
  simp only [Fields.decoder, hcheck, bind, Except.bind, Ending.fault?, hfind]
  exact h.builds

end Fields

/-! ### JSON values -/

namespace Json

mutual

/-- The draft of a value has no break. -/
theorem fault?_toDraft : (j : Json) → j.toDraft.fault? = none
  | .arr items => by
    rw [toDraft, Draft.fault?, itemsFault?_itemsToDraft items]
    rfl
  | .obj fields => by
    rw [toDraft, Draft.fault?, fieldsFault?_fieldsToDraft fields]
    rfl
  | .null => rfl
  | .bool _ => rfl
  | .num _ => rfl
  | .str _ => rfl

theorem itemsFault?_itemsToDraft : (js : List Json) → Draft.itemsFault? (itemsToDraft js) = none
  | [] => rfl
  | j :: js => by
    rw [itemsToDraft, Draft.itemsFault?, fault?_toDraft j, itemsFault?_itemsToDraft js]
    rfl

theorem fieldsFault?_fieldsToDraft :
    (fields : List (String × Json)) → Draft.fieldsFault? (fieldsToDraft fields) = none
  | [] => rfl
  | (_, j) :: fields => by
    rw [fieldsToDraft, Draft.fieldsFault?, fault?_toDraft j, fieldsFault?_fieldsToDraft fields]
    rfl

end

theorem fieldsToDraft_eq_map (fields : List (String × Json)) :
    fieldsToDraft fields = fields.map fun f => (f.1, f.2.toDraft) := by
  induction fields with
  | nil => rfl
  | cons f fields ih => exact congrArg (_ :: ·) ih

theorem lookup_fieldsToDraft (key : String) (fields : List (String × Json)) :
    (fieldsToDraft fields).lookup key = (fields.lookup key).map toDraft := by
  induction fields with
  | nil => rfl
  | cons f fields ih =>
    obtain ⟨k, j⟩ := f
    rw [fieldsToDraft, List.lookup_cons, List.lookup_cons, ih]
    cases key == k <;> rfl

theorem lookup_optField {α : Type} (key k : String) (f : α → Json) (o : Option α) :
    (optField k f o).lookup key = if key = k then o.map f else none := by
  cases o with
  | none => simp [optField]
  | some a =>
    by_cases h : key = k
    · simp [optField, h]
    · simp [optField, List.lookup_cons, h, beq_false_of_ne h]

end Json

namespace Fields

variable {α : Type} {fields : List (String × Json)} {name : String} {dec : Decoder α} {a : α}

theorem reads_required {j : Json} (hj : fields.lookup name = some j)
    (ha : dec .text j.toDraft = .ok a) :
    Reads .text (Json.fieldsToDraft fields) (required name dec) a :=
  reads_one _ _ _ (by rw [Json.lookup_fieldsToDraft, hj]; rfl) ha

theorem option_of_ne_null {src : Source} {d : Draft} (hd : d ≠ .null) (ha : dec src d = .ok a) :
    Decoder.option dec src d = .ok (some a) := by
  have hsome : Decoder.option dec src d = some <$> dec src d := by
    cases d with
    | null => exact absurd rfl hd
    | _ => rfl
  rw [hsome, ha]
  rfl

/-- A field that is left out where it has no value is read, or stays without. -/
theorem reads_optField {o : Option α} {enc : α → Json} {positional : Bool}
    (hj : fields.lookup name = o.map enc) (henc : ∀ b, (enc b).toDraft ≠ .null)
    (ha : ∀ b, dec .text (enc b).toDraft = .ok b) :
    Reads .text (Json.fieldsToDraft fields)
      (one name (Decoder.option dec) false positional (some none)) o := by
  have hd := Json.lookup_fieldsToDraft name fields
  rw [hj] at hd
  cases o with
  | none => exact reads_missing _ hd
  | some b => exact reads_one _ _ _ hd (option_of_ne_null (henc b) (ha b))

/-- **A record is read** from a JSON object of fields of different names. -/
theorem Reads.decoder_json {F : Fields α} (h : Reads .text (Json.fieldsToDraft fields) F a)
    (hnodup : (fields.map Prod.fst).Nodup) (record : String) :
    Fields.decoder record F .text (Json.obj fields).toDraft = .ok a := by
  rw [Json.fieldsToDraft_eq_map] at h
  rw [Json.toDraft, Json.fieldsToDraft_eq_map]
  refine h.decoder (List.forall_mem_map.2 fun f _ => f.2.fault?_toDraft) ?_ record
  rwa [List.map_map]

end Fields

namespace Decoder

variable {α : Type}

/-- **A list is read** if each of its values is. -/
theorem list_toDraft {dec : Decoder α} {enc : α → Json} {as : List α}
    (h : ∀ a ∈ as, dec .text (enc a).toDraft = .ok a) :
    list dec .text (Json.arr (as.map enc)).toDraft = .ok as := by
  have hitems (i : Nat) : itemsFrom (dec .text) i (Json.itemsToDraft (as.map enc)) = .ok as := by
    induction as generalizing i with
    | nil => rfl
    | cons a as ih =>
      have hrest := ih (fun b hb => h b (List.mem_cons_of_mem a hb)) (i + 1)
      simp only [List.map_cons, Json.itemsToDraft, itemsFrom, h a List.mem_cons_self, hrest, bind,
        Except.bind, Except.mapError]
      rfl
  simp only [Json.toDraft, list, hitems 0, bind, Except.bind, Ending.fault?]
  rfl

end Decoder

end DoubleEntry
