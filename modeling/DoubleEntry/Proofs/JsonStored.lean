import DoubleEntry.Json.Parser
import DoubleEntry.Proofs.JsonText
import Mathlib.Data.String.Basic

/-!
# Stored JSON values

What is stored as JSON are objects whose keys are sorted and whose values are strings and numbers.
They are read back from their compact text as they are (`Json.isStored_record`), since sorting keys
that are sorted changes nothing (`Json.Sorted.sortFields_eq`).

## Main definitions

* `Json.IsStored`: the value is read back from its compact text.
-/

namespace DoubleEntry

namespace Json

/-- The value is read back from its compact text. -/
def IsStored (j : Json) : Prop := parse j.compact = .ok j

/-- The keys are sorted, and none occurs twice. -/
def Sorted (fields : List (String × Json)) : Prop := fields.Pairwise fun f g => f.1 < g.1

/-! ### Sorting -/

theorem mem_insertField {k : String} {v : Json} {fields : List (String × Json)} {f : String × Json}
    (h : f ∈ insertField k v fields) : f = (k, v) ∨ f ∈ fields := by
  induction fields with
  | nil => exact .inl (List.mem_singleton.1 h)
  | cons g fields ih =>
    obtain ⟨k', v'⟩ := g
    rw [insertField] at h
    split_ifs at h with hlt heq
    · exact List.mem_cons.1 h
    · obtain h | h := List.mem_cons.1 h
      · exact .inl h
      · exact .inr (List.mem_cons_of_mem _ h)
    · obtain h | h := List.mem_cons.1 h
      · exact .inr (h ▸ List.mem_cons_self)
      · exact (ih h).imp_right (List.mem_cons_of_mem _)

theorem Sorted.insertField {fields : List (String × Json)} (h : Sorted fields) (k : String)
    (v : Json) : Sorted (insertField k v fields) := by
  induction fields with
  | nil => exact List.pairwise_singleton _ _
  | cons g fields ih =>
    obtain ⟨k', v'⟩ := g
    obtain ⟨hg, hfields⟩ := List.pairwise_cons.1 h
    rw [Json.insertField]
    split_ifs with hlt heq
    · refine List.pairwise_cons.2 ⟨fun f hf => ?_, h⟩
      obtain rfl | hf := List.mem_cons.1 hf
      · exact hlt
      · exact lt_trans hlt (hg f hf)
    · exact List.pairwise_cons.2 ⟨fun f hf => heq ▸ hg f hf, hfields⟩
    · refine List.pairwise_cons.2 ⟨fun f hf => ?_, ih hfields⟩
      obtain rfl | hf := mem_insertField hf
      · exact lt_of_le_of_ne (not_lt.1 hlt) (Ne.symm heq)
      · exact hg f hf

theorem sorted_sortFields (fields : List (String × Json)) : Sorted (sortFields fields) := by
  have h : ∀ acc, Sorted acc →
      Sorted (fields.foldl (fun acc f => insertField f.1 f.2 acc) acc) := by
    induction fields with
    | nil => exact fun _ h => h
    | cons f fields ih => exact fun acc h => ih _ (h.insertField f.1 f.2)
  exact h [] List.Pairwise.nil

theorem mem_sortFields {fields : List (String × Json)} {f : String × Json}
    (h : f ∈ sortFields fields) : f ∈ fields := by
  have hacc : ∀ acc, f ∈ fields.foldl (fun acc f => insertField f.1 f.2 acc) acc →
      f ∈ acc ∨ f ∈ fields := by
    clear h
    induction fields with
    | nil => exact fun _ h => .inl h
    | cons g fields ih =>
      intro acc h
      obtain h | h := ih _ h
      · obtain h | h := mem_insertField h
        · exact .inr (h ▸ List.mem_cons_self)
        · exact .inl h
      · exact .inr (List.mem_cons_of_mem g h)
  exact (hacc [] h).resolve_left List.not_mem_nil

theorem insertField_of_lt {fields : List (String × Json)} {k : String} {v : Json}
    (h : ∀ f ∈ fields, f.1 < k) : insertField k v fields = fields ++ [(k, v)] := by
  induction fields with
  | nil => rfl
  | cons g fields ih =>
    obtain ⟨k', v'⟩ := g
    have hk : k' < k := h (k', v') List.mem_cons_self
    rw [insertField, if_neg hk.asymm, if_neg hk.ne', ih fun f hf => h f (List.mem_cons_of_mem _ hf),
      List.cons_append]

theorem Sorted.sortFields_eq {fields : List (String × Json)} (h : Sorted fields) :
    sortFields fields = fields := by
  have hacc : ∀ acc, Sorted (acc ++ fields) →
      fields.foldl (fun acc f => Json.insertField f.1 f.2 acc) acc = acc ++ fields := by
    clear h
    induction fields with
    | nil => simp
    | cons f fields ih =>
      intro acc h
      have hlt : ∀ g ∈ acc, g.1 < f.1 := fun g hg =>
        (List.pairwise_append.1 h).2.2 g hg f List.mem_cons_self
      rw [List.foldl_cons, insertField_of_lt hlt, ih]
      · simp
      · simpa using h
  exact hacc [] h

/-! ### Objects -/

/-- The value of a draft is the value that the draft is of, where nothing is to be sorted. -/
theorem toJson_toDraft_atom {j : Json} (h : j.IsAtom) : j.toDraft.toJson = .ok j := by
  cases j with
  | str s => rfl
  | num n => rfl
  | null | bool _ | arr _ | obj _ => exact h.elim

theorem fieldsToJson_fieldsToDraft {fields : List (String × Json)} (h : ∀ f ∈ fields, f.2.IsAtom) :
    Draft.fieldsToJson (fieldsToDraft fields) = .ok fields := by
  induction fields with
  | nil => rfl
  | cons f fields ih =>
    have hf := toJson_toDraft_atom (h f List.mem_cons_self)
    have hfields := ih fun g hg => h g (List.mem_cons_of_mem f hg)
    simp only [fieldsToDraft, Draft.fieldsToJson, hf, hfields]
    rfl

/-- **An object of strings and numbers is stored.** -/
theorem isStored_record {fields : List (String × Json)} (h : ∀ f ∈ fields, f.2.IsAtom) :
    (record fields).IsStored := by
  have hsorted := sorted_sortFields fields
  have hatoms : ∀ f ∈ sortFields fields, f.2.IsAtom := fun f hf => h f (mem_sortFields hf)
  generalize hsort : sortFields fields = sorted at hsorted hatoms
  rw [IsStored, record, hsort, parse]
  cases sorted with
  | nil => rfl
  | cons f fs =>
    rw [draftOf_compact_obj hatoms]
    simp only [Draft.toJson, fieldsToJson_fieldsToDraft hatoms, Draft.ended, Ending.fault?]
    exact congrArg (fun fs => Except.ok (Json.obj fs)) hsorted.sortFields_eq

end Json

end DoubleEntry
