import DoubleEntry.Json.Basic

/-!
# Fields of sorted objects

An object whose keys are sorted has the fields that it was made of (`Json.field?_record`).
-/

namespace DoubleEntry

namespace Json

theorem lookup_insertField (k : String) (v : Json) (fields : List (String × Json)) (key : String) :
    (insertField k v fields).lookup key = if key = k then some v else fields.lookup key := by
  induction fields with
  | nil =>
    by_cases h : key = k <;> simp [insertField, h]
  | cons f fields ih =>
    obtain ⟨k', v'⟩ := f
    by_cases hlt : k < k'
    · by_cases hk : key = k
      · simp [insertField, hlt, hk]
      · simp [insertField, hlt, List.lookup_cons, hk, beq_false_of_ne hk]
    by_cases heq : k = k'
    · subst heq
      by_cases hk : key = k
      · simp [insertField, hk]
      · simp [insertField, List.lookup_cons, hk, beq_false_of_ne hk]
    · by_cases hk' : key = k'
      · simp [insertField, hlt, heq, hk', Ne.symm heq]
      · simp [insertField, hlt, heq, List.lookup_cons, beq_false_of_ne hk', ih]

/-- **A field of a sorted object** is the last one of its key that was given. -/
theorem field?_record (fields : List (String × Json)) (key : String) :
    (record fields).field? key = fields.reverse.lookup key := by
  have h : ∀ acc, (fields.foldl (fun acc f => insertField f.1 f.2 acc) acc).lookup key =
      (fields.reverse.lookup key).or (acc.lookup key) := by
    induction fields with
    | nil => simp
    | cons f fields ih =>
      intro acc
      obtain ⟨k, v⟩ := f
      rw [List.foldl_cons, ih, lookup_insertField, List.reverse_cons, List.lookup_append]
      by_cases hk : key = k
      · simp [hk]
      · simp [List.lookup_cons, hk, beq_false_of_ne hk]
  simpa [record, field?, sortFields] using h []

end Json

end DoubleEntry
