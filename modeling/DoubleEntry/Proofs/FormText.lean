import DoubleEntry.Proofs.AsciiText
import Mathlib.Data.List.Basic
import Mathlib.Data.List.TakeWhile

/-!
# Forms and paths are read back

The fields of a form are read back from the query that holds them, and the path of an address from
what a request asks for.

## Main results

* `Uri.formText_formEncode`: a name or a value of a form is read back.
* `Uri.form_queryOf`: so are all fields of a form.
* `Uri.ofText_target`: path and query of what is asked for.
* `Uri.segmentText?_percentEncode`: a segment of a path is read back.
-/

namespace DoubleEntry

/-! ### Names and values -/

/-- A byte of a name or a value as it stands in a form. -/
def formByte (b : UInt8) : List Char :=
  let c := Char.ofNat b.toNat
  if c = ' ' then ['+']
  else if c.isAlphanum || "*-._".toList.contains c then [c]
  else percentByte b

theorem formEncode_eq (s : String) :
    formEncode s = String.ofList ((utf8 s).flatMap formByte) := rfl

/-- A character that stands for itself in a form, where a blank is no plus sign yet. -/
def keepsInForm (c : Char) : Bool := c = ' ' || c.isAlphanum || "*-._".toList.contains c

/-- A plus sign is a blank. -/
def unplus (c : Char) : Char := if c = '+' then ' ' else c

/-- The characters of a form but its separators. -/
def IsFormChar (c : Char) : Prop := c.toNat < 128 ∧ c ∉ ['&', '=', '#', '?']

instance : DecidablePred IsFormChar := fun _ => inferInstanceAs (Decidable (_ ∧ _))

theorem formByte_ofNat : ∀ n < 256,
    (formByte (UInt8.ofNat n)).map unplus = encodeByte keepsInForm (UInt8.ofNat n) ∧
      (formByte (UInt8.ofNat n)).all (fun c => decide (IsFormChar c)) = true := by
  decide +kernel

theorem map_formByte (b : UInt8) : (formByte b).map unplus = encodeByte keepsInForm b := by
  have h := (formByte_ofNat b.toNat b.toNat_lt).1
  rwa [UInt8.ofNat_toNat] at h

theorem isFormChar_of_mem {s : String} {c : Char} (h : c ∈ (formEncode s).toList) :
    IsFormChar c := by
  rw [formEncode_eq, String.toList_ofList] at h
  obtain ⟨b, -, hc⟩ := List.mem_flatMap.1 h
  have hb := (formByte_ofNat b.toNat b.toNat_lt).2
  rw [UInt8.ofNat_toNat] at hb
  exact of_decide_eq_true (List.all_eq_true.1 hb c hc)

namespace Uri

/-- **A name or a value of a form is read back.** -/
theorem formText_formEncode {s : String} (h : IsAscii s.toList) :
    formText (formEncode s).toList = s := by
  obtain ⟨cs, rfl⟩ : ∃ cs, s = String.ofList cs := ⟨s.toList, String.ofList_toList.symm⟩
  rw [String.toList_ofList] at h
  have hplain : (formEncode (String.ofList cs)).toList.map unplus =
      (asciiBytes cs).flatMap (encodeByte keepsInForm) := by
    rw [formEncode_eq, String.toList_ofList, utf8_ofList h, List.map_flatMap]
    exact List.flatMap_congr fun b _ => map_formByte b
  have hascii : IsAscii ((asciiBytes cs).flatMap (encodeByte keepsInForm)) := by
    intro c hc
    obtain ⟨b, -, hc⟩ := List.mem_flatMap.1 hc
    exact isAscii_encodeByte keepsInForm b c hc
  have hdecode : percentDecode (asciiBytes ((asciiBytes cs).flatMap (encodeByte keepsInForm))) =
      asciiBytes cs := percentDecode_flatMap fun _ _ _ => by decide
  have hbytes := utf8_ofList hascii
  rw [utf8] at hbytes
  have hmap : (formEncode (String.ofList cs)).toList.map (fun c => if c = '+' then ' ' else c) =
      (asciiBytes cs).flatMap (encodeByte keepsInForm) := hplain
  simp only [formText, hmap, hbytes, hdecode]
  exact Utf8.decodeLossy_ascii h

/-! ### Pieces -/

theorem cutAt_of_not_mem {c : Char} {cs : List Char} (h : c ∉ cs) : cutAt c cs = (cs, []) := by
  have hall : ∀ d ∈ cs, (d != c) = true := fun d hd => bne_iff_ne.2 fun hdc => h (hdc ▸ hd)
  rw [cutAt, List.takeWhile_eq_self_iff.2 hall, List.dropWhile_eq_nil_iff.2 hall]
  rfl

theorem cutAt_append {c : Char} {cs : List Char} (h : c ∉ cs) (rest : List Char) :
    cutAt c (cs ++ c :: rest) = (cs, rest) := by
  have hall : ∀ d ∈ cs, (d != c) = true := fun d hd => bne_iff_ne.2 fun hdc => h (hdc ▸ hd)
  rw [cutAt, List.takeWhile_append_of_pos hall, List.dropWhile_append_of_pos hall]
  simp

theorem splitAll_of_not_mem {c : Char} {cs : List Char} (h : c ∉ cs) : splitAll c cs = [cs] := by
  induction cs with
  | nil => rfl
  | cons d cs ih =>
    obtain ⟨hd, hcs⟩ := not_or.1 (fun h' => h (List.mem_cons.2 h'))
    have hsplit := ih hcs
    rw [splitAll] at hsplit ⊢
    rw [List.foldr_cons, hsplit, if_neg (Ne.symm hd)]

theorem splitAll_append {c : Char} {cs : List Char} (h : c ∉ cs) (rest : List Char) :
    splitAll c (cs ++ c :: rest) = cs :: splitAll c rest := by
  induction cs with
  | nil =>
    rw [splitAll, List.nil_append, List.foldr_cons, if_pos rfl]
    rfl
  | cons d cs ih =>
    obtain ⟨hd, hcs⟩ := not_or.1 (fun h' => h (List.mem_cons.2 h'))
    have hsplit := ih hcs
    rw [splitAll] at hsplit ⊢
    rw [List.cons_append, List.foldr_cons, hsplit, if_neg (Ne.symm hd)]

theorem splitAll_intercalate {c : Char} {p : List Char} {ps : List (List Char)}
    (h : ∀ q ∈ p :: ps, c ∉ q) : splitAll c ([c].intercalate (p :: ps)) = p :: ps := by
  induction ps generalizing p with
  | nil =>
    rw [List.intercalate_singleton]
    exact splitAll_of_not_mem (h p List.mem_cons_self)
  | cons q ps ih =>
    rw [List.intercalate_cons_cons, List.append_assoc, List.singleton_append,
      splitAll_append (h p List.mem_cons_self), ih fun r hr => h r (List.mem_cons_of_mem p hr)]

/-! ### Forms -/

/-- A field as it stands in a query. -/
def fieldText (f : String × String) : String := formEncode f.1 ++ "=" ++ formEncode f.2

theorem toList_queryOf (fields : List (String × String)) :
    (queryOf fields).toList = ['&'].intercalate (fields.map fun f => (fieldText f).toList) := by
  rw [queryOf, String.toList_intercalate, List.map_map]
  rfl

theorem toList_fieldText (f : String × String) :
    (fieldText f).toList = (formEncode f.1).toList ++ '=' :: (formEncode f.2).toList := by
  simp [fieldText]

/-- **The fields of a form** are read back from the query that holds them. -/
theorem form_queryOf {fields : List (String × String)}
    (h : ∀ f ∈ fields, IsAscii f.1.toList ∧ IsAscii f.2.toList) (path : String) :
    form ⟨path, queryOf fields⟩ = fields := by
  cases fields with
  | nil => rfl
  | cons f fs =>
    have hmark : ∀ q ∈ (f :: fs).map fun g => (fieldText g).toList, '&' ∉ q := by
      refine List.forall_mem_map.2 fun g _ hg => ?_
      rw [toList_fieldText, List.mem_append, List.mem_cons] at hg
      obtain hg | hg | hg := hg
      · exact absurd (isFormChar_of_mem hg) (by decide)
      · exact absurd hg (by decide)
      · exact absurd (isFormChar_of_mem hg) (by decide)
    have hpieces : splitAll '&' (queryOf (f :: fs)).toList =
        (f :: fs).map fun g => (fieldText g).toList := by
      rw [toList_queryOf]
      exact splitAll_intercalate hmark
    have hne : ∀ p ∈ (f :: fs).map (fun g => (fieldText g).toList), (!p.isEmpty) = true := by
      refine List.forall_mem_map.2 fun g _ => ?_
      rw [toList_fieldText]
      simp
    rw [form, hpieces, List.filter_eq_self.2 hne, List.map_map]
    refine (List.map_congr_left fun g hg => ?_).trans (List.map_id _)
    have hname : '=' ∉ (formEncode g.1).toList := fun hc =>
      absurd (isFormChar_of_mem hc) (by decide)
    obtain ⟨h1, h2⟩ := h g hg
    simp only [Function.comp_apply, toList_fieldText, cutAt_append hname, formText_formEncode h1,
      formText_formEncode h2, id]

theorem mem_intercalate {c d : Char} {ps : List (List Char)} (h : d ∈ [c].intercalate ps) :
    d = c ∨ ∃ p ∈ ps, d ∈ p := by
  induction ps with
  | nil => cases h
  | cons p ps ih =>
    cases ps with
    | nil =>
      rw [List.intercalate_singleton] at h
      exact .inr ⟨p, List.mem_cons_self, h⟩
    | cons q ps =>
      rw [List.intercalate_cons_cons, List.append_assoc, List.singleton_append, List.mem_append,
        List.mem_cons] at h
      obtain h | h | h := h
      · exact .inr ⟨p, List.mem_cons_self, h⟩
      · exact .inl h
      · exact (ih h).imp_right fun ⟨r, hr, hd⟩ => ⟨r, List.mem_cons_of_mem p hr, hd⟩

theorem ne_of_mem_queryOf {fields : List (String × String)} {c : Char}
    (h : c ∈ (queryOf fields).toList) : c ≠ '#' := by
  rintro rfl
  rw [toList_queryOf] at h
  obtain h | ⟨p, hp, hc⟩ := mem_intercalate h
  · exact absurd h (by decide)
  · obtain ⟨f, -, rfl⟩ := List.mem_map.1 hp
    rw [toList_fieldText, List.mem_append, List.mem_cons] at hc
    obtain hc | hc | hc := hc
    · exact absurd (isFormChar_of_mem hc) (by decide)
    · exact absurd hc (by decide)
    · exact absurd (isFormChar_of_mem hc) (by decide)

/-! ### Paths -/

theorem ofText_eq {path query : String} (hpath : ∀ c ∈ path.toList, c ≠ '?' ∧ c ≠ '#')
    (hquery : ∀ c ∈ query.toList, c ≠ '#') :
    ofText (path ++ "?" ++ query) = ⟨path, query⟩ := by
  have hhash : '#' ∉ (path ++ "?" ++ query).toList := by
    simp only [String.toList_append, List.mem_append]
    rintro ((h | h) | h)
    · exact (hpath _ h).2 rfl
    · exact absurd h (by decide)
    · exact hquery _ h rfl
  have hmark : '?' ∉ path.toList := fun h => (hpath _ h).1 rfl
  have hwhole : (path ++ "?" ++ query).toList = path.toList ++ '?' :: query.toList := by simp
  rw [ofText, cutAt_of_not_mem hhash]
  simp only [hwhole, cutAt_append hmark, String.ofList_toList]

theorem ofText_path {path : String} (hpath : ∀ c ∈ path.toList, c ≠ '?' ∧ c ≠ '#') :
    ofText path = ⟨path, ""⟩ := by
  have hhash : '#' ∉ path.toList := fun h => (hpath _ h).2 rfl
  have hmark : '?' ∉ path.toList := fun h => (hpath _ h).1 rfl
  rw [ofText, cutAt_of_not_mem hhash]
  simp only [cutAt_of_not_mem hmark, String.ofList_toList, String.ofList_nil]

/-- **What is asked for** are the path of an address and the fields of a query. -/
theorem ofText_target {a : Address} (hnone : a.query = none)
    (hpath : ∀ c ∈ a.path.toList, c ≠ '?' ∧ c ≠ '#') (fields : List (String × String)) :
    ofText (a.target fields) = ⟨a.path, queryOf fields⟩ := by
  cases fields with
  | nil =>
    have htarget : a.target [] = a.path := by simp [Address.target, hnone]
    rw [htarget]
    exact ofText_path hpath
  | cons f fs =>
    have htarget : a.target (f :: fs) = a.path ++ "?" ++ queryOf (f :: fs) := by
      simp [Address.target, hnone]
    rw [htarget]
    exact ofText_eq hpath fun c hc => ne_of_mem_queryOf hc

/-- **A segment of a path is read back**, if it has no percent signs of its own. -/
theorem segmentText?_percentEncode {keeps : Char → Bool} {s : String} (h : IsAscii s.toList)
    (hsign : '%' ∉ s.toList) : segmentText? (percentEncode keeps s) = some s := by
  obtain ⟨cs, rfl⟩ : ∃ cs, s = String.ofList cs := ⟨s.toList, String.ofList_toList.symm⟩
  rw [String.toList_ofList] at h hsign
  have hascii : IsAscii ((asciiBytes cs).flatMap (encodeByte keeps)) := by
    intro c hc
    obtain ⟨b, -, hc⟩ := List.mem_flatMap.1 hc
    exact isAscii_encodeByte keeps b c hc
  have hdecode : percentDecode (asciiBytes ((asciiBytes cs).flatMap (encodeByte keeps))) =
      asciiBytes cs := by
    refine percentDecode_flatMap fun b hb h25 => ?_
    obtain ⟨c, hc, rfl⟩ := List.mem_map.1 hb
    have hc' : c = '%' := by
      rw [← ofNat_toNat_byte (h c hc), h25]
      rfl
    exact absurd (hc' ▸ hc) hsign
  have hbytes := utf8_ofList hascii
  rw [utf8] at hbytes
  rw [segmentText?, percentEncode_eq, utf8_ofList h, hbytes, hdecode]
  exact Utf8.decode?_ascii h

end Uri

end DoubleEntry
