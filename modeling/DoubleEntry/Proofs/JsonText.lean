import DoubleEntry.Json.Decoder
import DoubleEntry.Json.Printer
import Mathlib.Tactic.IntervalCases

/-!
# Compact texts are read back

Every string is read back from between its quotes (`Json.string_escaped`), every number of 64 bits
from its digits (`Json.number_toDigits`), and so is an object whose values are all strings and such
numbers (`Json.draftOf_compact_obj`).

## Main definitions

* `Json.IsAtom`: strings, and numbers of 64 bits.
* `Json.strings`: an object whose values are all strings.
-/

namespace DoubleEntry

namespace Json

/-! ### Strings -/

theorem stringBody_escapeChar_control {n : Nat} (h : n < 32) (fuel : Nat) (acc rest : List Char) :
    stringBody (fuel + 1) acc (escapeChar (Char.ofNat n) ++ rest) =
      stringBody fuel (Char.ofNat n :: acc) rest := by
  interval_cases n <;> rfl

theorem stringBody_escapeChar (c : Char) (fuel : Nat) (acc rest : List Char) :
    stringBody (fuel + 1) acc (escapeChar c ++ rest) = stringBody fuel (c :: acc) rest := by
  by_cases hc : c.toNat < 32
  · rw [← Char.ofNat_toNat c]
    exact stringBody_escapeChar_control hc fuel acc rest
  by_cases hq : c = '"'
  · subst hq
    rfl
  by_cases hb : c = '\\'
  · subst hb
    rfl
  -- what is left stands for itself
  have hne : ∀ d : Char, d.toNat < 32 → c ≠ d := by
    rintro d hd rfl
    exact hc hd
  have h8 : c.toNat ≠ 8 := by omega
  have h12 : c.toNat ≠ 12 := by omega
  have he : escapeChar c = [c] := by
    simp [escapeChar, hq, hb, hc, h8, h12, hne '\n' (by decide), hne '\r' (by decide),
      hne '\t' (by decide)]
  simp [he, stringBody, hq, hb, hc]

theorem stringBody_escaped (cs : List Char) (fuel : Nat) (acc rest : List Char)
    (h : cs.length < fuel) :
    stringBody fuel acc (cs.flatMap escapeChar ++ '"' :: rest) =
      .ok (String.ofList (acc.reverse ++ cs), rest) := by
  induction cs generalizing fuel acc with
  | nil =>
    obtain ⟨fuel, rfl⟩ := Nat.exists_eq_succ_of_ne_zero (Nat.ne_of_gt h)
    simp [stringBody]
  | cons c cs ih =>
    obtain ⟨fuel, rfl⟩ := Nat.exists_eq_succ_of_ne_zero (Nat.ne_of_gt (Nat.zero_lt_of_lt h))
    rw [List.flatMap_cons, List.append_assoc, stringBody_escapeChar, ih]
    · simp
    · simpa using h

theorem length_le_flatMap_escapeChar (cs : List Char) :
    cs.length ≤ (cs.flatMap escapeChar).length := by
  induction cs with
  | nil => simp
  | cons c cs ih =>
    have : 0 < (escapeChar c).length := by
      unfold escapeChar
      split_ifs <;> simp
    simp only [List.flatMap_cons, List.length_append, List.length_cons]
    omega

/-- **A string is read back from between its quotes.** -/
theorem string_escaped (s : String) (rest : List Char) :
    string (s.toList.flatMap escapeChar ++ '"' :: rest) = .ok (s, rest) := by
  have hl := length_le_flatMap_escapeChar s.toList
  rw [string, stringBody_escaped]
  · simp
  · simp only [List.length_append]
    omega

theorem toList_quoted (s : String) :
    (quoted s).toList = '"' :: (s.toList.flatMap escapeChar ++ ['"']) := by
  simp [quoted]

/-! ### Numbers -/

theorem digit?_of_isDigit {c : Char} (h : c.isDigit = true) : digit? c = some (c.toNat - 48) := by
  simp only [Char.isDigit, Bool.and_eq_true, decide_eq_true_eq] at h
  exact if_pos h

theorem significant_append {cs : List Char} (rest : List Char) {n : Nat} (count : Nat)
    (hcs : ∀ c ∈ cs, c.isDigit = true) (hfit : Nat.ofDigitChars 10 cs n < twoPow 64) :
    significant n count (cs ++ rest) =
      significant (Nat.ofDigitChars 10 cs n) (count + cs.length) rest := by
  induction cs generalizing n count with
  | nil => rfl
  | cons c cs ih =>
    have hd := digit?_of_isDigit (hcs c List.mem_cons_self)
    have hof : Nat.ofDigitChars 10 (c :: cs) n =
        Nat.ofDigitChars 10 cs (n * 10 + (c.toNat - 48)) := by
      rw [Nat.ofDigitChars_cons, Nat.mul_comm]
      rfl
    rw [hof] at hfit ⊢
    have hle : n * 10 + (c.toNat - 48) < twoPow 64 := by
      rw [Nat.ofDigitChars_eq_ofDigitChars_zero] at hfit
      have := Nat.le_mul_of_pos_left (n * 10 + (c.toNat - 48)) (Nat.pow_pos (n := cs.length)
        (by decide : 0 < 10))
      omega
    rw [List.cons_append, significant, hd]
    simp only [hle, if_true]
    rw [ih _ (fun c hc => hcs c (List.mem_cons_of_mem _ hc)) hfit, List.length_cons]
    congr 1
    omega

theorem exists_toDigits_eq_cons (n : Nat) :
    ∃ d cs, d < 10 ∧ Nat.toDigits 10 n = Nat.digitChar d :: cs ∧ (d = 0 → n = 0 ∧ cs = []) := by
  induction n using Nat.strongRecOn with
  | ind n ih =>
    by_cases hn : n < 10
    · exact ⟨n, [], hn, Nat.toDigits_of_lt_base hn, fun h => ⟨h, rfl⟩⟩
    · obtain ⟨d, cs, hd, hcs, h0⟩ := ih (n / 10) (by omega)
      refine ⟨d, cs ++ Nat.toDigits 10 (n % 10), hd, ?_, fun h => ?_⟩
      · rw [Nat.toDigits_of_base_le (by decide) (by omega), hcs, List.cons_append,
          Nat.toDigits_of_lt_base (Nat.mod_lt n (by decide))]
      · have := (h0 h).1
        omega

/-- What may follow a value in an object. -/
def IsSeparator (c : Char) : Prop := c = ',' ∨ c = '\x7d'

/-- **A number is read back** up to what follows it. -/
theorem number_toDigits {n : Nat} (hn : n < twoPow 64) {c : Char} (hc : IsSeparator c)
    (rest : List Char) :
    number false (Nat.toDigits 10 n ++ c :: rest) = (.num (.int n), some (c :: rest)) := by
  have hafter : ∀ m, afterInteger false m 0 false (c :: rest) =
      (.num (.int m), some (c :: rest)) := by
    rcases hc with rfl | rfl <;> exact fun _ => rfl
  have hmark : digit? c = none := by rcases hc with rfl | rfl <;> rfl
  obtain ⟨d, cs, hd, hcs, h0⟩ := exists_toDigits_eq_cons n
  by_cases hd0 : d = 0
  · obtain ⟨rfl, rfl⟩ := h0 hd0
    subst hd0
    have hz : Nat.toDigits 10 0 = ['0'] := rfl
    rw [hz, List.singleton_append, number]
    simp only [hmark, Option.isSome_none, Bool.false_eq_true, if_false]
    exact hafter 0
  · -- the first digit is not a nought
    have hof : Nat.ofDigitChars 10 (Nat.toDigits 10 n) 0 = n := Nat.ofDigitChars_ten_toDigits
    have hsig : significant 0 0 (Nat.toDigits 10 n ++ c :: rest) =
        (n, 0 + (Nat.toDigits 10 n).length, c :: rest) := by
      have hdigits : ∀ c ∈ Nat.toDigits 10 n, c.isDigit = true :=
        fun c hc => Nat.isDigit_of_mem_toDigits (by decide) (by decide) hc
      rw [significant_append _ _ hdigits (by rwa [hof]), hof, significant, hmark]
    have hskip : skipDigits (c :: rest) = (0, c :: rest) := by simp [skipDigits, hmark]
    have hnumber : number false (Nat.toDigits 10 n ++ c :: rest) =
        afterInteger false n 0 false (c :: rest) := by
      rw [hcs, List.cons_append] at hsig ⊢
      interval_cases d
      all_goals first
        | exact absurd rfl hd0
        | simp only [number, hsig, hskip]; rfl
    rw [hnumber, hafter]

/-! ### Objects of strings and numbers -/

/-- A value without parts whose text is read back: a string, or a number of 64 bits. -/
def IsAtom : Json → Prop
  | .str _ => True
  | .num (.int n) => 0 ≤ n ∧ n < twoPow 64
  | _ => False

theorem isAtom_str (s : String) : IsAtom (.str s) := trivial

/-- The characters of a field. -/
def fieldChars (f : String × Json) : List Char :=
  (quoted f.1).toList ++ ':' :: f.2.compact.toList

/-- The characters of further fields. -/
def moreChars (fields : List (String × Json)) : List Char :=
  fields.flatMap fun f => ',' :: fieldChars f

theorem length_le_moreChars (fs : List (String × Json)) : fs.length ≤ (moreChars fs).length := by
  induction fs with
  | nil => simp
  | cons f fs ih =>
    simp only [moreChars, List.flatMap_cons, List.length_append, List.length_cons] at ih ⊢
    omega

theorem toList_compactFields (f : String × Json) (fs : List (String × Json)) :
    (compactFields (f :: fs)).toList = fieldChars f ++ moreChars fs := by
  induction fs generalizing f with
  | nil => simp [compactFields, fieldChars, moreChars]
  | cons g fs ih =>
    have := ih g
    simp only [compactFields, String.toList_append, fieldChars, moreChars,
      List.flatMap_cons] at this ⊢
    rw [this]
    simp

theorem value_quoted (s : String) (fuel depth : Nat) (rest : List Char) :
    value (fuel + 1) depth ((quoted s).toList ++ rest) = (.str s, some rest) := by
  have := string_escaped s rest
  simp [toList_quoted, value, skipGaps, isGap, this]

/-- **A string or a number is read back**, up to what follows it. -/
theorem value_atom {j : Json} (hj : j.IsAtom) {c : Char} (hc : IsSeparator c) (fuel depth : Nat)
    (rest : List Char) :
    value (fuel + 1) depth (j.compact.toList ++ c :: rest) = (j.toDraft, some (c :: rest)) := by
  cases j with
  | str s => exact value_quoted s fuel depth _
  | num n =>
    cases n with
    | float x => exact hj.elim
    | int n =>
      obtain ⟨n, rfl⟩ := Int.eq_ofNat_of_zero_le hj.1
      have hn : n < twoPow 64 := by exact_mod_cast hj.2
      have htext : (compact (.num (.int n))).toList = Nat.toDigits 10 n := Nat.toList_repr
      have hread := number_toDigits hn hc rest
      obtain ⟨d, cs, hd, hcs, -⟩ := exists_toDigits_eq_cons n
      rw [htext]
      refine Eq.trans ?_ hread
      rw [hcs, List.cons_append]
      -- a digit is neither a blank nor the beginning of anything but a number
      interval_cases d <;> rfl
  | null | bool _ | arr _ | obj _ => exact hj.elim

theorem objectFields_first {f : String × Json} (hf : f.2.IsAtom) {c : Char} (hc : IsSeparator c)
    (fuel depth : Nat) (acc : List (String × Draft)) (rest : List Char) :
    objectFields (fuel + 2) depth true acc (fieldChars f ++ c :: rest) =
      objectFields (fuel + 1) depth false ((f.1, f.2.toDraft) :: acc) (c :: rest) := by
  have hk := string_escaped f.1 (':' :: (f.2.compact.toList ++ c :: rest))
  have hv := value_atom hf hc fuel depth rest
  simp [objectFields, fieldChars, toList_quoted, hk, hv, skipGaps, isGap]

theorem objectFields_more {f : String × Json} (hf : f.2.IsAtom) {c : Char} (hc : IsSeparator c)
    (fuel depth : Nat) (acc : List (String × Draft)) (rest : List Char) :
    objectFields (fuel + 2) depth false acc (',' :: (fieldChars f ++ c :: rest)) =
      objectFields (fuel + 1) depth false ((f.1, f.2.toDraft) :: acc) (c :: rest) := by
  have hk := string_escaped f.1 (':' :: (f.2.compact.toList ++ c :: rest))
  have hv := value_atom hf hc fuel depth rest
  simp [objectFields, fieldChars, toList_quoted, hk, hv, skipGaps, isGap]

/-- Each of further fields, and then what ends the object, begins with a separator. -/
theorem exists_separator (fs : List (String × Json)) (rest : List Char) :
    ∃ c cs, IsSeparator c ∧ moreChars fs ++ '\x7d' :: rest = c :: cs := by
  cases fs with
  | nil => exact ⟨'\x7d', rest, .inr rfl, rfl⟩
  | cons f fs => exact ⟨',', _, .inl rfl, rfl⟩

theorem objectFields_moreChars {fs : List (String × Json)} (hfs : ∀ f ∈ fs, f.2.IsAtom)
    (fuel depth : Nat) (acc : List (String × Draft)) (rest : List Char) (h : fs.length < fuel) :
    objectFields (fuel + 1) depth false acc (moreChars fs ++ '\x7d' :: rest) =
      (.obj (acc.reverse ++ fieldsToDraft fs) .closed, some rest) := by
  induction fs generalizing fuel acc with
  | nil => simp [moreChars, objectFields, skipGaps, isGap, fieldsToDraft]
  | cons f fs ih =>
    obtain ⟨fuel, rfl⟩ := Nat.exists_eq_succ_of_ne_zero (Nat.ne_of_gt (Nat.zero_lt_of_lt h))
    obtain ⟨c, cs, hc, hcs⟩ := exists_separator fs rest
    have hm : moreChars (f :: fs) ++ '\x7d' :: rest = ',' :: (fieldChars f ++ c :: cs) := by
      rw [← hcs]
      simp [moreChars]
    rw [hm, objectFields_more (hfs f List.mem_cons_self) hc, ← hcs,
      ih fun g hg => hfs g (List.mem_cons_of_mem f hg)]
    · simp [fieldsToDraft]
    · simpa using h

/-- **An object of strings and numbers is read back from its compact text.** -/
theorem draftOf_compact_obj {f : String × Json} {fs : List (String × Json)}
    (h : ∀ g ∈ f :: fs, g.2.IsAtom) :
    draftOf (compact (.obj (f :: fs))) = (.obj (fieldsToDraft (f :: fs)) .closed, none) := by
  obtain ⟨text, htext⟩ : ∃ text, text = compact (.obj (f :: fs)) := ⟨_, rfl⟩
  obtain ⟨c, cs, hc, hcs⟩ := exists_separator fs []
  have hchars : text.toList = '\x7b' :: (fieldChars f ++ (moreChars fs ++ ['\x7d'])) := by
    rw [htext, compact, String.toList_append, String.toList_append, toList_compactFields]
    simp
  have hl := length_le_moreChars fs
  obtain ⟨n, hn, hlt⟩ : ∃ n, 2 * text.toList.length + 2 = n + 3 ∧ fs.length < n := by
    refine ⟨2 * text.toList.length - 1, ?_, ?_⟩ <;>
    · simp only [hchars, List.length_cons, List.length_append]
      omega
  have hv : value (n + 3) maxDepth text.toList =
      objectFields (n + 2) 127 true [] (fieldChars f ++ (moreChars fs ++ ['\x7d'])) := by
    rw [hchars]
    simp [value, skipGaps, isGap, maxDepth]
  have hfields : objectFields (n + 2) 127 true [] (fieldChars f ++ (moreChars fs ++ ['\x7d'])) =
      (.obj (fieldsToDraft (f :: fs)) .closed, some []) := by
    rw [hcs, objectFields_first (h f List.mem_cons_self) hc, ← hcs,
      objectFields_moreChars (fun g hg => h g (List.mem_cons_of_mem f hg)) _ _ _ _ hlt]
    simp [fieldsToDraft]
  rw [← htext]
  simp [draftOf, hn, hv, hfields, skipGaps]

/-! ### Objects of strings -/

/-- An object whose values are all strings. -/
def strings (fields : List (String × String)) : Json := .obj (fields.map fun (k, s) => (k, .str s))

/-- The drafts of its fields. -/
def stringDrafts (fields : List (String × String)) : List (String × Draft) :=
  fields.map fun (k, s) => (k, .str s)

theorem fieldsToDraft_strings (fields : List (String × String)) :
    fieldsToDraft (fields.map fun (k, s) => (k, .str s)) = stringDrafts fields := by
  induction fields with
  | nil => rfl
  | cons f fields ih => exact congrArg (_ :: ·) ih

/-- **An object of strings is read back from its compact text.** -/
theorem draftOf_compact (f : String × String) (fs : List (String × String)) :
    draftOf (strings (f :: fs)).compact = (.obj (stringDrafts (f :: fs)) .closed, none) := by
  have hatoms : ∀ g ∈ (f :: fs).map (fun (k, s) => (k, Json.str s)), g.2.IsAtom :=
    List.forall_mem_map.2 fun g _ => isAtom_str g.2
  rw [← fieldsToDraft_strings]
  exact draftOf_compact_obj hatoms

end Json

end DoubleEntry
