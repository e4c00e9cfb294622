import DoubleEntry.Proofs.Identifier
import Mathlib.Data.List.Induction
import Mathlib.Tactic.SplitIfs

/-!
# Spellings of identifiers

An identifier has four spellings: its 32 hexadecimal digits alone, in groups with hyphens between
them, and the groups in braces or after `urn:uuid:`.  Each may be written in either case.  These are
the texts that are read as the identifier, and there are no others (`Uuid.ofText?_eq_some_iff`).

## Main definitions

* `Uuid.Form`: the four spellings. `Uuid.Form.chars`: an identifier in one of them.
* `Uuid.Spells`: a text spells an identifier, in either case.

## Main results

* `Uuid.ofChars?_map_toLower`: the case of a text does not matter.
* `Uuid.ofText?_eq_some_iff`: the texts of an identifier are its spellings.
-/

namespace DoubleEntry

/-! ### Case -/

theorem forall_ascii {p : Char → Prop} (h : ∀ n < 128, p (Char.ofNat n)) {c : Char}
    (hc : c.toNat < 128) : p c := by
  have := h c.toNat hc
  rwa [Char.ofNat_toNat] at this

/-- A property of a character and its lower case is one of any character and itself, and of the
characters of ASCII. -/
theorem forall_toLower {p : Char → Char → Prop} (hself : ∀ c, p c c)
    (hascii : ∀ n < 128, p (Char.ofNat n) (Char.ofNat n).toLower) (c : Char) : p c c.toLower := by
  by_cases hc : c.toNat < 128
  · exact forall_ascii (p := fun c => p c c.toLower) hascii hc
  · have hlower : c.toLower = c := by
      refine dif_neg fun h => hc ?_
      have h90 : c.toNat ≤ 90 := h.2
      omega
    rw [hlower]
    exact hself c

theorem toLower_toLower (c : Char) : c.toLower.toLower = c.toLower :=
  forall_toLower (p := fun c l => c.toLower = l → l.toLower = l) (fun _ h => h)
    (by decide +kernel) c rfl

theorem hexValue?_toLower : ∀ c : Char, Json.hexValue? c.toLower = Json.hexValue? c :=
  forall_toLower (p := fun c l => Json.hexValue? l = Json.hexValue? c) (fun _ => rfl)
    (by decide +kernel)

theorem toLower_eq_iff {mark : Char} (h : mark ∈ ['-', '\x7b', '\x7d']) :
    ∀ c : Char, c.toLower = mark ↔ c = mark := by
  refine forall_toLower (p := fun c l => l = mark ↔ c = mark) (fun _ => Iff.rfl) ?_
  simp only [List.mem_cons, List.not_mem_nil, or_false] at h
  obtain rfl | rfl | rfl := h <;> decide +kernel

theorem map_toLower_eq_some_iff {mark : Char} (h : mark ∈ ['-', '\x7b', '\x7d'])
    {o : Option Char} : o.map Char.toLower = some mark ↔ o = some mark := by
  simp only [Option.map_eq_some_iff, toLower_eq_iff h, exists_eq_right]

theorem toLower_of_hexValue? {c : Char} {d : Nat} (h : Json.hexValue? c = some d) :
    d < 16 ∧ c.toLower = Json.hexDigit d := by
  have hc : c.toNat < 128 := by
    unfold Json.hexValue? at h
    split_ifs at h with h9 hf hF
    · exact lt_of_le_of_lt (show c.toNat ≤ '9'.toNat from h9.2) (by decide)
    · exact lt_of_le_of_lt (show c.toNat ≤ 'f'.toNat from hf.2) (by decide)
    · exact lt_of_le_of_lt (show c.toNat ≤ 'F'.toNat from hF.2) (by decide)
  exact forall_ascii
    (p := fun c => ∀ d ∈ Json.hexValue? c, d < 16 ∧ c.toLower = Json.hexDigit d)
    (by decide +kernel) hc d h

namespace Uuid

/-- How an identifier is spelled. -/
inductive Form where
  /-- The digits alone. -/
  | simple
  /-- The digits in groups. -/
  | hyphenated
  /-- The groups in braces. -/
  | braced
  /-- The groups as a name of a resource. -/
  | urn
deriving DecidableEq

/-- An identifier in a spelling, in lower case. -/
def Form.chars (u : Uuid) : Form → List Char
  | simple => hexDigits 32 u.bits
  | hyphenated => u.toChars
  | braced => '\x7b' :: u.toChars ++ ['\x7d']
  | urn => "urn:uuid:".toList ++ u.toChars

/-- The text spells the identifier, in either case. -/
def Spells (u : Uuid) (s : String) : Prop :=
  ∃ form : Form, s.toList.map Char.toLower = form.chars u

instance (u : Uuid) (s : String) : Decidable (u.Spells s) :=
  decidable_of_iff
    (∃ form ∈ [Form.simple, .hyphenated, .braced, .urn], s.toList.map Char.toLower = form.chars u)
    ⟨fun ⟨form, _, h⟩ => ⟨form, h⟩, fun ⟨form, h⟩ => ⟨form, by cases form <;> simp, h⟩⟩

variable {u : Uuid} {ns : List Nat} {cs ds : List Char}

/-! ### Digits -/

theorem ofDigits?_map_toLower (cs : List Char) :
    ofDigits? (cs.map Char.toLower) = ofDigits? cs := by
  simp only [ofDigits?, List.length_map, List.foldlM_map, hexValue?_toLower]

theorem map_toLower_of_foldlM {m : Nat}
    (h : cs.foldlM (fun n c => (Json.hexValue? c).map (n * 16 + ·)) 0 = some m) :
    m < 16 ^ cs.length ∧ cs.map Char.toLower = hexDigits cs.length m := by
  induction cs using List.reverseRecOn generalizing m with
  | nil =>
    cases h
    exact ⟨by decide, rfl⟩
  | append_singleton cs c ih =>
    rw [List.foldlM_append] at h
    obtain ⟨n, hn, h⟩ := Option.bind_eq_some_iff.1 h
    rw [List.foldlM_cons] at h
    obtain ⟨k, hk, h⟩ := Option.bind_eq_some_iff.1 h
    cases h
    obtain ⟨d, hd, rfl⟩ := Option.map_eq_some_iff.1 hk
    obtain ⟨hlt, hdigits⟩ := ih hn
    obtain ⟨hd16, hdigit⟩ := toLower_of_hexValue? hd
    have hdiv : (n * 16 + d) / 16 = n := by omega
    have hmod : (n * 16 + d) % 16 = d := by omega
    rw [List.length_append, List.length_singleton]
    constructor
    · rw [Nat.pow_succ]
      omega
    · rw [hexDigits, hdiv, hmod, List.map_append, hdigits, List.map_singleton, hdigit]

theorem ofDigits?_eq_some_iff :
    ofDigits? cs = some u ↔ cs.map Char.toLower = hexDigits 32 u.bits := by
  constructor
  · intro h
    unfold ofDigits? at h
    split_ifs at h with hlength
    obtain ⟨m, hm, rfl⟩ := Option.map_eq_some_iff.1 h
    obtain ⟨hlt, hdigits⟩ := map_toLower_of_foldlM hm
    rw [hlength] at hlt hdigits
    have hbits : (ofNat m).bits = m := Nat.mod_eq_of_lt (by simpa [twoPow] using hlt)
    rw [hdigits, hbits]
  · intro h
    rw [← ofDigits?_map_toLower, h, ofDigits?_hexDigits]

/-! ### Groups -/

theorem map_hyphenate (ns : List Nat) (cs : List Char) :
    (hyphenate ns cs).map Char.toLower = hyphenate ns (cs.map Char.toLower) := by
  have hmark : Char.toLower '-' = '-' := by decide
  induction ns generalizing cs with
  | nil => rfl
  | cons n ns ih =>
    cases ns with
    | nil => rfl
    | cons m ns =>
      simp only [hyphenate, List.map_append, List.map_cons, hmark, ih, List.map_take, List.map_drop]

theorem unhyphenate_of_hyphen {n m : Nat} {rest : List Char} (h : cs.drop n = '-' :: rest) :
    unhyphenate (n :: m :: ns) cs = (unhyphenate (m :: ns) rest).map (cs.take n ++ ·) := by
  rw [unhyphenate.eq_def]
  simp only [h]

theorem unhyphenate_of_head? {n m : Nat} (h : (cs.drop n).head? ≠ some '-') :
    unhyphenate (n :: m :: ns) cs = none := by
  rw [unhyphenate.eq_def]
  dsimp only
  split
  · rename_i rest hrest
    exact absurd (congrArg List.head? hrest) h
  · rfl

theorem eq_hyphenate (h : unhyphenate ns cs = some ds) :
    ds.length = ns.sum ∧ cs = hyphenate ns ds := by
  induction ns generalizing cs ds with
  | nil =>
    simp only [unhyphenate] at h
    split_ifs at h with hnil
    cases h
    exact ⟨rfl, List.isEmpty_iff.1 hnil⟩
  | cons n ns ih =>
    cases ns with
    | nil =>
      simp only [unhyphenate] at h
      split_ifs at h with hlength
      cases h
      exact ⟨by simpa using hlength, rfl⟩
    | cons m ns =>
      by_cases hhead : (cs.drop n).head? = some '-'
      · obtain ⟨rest, hrest⟩ := List.head?_eq_some_iff.1 hhead
        rw [unhyphenate_of_hyphen hrest] at h
        obtain ⟨es, hes, rfl⟩ := Option.map_eq_some_iff.1 h
        obtain ⟨hlength, rfl⟩ := ih hes
        have htake : (cs.take n).length = n := by
          have := congrArg List.length hrest
          rw [List.length_drop, List.length_cons] at this
          rw [List.length_take]
          omega
        refine ⟨by rw [List.length_append, htake, hlength, ← List.sum_cons], ?_⟩
        conv_lhs => rw [← List.take_append_drop n cs, hrest]
        rw [hyphenate.eq_def (n :: m :: ns)]
        simp only [List.take_left' htake, List.drop_left' htake]
      · rw [unhyphenate_of_head? hhead] at h
        cases h

theorem unhyphenate_map_toLower (ns : List Nat) (cs : List Char) :
    unhyphenate ns (cs.map Char.toLower) = (unhyphenate ns cs).map (List.map Char.toLower) := by
  have hmark : Char.toLower '-' = '-' := by decide
  induction ns generalizing cs with
  | nil => cases cs <;> rfl
  | cons n ns ih =>
    cases ns with
    | nil =>
      simp only [unhyphenate, List.length_map]
      split_ifs <;> rfl
    | cons m ns =>
      have hdrop : (cs.map Char.toLower).drop n = (cs.drop n).map Char.toLower := List.map_drop.symm
      by_cases hhead : (cs.drop n).head? = some '-'
      · obtain ⟨rest, hrest⟩ := List.head?_eq_some_iff.1 hhead
        rw [hrest, List.map_cons, hmark] at hdrop
        rw [unhyphenate_of_hyphen hrest, unhyphenate_of_hyphen hdrop, ih, ← List.map_take]
        simp only [Option.map_map, Function.comp_def, List.map_append]
      · have hhead' : ((cs.map Char.toLower).drop n).head? ≠ some '-' := by
          rwa [hdrop, List.head?_map, ne_eq, map_toLower_eq_some_iff (by simp)]
        rw [unhyphenate_of_head? hhead, unhyphenate_of_head? hhead', Option.map_none]

/-! ### Wrappings -/

theorem unwrap_of_head? (h : cs.head? ≠ some '\x7b') :
    unwrap cs = if (cs.take 9).map Char.toLower = "urn:uuid:".toList then cs.drop 9 else cs := by
  rw [unwrap]
  rintro rest rfl
  exact h rfl

theorem unwrap_map_toLower (cs : List Char) :
    unwrap (cs.map Char.toLower) = (unwrap cs).map Char.toLower := by
  by_cases hhead : cs.head? = some '\x7b'
  · obtain ⟨rest, rfl⟩ := List.head?_eq_some_iff.1 hhead
    have hmark : Char.toLower '\x7b' = '\x7b' := by decide
    have hlast : (rest.map Char.toLower).getLast? = some '\x7d' ↔ rest.getLast? = some '\x7d' := by
      rw [List.getLast?_map, map_toLower_eq_some_iff (by simp)]
    simp only [List.map_cons, hmark, unwrap, hlast]
    split_ifs
    · rw [List.map_dropLast]
    · rw [List.map_cons, hmark]
  · have hhead' : (cs.map Char.toLower).head? ≠ some '\x7b' := by
      rwa [List.head?_map, ne_eq, map_toLower_eq_some_iff (by simp)]
    have htwice : ((cs.take 9).map Char.toLower).map Char.toLower =
        (cs.take 9).map Char.toLower := by
      rw [List.map_map]
      exact List.map_congr_left fun c _ => toLower_toLower c
    rw [unwrap_of_head? hhead, unwrap_of_head? hhead', ← List.map_take, htwice]
    split_ifs
    · rw [List.map_drop]
    · rfl

/-- What may be wrapped around the groups of a text. -/
theorem unwrap_cases (cs : List Char) : cs = unwrap cs ∨ cs = '\x7b' :: unwrap cs ++ ['\x7d'] ∨
    cs.map Char.toLower = "urn:uuid:".toList ++ (unwrap cs).map Char.toLower := by
  by_cases hhead : cs.head? = some '\x7b'
  · obtain ⟨rest, rfl⟩ := List.head?_eq_some_iff.1 hhead
    simp only [unwrap]
    split_ifs with hlast
    · obtain ⟨inner, rfl⟩ := List.getLast?_eq_some_iff.1 hlast
      exact .inr (.inl (by rw [List.dropLast_concat, List.cons_append]))
    · exact .inl rfl
  · rw [unwrap_of_head? hhead]
    split_ifs with hurn
    · exact .inr (.inr (by rw [← hurn, ← List.map_append, List.take_append_drop]))
    · exact .inl rfl

/-! ### Texts -/

/-- **The case of a text** does not matter. -/
theorem ofChars?_map_toLower (cs : List Char) :
    ofChars? (cs.map Char.toLower) = ofChars? cs := by
  simp only [ofChars?, List.length_map, ofDigits?_map_toLower, unwrap_map_toLower,
    unhyphenate_map_toLower, Option.bind_map, Function.comp_def]

theorem Form.ofChars?_chars (u : Uuid) (form : Form) : ofChars? (form.chars u) = some u := by
  have hlength := length_toChars u
  have hgroups (cs : List Char) (hcs : cs.length ≠ 32) (h : unwrap cs = u.toChars) :
      ofChars? cs = some u := by
    rw [ofChars?, if_neg hcs, h, toChars, unhyphenate_hyphenate _ _ (length_hexDigits 32 _),
      Option.bind_some, ofDigits?_hexDigits]
  cases form with
  | simple =>
    have hdigits : (chars u simple).length = 32 := length_hexDigits 32 u.bits
    rw [ofChars?, if_pos hdigits]
    exact ofDigits?_hexDigits u
  | hyphenated => exact hgroups u.toChars (by rw [hlength]; decide) (unwrap_toChars u)
  | braced =>
    refine hgroups ('\x7b' :: u.toChars ++ ['\x7d']) (by simp [hlength]) ?_
    simp [unwrap]
  | urn =>
    have hnine : "urn:uuid:".toList.length = 9 := rfl
    refine hgroups ("urn:uuid:".toList ++ u.toChars) (by simp [hlength]) ?_
    rw [unwrap_of_head? (by simp), List.take_left' hnine, List.drop_left' hnine]
    exact if_pos (by decide)

/-- **The texts of an identifier** are its spellings. -/
theorem ofText?_eq_some_iff {s : String} : ofText? s = some u ↔ u.Spells s := by
  constructor
  · intro h
    unfold ofText? ofChars? at h
    split_ifs at h with hlength
    · exact ⟨.simple, ofDigits?_eq_some_iff.1 h⟩
    · obtain ⟨ds, hds, h⟩ := Option.bind_eq_some_iff.1 h
      have hbody : (unwrap s.toList).map Char.toLower = u.toChars := by
        rw [(eq_hyphenate hds).2, map_hyphenate, ofDigits?_eq_some_iff.1 h, toChars]
      obtain hwrap | hwrap | hwrap := unwrap_cases s.toList
      · refine ⟨.hyphenated, ?_⟩
        rw [hwrap, hbody]
        rfl
      · have hmarks : Char.toLower '\x7b' = '\x7b' ∧ Char.toLower '\x7d' = '\x7d' := by decide
        refine ⟨.braced, ?_⟩
        rw [hwrap, List.map_append, List.map_cons, hbody, hmarks.1, List.map_singleton, hmarks.2]
        rfl
      · refine ⟨.urn, ?_⟩
        rw [hwrap, hbody]
        rfl
  · rintro ⟨form, h⟩
    rw [ofText?, ← ofChars?_map_toLower, h, form.ofChars?_chars]

/-! ### Characters -/

/-- The characters of spellings, in lower case. -/
def alphabet : List Char := "0123456789abcdef-\x7burn:uuid:\x7d".toList

theorem Form.mem_alphabet {form : Form} {c : Char} (h : c ∈ form.chars u) : c ∈ alphabet := by
  have hdigit {c : Char} (h : c ∈ hexDigits 32 u.bits) : c ∈ alphabet := by
    obtain ⟨d, hd, rfl⟩ := exists_of_mem_hexDigits h
    interval_cases d <;> decide
  have hgroups {c : Char} (h : c ∈ u.toChars) : c ∈ alphabet := by
    obtain rfl | h := mem_hyphenate h
    · decide
    · exact hdigit h
  have hmarks : '\x7b' ∈ alphabet ∧ '\x7d' ∈ alphabet ∧ "urn:uuid:".toList ⊆ alphabet := by decide
  cases form with
  | simple => exact hdigit h
  | hyphenated => exact hgroups h
  | braced =>
    have h : c ∈ '\x7b' :: u.toChars ++ ['\x7d'] := h
    simp only [List.mem_cons, List.mem_append, List.not_mem_nil, or_false] at h
    obtain (rfl | h) | rfl := h
    · exact hmarks.1
    · exact hgroups h
    · exact hmarks.2.1
  | urn =>
    have h : c ∈ "urn:uuid:".toList ++ u.toChars := h
    obtain h | h := List.mem_append.1 h
    · exact hmarks.2.2 h
    · exact hgroups h

theorem Form.length_chars_le (u : Uuid) (form : Form) : (form.chars u).length ≤ 45 := by
  have hdigits := length_hexDigits 32 u.bits
  have hgroups := length_toChars u
  cases form with
  | simple => exact hdigits.le.trans (by decide)
  | hyphenated => exact hgroups.le.trans (by decide)
  | braced =>
    have hlength : ('\x7b' :: u.toChars ++ ['\x7d']).length = 38 := by simp [hgroups]
    exact hlength.le.trans (by decide)
  | urn =>
    have hlength : ("urn:uuid:".toList ++ u.toChars).length = 45 := by simp [hgroups]
    exact hlength.le

theorem Spells.length_le {s : String} (h : u.Spells s) : s.toList.length ≤ 45 := by
  obtain ⟨form, h⟩ := h
  rw [← List.length_map, h]
  exact form.length_chars_le u

theorem Spells.forall_mem {s : String} (h : u.Spells s) {p : Char → Prop}
    (hlower : ∀ c ∈ alphabet, p c)
    (hascii : ∀ n < 128, (Char.ofNat n).toLower ∈ alphabet → p (Char.ofNat n)) :
    ∀ c ∈ s.toList, p c := by
  obtain ⟨form, h⟩ := h
  intro c hc
  have hmem : c.toLower ∈ form.chars u := h ▸ List.mem_map_of_mem hc
  exact forall_toLower (p := fun c l => l ∈ alphabet → p c) hlower hascii c
    (Form.mem_alphabet hmem)

end Uuid

end DoubleEntry
