import DoubleEntry.Proofs.FormText
import DoubleEntry.Proofs.Spelling

/-!
# Paths are taken apart

A path is written as segments after slashes.  A request for it at the address of a server asks for
these segments, each of them percent-encoded, whatever stands in the segments but signs that have a
meaning in an address.  Identifiers are such segments in all of their forms.

## Main definitions

* `IsPlain`: characters with no meaning in an address. `pathOf`: the path of some segments.
* `Address.IsServer`: the address of a server, with no path of its own.

## Main results

* `Uuid.isPlain_of_ofText?`: the spellings of an identifier are plain.
* `Uri.segments_pathOf`: the segments of a path are found again.
* `Address.ofText?_pathOf`: the address of a path at a server.
-/

namespace DoubleEntry

/-- A visible character with no meaning in an address. -/
def IsPlain (c : Char) : Prop := 32 < c.toNat ∧ c.toNat < 127 ∧ c ∉ ['%', '/', '\\', '?', '#']

instance : DecidablePred IsPlain := fun _ => inferInstanceAs (Decidable (_ ∧ _))

theorem IsPlain.isAscii {cs : List Char} (h : ∀ c ∈ cs, IsPlain c) : IsAscii cs :=
  fun c hc => (h c hc).2.1.trans (by decide)

theorem IsPlain.not_mem {cs : List Char} (h : ∀ c ∈ cs, IsPlain c) {d : Char} (hd : ¬IsPlain d) :
    d ∉ cs :=
  fun hmem => hd (h d hmem)

theorem IsPlain.ne {c : Char} (h : IsPlain c) : c ≠ '?' ∧ c ≠ '#' := by
  constructor <;>
  · rintro rfl
    exact absurd h (by decide)

theorem isPlain_of_all {s : String} (h : s.toList.all (fun c => decide (IsPlain c)) = true) :
    ∀ c ∈ s.toList, IsPlain c :=
  fun c hc => of_decide_eq_true (List.all_eq_true.1 h c hc)

/-! ### Identifiers -/

namespace Uuid

/-- **The spellings of an identifier** have no character with a meaning in an address. -/
theorem isPlain_of_ofText? {s : String} (h : (ofText? s).isSome = true) :
    ∀ c ∈ s.toList, IsPlain c := by
  obtain ⟨u, hu⟩ := Option.isSome_iff_exists.1 h
  have hlower : (alphabet.all fun c => decide (IsPlain c)) = true := by decide
  exact (ofText?_eq_some_iff.1 hu).forall_mem
    (fun c hc => of_decide_eq_true (List.all_eq_true.1 hlower c hc)) (by decide +kernel)

theorem isEmpty_toText (u : Uuid) : u.toText.isEmpty = false := by
  rw [String.isEmpty_eq_false_iff]
  intro h
  have hlength := congrArg (fun s => s.toList.length) h
  simp [toText, length_toChars] at hlength

theorem isPlain_toText (u : Uuid) : ∀ c ∈ u.toText.toList, IsPlain c :=
  isPlain_of_ofText? (by rw [ofText?_toText]; rfl)

end Uuid

/-! ### Paths -/

/-- The path of some segments. -/
def pathOf (segments : List String) : String := "/" ++ "/".intercalate segments

theorem toList_pathOf (segments : List String) :
    (pathOf segments).toList = '/' :: ['/'].intercalate (segments.map String.toList) := by
  simp [pathOf, String.toList_intercalate]

theorem eq_pathOf {s : String} {segments : List String}
    (h : s.toList = '/' :: ['/'].intercalate (segments.map String.toList)) : s = pathOf segments :=
  String.toList_inj.1 (h.trans (toList_pathOf segments).symm)

theorem mem_pathOf {segments : List String} {c : Char} (h : c ∈ (pathOf segments).toList) :
    c = '/' ∨ ∃ s ∈ segments, c ∈ s.toList := by
  rw [toList_pathOf, List.mem_cons] at h
  obtain h | h := h
  · exact .inl h
  · obtain h | ⟨p, hp, hc⟩ := Uri.mem_intercalate h
    · exact .inl h
    · obtain ⟨s, hs, rfl⟩ := List.mem_map.1 hp
      exact .inr ⟨s, hs, hc⟩

theorem isEmpty_pathOf (segments : List String) : (pathOf segments).isEmpty = false := by
  rw [String.isEmpty_eq_false_iff]
  intro h
  have := toList_pathOf segments
  rw [h] at this
  cases this

theorem ne_of_mem_pathOf {segments : List String}
    (h : ∀ s ∈ segments, ∀ c ∈ s.toList, c ≠ '?' ∧ c ≠ '#') {c : Char}
    (hc : c ∈ (pathOf segments).toList) : c ≠ '?' ∧ c ≠ '#' := by
  obtain rfl | ⟨s, hs, hc⟩ := mem_pathOf hc
  · decide
  · exact h s hs c hc

/-- **The segments of a path are found again.** -/
theorem Uri.segments_pathOf {segments : List String} (hne : segments ≠ [])
    (h : ∀ s ∈ segments, '/' ∉ s.toList) (query : String) :
    Uri.segments ⟨pathOf segments, query⟩ = segments := by
  obtain ⟨s, ss, rfl⟩ := List.exists_cons_of_ne_nil hne
  rw [Uri.segments, toList_pathOf]
  have hmarks : ∀ p ∈ (s :: ss).map String.toList, '/' ∉ p := List.forall_mem_map.2 h
  have hsplit := splitAll_intercalate hmarks
  simp only [List.map_cons, hsplit, String.ofList_toList, List.map_map, Function.comp_def,
    List.map_id']

/-! ### Percent-encoding -/

theorem percentEncode_append (keeps : Char → Bool) (s t : String) :
    percentEncode keeps (s ++ t) = percentEncode keeps s ++ percentEncode keeps t := by
  rw [percentEncode_eq, percentEncode_eq, percentEncode_eq, utf8_eq_flatMap, utf8_eq_flatMap,
    utf8_eq_flatMap, String.toList_append, List.flatMap_append, List.flatMap_append,
    String.ofList_append]

theorem percentEncode_of_keeps {keeps : Char → Bool} {s : String}
    (h : ∀ c ∈ s.toList, c.toNat < 128 ∧ keeps c = true) : percentEncode keeps s = s := by
  obtain ⟨cs, rfl⟩ : ∃ cs, s = String.ofList cs := ⟨s.toList, String.ofList_toList.symm⟩
  rw [String.toList_ofList] at h
  rw [percentEncode_eq, utf8_ofList fun c hc => (h c hc).1]
  congr 1
  induction cs with
  | nil => rfl
  | cons c cs ih =>
    obtain ⟨⟨hc, hkeep⟩, hcs⟩ := List.forall_mem_cons.1 h
    have hbyte : encodeByte keeps (UInt8.ofNat c.toNat) = [c] := by
      have hlt : UInt8.ofNat c.toNat < 0x80 := by
        rw [UInt8.lt_iff_toNat_lt, toNat_ofNat_of_lt hc]
        exact hc
      simp only [encodeByte, ofNat_toNat_byte hc, hlt, hkeep, decide_true, Bool.and_self, if_true]
    rw [asciiBytes_cons, List.flatMap_cons, hbyte, ih hcs, List.singleton_append]

theorem Uri.segmentText?_of_isPlain {s : String} (h : ∀ c ∈ s.toList, IsPlain c) :
    Uri.segmentText? s = some s := by
  have hascii := IsPlain.isAscii h
  have hsame : percentEncode (fun _ => true) s = s :=
    percentEncode_of_keeps fun c hc => ⟨hascii c hc, rfl⟩
  have hread : segmentText? (percentEncode (fun _ => true) s) = some s :=
    segmentText?_percentEncode hascii (IsPlain.not_mem h (by decide))
  rwa [hsame] at hread

/-- A percent-encoded text of a path has no slash of its own, and no sign that ends a path. -/
theorem encodeByte_inPath : ∀ n < 128, (encodeByte Address.inPath (UInt8.ofNat n)).all
    (fun c => decide (c ≠ '?' ∧ c ≠ '#' ∧ (c = '/' → Char.ofNat n = '/'))) = true := by
  decide +kernel

theorem mem_percentEncode {s : String} (h : IsAscii s.toList) {c : Char}
    (hc : c ∈ (percentEncode Address.inPath s).toList) :
    c ≠ '?' ∧ c ≠ '#' ∧ (c = '/' → '/' ∈ s.toList) := by
  obtain ⟨cs, rfl⟩ : ∃ cs, s = String.ofList cs := ⟨s.toList, String.ofList_toList.symm⟩
  rw [String.toList_ofList] at h ⊢
  rw [percentEncode_eq, utf8_ofList h, String.toList_ofList] at hc
  obtain ⟨b, hb, hc⟩ := List.mem_flatMap.1 hc
  obtain ⟨d, hd, rfl⟩ := List.mem_map.1 hb
  obtain ⟨hquery, hhash, hslash⟩ : c ≠ '?' ∧ c ≠ '#' ∧ (c = '/' → Char.ofNat d.toNat = '/') :=
    of_decide_eq_true (List.all_eq_true.1 (encodeByte_inPath d.toNat (h d hd)) c hc)
  refine ⟨hquery, hhash, fun heq => ?_⟩
  have := hslash heq
  rw [Char.ofNat_toNat] at this
  exact this ▸ hd

theorem percentEncode_pathOf (segments : List String) :
    percentEncode Address.inPath (pathOf segments) =
      pathOf (segments.map (percentEncode Address.inPath)) := by
  have hslash : percentEncode Address.inPath "/" = "/" := by decide +kernel
  have hjoin : percentEncode Address.inPath ("/".intercalate segments) =
      "/".intercalate (segments.map (percentEncode Address.inPath)) := by
    induction segments with
    | nil => decide +kernel
    | cons s ss ih =>
      cases ss with
      | nil => simp
      | cons t ts =>
        rw [List.map_cons, List.map_cons, String.intercalate_cons_cons,
          String.intercalate_cons_cons, percentEncode_append, percentEncode_append, hslash, ih,
          List.map_cons]
  rw [pathOf, percentEncode_append, hslash, hjoin, pathOf]

/-! ### Addresses -/

namespace Address

/-- The address of a server, with no path of its own. -/
def IsServer (address : String) : Prop :=
  ∃ (scheme : String) (authority : List Char), scheme ∈ ["http", "https"] ∧
    address = scheme ++ "://" ++ String.ofList authority ∧ (hostOf? authority).isSome = true ∧
    ∀ c ∈ authority, 32 < c.toNat ∧ c ∉ ['/', '\\', '?', '#']

theorem significant_of_forall {s : String} (h : ∀ c ∈ s.toList, 32 < c.toNat) :
    significant s = s.toList := by
  have hdrop : ∀ cs : List Char, (∀ c ∈ cs, 32 < c.toNat) →
      cs.dropWhile (fun c => decide (c.toNat ≤ 32)) = cs := by
    intro cs hcs
    cases cs with
    | nil => rfl
    | cons c cs =>
      have hc := hcs c List.mem_cons_self
      exact List.dropWhile_cons_of_neg (by simpa using hc)
  have hfilter : ∀ c ∈ s.toList, (!(['\t', '\n', '\r'].contains c)) = true := by
    intro c hc
    have hgt := h c hc
    have hne : ∀ d : Char, d.toNat ≤ 32 → c ≠ d := by
      rintro d hd rfl
      omega
    simp [hne '\t' (by decide), hne '\n' (by decide), hne '\r' (by decide)]
  simp only [significant, hdrop _ h, hdrop _ fun c hc => h c (List.mem_reverse.1 hc),
    List.reverse_reverse, List.filter_eq_self.2 hfilter]

theorem afterScheme?_eq {scheme : String} (hscheme : scheme ∈ ["http", "https"]) {c : Char}
    (hc : c ∉ ['/', '\\']) (rest : List Char) :
    afterScheme? (scheme.toList ++ ':' :: '/' :: '/' :: c :: rest) = some (c :: rest) := by
  have hcolon : ':' ∉ scheme.toList :=
    (by decide : ∀ s ∈ ["http", "https"], ':' ∉ s.toList) scheme hscheme
  have hlower : ["http", "https"].contains (String.ofList (scheme.toList.map Char.toLower)) :=
    (by decide : ∀ s ∈ ["http", "https"],
      ["http", "https"].contains (String.ofList (s.toList.map Char.toLower)) = true) scheme hscheme
  have hmem : (scheme.toList ++ ':' :: '/' :: '/' :: c :: rest).contains ':' = true := by simp
  obtain ⟨hslash, hback⟩ : c ≠ '/' ∧ c ≠ '\\' := by simpa using hc
  simp only [afterScheme?, Uri.cutAt_append hcolon, hlower, hmem, Bool.and_self, if_true]
  simp [hslash, hback]

theorem cut_authority {authority : List Char} (h : ∀ c ∈ authority, c ∉ ['/', '\\', '?', '#'])
    (cs : List Char) :
    (authority ++ '/' :: cs).takeWhile (fun c => !(['/', '\\', '?', '#'].contains c)) = authority ∧
      (authority ++ '/' :: cs).dropWhile (fun c => !(['/', '\\', '?', '#'].contains c)) =
        '/' :: cs := by
  have hpos : ∀ c ∈ authority, (!(['/', '\\', '?', '#'].contains c)) = true := by
    intro c hc
    simpa using h c hc
  rw [List.takeWhile_append_of_pos hpos, List.dropWhile_append_of_pos hpos]
  simp

theorem significant_address {scheme : String} (hscheme : scheme ∈ ["http", "https"])
    {authority cs : List Char} (hauthority : ∀ c ∈ authority, 32 < c.toNat)
    (hcs : ∀ c ∈ cs, 32 < c.toNat) :
    significant (scheme ++ "://" ++ String.ofList authority ++ String.ofList ('/' :: cs)) =
      scheme.toList ++ ':' :: '/' :: '/' :: (authority ++ '/' :: cs) := by
  have hvisible : ∀ s ∈ ["http", "https"], s.toList.all (fun d => decide (32 < d.toNat)) = true :=
    by decide
  have hmark : "://".toList.all (fun d => decide (32 < d.toNat)) = true := by decide
  rw [significant_of_forall]
  · simp
  · intro d hd
    simp only [String.toList_append, String.toList_ofList, List.mem_append] at hd
    obtain ((hd | hd) | hd) | hd := hd
    · exact of_decide_eq_true (List.all_eq_true.1 (hvisible scheme hscheme) d hd)
    · exact of_decide_eq_true (List.all_eq_true.1 hmark d hd)
    · exact hauthority d hd
    · obtain rfl | hd := List.mem_cons.1 hd
      · decide
      · exact hcs d hd

theorem ofText?_eq {scheme : String} (hscheme : scheme ∈ ["http", "https"])
    {authority cs : List Char} {host : String} {number : Option Nat}
    (hhost : hostOf? authority = some (host, number))
    (hauthority : ∀ c ∈ authority, 32 < c.toNat ∧ c ∉ ['/', '\\', '?', '#'])
    (hcs : ∀ c ∈ cs, 32 < c.toNat ∧ c ∉ ['\\', '?', '#'])
    (hne : (percentEncode inPath (String.ofList ('/' :: cs))).isEmpty = false) :
    ofText? (scheme ++ "://" ++ String.ofList authority ++ String.ofList ('/' :: cs)) =
      some ⟨host, number, percentEncode inPath (String.ofList ('/' :: cs)), none⟩ := by
  obtain ⟨c, rest, rfl⟩ : ∃ c rest, authority = c :: rest :=
    List.exists_cons_of_ne_nil (by rintro rfl; cases hhost)
  have hsig := significant_address hscheme (fun d hd => (hauthority d hd).1)
    (fun d hd => (hcs d hd).1)
  have hfirst : c ∉ ['/', '\\'] := fun hmem =>
    (hauthority c List.mem_cons_self).2 (List.mem_append_left ['?', '#'] hmem)
  have hafter := afterScheme?_eq hscheme hfirst (rest ++ '/' :: cs)
  rw [← List.cons_append] at hafter
  obtain ⟨htake, hdrop⟩ := cut_authority (fun d hd => (hauthority d hd).2) cs
  have hpath : ∀ d ∈ '/' :: cs, d ∉ ['\\', '?', '#'] :=
    List.forall_mem_cons.2 ⟨by decide, fun d hd => (hcs d hd).2⟩
  have hhash : '#' ∉ '/' :: cs := fun hmem => hpath _ hmem (by decide)
  have hquery : '?' ∉ '/' :: cs := fun hmem => hpath _ hmem (by decide)
  have hslashes : ('/' :: cs).map (fun c => if c = '\\' then '/' else c) = '/' :: cs := by
    refine (List.map_congr_left fun d hd => if_neg ?_).trans (List.map_id _)
    rintro rfl
    exact hpath _ hd (by decide)
  have hnone : ('/' :: cs).contains '?' = false := by simpa using hquery
  simp only [ofText?, hsig, hafter, htake, hdrop, hhost, Option.bind_eq_bind, Option.bind_some,
    Uri.cutAt_of_not_mem hhash, Uri.cutAt_of_not_mem hquery, hslashes, hne, hnone]
  rfl

/-- **A path at a server** is what follows the address of the server. -/
theorem ofText?_pathOf {address : String} (h : IsServer address) {segments : List String}
    (hplain : ∀ s ∈ segments, ∀ c ∈ s.toList, IsPlain c) :
    ∃ host number, ofText? (address ++ pathOf segments) =
      some ⟨host, number, pathOf (segments.map (percentEncode inPath)), none⟩ := by
  obtain ⟨scheme, authority, hscheme, rfl, hhost, hauthority⟩ := h
  obtain ⟨⟨host, number⟩, hhost⟩ := Option.isSome_iff_exists.1 hhost
  have hpath : pathOf segments =
      String.ofList ('/' :: ['/'].intercalate (segments.map String.toList)) := by
    rw [← toList_pathOf, String.ofList_toList]
  have hne : (percentEncode inPath (pathOf segments)).isEmpty = false := by
    rw [percentEncode_pathOf]
    exact isEmpty_pathOf _
  refine ⟨host, number, ?_⟩
  rw [← percentEncode_pathOf]
  rw [hpath] at hne ⊢
  refine ofText?_eq hscheme hhost hauthority (fun c hc => ?_) hne
  obtain rfl | ⟨p, hp, hc⟩ := Uri.mem_intercalate hc
  · decide
  · obtain ⟨s, hs, rfl⟩ := List.mem_map.1 hp
    obtain ⟨hgt, -, hmem⟩ := hplain s hs c hc
    exact ⟨hgt, fun h => hmem (List.mem_cons_of_mem _ (List.mem_cons_of_mem _ h))⟩

end Address

end DoubleEntry
