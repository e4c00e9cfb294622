import DoubleEntry.Http.Address
import DoubleEntry.Proofs.Identifier
import Mathlib.Tactic.SplitIfs

/-!
# Texts of single bytes

In a text of characters below 128 every character is one byte, which is read back as that character.
What an address cannot hold is percent-encoded in such characters, and stands again where it is
decoded.

## Main definitions

* `IsAscii`: characters of one byte. `asciiBytes`: their bytes.

## Main results

* `Utf8.decode?_ascii`, `Utf8.decodeLossy_ascii`: the bytes are read back.
* `percentDecode_flatMap`: what is percent-encoded is decoded.
-/

namespace DoubleEntry

/-- Every character is one byte. -/
def IsAscii (cs : List Char) : Prop := ∀ c ∈ cs, c.toNat < 128

instance : DecidablePred IsAscii := fun cs => inferInstanceAs (Decidable (∀ c ∈ cs, _))

/-- The bytes of such characters. -/
def asciiBytes (cs : List Char) : List UInt8 := cs.map fun c => UInt8.ofNat c.toNat

@[simp] theorem asciiBytes_nil : asciiBytes [] = [] := rfl

@[simp] theorem asciiBytes_cons (c : Char) (cs : List Char) :
    asciiBytes (c :: cs) = UInt8.ofNat c.toNat :: asciiBytes cs := rfl

@[simp] theorem asciiBytes_append (cs cs' : List Char) :
    asciiBytes (cs ++ cs') = asciiBytes cs ++ asciiBytes cs' := List.map_append

@[simp] theorem isAscii_nil : IsAscii [] := List.forall_mem_nil _

@[simp] theorem isAscii_cons {c : Char} {cs : List Char} :
    IsAscii (c :: cs) ↔ c.toNat < 128 ∧ IsAscii cs := List.forall_mem_cons

@[simp] theorem isAscii_append {cs cs' : List Char} :
    IsAscii (cs ++ cs') ↔ IsAscii cs ∧ IsAscii cs' := List.forall_mem_append

theorem toNat_ofNat_of_lt {c : Char} (h : c.toNat < 128) : (UInt8.ofNat c.toNat).toNat = c.toNat :=
  UInt8.toNat_ofNat_of_lt' (lt_trans h (by decide))

theorem ofNat_toNat_byte {c : Char} (h : c.toNat < 128) :
    Char.ofNat (UInt8.ofNat c.toNat).toNat = c := by
  rw [toNat_ofNat_of_lt h, Char.ofNat_toNat]

theorem toNat_ofNat_char : ∀ n < 128, (Char.ofNat n).toNat = n := by decide

/-! ### Bytes of texts -/

theorem toList_loop (bs : ByteArray) (i : Nat) (r : List UInt8) :
    ByteArray.toList.loop bs i r = r.reverse ++ bs.data.toList.drop i := by
  induction i, r using ByteArray.toList.loop.induct bs with
  | case1 i r hlt ih =>
    have hlen : i < bs.data.toList.length := by simpa using hlt
    have hget : bs.get! i = bs.data.toList[i] := by
      simp only [ByteArray.get!, Array.getElem_toList]
      exact getElem!_pos bs.data i hlt
    rw [ByteArray.toList.loop, if_pos hlt, ih, List.drop_eq_getElem_cons hlen, hget]
    simp
  | case2 i r hge =>
    have hlen : bs.data.toList.length ≤ i := by simpa using hge
    rw [ByteArray.toList.loop, if_neg hge, List.drop_eq_nil_of_le hlen, List.append_nil]

theorem utf8_eq_flatMap (s : String) : utf8 s = s.toList.flatMap String.utf8EncodeChar := by
  have hloop := toList_loop s.toUTF8 0 []
  rw [List.reverse_nil, List.nil_append, List.drop_zero] at hloop
  have hbytes : s.toUTF8 = s.toList.utf8Encode := String.utf8Encode_toList.symm
  rw [utf8, ByteArray.toList, hloop, hbytes, List.utf8Encode]
  simp

theorem utf8_ofList {cs : List Char} (h : IsAscii cs) :
    utf8 (String.ofList cs) = asciiBytes cs := by
  rw [utf8_eq_flatMap, String.toList_ofList]
  induction cs with
  | nil => rfl
  | cons c cs ih =>
    obtain ⟨hc, hcs⟩ := List.forall_mem_cons.1 h
    have hone : String.utf8EncodeChar c = [UInt8.ofNat c.toNat] := by
      have hval : c.val.toNat ≤ 0x7f := Nat.le_of_lt_succ hc
      rw [String.utf8EncodeChar]
      exact if_pos hval
    rw [List.flatMap_cons, hone, ih hcs]
    rfl

namespace Utf8

theorem pieces_ascii {cs : List Char} (h : IsAscii cs) :
    pieces (asciiBytes cs).length (asciiBytes cs) = cs.map some := by
  induction cs with
  | nil => rfl
  | cons c cs ih =>
    obtain ⟨hc, hcs⟩ := List.forall_mem_cons.1 h
    have hlead : lead? (UInt8.ofNat c.toNat).toNat = some (0, 0x80, 0xbf, c.toNat) := by
      rw [toNat_ofNat_of_lt hc, lead?, if_pos hc]
    rw [asciiBytes_cons, List.length_cons, pieces, hlead]
    simp only [tail, Char.ofNat_toNat, ih hcs, List.map_cons]

/-- **The bytes of a text of single bytes** are read. -/
theorem decode?_ascii {cs : List Char} (h : IsAscii cs) :
    decode? (asciiBytes cs) = some (String.ofList cs) := by
  have hread : (cs.map some).mapM (m := Option) id = some cs := by
    induction cs with
    | nil => rfl
    | cons c cs ih =>
      rw [List.map_cons, List.mapM_cons, ih (List.forall_mem_cons.1 h).2]
      rfl
  rw [decode?, pieces_ascii h, hread]
  rfl

theorem decodeLossy_ascii {cs : List Char} (h : IsAscii cs) :
    decodeLossy (asciiBytes cs) = String.ofList cs := by
  rw [decodeLossy, pieces_ascii h, List.map_map]
  exact congrArg String.ofList (List.map_id _)

end Utf8

/-! ### Percent signs -/

/-- A byte as it stands in an address: itself, or percent-encoded. -/
def encodeByte (keeps : Char → Bool) (b : UInt8) : List Char :=
  let c := Char.ofNat b.toNat
  if b < 0x80 && keeps c then [c] else percentByte b

theorem percentEncode_eq (keeps : Char → Bool) (s : String) :
    percentEncode keeps s = String.ofList ((utf8 s).flatMap (encodeByte keeps)) := rfl

theorem hexValue?_toUpper : ∀ n < 16, Json.hexValue? (Json.hexDigit n).toUpper = some n ∧
    (Json.hexDigit n).toUpper.toNat < 128 ∧ (Json.hexDigit n).toUpper ≠ '+' := by decide

theorem isAscii_percentByte (b : UInt8) : IsAscii (percentByte b) := by
  have hb : b.toNat < 256 := b.toNat_lt
  have hhigh := (hexValue?_toUpper (b.toNat / 16) (by omega)).2.1
  have hlow := (hexValue?_toUpper (b.toNat % 16) (by omega)).2.1
  simpa [IsAscii, percentByte] using ⟨hhigh, hlow⟩

theorem percentDecode_percentByte (b : UInt8) (rest : List UInt8) :
    percentDecode (asciiBytes (percentByte b) ++ rest) = b :: percentDecode rest := by
  have hb : b.toNat < 256 := b.toNat_lt
  obtain ⟨hhigh, hhigh', -⟩ := hexValue?_toUpper (b.toNat / 16) (by omega)
  obtain ⟨hlow, hlow', -⟩ := hexValue?_toUpper (b.toNat % 16) (by omega)
  have hbits : b.toNat / 16 * 16 + b.toNat % 16 = b.toNat := Nat.div_add_mod' _ _
  have hsign : UInt8.ofNat '%'.toNat = 0x25 := rfl
  simp only [percentByte, asciiBytes_cons, asciiBytes_nil, hsign, List.cons_append, List.nil_append,
    percentDecode, ofNat_toNat_byte hhigh', ofNat_toNat_byte hlow', hhigh, hlow, hbits,
    UInt8.ofNat_toNat]

theorem percentDecode_cons {b : UInt8} (hb : b ≠ 0x25) (rest : List UInt8) :
    percentDecode (b :: rest) = b :: percentDecode rest := by
  rw [percentDecode]
  rintro a c rest' rfl
  exact absurd rfl hb

theorem isAscii_encodeByte (keeps : Char → Bool) (b : UInt8) : IsAscii (encodeByte keeps b) := by
  unfold encodeByte
  dsimp only
  split_ifs with h
  · rw [Bool.and_eq_true, decide_eq_true_eq] at h
    have hb : b.toNat < 128 := h.1
    simpa [IsAscii, toNat_ofNat_char _ hb] using hb
  · exact isAscii_percentByte b

/-- **What is percent-encoded is decoded**, where percent signs are encoded or there are none. -/
theorem percentDecode_flatMap {keeps : Char → Bool} {bytes : List UInt8}
    (h : ∀ b ∈ bytes, b = 0x25 → keeps '%' = false) :
    percentDecode (asciiBytes (bytes.flatMap (encodeByte keeps))) = bytes := by
  induction bytes with
  | nil => rfl
  | cons b bytes ih =>
    obtain ⟨hb, hbytes⟩ := List.forall_mem_cons.1 h
    rw [List.flatMap_cons, asciiBytes_append]
    by_cases hkeep : b < 0x80 && keeps (Char.ofNat b.toNat)
    · have hsign : b ≠ 0x25 := by
        rintro rfl
        exact absurd hkeep (by simpa using hb rfl)
      rw [Bool.and_eq_true, decide_eq_true_eq] at hkeep
      have hlt : b.toNat < 128 := hkeep.1
      have hone : asciiBytes (encodeByte keeps b) = [b] := by
        rw [encodeByte, if_pos (by simpa using hkeep), asciiBytes_cons, toNat_ofNat_char _ hlt,
          UInt8.ofNat_toNat]
        rfl
      rw [hone, List.singleton_append, percentDecode_cons hsign, ih hbytes]
    · rw [encodeByte, if_neg hkeep, percentDecode_percentByte, ih hbytes]

end DoubleEntry
