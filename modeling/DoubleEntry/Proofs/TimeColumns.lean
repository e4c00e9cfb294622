import DoubleEntry.Proofs.KeptRows
import DoubleEntry.Proofs.LenientText

/-!
# Columns of times

Tables hold times as texts and compare them as bytes.  A time is written down to the microsecond, in
characters of one byte at fixed places, so in the years of four digits the bytes are in the order of
the microseconds, two times have one text only in the same microsecond, and the text is read back as
the start of it (`Instant.microText_inOrder`).  This holds of leap seconds as well.

## Main results

* `asciiBytes_lt_iff`: characters of one byte are compared as their bytes are.
* `Instant.isAscii_microText`: times are written in such characters.
-/

namespace DoubleEntry

theorem byte_lt_iff {c c' : Char} (h : c.toNat < 128) (h' : c'.toNat < 128) :
    UInt8.ofNat c.toNat < UInt8.ofNat c'.toNat ↔ c < c' := by
  rw [UInt8.lt_iff_toNat_lt, toNat_ofNat_of_lt h, toNat_ofNat_of_lt h']
  rfl

theorem byte_inj {c c' : Char} (h : c.toNat < 128) (h' : c'.toNat < 128) :
    UInt8.ofNat c.toNat = UInt8.ofNat c'.toNat ↔ c = c' := by
  refine ⟨fun hbyte => ?_, fun hc => hc ▸ rfl⟩
  rw [← ofNat_toNat_byte h, hbyte, ofNat_toNat_byte h']

/-- **Texts of single bytes are in the order of their bytes.** -/
theorem asciiBytes_lt_iff {cs cs' : List Char} (h : IsAscii cs) (h' : IsAscii cs') :
    asciiBytes cs < asciiBytes cs' ↔ cs < cs' := by
  induction cs generalizing cs' with
  | nil =>
    cases cs' with
    | nil => simp
    | cons c' cs' => simp
  | cons c cs ih =>
    cases cs' with
    | nil => simp
    | cons c' cs' =>
      obtain ⟨hc, hcs⟩ := isAscii_cons.1 h
      obtain ⟨hc', hcs'⟩ := isAscii_cons.1 h'
      rw [asciiBytes_cons, asciiBytes_cons, List.cons_lt_cons_iff, List.cons_lt_cons_iff,
        byte_lt_iff hc hc', byte_inj hc hc', ih hcs hcs']

namespace Instant

variable {a b : Instant}

theorem isAscii_microText (i : Instant) : IsAscii i.microText.toList := by
  have hpart {width : Nat} (hw : 0 < width) (n : Nat) : IsAscii (paddedDigits width n) :=
    isAscii_paddedDigits hw n
  simp [microText, secondChars, isAscii_yearChars, hpart]

theorem utf8_microText_lt_iff :
    utf8 a.microText < utf8 b.microText ↔ a.microText < b.microText := by
  have hbytes (i : Instant) : utf8 i.microText = asciiBytes i.microText.toList := by
    rw [← utf8_ofList i.isAscii_microText, String.ofList_toList]
  rw [hbytes, hbytes, asciiBytes_lt_iff a.isAscii_microText b.isAscii_microText, String.lt_iff]

/-- **The bytes of times are in the order of the times**, down to the microsecond in which they
begin, which is read back. -/
theorem microText_inOrder (ha : a.InFourDigits) (hb : b.InFourDigits) :
    (utf8 a.microText < utf8 b.microText ↔ a.truncate < b.truncate) ∧
      (a.microText = b.microText ↔ a.truncate = b.truncate) ∧
      Column.instant a.microText = .ok a.truncate := by
  have hwhole := isWhole_truncate ha.1 ha.2
  have hwhole' := isWhole_truncate hb.1 hb.2
  refine ⟨?_, ?_, Column.instant_kept ha⟩
  · rw [utf8_microText_lt_iff, ← microText_truncate a, ← microText_truncate b,
      microText_lt_iff hwhole hwhole']
  · rw [← microText_truncate a, ← microText_truncate b, microText_inj hwhole hwhole']

/-- The last moment of the leap second at the end of 2016. -/
def leapEnd : Instant := ⟨1483228799, 1999999999, by decide, by decide, by decide, by decide⟩

/-- A microsecond of the next year. -/
def newYear : Instant := ⟨1483228800, 1000, by decide, by decide, by decide, by decide⟩

theorem microText_inOrder_leapEnd : leapEnd.InFourDigits ∧ newYear.InFourDigits ∧
    leapEnd.microText = "2016-12-31T23:59:60.999999Z" ∧
    newYear.microText = "2017-01-01T00:00:00.000001Z" ∧
    utf8 leapEnd.microText < utf8 newYear.microText ∧
    Column.instant leapEnd.microText = .ok leapEnd.truncate := by
  have hold : leapEnd.InFourDigits := by decide +kernel
  have hnew : newYear.InFourDigits := by decide +kernel
  have hbefore : leapEnd.truncate < newYear.truncate := by decide
  obtain ⟨horder, -, hread⟩ := microText_inOrder hold hnew
  exact ⟨hold, hnew, by decide +kernel, by decide +kernel, horder.2 hbefore, hread⟩

end Instant

end DoubleEntry
