import DoubleEntry.Api.Response
import DoubleEntry.Proofs.StoredRows

/-!
# Views of what was stored

What is shown of payments, journals and statements does not tell with how many places an amount was
given: it is the same before the amounts are stored and after they were read back.

## Main results

* `PaymentView.ofParts_atSix`, `JournalView.ofEntry_atSix`: payments and journals.
* `StatementItem.mapM_project_atSix`: statements, whose amounts are sums.
-/

namespace DoubleEntry

theorem Decimal.IsStored.amountText_toAmount {d : Decimal} (h : d.IsStored) :
    d.toAmount.amountText = d.amountText := by
  obtain ⟨hstored, hm⟩ := h.toAmount
  exact amountText_eq_of_millionths hstored.six h.six hstored.fits hm

theorem PaymentView.ofParts_atSix {p : Payment} (h : p.IsStored) (steps : List PaymentStep) :
    ofParts p.atSix steps = ofParts p steps := by
  simp only [ofParts, Payment.atSix, h.amount.amountText_toAmount, Payment.holdId]

theorem LineView.ofLine_atSix {journal : JournalId} {l : EntryLine} (h : l.IsStored journal) :
    ofLine l.atSix = ofLine l := by
  simp only [ofLine, EntryLine.atSix, h.debit.amountText_toAmount, h.credit.amountText_toAmount]

theorem JournalView.ofEntry_atSix {j : JournalEntry} (h : j.IsStored) :
    ofEntry j.atSix = ofEntry j := by
  have hlines :
      (j.lines.map EntryLine.atSix).map LineView.ofLine = j.lines.map LineView.ofLine := by
    rw [List.map_map]
    exact List.map_congr_left fun l hl => LineView.ofLine_atSix (h.lines l hl)
  simp only [ofEntry, JournalEntry.atSix, hlines]

/-! ### Statements -/

namespace Decimal

/-- The decimal is the sum of so many amounts, which has so many millionths. -/
structure IsTotal (count : Nat) (millionths : Int) (d : Decimal) : Prop where
  six : d.IsSix
  millionths_eq : d.millionths = millionths
  nonneg : 0 ≤ millionths
  le : millionths ≤ count * 100000000000000000000000000

theorem isTotal_zero : IsTotal 0 0 zero := ⟨isSix_zero, millionths_zero, le_rfl, by simp⟩

/-- **A sum of few amounts** stays within its range. -/
theorem IsTotal.exists_add {n : Nat} {s : Int} {a b : Decimal} (ha : IsTotal n s a)
    (hb : b.IsStored) (hn : n < ManualCommand.maxLines) :
    ∃ c, a.add b = some c ∧ IsTotal (n + 1) (s + b.millionths) c := by
  obtain ⟨hsix, rfl, h0, hle⟩ := ha
  have h96 : 100 * 100000000000000000000000000 < twoPow 96 := by decide
  have hb0 := hb.nonneg
  have hb1 := hb.lt
  unfold ManualCommand.maxLines at hn
  obtain ⟨c, hc, hcsix, hm⟩ := Decimal.exists_add hsix hb.six (by omega) fun _ => h0
  exact ⟨c, hc, hcsix, hm, by omega, by push_cast; omega⟩

theorem IsTotal.fits {n : Nat} {s : Int} {d : Decimal} (h : IsTotal n s d)
    (hn : n ≤ ManualCommand.maxLines) : s.natAbs < twoPow 96 := by
  have h96 : 100 * 100000000000000000000000000 < twoPow 96 := by decide
  have h0 := h.nonneg
  have hle := h.le
  unfold ManualCommand.maxLines at hn
  omega

end Decimal

namespace StatementLine

/-- The millionths of some lines on one side. -/
def sumOf (side : EntryLine → Decimal) (lines : List EntryLine) : Int :=
  (lines.map fun l => (side l).millionths).sum

theorem isTotal_cons {side : EntryLine → Decimal} {l : EntryLine} {lines : List EntryLine} {n : Nat}
    {s : Int} {d : Decimal}
    (h : d.IsTotal (n + 1 + lines.length) (s + (side l).millionths + sumOf side lines)) :
    d.IsTotal (n + (l :: lines).length) (s + sumOf side (l :: lines)) := by
  have hsum : sumOf side (l :: lines) = (side l).millionths + sumOf side lines := List.sum_cons
  rwa [hsum, List.length_cons, Nat.add_comm lines.length, ← Nat.add_assoc, ← Int.add_assoc]

theorem exists_totals {lines : List EntryLine} {journal : JournalId}
    (h : ∀ l ∈ lines, l.IsStored journal) {n : Nat} (hn : n + lines.length ≤ ManualCommand.maxLines)
    {s t : Int} {a b : Decimal} (ha : a.IsTotal n s) (hb : b.IsTotal n t) :
    ∃ c d, lines.foldlM (fun ((credit, debit) : Decimal × Decimal) l => do
        return (← credit.add l.credit, ← debit.add l.debit)) (a, b) = some (c, d) ∧
      c.IsTotal (n + lines.length) (s + sumOf (·.credit) lines) ∧
      d.IsTotal (n + lines.length) (t + sumOf (·.debit) lines) := by
  induction lines generalizing n s t a b with
  | nil => exact ⟨a, b, rfl, by simpa [sumOf] using ha, by simpa [sumOf] using hb⟩
  | cons l lines ih =>
    rw [List.length_cons] at hn
    have hl := h l List.mem_cons_self
    obtain ⟨a', ha', htotal⟩ := ha.exists_add hl.credit (by omega)
    obtain ⟨b', hb', htotal'⟩ := hb.exists_add hl.debit (by omega)
    obtain ⟨c, d, hcd, hc, hd⟩ :=
      ih (fun l hl => h l (List.mem_cons_of_mem _ hl)) (by omega) htotal htotal'
    refine ⟨c, d, ?_, isTotal_cons hc, isTotal_cons hd⟩
    rw [List.foldlM_cons, ← hcd]
    simp [ha', hb']

/-- What an account has gained by a journal, in millionths. -/
def gainOf (account : AccountId) (lines : List EntryLine) : Int :=
  sumOf (·.credit) (lines.filter fun l => l.counterparty = some account) -
    sumOf (·.debit) (lines.filter fun l => l.counterparty = some account)

/-- **A journal seen from an account** shows what the account has gained. -/
theorem exists_project {j : JournalEntry} (hstored : ∀ l ∈ j.lines, l.IsStored j.id)
    (hfew : j.lines.length ≤ ManualCommand.maxLines) (account : AccountId) :
    ∃ amount : Decimal, project j account = some ⟨j.id, j.bookedAt, j.currency,
        if gainOf account j.lines < 0 then .debit else .credit, amount,
        StatementKind.ofMemo j.externalRef, j.externalRef, otherParty account j.lines⟩ ∧
      amount.IsSix ∧ amount.millionths = (gainOf account j.lines).natAbs ∧
      amount.millionths.natAbs < twoPow 96 := by
  have hlines : ∀ l ∈ j.lines.filter (fun l => l.counterparty = some account), l.IsStored j.id :=
    fun l hl => hstored l (List.mem_of_mem_filter hl)
  have hlen := (List.length_filter_le (fun l => l.counterparty = some account) j.lines).trans hfew
  obtain ⟨c, d, hfold, hc, hd⟩ := exists_totals hlines (n := 0) (by simpa using hlen)
    Decimal.isTotal_zero Decimal.isTotal_zero
  have htotals : totals account j.lines = some (c, d) := hfold
  rw [zero_add, zero_add] at hc hd
  obtain ⟨net, hnet, hsix, hm⟩ := Decimal.exists_sub hc.six hd.six
    (hc.millionths_eq ▸ hc.nonneg) (hd.millionths_eq ▸ hd.nonneg)
    (hc.millionths_eq ▸ hc.fits hlen) (hd.millionths_eq ▸ hd.fits hlen)
  have hgain : net.millionths = gainOf account j.lines := by
    rw [hm, hc.millionths_eq, hd.millionths_eq, gainOf]
  have howed : (net.negative && !net.isZero) = decide (gainOf account j.lines < 0) := by
    rw [hsix.sign, hgain, Bool.and_eq_left_iff_imp]
    intro hneg
    rw [Bool.not_eq_true', Bool.eq_false_iff]
    intro hz
    have := Decimal.isZero_iff_millionths.1 hz
    rw [decide_eq_true_eq] at hneg
    omega
  have hproject : project j account = some ⟨j.id, j.bookedAt, j.currency,
      if gainOf account j.lines < 0 then .debit else .credit,
      if gainOf account j.lines < 0 then net.abs else net,
      StatementKind.ofMemo j.externalRef, j.externalRef, otherParty account j.lines⟩ := by
    simp only [project, htotals, hnet, howed, Option.bind_eq_bind, Option.bind_some,
      Option.pure_def, decide_eq_true_eq]
  have hfit : (gainOf account j.lines).natAbs < twoPow 96 := by
    have hcf := hc.fits hlen
    have hdf := hd.fits hlen
    have hc0 := hc.nonneg
    have hd0 := hd.nonneg
    unfold gainOf
    omega
  refine ⟨_, hproject, ?_⟩
  split_ifs with hneg
  · obtain ⟨habs, habs'⟩ := Decimal.abs_six hsix
    rw [hgain] at habs'
    exact ⟨habs, habs', by rw [habs', Int.natAbs_natCast]; exact hfit⟩
  · exact ⟨hsix, by rw [hgain]; omega, by rw [hgain]; exact hfit⟩

variable {account : AccountId}

theorem sumOf_atSix {journal : JournalId} {lines : List EntryLine}
    (h : ∀ l ∈ lines, l.IsStored journal) :
    sumOf (·.credit) (lines.map EntryLine.atSix) = sumOf (·.credit) lines ∧
      sumOf (·.debit) (lines.map EntryLine.atSix) = sumOf (·.debit) lines := by
  unfold sumOf
  rw [List.map_map, List.map_map]
  exact ⟨congrArg List.sum (List.map_congr_left fun l hl => (h l hl).credit.toAmount.2),
    congrArg List.sum (List.map_congr_left fun l hl => (h l hl).debit.toAmount.2)⟩

theorem gainOf_atSix {journal : JournalId} {lines : List EntryLine}
    (h : ∀ l ∈ lines, l.IsStored journal) :
    gainOf account (lines.map EntryLine.atSix) = gainOf account lines := by
  have hfilter : (lines.map EntryLine.atSix).filter (fun l => l.counterparty = some account) =
      (lines.filter fun l => l.counterparty = some account).map EntryLine.atSix := by
    rw [List.filter_map]
    rfl
  have hstored : ∀ l ∈ lines.filter (fun l => l.counterparty = some account), l.IsStored journal :=
    fun l hl => h l (List.mem_of_mem_filter hl)
  obtain ⟨hc, hd⟩ := sumOf_atSix hstored
  rw [gainOf, hfilter, hc, hd, gainOf]

theorem otherParty_atSix (lines : List EntryLine) :
    otherParty account (lines.map EntryLine.atSix) = otherParty account lines := by
  rw [otherParty, List.filterMap_map]
  rfl

end StatementLine

theorem JournalEntry.IsStored.atSix {j : JournalEntry} (h : j.IsStored) : j.atSix.IsStored where
  bookedAt := h.bookedAt
  lines := List.forall_mem_map.2 fun l hl =>
    ⟨(h.lines l hl).owner, (h.lines l hl).debit.toAmount.1, (h.lines l hl).credit.toAmount.1⟩
  few := by
    rw [JournalEntry.atSix, List.length_map]
    exact h.few

namespace StatementItem

open StatementLine

variable {account : AccountId}

theorem project_atSix {j : JournalEntry} (h : j.IsStored) :
    (project j.atSix account).map ofLine = (project j account).map ofLine := by
  obtain ⟨d, hd, hsix, hm, hfit⟩ := exists_project h.lines h.few account
  obtain ⟨d', hd', hsix', hm', -⟩ := exists_project h.atSix.lines h.atSix.few account
  have hgain : gainOf account j.atSix.lines = gainOf account j.lines := gainOf_atSix h.lines
  have hother : otherParty account j.atSix.lines = otherParty account j.lines :=
    otherParty_atSix j.lines
  rw [hgain] at hd' hm'
  rw [hother] at hd'
  have htext : d'.amountText = d.amountText :=
    (Decimal.amountText_eq_of_millionths hsix hsix' hfit (hm.trans hm'.symm)).symm
  rw [hd, hd']
  simp only [Option.map_some, ofLine, htext, JournalEntry.atSix]

theorem map_mapM {α β γ : Type} (f : α → Option β) (g : β → γ) (as : List α) :
    (as.mapM f).map (List.map g) = as.mapM fun a => (f a).map g := by
  induction as with
  | nil => rfl
  | cons a as ih =>
    rw [List.mapM_cons, List.mapM_cons, ← ih]
    cases f a with
    | none => rfl
    | some b => cases as.mapM f <;> rfl

/-- **The items of a statement** are the same. -/
theorem mapM_project_atSix (account : AccountId) {entries : List JournalEntry}
    (h : ∀ j ∈ entries, j.IsStored) :
    ((entries.map JournalEntry.atSix).mapM fun j => project j account).map (List.map ofLine) =
      (entries.mapM fun j => project j account).map (List.map ofLine) := by
  rw [map_mapM, map_mapM]
  induction entries with
  | nil => rfl
  | cons j entries ih =>
    rw [List.map_cons, List.mapM_cons, List.mapM_cons, project_atSix (h j List.mem_cons_self),
      ih fun k hk => h k (List.mem_cons_of_mem j hk)]

end StatementItem

end DoubleEntry
