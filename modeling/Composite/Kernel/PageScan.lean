import Composite.Kernel.Config
import Mathlib.Tactic.SplitIfs

/-!
# Which bytes the scan of a page reads

`kmem_page_scan` reads a word for every pointer of the page, but its address is untyped and moves
on by one byte.  The words overlap, and the scan covers a quarter of the page and three bytes.
-/

namespace Composite

def loadWord (memory : Nat → BitVec 8) (addr : Nat) : Nat :=
  (memory addr).toNat + 2 ^ 8 * (memory (addr + 1)).toNat + 2 ^ 16 * (memory (addr + 2)).toNat +
    2 ^ 24 * (memory (addr + 3)).toNat

/-- The loop of `kmem_page_scan`, for the iterations that remain. -/
def kmemPageScanLoop (memory : Nat → BitVec 8) : Nat → Nat → Int
  | 0, _ => 0
  | remaining + 1, addr =>
    if loadWord memory addr ≠ 0 then -Errno.einval
    else kmemPageScanLoop memory remaining (addr + 1)

def kmemPageScan (memory : Nat → BitVec 8) (objVaddr size : Nat) : Int :=
  kmemPageScanLoop memory (size / 4) objVaddr

variable {memory : Nat → BitVec 8}

theorem loadWord_eq_zero {addr : Nat} :
    loadWord memory addr = 0 ↔ ∀ i < 4, memory (addr + i) = 0 := by
  have zero (byte : BitVec 8) : byte = 0 ↔ byte.toNat = 0 := by
    rw [← BitVec.toNat_inj]
    rfl
  simp only [zero, loadWord, Nat.forall_lt_succ_left, Nat.add_zero, Nat.zero_add, Nat.reduceAdd]
  constructor
  · intro sum
    exact ⟨by omega, by omega, by omega, by omega, nofun⟩
  · rintro ⟨zeroth, first, second, third, -⟩
    omega

theorem kmemPageScanLoop_eq (remaining addr : Nat) :
    kmemPageScanLoop memory remaining addr =
      if ∀ i < remaining, loadWord memory (addr + i) = 0 then 0 else -Errno.einval := by
  induction remaining generalizing addr with
  | zero => rw [kmemPageScanLoop, if_pos nofun]
  | succ remaining ih =>
    have next (i : Nat) : addr + 1 + i = addr + (i + 1) := by omega
    rw [kmemPageScanLoop, ih]
    simp only [next, Nat.forall_lt_succ_left, Nat.add_zero]
    by_cases zero : loadWord memory addr = 0
    · rw [if_neg (not_not.mpr zero)]
      simp only [zero, true_and]
    · rw [if_pos zero, if_neg fun all => zero all.1]

theorem kmemPageScan_eq_zero (objVaddr : Nat) {size : Nat} (some : 0 < size / 4) :
    kmemPageScan memory objVaddr size = 0 ↔ ∀ i < size / 4 + 3, memory (objVaddr + i) = 0 := by
  have words : kmemPageScan memory objVaddr size = 0 ↔
      ∀ i < size / 4, ∀ j < 4, memory (objVaddr + i + j) = 0 := by
    rw [kmemPageScan, kmemPageScanLoop_eq]
    simp only [loadWord_eq_zero]
    split_ifs with clear
    · exact ⟨fun _ => clear, fun _ => rfl⟩
    · exact ⟨nofun, fun bytes => absurd bytes clear⟩
  rw [words]
  constructor
  · intro bytes i inside
    have word := bytes (min i (size / 4 - 1)) (by omega) (i - min i (size / 4 - 1)) (by omega)
    rwa [Nat.add_assoc, Nat.add_sub_cancel' (Nat.min_le_left ..)] at word
  · intro bytes i inside j small
    rw [Nat.add_assoc]
    exact bytes (i + j) (by omega)

/-- The entries overlap the bytes that are read: if they are all zero, so are these. -/
theorem scanned_of_entries {objVaddr size : Nat} (some : 0 < size / 4)
    (entries : ∀ entry < size / 4, loadWord memory (objVaddr + 4 * entry) = 0) :
    ∀ i < size / 4 + 3, memory (objVaddr + i) = 0 := by
  intro i isRead
  have word := loadWord_eq_zero.mp (entries (i / 4) (by omega)) (i % 4) (Nat.mod_lt _ (by omega))
  rwa [Nat.add_assoc, Nat.div_add_mod] at word

/-- The scan returns 0 exactly if all entries are zero, and an error otherwise, if and only if one
of the bytes that it reads is set whenever some entry is. -/
theorem page_scan_exact (memory : Nat → BitVec 8) (objVaddr size : Nat) :
    ((kmemPageScan memory objVaddr size = 0 ↔
        ∀ entry < size / 4, loadWord memory (objVaddr + 4 * entry) = 0) ∧
      (kmemPageScan memory objVaddr size ≠ 0 →
        kmemPageScan memory objVaddr size = -Errno.einval)) ↔
    ((∃ entry < size / 4, loadWord memory (objVaddr + 4 * entry) ≠ 0) →
      ∃ i < size / 4 + 3, memory (objVaddr + i) ≠ 0) := by
  have error : kmemPageScan memory objVaddr size ≠ 0 →
      kmemPageScan memory objVaddr size = -Errno.einval := by
    rw [kmemPageScan, kmemPageScanLoop_eq]
    split_ifs with clear
    · exact fun nonzero => absurd rfl nonzero
    · exact fun _ => rfl
  rw [and_iff_left error]
  constructor
  · rintro exactly ⟨entry, bounded, set⟩
    by_contra unread
    simp only [not_exists, not_and, not_not] at unread
    have zero := (kmemPageScan_eq_zero objVaddr (by omega)).mpr unread
    exact set (exactly.mp zero entry bounded)
  · intro read
    constructor
    · intro zero entry bounded
      by_contra set
      obtain ⟨i, isRead, byteSet⟩ := read ⟨entry, bounded, set⟩
      exact byteSet ((kmemPageScan_eq_zero objVaddr (by omega)).mp zero i isRead)
    · intro entries
      rcases Nat.eq_zero_or_pos (size / 4) with none | some
      · rw [kmemPageScan, none, kmemPageScanLoop]
      · exact (kmemPageScan_eq_zero objVaddr some).mpr (scanned_of_entries some entries)

/-- A page with one entry set in its second quarter. -/
theorem page_scan_misses_entry :
    kmemPageScan (fun i => if i = 2000 then 1 else 0) 0 4096 = 0 ∧
      loadWord (fun i => if i = 2000 then 1 else 0) (0 + 4 * 500) ≠ 0 := by
  refine ⟨(kmemPageScan_eq_zero 0 (by decide)).mpr fun i isRead => ?_, by decide⟩
  exact if_neg (by omega)

end Composite
