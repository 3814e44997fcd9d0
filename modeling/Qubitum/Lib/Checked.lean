import Mathlib.Tactic

/-!
# `Lib.Checked` — checked and saturating machine arithmetic

Balances are fixed-width unsigned integers of an arbitrary width `w` (`BitVec w`); identifiers and block
numbers are `u64`/`u16`. The checked operations return `none` exactly when the mathematical result does
not fit, so on success they *are* the operations on `Nat`.
-/

namespace Checked
variable {w : Nat}

/-! ## Balances -/

/-- `a.checked_add(&b)`. -/
def add (a b : BitVec w) : Option (BitVec w) :=
  if a.toNat + b.toNat < 2 ^ w then some (a + b) else none

/-- `a.checked_sub(&b)`. -/
def sub (a b : BitVec w) : Option (BitVec w) := if b.toNat ≤ a.toNat then some (a - b) else none

/-- `a.checked_mul(&b)`. -/
def mul (a b : BitVec w) : Option (BitVec w) :=
  if a.toNat * b.toNat < 2 ^ w then some (a * b) else none

/-- `a.checked_div(&b)`. -/
def div (a b : BitVec w) : Option (BitVec w) := if b.toNat = 0 then none else some (a / b)

/-- `n.saturated_into()`. -/
def saturatedInto (w n : Nat) : BitVec w := if n < 2 ^ w then BitVec.ofNat w n else BitVec.allOnes w

theorem add_eq_some {a b c : BitVec w} (h : add a b = some c) : c.toNat = a.toNat + b.toNat := by
  unfold add at h
  split at h
  · cases h; rw [BitVec.toNat_add, Nat.mod_eq_of_lt ‹_›]
  · cases h

theorem sub_eq_some {a b c : BitVec w} (h : sub a b = some c) : c.toNat + b.toNat = a.toNat := by
  unfold sub at h
  split at h
  · rename_i hle
    cases h
    rw [BitVec.toNat_sub_of_le (by simpa [BitVec.le_def] using hle)]
    omega
  · cases h

/-! ## Identifiers and block numbers -/

/-- `a.checked_add(b)` on `u64`. -/
def add64 (a b : UInt64) : Option UInt64 := if a.toNat + b.toNat < 2 ^ 64 then some (a + b) else none

/-- `a.checked_sub(b)` on `u64`. -/
def sub64 (a b : UInt64) : Option UInt64 := if b ≤ a then some (a - b) else none

/-- `a.saturating_sub(b)` on `u64`. -/
def saturatingSub64 (a b : UInt64) : UInt64 := if b ≤ a then a - b else 0

/-- `a.saturating_add(b)` on `u64`. -/
def saturatingAdd64 (a b : UInt64) : UInt64 :=
  if a.toNat + b.toNat < 2 ^ 64 then a + b else UInt64.ofNat (2 ^ 64 - 1)

/-- `a.saturating_add(b)` on `u32`. -/
def saturatingAdd32 (a b : UInt32) : UInt32 :=
  if a.toNat + b.toNat < 2 ^ 32 then a + b else UInt32.ofNat (2 ^ 32 - 1)

/-- `a.checked_add(b)` on `u16`. -/
def add16 (a b : UInt16) : Option UInt16 := if a.toNat + b.toNat < 2 ^ 16 then some (a + b) else none

/-- `n.saturated_into::<u64>()`. -/
def saturatedInto64 (n : Nat) : UInt64 := if n < 2 ^ 64 then UInt64.ofNat n else UInt64.ofNat (2 ^ 64 - 1)

theorem toNat_saturatingAdd64 (a b : UInt64) : (saturatingAdd64 a b).toNat = min (a.toNat + b.toNat) (2 ^ 64 - 1) := by
  unfold saturatingAdd64
  split
  · rw [UInt64.toNat_add]
    omega
  · rw [UInt64.toNat_ofNat_of_lt' (by decide)]
    omega

theorem toNat_saturatedInto64 (n : Nat) : (saturatedInto64 n).toNat = min n (2 ^ 64 - 1) := by
  unfold saturatedInto64
  split <;> rw [UInt64.toNat_ofNat_of_lt' (by simp only [UInt64.size]; omega)] <;> omega

theorem toNat_succ64 {n : UInt64} (h : n.toNat + 1 < 2 ^ 64) : (n + 1).toNat = n.toNat + 1 := by
  exact Nat.mod_eq_of_lt h

theorem add64_eq_some {a b c : UInt64} (h : add64 a b = some c) : c.toNat = a.toNat + b.toNat := by
  unfold add64 at h
  split at h
  · cases h; rw [UInt64.toNat_add, Nat.mod_eq_of_lt ‹_›]
  · cases h

theorem sub64_eq_some {a b c : UInt64} (h : sub64 a b = some c) : c.toNat + b.toNat = a.toNat := by
  unfold sub64 at h
  split at h
  · rename_i hle
    cases h
    have : b.toNat ≤ a.toNat := by simpa [UInt64.le_iff_toNat_le] using hle
    rw [UInt64.toNat_sub_of_le _ _ hle]
    omega
  · cases h

theorem sub64_eq_none {a b : UInt64} : sub64 a b = none ↔ a.toNat < b.toNat := by
  unfold sub64
  split <;> rename_i h <;> simp only [UInt64.le_iff_toNat_le] at h
  · simp [Nat.not_lt.mpr h]
  · simp [Nat.lt_of_not_le h]

theorem add16_eq_some {a b c : UInt16} (h : add16 a b = some c) : c.toNat = a.toNat + b.toNat := by
  unfold add16 at h
  split at h
  · cases h; rw [UInt16.toNat_add, Nat.mod_eq_of_lt ‹_›]
  · cases h
end Checked
