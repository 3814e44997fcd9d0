import Mathlib.Tactic

/-!
# `Lib.Fixed` — saturating 128-bit fixed-point numbers

A fixed-point number is the integer its bits stand for: the number itself times a power of two. The
arithmetic of such a type rounds down to the next multiple of the unit and saturates at the ends of the
range; it never wraps and never fails.
-/

namespace Fixed

/-! ## Unsigned -/

/-- An unsigned 128-bit number with `f` bits after the point. -/
@[ext] structure UFixed (f : Nat) where
  bits : Nat
  lt : bits < 2 ^ 128
  deriving DecidableEq

/-- `U96F32` -/
abbrev U96F32 := UFixed 32

/-- `U64F64` -/
abbrev U64F64 := UFixed 64

namespace UFixed
variable {f : Nat}

/-- The representable number with these bits, or the largest one. -/
def saturate (n : Nat) : UFixed f := ⟨min n (2 ^ 128 - 1), by omega⟩

/-- `saturating_from_num` -/
def ofNat (n : Nat) : UFixed f := saturate (n * 2 ^ f)

def saturatingAdd (x y : UFixed f) : UFixed f := saturate (x.bits + y.bits)

def saturatingSub (x y : UFixed f) : UFixed f := saturate (x.bits - y.bits)

def saturatingMul (x y : UFixed f) : UFixed f := saturate (x.bits * y.bits / 2 ^ f)

/-- `safe_div`: division by zero is zero, and so is a quotient that is out of range. -/
def safeDiv (x y : UFixed f) : UFixed f :=
  if h : x.bits * 2 ^ f / y.bits < 2 ^ 128 then ⟨x.bits * 2 ^ f / y.bits, h⟩ else ⟨0, by decide⟩

/-- `saturating_div` by a number that is not zero. -/
def saturatingDiv (x y : UFixed f) : UFixed f := saturate (x.bits * 2 ^ f / y.bits)

/-- `ceil`, of a number that has an integer above it. -/
def ceil (x : UFixed f) : UFixed f := saturate ((x.bits + (2 ^ f - 1)) / 2 ^ f * 2 ^ f)

/-- `saturating_to_num::<u64>` -/
def toU64 (x : UFixed f) : Nat := min (x.bits / 2 ^ f) (2 ^ 64 - 1)

/-- Nothing is worth nothing at any price. -/
theorem toU64_saturatingMul_ofNat_zero (x : UFixed f) : (x.saturatingMul (ofNat 0)).toU64 = 0 := by
  simp [saturatingMul, ofNat, saturate, toU64]

instance : LT (UFixed f) := ⟨fun x y => x.bits < y.bits⟩

instance (x y : UFixed f) : Decidable (x < y) := inferInstanceAs (Decidable (x.bits < y.bits))

instance : LE (UFixed f) := ⟨fun x y => x.bits ≤ y.bits⟩

instance (x y : UFixed f) : Decidable (x ≤ y) := inferInstanceAs (Decidable (x.bits ≤ y.bits))

def absDiff (x y : UFixed f) : UFixed f := if x < y then y.saturatingSub x else x.saturatingSub y

/-- The loop of `checked_sqrt`: halve the interval that has the root until quotient and divisor are close. -/
def bisect (x epsilon : UFixed f) : Nat → (low high middle : UFixed f) → UFixed f
  | 0, _, _, middle => middle
  | fuel + 1, low, high, middle =>
      let check := x.safeDiv middle
      if epsilon < check.absDiff middle then
        let (low, high) := if check < middle then (low, middle) else (middle, high)
        bisect x epsilon fuel low high ((high.saturatingAdd low).safeDiv (ofNat 2))
      else middle

/-- `checked_sqrt`, which never fails on unsigned numbers. The loop stops after 129 rounds. -/
def checkedSqrt (x epsilon : UFixed f) : UFixed f :=
  let (low, high) := if ofNat 1 < x then (ofNat 0, x) else (x, ofNat 1)
  bisect x epsilon 129 low high ((high.saturatingAdd low).safeDiv (ofNat 2))

/-- `saturating_from_num` of a number with another unit. -/
def convert {g : Nat} (x : UFixed g) : UFixed f := saturate (x.bits * 2 ^ f / 2 ^ g)

/-- `sum` of an iterator. Unlike the other operations it wraps around. -/
def sum (l : List (UFixed f)) : UFixed f := ⟨(l.map bits).sum % 2 ^ 128, Nat.mod_lt _ (by decide)⟩

/-- `max` of an iterator, zero if there is nothing. -/
def maximum (l : List (UFixed f)) : UFixed f := l.foldl (fun x y => if x < y then y else x) (ofNat 0)

/-- `x < y` for numbers with different units. -/
def ltAcross {g : Nat} (x : UFixed f) (y : UFixed g) : Bool := x.bits * 2 ^ g < y.bits * 2 ^ f

/-! ### Bits of results -/

section Bits
variable {x y : UFixed f} {n : Nat}

@[simp] theorem le_iff : x ≤ y ↔ x.bits ≤ y.bits := Iff.rfl

@[simp] theorem lt_iff : x < y ↔ x.bits < y.bits := Iff.rfl

theorem bits_saturate (h : n < 2 ^ 128) : (saturate n : UFixed f).bits = n := by
  show min n (2 ^ 128 - 1) = n
  omega

theorem bits_saturate_le : (saturate n : UFixed f).bits ≤ n := Nat.min_le_left _ _

variable {k : Nat} {l : List (UFixed f)}

theorem le_bits_saturate (hle : k ≤ n) (hlt : k < 2 ^ 128) : k ≤ (saturate n : UFixed f).bits := by
  show k ≤ min n (2 ^ 128 - 1)
  omega

theorem bits_ofNat (h : n * 2 ^ f < 2 ^ 128) : (ofNat n : UFixed f).bits = n * 2 ^ f := bits_saturate h

@[simp] theorem bits_saturatingSub : (x.saturatingSub y).bits = x.bits - y.bits :=
  bits_saturate (lt_of_le_of_lt (Nat.sub_le _ _) x.lt)

theorem bits_saturatingAdd : (x.saturatingAdd y).bits = min (x.bits + y.bits) (2 ^ 128 - 1) := rfl

theorem bits_saturatingAdd_le : (x.saturatingAdd y).bits ≤ x.bits + y.bits := bits_saturate_le

theorem bits_convert_le {g : Nat} {x : UFixed g} : (x.convert : UFixed f).bits ≤ x.bits * 2 ^ f / 2 ^ g :=
  bits_saturate_le

theorem bits_saturatingMul_le : (x.saturatingMul y).bits ≤ x.bits * y.bits / 2 ^ f := bits_saturate_le

theorem bits_saturatingMul (h : x.bits * y.bits / 2 ^ f < 2 ^ 128) :
    (x.saturatingMul y).bits = x.bits * y.bits / 2 ^ f := bits_saturate h

theorem le_bits_saturatingMul (hle : k ≤ x.bits * y.bits / 2 ^ f) (hlt : k < 2 ^ 128) :
    k ≤ (x.saturatingMul y).bits := le_bits_saturate hle hlt

theorem bits_safeDiv (h : x.bits * 2 ^ f / y.bits < 2 ^ 128) : (x.safeDiv y).bits = x.bits * 2 ^ f / y.bits := by
  unfold safeDiv
  rw [dif_pos h]

theorem bits_safeDiv_le : (x.safeDiv y).bits ≤ x.bits * 2 ^ f / y.bits := by
  unfold safeDiv
  split
  · exact le_refl _
  · exact Nat.zero_le _

/-- Less than a quotient, times the divisor, is not more than the dividend. -/
theorem bits_saturatingMul_le_of_lt_safeDiv {z : UFixed f} (h : z < x.safeDiv y) :
    (z.saturatingMul y).bits ≤ x.bits := by
  have hquot : z.bits ≤ x.bits * 2 ^ f / y.bits := (lt_iff.mp h).le.trans bits_safeDiv_le
  have hworth : z.bits * y.bits ≤ x.bits * 2 ^ f := (Nat.mul_le_mul_right _ hquot).trans (Nat.div_mul_le_self _ _)
  refine bits_saturatingMul_le.trans (Nat.div_le_of_le_mul ?_)
  rwa [Nat.mul_comm (2 ^ f)]

/-- The quotients of several numbers by one that is not smaller. -/
theorem map_bits_safeDiv (hf : f < 128) (h : ∀ x ∈ l, x.bits ≤ y.bits) :
    (l.map fun x => x.safeDiv y).map bits = (l.map bits).map fun n => n * 2 ^ f / y.bits := by
  rw [List.map_map, List.map_map]
  refine List.map_congr_left ?_
  intro x hx
  have hquot : x.bits * 2 ^ f / y.bits ≤ 2 ^ f := Nat.div_le_of_le_mul (Nat.mul_le_mul_right _ (h x hx))
  exact bits_safeDiv (lt_of_le_of_lt hquot (Nat.pow_lt_pow_right (by decide) hf))

theorem toU64_le : x.toU64 ≤ x.bits / 2 ^ f := Nat.min_le_left _ _

theorem le_foldl_max (l : List (UFixed f)) (x : UFixed f) :
    x ≤ l.foldl (fun x y => if x < y then y else x) x ∧ ∀ y ∈ l, y ≤ l.foldl (fun x y => if x < y then y else x) x := by
  induction l generalizing x with
  | nil => exact ⟨le_refl x.bits, by simp⟩
  | cons z l ih =>
    obtain ⟨hfirst, hrest⟩ := ih (if x < z then z else x)
    have hx : x ≤ (if x < z then z else x) := by
      split_ifs with hlt
      · exact le_of_lt (lt_iff.mp hlt)
      · exact le_refl x.bits
    have hz : z ≤ (if x < z then z else x) := by
      split_ifs with hlt
      · exact le_refl z.bits
      · exact Nat.not_lt.mp hlt
    refine ⟨le_trans (le_iff.mp hx) hfirst, ?_⟩
    intro y hy
    rcases List.mem_cons.mp hy with rfl | hy
    · exact le_trans (le_iff.mp hz) hfirst
    · exact hrest y hy

theorem le_maximum (h : x ∈ l) : x.bits ≤ (maximum l).bits := (le_foldl_max l _).2 x h

theorem maximum_mem (h : 0 < (maximum l).bits) : maximum l ∈ l := by
  have hmem : ∀ (l : List (UFixed f)) (z : UFixed f), l.foldl (fun x y => if x < y then y else x) z = z ∨
      l.foldl (fun x y => if x < y then y else x) z ∈ l := by
    intro l
    induction l with
    | nil => exact fun z => .inl rfl
    | cons y l ih =>
      intro z
      rw [List.foldl_cons]
      rcases ih (if z < y then y else z) with heq | hin
      · rw [heq]
        split_ifs
        · exact .inr List.mem_cons_self
        · exact .inl rfl
      · exact .inr (List.mem_cons_of_mem _ hin)
  rcases hmem l (ofNat 0) with hzero | hin
  · have hbits : (maximum l).bits = 0 := by
      unfold maximum
      rw [hzero]
      simp [ofNat, saturate]
    omega
  · exact hin
end Bits
end UFixed

/-! ## Signed -/

/-- `I96F32`: a signed 128-bit number with 32 bits after the point. -/
structure I96F32 where
  bits : Int
  ge : -(2 ^ 127) ≤ bits
  lt : bits < 2 ^ 127

namespace I96F32

/-- The representable number closest to these bits. -/
def saturate (z : Int) : I96F32 := ⟨max (-(2 ^ 127)) (min z (2 ^ 127 - 1)), by omega, by omega⟩

/-- `saturating_from_num` -/
def ofNat (n : Nat) : I96F32 := saturate (n * 2 ^ 32)

def saturatingAdd (x y : I96F32) : I96F32 := saturate (x.bits + y.bits)

def saturatingSub (x y : I96F32) : I96F32 := saturate (x.bits - y.bits)

def saturatingMul (x y : I96F32) : I96F32 := saturate (x.bits * y.bits / 2 ^ 32)

/-- `is_negative` -/
def isNegative (x : I96F32) : Bool := x.bits < 0

/-- `saturating_to_num` for an unsigned integer of the given width. -/
def toUnsigned (width : Nat) (x : I96F32) : Nat := min (x.bits / 2 ^ 32).toNat (2 ^ width - 1)

instance : LT I96F32 := ⟨fun x y => x.bits < y.bits⟩

instance (x y : I96F32) : Decidable (x < y) := inferInstanceAs (Decidable (x.bits < y.bits))

/-- `checked_div`: rounded towards zero, nothing if it does not fit. -/
def checkedDiv (x y : I96F32) : Option I96F32 :=
  let quotient := (x.bits * 2 ^ 32).tdiv y.bits
  if h : y.bits ≠ 0 ∧ -(2 ^ 127) ≤ quotient ∧ quotient < 2 ^ 127 then some ⟨quotient, h.2.1, h.2.2⟩ else none

/-- `checked_sub` -/
def checkedSub (x y : I96F32) : Option I96F32 :=
  if h : -(2 ^ 127) ≤ x.bits - y.bits ∧ x.bits - y.bits < 2 ^ 127 then some ⟨x.bits - y.bits, h.1, h.2⟩ else none

/-! What the operations give while nothing is out of range. -/

section Bits
variable {z : Int} {n : Nat} {x : I96F32}

theorem bits_saturate (hge : -(2 ^ 127) ≤ z) (hlt : z < 2 ^ 127) : (saturate z).bits = z := by
  show max (-(2 ^ 127)) (min z (2 ^ 127 - 1)) = z
  omega

theorem bits_saturate_le (hge : -(2 ^ 127) ≤ z) : (saturate z).bits ≤ z := by
  show max (-(2 ^ 127)) (min z (2 ^ 127 - 1)) ≤ z
  omega

theorem le_bits_saturate {w : Int} (hlt : w < 2 ^ 127) (hle : w ≤ z) : w ≤ (saturate z).bits := by
  show w ≤ max (-(2 ^ 127)) (min z (2 ^ 127 - 1))
  omega

theorem bits_ofNat (h : n < 2 ^ 95) : (ofNat n).bits = n * 2 ^ 32 := by
  refine bits_saturate ?_ ?_ <;> omega

/-- A number with whole bits is multiplied without rounding. -/
theorem bits_saturatingMul_ofNat (h : n < 2 ^ 95) (hge : 0 ≤ x.bits) (hlt : x.bits * n < 2 ^ 127) :
    (x.saturatingMul (ofNat n)).bits = x.bits * n := by
  have hwhole : x.bits * (n * 2 ^ 32) / 2 ^ 32 = x.bits * n := by
    rw [← Int.mul_assoc]
    exact Int.mul_ediv_cancel _ (by decide)
  have hpos : 0 ≤ x.bits * n := Int.mul_nonneg hge (by omega)
  unfold saturatingMul
  rw [bits_ofNat h, hwhole]
  exact bits_saturate (by omega) hlt

theorem checkedDiv_eq {y : I96F32} {a b : Nat} (hx : x.bits = a) (hy : y.bits = b) (hb : 0 < b)
    (hlt : a * 2 ^ 32 / b < 2 ^ 127) : ∃ z, x.checkedDiv y = some z ∧ z.bits = (a * 2 ^ 32 / b : Nat) := by
  have hquot : (x.bits * 2 ^ 32).tdiv y.bits = ((a * 2 ^ 32 / b : Nat) : Int) := by
    rw [hx, hy]
    norm_cast
  have hfits : y.bits ≠ 0 ∧ -(2 ^ 127) ≤ (x.bits * 2 ^ 32).tdiv y.bits ∧
      (x.bits * 2 ^ 32).tdiv y.bits < 2 ^ 127 := by
    refine ⟨by omega, ?_⟩
    rw [hquot]
    generalize a * 2 ^ 32 / b = quotient at *
    omega
  exact ⟨_, dif_pos hfits, hquot⟩
end Bits
end I96F32

/-- `I64F64`: a signed 128-bit number with 64 bits after the point. -/
structure I64F64 where
  bits : Int
  ge : -(2 ^ 127) ≤ bits
  lt : bits < 2 ^ 127
  deriving DecidableEq

namespace I64F64

/-- The representable number closest to these bits. -/
def saturate (z : Int) : I64F64 := ⟨max (-(2 ^ 127)) (min z (2 ^ 127 - 1)), by omega, by omega⟩

/-- `saturating_from_num` -/
def ofNat (n : Nat) : I64F64 := saturate (n * 2 ^ 64)

/-- `saturating_from_num` of a `U64F64` -/
def ofUnsigned (x : U64F64) : I64F64 := saturate x.bits

/-- `saturating_from_num` of a signed integer -/
def ofInt (z : Int) : I64F64 := saturate (z * 2 ^ 64)

def saturatingAdd (x y : I64F64) : I64F64 := saturate (x.bits + y.bits)

def saturatingSub (x y : I64F64) : I64F64 := saturate (x.bits - y.bits)

/-- `safe_div`: rounded towards zero; zero if it does not fit. -/
def safeDiv (x y : I64F64) : I64F64 :=
  let quotient := (x.bits * 2 ^ 64).tdiv y.bits
  if h : y.bits ≠ 0 ∧ -(2 ^ 127) ≤ quotient ∧ quotient < 2 ^ 127 then ⟨quotient, h.2.1, h.2.2⟩ else ofInt 0

instance : LT I64F64 := ⟨fun x y => x.bits < y.bits⟩

instance (x y : I64F64) : Decidable (x < y) := inferInstanceAs (Decidable (x.bits < y.bits))

/-- `saturating_from_num` to a `U64F64` -/
def toU64F64 (x : I64F64) : U64F64 := UFixed.saturate x.bits.toNat

def saturatingMul (x y : I64F64) : I64F64 := saturate (x.bits * y.bits / 2 ^ 64)

/-- `saturating_to_num::<u64>` -/
def toU64 (x : I64F64) : Nat := min (x.bits / 2 ^ 64).toNat (2 ^ 64 - 1)
end I64F64

/-- `I32F32`: a signed 64-bit number with 32 bits after the point. -/
structure I32F32 where
  bits : Int
  ge : -(2 ^ 63) ≤ bits
  lt : bits < 2 ^ 63

namespace I32F32

/-- The representable number closest to these bits. -/
def saturate (z : Int) : I32F32 := ⟨max (-(2 ^ 63)) (min z (2 ^ 63 - 1)), by omega, by omega⟩

/-- `saturating_from_num` -/
def ofNat (n : Nat) : I32F32 := saturate (n * 2 ^ 32)

/-- `saturating_from_num` of a `U64F64` -/
def ofU64F64 (x : U64F64) : I32F32 := saturate (x.bits / 2 ^ 32 : Nat)

def saturatingMul (x y : I32F32) : I32F32 := saturate (x.bits * y.bits / 2 ^ 32)

/-- `saturating_from_num` to a `U64F64` -/
def toU64F64 (x : I32F32) : U64F64 := UFixed.saturate (x.bits.toNat * 2 ^ 32)

theorem bits_toU64F64_lt (x : I32F32) : x.toU64F64.bits < 2 ^ 95 := by
  have hlt := x.lt
  have hle : x.toU64F64.bits ≤ x.bits.toNat * 2 ^ 32 := UFixed.bits_saturate_le
  omega
end I32F32
end Fixed
