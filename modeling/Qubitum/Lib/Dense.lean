import Mathlib.Tactic

/-!
# `Lib.Dense` — densely allocated `u64` identifiers

A registry that hands out `count` and then increments it has exactly the identifiers `0, …, count - 1`.
`idsBelow count` lists them in order: it has no duplicates, its members are the numbers below `count`,
and it grows at the end by the identifier handed out.
-/

namespace Dense

/-- The identifiers `0..count`. -/
def idsBelow (count : UInt64) : List UInt64 := (List.range count.toNat).map UInt64.ofNat

variable {count id : UInt64} {R : Type} {get : UInt64 → Option R}

theorem toNat_ofNat_below {i : Nat} (h : i < count.toNat) : (UInt64.ofNat i).toNat = i :=
  UInt64.toNat_ofNat_of_lt' (lt_trans h count.toNat_lt)

theorem mem_idsBelow : id ∈ idsBelow count ↔ id < count := by
  rw [idsBelow, List.mem_map, UInt64.lt_iff_toNat_lt]
  constructor
  · rintro ⟨i, hi, rfl⟩
    rw [List.mem_range] at hi
    rwa [toNat_ofNat_below hi]
  · intro h
    exact ⟨id.toNat, List.mem_range.mpr h, UInt64.ofNat_toNat⟩

theorem idsBelow_nodup (count : UInt64) : (idsBelow count).Nodup := by
  refine List.Nodup.map_on ?_ List.nodup_range
  intro i hi j hj hij
  rw [List.mem_range] at hi hj
  have := congrArg UInt64.toNat hij
  rwa [toNat_ofNat_below hi, toNat_ofNat_below hj] at this

@[simp] theorem idsBelow_zero : idsBelow 0 = [] := rfl

@[simp] theorem idsBelow_length (count : UInt64) : (idsBelow count).length = count.toNat := by
  simp [idsBelow]

/-- Handing out `count` appends it. -/
theorem idsBelow_next {next : UInt64} (h : next.toNat = count.toNat + 1) :
    idsBelow next = idsBelow count ++ [count] := by
  simp [idsBelow, h, List.range_succ]

theorem not_mem_idsBelow (count : UInt64) : count ∉ idsBelow count := by
  rw [mem_idsBelow]
  exact UInt64.lt_irrefl count

/-- The identifiers `0..count` of a `u16` registry. -/
def idsBelow16 (count : UInt16) : List UInt16 := (List.range count.toNat).map UInt16.ofNat

theorem mem_idsBelow16 {count id : UInt16} : id ∈ idsBelow16 count ↔ id < count := by
  rw [idsBelow16, List.mem_map, UInt16.lt_iff_toNat_lt]
  constructor
  · rintro ⟨i, hi, rfl⟩
    rw [List.mem_range] at hi
    rwa [UInt16.toNat_ofNat_of_lt' (lt_trans hi count.toNat_lt)]
  · intro h
    exact ⟨id.toNat, List.mem_range.mpr h, UInt16.ofNat_toNat⟩

theorem idsBelow16_nodup (count : UInt16) : (idsBelow16 count).Nodup := by
  refine List.Nodup.map_on ?_ List.nodup_range
  intro i hi j hj hij
  rw [List.mem_range] at hi hj
  have := congrArg UInt16.toNat hij
  rwa [UInt16.toNat_ofNat_of_lt' (lt_trans hi count.toNat_lt),
    UInt16.toNat_ofNat_of_lt' (lt_trans hj count.toNat_lt)] at this

/-- The records stored under the identifiers `0..count`, in order. -/
def recordsBelow {R : Type} (count : UInt64) (get : UInt64 → Option R) : List (UInt64 × R) :=
  (idsBelow count).filterMap fun id => (get id).map fun r => (id, r)

theorem mem_recordsBelow {r : R} :
    (id, r) ∈ recordsBelow count get ↔ id < count ∧ get id = some r := by
  simp only [recordsBelow, List.mem_filterMap, Option.map_eq_some_iff, mem_idsBelow]
  constructor
  · rintro ⟨id', hlt, r', hget, heq⟩
    obtain ⟨rfl, rfl⟩ := Prod.mk.inj heq
    exact ⟨hlt, hget⟩
  · rintro ⟨hlt, hget⟩
    exact ⟨id, hlt, r, hget, rfl⟩

theorem recordsBelow_sorted (count : UInt64) (get : UInt64 → Option R) :
    (recordsBelow count get).Pairwise fun a b => a.1 < b.1 := by
  have hids : (idsBelow count).Pairwise (· < ·) := by
    unfold idsBelow
    rw [List.pairwise_map]
    refine List.pairwise_lt_range.imp_of_mem fun hi hj hij => ?_
    rw [List.mem_range] at hi hj
    rwa [UInt64.lt_iff_toNat_lt, toNat_ofNat_below hi, toNat_ofNat_below hj]
  unfold recordsBelow
  rw [List.pairwise_filterMap]
  refine hids.imp fun hlt x hx y hy => ?_
  obtain ⟨_, -, rfl⟩ := Option.map_eq_some_iff.mp hx
  obtain ⟨_, -, rfl⟩ := Option.map_eq_some_iff.mp hy
  exact hlt

theorem recordsBelow_fst_nodup (count : UInt64) (get : UInt64 → Option R) :
    ((recordsBelow count get).map Prod.fst).Nodup := by
  rw [recordsBelow, List.map_filterMap]
  refine List.Nodup.filterMap ?_ (idsBelow_nodup count)
  intro a a' b hb hb'
  simp only [Option.map_map, Option.mem_def, Option.map_eq_some_iff, Function.comp] at hb hb'
  obtain ⟨-, -, rfl⟩ := hb
  obtain ⟨-, -, h⟩ := hb'
  exact h.symm

/-- When every identifier below `count` has a record, there are `count` of them. -/
theorem recordsBelow_length (h : ∀ id, id < count → (get id).isSome) :
    (recordsBelow count get).length = count.toNat := by
  rw [recordsBelow, List.length_filterMap_eq_countP, List.countP_eq_length.mpr, idsBelow_length]
  intro id hid
  rw [Option.isSome_map]
  exact h id (mem_idsBelow.mp hid)

/-- The identifiers of the records that pass a test. -/
theorem map_fst_filter_recordsBelow (count : UInt64) (get : UInt64 → Option R) (p : UInt64 × R → Bool) :
    ((recordsBelow count get).filter p).map Prod.fst =
      (idsBelow count).filter fun id => (get id).any fun r => p (id, r) := by
  unfold recordsBelow
  induction idsBelow count with
  | nil => rfl
  | cons id ids ih =>
    cases hget : get id with
    | none => simpa [hget] using ih
    | some r =>
      by_cases hp : p (id, r)
      · simpa [hget, hp] using ih
      · simpa [hget, hp] using ih
end Dense
