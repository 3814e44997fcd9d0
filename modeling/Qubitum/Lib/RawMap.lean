import Qubitum.Lib.Scale
import Mathlib.Logic.Function.Basic

/-!
# `Lib.RawMap` — storage maps kept as bytes, and the loops that migrate them

A key-value store that survives a change of its layout has to be read at the level of bytes: a record
written by an old version lies under an **old key** in an **old encoding**. A `RawMap` holds both key
spaces of one map. Two operations move its content forward: `moveKey` (same bytes, new key) and
`translate` (same key, new encoding; bytes that do not decode are left as they are).

A migration is a loop of such operations over the keys, usually with other state threaded through.
`forEach_at` and `forEach_frame` say what such a loop does to anything that only one round touches, or
that no round touches.
-/

namespace Raw
open Scale Function

/-! ## Loops -/

section Loops
variable {α σ V : Type}

/-- `for a in l { body(a) }` -/
def forEach (l : List α) (body : α → σ → σ) (s : σ) : σ := l.foldl (fun s a => body a s) s

@[simp] theorem forEach_nil (body : α → σ → σ) (s : σ) : forEach [] body s = s := rfl

@[simp] theorem forEach_cons (a : α) (l : List α) (body : α → σ → σ) (s : σ) :
    forEach (a :: l) body s = forEach l body (body a s) := rfl

theorem forEach_append (l l' : List α) (body : α → σ → σ) (s : σ) :
    forEach (l ++ l') body s = forEach l' body (forEach l body s) := List.foldl_append

variable {l : List α} {body : α → σ → σ} {s : σ}

/-- **Loop invariant.** -/
theorem forEach_invariant (P : σ → Prop) (h : P s) (hstep : ∀ a ∈ l, ∀ s, P s → P (body a s)) :
    P (forEach l body s) := by
  induction l generalizing s with
  | nil => exact h
  | cons a l ih =>
    exact ih (hstep a List.mem_cons_self s h) fun b hb => hstep b (List.mem_cons_of_mem a hb)

/-- What no round touches is what it was. -/
theorem forEach_frame (view : σ → V) (h : ∀ a ∈ l, ∀ s, view (body a s) = view s) :
    view (forEach l body s) = view s :=
  forEach_invariant (fun s' => view s' = view s) rfl fun a ha s' hs' => (h a ha s').trans hs'

/-- What exactly one round touches is what that round makes of it. -/
theorem forEach_at {a : α} (view : σ → V) (g : V → V) (hn : l.Nodup) (ha : a ∈ l)
    (hself : ∀ s, view (body a s) = g (view s)) (hother : ∀ b ∈ l, b ≠ a → ∀ s, view (body b s) = view s) :
    view (forEach l body s) = g (view s) := by
  obtain ⟨front, back, rfl⟩ := List.append_of_mem ha
  have hfront : a ∉ front := fun h => (List.nodup_append.mp hn).2.2 a h a List.mem_cons_self rfl
  have hback : a ∉ back := (List.nodup_cons.mp (List.nodup_append.mp hn).2.1).1
  rw [forEach_append, forEach_cons, forEach_frame view, hself, forEach_frame view]
  · intro b hb
    exact hother b (List.mem_append_left _ hb) (ne_of_mem_of_not_mem hb hfront)
  · intro b hb
    exact hother b (List.mem_append_right _ (List.mem_cons_of_mem a hb)) (ne_of_mem_of_not_mem hb hback)
end Loops

/-! ## Maps -/

variable {κ R Old New : Type}

/-- A storage map as bytes, under the keys of its old hasher and under those of its current one. -/
structure RawMap (κ : Type) where
  legacy : κ → Option Bytes
  current : κ → Option Bytes

/-- What re-encoding makes of stored bytes; undecodable bytes stay. -/
def translated [Codec Old] [Codec New] (f : Old → New) (raw : Option Bytes) : Option Bytes :=
  match raw.bind decodeValue with
  | some old => some (encode (f old))
  | none     => raw

@[simp] theorem translated_encode [Codec Old] [Codec New] {f : Old → New} {old : Old} :
    translated f (some (encode old)) = some (encode (f old)) := by
  simp [translated]

namespace RawMap

def empty : RawMap κ := ⟨fun _ => none, fun _ => none⟩

/-- `Map::get`: the record under the current key, if its bytes decode. -/
def get [Codec R] (m : RawMap κ) (k : κ) : Option R := (m.current k).bind decodeValue

variable {k k' : κ} {keys : List κ}

theorem get_of_current [Codec R] {m : RawMap κ} {old : Option Old} {f : Old → R}
    (h : m.current k = old.map fun r => encode (f r)) : m.get k = old.map f := by
  rw [get, h]
  cases old <;> simp

/-- A map written by the current encoding, under current keys. -/
def ofRecords [Codec R] (records : κ → Option R) : RawMap κ := ⟨fun _ => none, fun k => (records k).map encode⟩

variable [DecidableEq κ]

/-- `Map::insert` -/
def insert [Codec R] (m : RawMap κ) (k : κ) (r : R) : RawMap κ :=
  { m with current := update m.current k (some (encode r)) }

/-- `Map::mutate`: read, change, write back; an absent result removes the entry. -/
def mutate [Codec R] (m : RawMap κ) (k : κ) (f : Option R → Option R) : RawMap κ :=
  match f (m.get k) with
  | some r => m.insert k r
  | none   => { m with current := update m.current k none }

/-- Move the bytes under the old key, if there are any, to the current key. -/
def moveKey (k : κ) (m : RawMap κ) : RawMap κ :=
  match m.legacy k with
  | some raw =>
      { legacy := update m.legacy k none
        current := update m.current k (some raw) }
  | none => m

/-- Move the record under the old key, if its bytes decode, to the current key. -/
def moveDecoded (R : Type) [Codec R] (k : κ) (m : RawMap κ) : RawMap κ :=
  match (m.legacy k).bind (decodeValue (α := R)) with
  | some r =>
      { legacy := update m.legacy k none
        current := update m.current k (some (encode r)) }
  | none => m

/-- Re-encode the record under the current key. -/
def translate [Codec Old] [Codec New] (f : Old → New) (k : κ) (m : RawMap κ) : RawMap κ :=
  match m.get (R := Old) k with
  | some old => m.insert k (f old)
  | none     => m

variable [Codec R] [Codec Old] [Codec New] {m : RawMap κ} {r : R} {f : Old → New} {g : Option R → Option R}

theorem insert_current_self : (m.insert k r).current k = some (encode r) := by
  simp [insert]

theorem insert_current_of_ne (h : k' ≠ k) : (m.insert k r).current k' = m.current k' := by
  simp [insert, update_of_ne h]

theorem get_mutate_self : (m.mutate k g).get k = g (m.get k) := by
  unfold mutate
  cases h : g (m.get k) with
  | some r => simp [get, insert_current_self]
  | none => simp [get]

theorem get_mutate_of_ne (h : k' ≠ k) : (m.mutate k g).get (R := R) k' = m.get k' := by
  unfold mutate
  cases g (m.get k) with
  | some r => simp [get, insert_current_of_ne h]
  | none => simp [get, update_of_ne h]

/-- Both key spaces at one key. -/
def cell (m : RawMap κ) (k : κ) : Option Bytes × Option Bytes := (m.legacy k, m.current k)

theorem moveKey_cell_self : (m.moveKey k).cell k = (none, (m.cell k).1.or (m.cell k).2) := by
  unfold moveKey cell
  cases h : m.legacy k <;> simp [h]

theorem moveKey_cell_of_ne (h : k' ≠ k) : (m.moveKey k).cell k' = m.cell k' := by
  unfold moveKey cell
  cases m.legacy k <;> simp [update_of_ne h]

theorem translate_current_self : (m.translate f k).current k = translated f (m.current k) := by
  unfold translate translated get
  cases h : (m.current k).bind (decodeValue (α := Old)) with
  | some old => exact insert_current_self
  | none => rfl

theorem translate_current_of_ne (h : k' ≠ k) : (m.translate f k).current k' = m.current k' := by
  unfold translate
  cases m.get (R := Old) k with
  | some old => exact insert_current_of_ne h
  | none => rfl

/-! ### Whole maps -/

/-- **Moving a list of keys.** Bytes under an old key are found under the current one. -/
theorem forEach_moveKey_current (hn : keys.Nodup) : (forEach keys moveKey m).current k =
      if k ∈ keys then (m.legacy k).or (m.current k) else m.current k := by
  split
  · rename_i hk
    exact congrArg Prod.snd (forEach_at (cell · k) (fun c => (none, c.1.or c.2)) hn hk
      (fun _ => moveKey_cell_self) fun k' _ hne m => moveKey_cell_of_ne hne.symm)
  · rename_i hk
    exact congrArg Prod.snd (forEach_frame (cell · k) fun k' hk' m =>
      moveKey_cell_of_ne fun h => hk (h ▸ hk'))

/-- **Re-encoding a list of keys.** -/
theorem forEach_translate_current (hn : keys.Nodup) : (forEach keys (translate f) m).current k =
      if k ∈ keys then translated f (m.current k) else m.current k := by
  split
  · rename_i hk
    exact forEach_at (current · k) (translated f) hn hk (fun _ => translate_current_self)
      fun k' _ hne m => translate_current_of_ne hne.symm
  · rename_i hk
    exact forEach_frame (current · k) fun k' hk' m =>
      translate_current_of_ne fun h => hk (h ▸ hk')

/-- **Changing a list of keys.** A change that is the same made twice reaches each listed key. -/
theorem forEach_mutate_get {f : κ → R → R} (hf : ∀ k r, f k (f k r) = f k r) :
    (forEach keys (fun k m => m.mutate k (Option.map (f k))) m).get k =
      if k ∈ keys then (m.get k).map (f k) else m.get k := by
  induction keys generalizing m with
  | nil => rfl
  | cons a keys ih =>
    rw [forEach_cons, ih]
    by_cases ha : k = a
    · subst ha
      rw [get_mutate_self, if_pos List.mem_cons_self]
      cases m.get (R := R) k <;> simp [hf]
    · rw [get_mutate_of_ne ha]
      simp [ha]
end RawMap
end Raw
