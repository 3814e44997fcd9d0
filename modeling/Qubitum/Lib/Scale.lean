import Mathlib.Data.Vector.Basic
import Mathlib.Tactic

/-!
# `Lib.Scale` — the SCALE codec as a prefix code

SCALE encodes a value as a byte string with no framing: a record is the concatenation of its fields, an
enumeration is a tag byte followed by its payload, a machine integer is its fixed-width little-endian
image. A decoder therefore consumes a **prefix** and hands back the rest, and the one law that carries
everything is `decode_encode`: decoding what was encoded, in front of *any* rest, returns the value and
that rest. Injectivity of the encoding, of a concatenation of encodings, and hence of every hash
preimage assembled from them follows from that law alone (`encode_append_inj`).

## Contents
- `Codec` / `FixedCodec`: the class and its fixed-width refinement.
- instances for the machine integers, `Bool`, `Option`, pairs and fixed byte arrays.
- `Codec.ofRetract`: transporting a codec along a record's field tuple.
-/

namespace Scale

/-- A byte string. -/
abbrev Bytes := List UInt8

/-- The bytes of an ASCII literal (`b"..."`). -/
def ascii (s : String) : Bytes := s.toList.map fun c => UInt8.ofNat c.toNat

/-! ## Little-endian integers -/

/-- The `w`-byte little-endian image of `n` (truncating). -/
def leBytes : Nat → Nat → Bytes
  | 0,     _ => []
  | w + 1, n => UInt8.ofNat n :: leBytes w (n / 256)

/-- The number a little-endian byte string denotes. -/
def ofLeBytes : Bytes → Nat
  | []      => 0
  | b :: bs => b.toNat + 256 * ofLeBytes bs

@[simp] theorem leBytes_length (w n : Nat) : (leBytes w n).length = w := by
  induction w generalizing n with
  | zero => rfl
  | succ w ih => simp [leBytes, ih]

theorem ofLeBytes_leBytes {w n : Nat} (h : n < 256 ^ w) : ofLeBytes (leBytes w n) = n := by
  induction w generalizing n with
  | zero => simp only [pow_zero, Nat.lt_one_iff] at h; subst h; rfl
  | succ w ih =>
    have hdiv : n / 256 < 256 ^ w := by
      rw [Nat.div_lt_iff_lt_mul (by decide)]; rw [pow_succ] at h; exact h
    have hlow : (UInt8.ofNat n).toNat = n % 256 := by simp
    simp only [leBytes, ofLeBytes, ih hdiv, hlow]
    omega

/-- Split off exactly `n` bytes, if there are that many. -/
def takeBytes (n : Nat) (input : Bytes) : Option (Bytes × Bytes) :=
  if n ≤ input.length then some (input.take n, input.drop n) else none

theorem takeBytes_append {n : Nat} {front : Bytes} (rest : Bytes) (h : front.length = n) :
    takeBytes n (front ++ rest) = some (front, rest) := by
  subst h
  simp [takeBytes]

/-! ## The codec class -/

/-- A SCALE codec: a prefix decoder that inverts the encoder in front of any rest. -/
class Codec (α : Type) where
  encode : α → Bytes
  decode : Bytes → Option (α × Bytes)
  decode_encode : ∀ a rest, decode (encode a ++ rest) = some (a, rest)

export Codec (encode decode)

/-- A codec whose images all have one length (`[u8; N]`, the machine integers, records of these). -/
class FixedCodec (α : Type) extends Codec α where
  width : Nat
  encode_length : ∀ a, (encode a).length = width

export FixedCodec (width encode_length)

attribute [simp] FixedCodec.encode_length

variable {α β : Type}

/-- **Encodings are uniquely readable.** A concatenation that starts with an encoding determines both the
    value and what follows it. -/
theorem encode_append_inj [Codec α] {a b : α} {r r' : Bytes} (h : encode a ++ r = encode b ++ r') : a = b ∧ r = r' := by
  have ha := Codec.decode_encode a r
  rw [h, Codec.decode_encode b r'] at ha
  simp only [Option.some.injEq, Prod.mk.injEq] at ha
  exact ⟨ha.1.symm, ha.2.symm⟩

theorem encode_inj [Codec α] {a b : α} (h : encode a = encode b) : a = b := by
  have hnil : encode a ++ [] = encode b ++ [] := by rw [h]
  exact (encode_append_inj hnil).1

/-- Decode a stored value; what follows the encoding is ignored, as a storage read does. -/
def decodeValue [Codec α] (input : Bytes) : Option α := (decode input).map Prod.fst

@[simp] theorem decodeValue_encode [Codec α] (a : α) : decodeValue (encode a) = some a := by
  have h := Codec.decode_encode a []
  rw [List.append_nil] at h
  simp [decodeValue, h]

/-! ## Instances -/

instance : FixedCodec UInt8 where
  encode b := [b]
  decode
    | []        => none
    | b :: rest => some (b, rest)
  decode_encode _ _ := rfl
  width := 1
  encode_length _ := rfl

instance : FixedCodec UInt16 where
  encode n := leBytes 2 n.toNat
  decode input := (takeBytes 2 input).map fun p => (UInt16.ofNat (ofLeBytes p.1), p.2)
  decode_encode n rest := by
    rw [takeBytes_append rest (leBytes_length 2 _), Option.map_some,
      ofLeBytes_leBytes (by simpa using n.toNat_lt), UInt16.ofNat_toNat]
  width := 2
  encode_length _ := leBytes_length 2 _

instance : FixedCodec UInt32 where
  encode n := leBytes 4 n.toNat
  decode input := (takeBytes 4 input).map fun p => (UInt32.ofNat (ofLeBytes p.1), p.2)
  decode_encode n rest := by
    rw [takeBytes_append rest (leBytes_length 4 _), Option.map_some,
      ofLeBytes_leBytes (by simpa using n.toNat_lt), UInt32.ofNat_toNat]
  width := 4
  encode_length _ := leBytes_length 4 _

instance : FixedCodec UInt64 where
  encode n := leBytes 8 n.toNat
  decode input := (takeBytes 8 input).map fun p => (UInt64.ofNat (ofLeBytes p.1), p.2)
  decode_encode n rest := by
    rw [takeBytes_append rest (leBytes_length 8 _), Option.map_some,
      ofLeBytes_leBytes (by simpa using n.toNat_lt), UInt64.ofNat_toNat]
  width := 8
  encode_length _ := leBytes_length 8 _

instance : FixedCodec Bool where
  encode b := [if b then 1 else 0]
  decode
    | []        => none
    | b :: rest => if b = 0 then some (false, rest) else if b = 1 then some (true, rest) else none
  decode_encode b rest := by cases b <;> rfl
  width := 1
  encode_length _ := rfl

/-- A fixed byte array `[u8; n]` is its own image. -/
instance (n : Nat) : FixedCodec (List.Vector UInt8 n) where
  encode v := v.toList
  decode input :=
    if h : n ≤ input.length then
      some (⟨input.take n, by simp [h]⟩, input.drop n)
    else none
  decode_encode v rest := by
    have hv : v.toList.length = n := v.toList_length
    have hle : n ≤ (v.toList ++ rest).length := by rw [List.length_append]; omega
    have htake : (v.toList ++ rest).take n = v.toList := List.take_left' hv
    rw [dif_pos hle]
    refine congrArg some (Prod.ext (Subtype.ext htake) ?_)
    exact List.drop_left' hv
  width := n
  encode_length v := v.toList_length

instance [Codec α] : Codec (Option α) where
  encode
    | none   => [0]
    | some a => 1 :: encode a
  decode
    | []        => none
    | b :: rest =>
        if b = 0 then some (none, rest)
        else if b = 1 then (decode rest).map fun p => (some p.1, p.2)
        else none
  decode_encode a rest := by
    cases a with
    | none => rfl
    | some a => simp [Codec.decode_encode]

instance [Codec α] [Codec β] : Codec (α × β) where
  encode p := encode p.1 ++ encode p.2
  decode input := (decode input).bind fun p => (decode p.2).map fun q => ((p.1, q.1), q.2)
  decode_encode p rest := by
    simp [List.append_assoc, Codec.decode_encode]

@[simp] theorem encode_pair [Codec α] [Codec β] (p : α × β) : encode p = encode p.1 ++ encode p.2 := rfl

instance [FixedCodec α] [FixedCodec β] : FixedCodec (α × β) where
  width := width α + width β
  encode_length p := by simp

/-- A record is encoded as the tuple of its fields. -/
@[reducible] def Codec.ofRetract [Codec α] (fields : β → α) (build : α → β)
    (h : ∀ b, build (fields b) = b) : Codec β where
  encode b := encode (fields b)
  decode input := (decode input).map fun p => (build p.1, p.2)
  decode_encode b rest := by simp [Codec.decode_encode, h]

/-- A field-less enumeration is its tag byte. -/
@[reducible] def Codec.ofTag (tag : α → UInt8) (untag : UInt8 → Option α)
    (h : ∀ a, untag (tag a) = some a) : Codec α where
  encode a := [tag a]
  decode
    | []        => none
    | b :: rest => (untag b).map fun a => (a, rest)
  decode_encode a rest := by simp [h]

/-- A balance of `w` bits occupies the bytes it needs. -/
instance (w : Nat) : FixedCodec (BitVec w) where
  encode n := leBytes ((w + 7) / 8) n.toNat
  decode input := (takeBytes ((w + 7) / 8) input).map fun p => (BitVec.ofNat w (ofLeBytes p.1), p.2)
  decode_encode n rest := by
    have hfit : n.toNat < 256 ^ ((w + 7) / 8) := by
      have hpow : (2 : Nat) ^ w ≤ 256 ^ ((w + 7) / 8) := by
        rw [show (256 : Nat) = 2 ^ 8 from rfl, ← pow_mul]
        exact Nat.pow_le_pow_right (by decide) (by omega)
      exact lt_of_lt_of_le n.isLt hpow
    rw [takeBytes_append rest (leBytes_length _ _), Option.map_some, ofLeBytes_leBytes hfit,
      BitVec.ofNat_toNat, BitVec.setWidth_eq]
  width := (w + 7) / 8
  encode_length _ := leBytes_length _ _

/-! ## Byte slices with a compact length -/

/-- The compact length prefix of a `u32`-sized slice. -/
def compactLen (n : Nat) : Bytes :=
  if n < 2 ^ 6 then leBytes 1 (4 * n)
  else if n < 2 ^ 14 then leBytes 2 (4 * n + 1)
  else if n < 2 ^ 30 then leBytes 4 (4 * n + 2)
  else 3 :: leBytes 4 n

/-- A dynamically sized slice `&[u8]`: its compact length, then its bytes. -/
def encodeSlice (bs : Bytes) : Bytes := compactLen bs.length ++ bs
end Scale
