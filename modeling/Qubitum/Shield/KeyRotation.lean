import Qubitum.Pallet.Types

/-!
# `Shield.KeyRotation` — the encryption-key pipeline of the shield pallet

Every block begins with the inherent `announce_next_key`, which moves the authors' keys one stage on:
`NextKey → PendingKey → CurrentKey`. Users encrypt to a published key (`PendingKey` or `NextKey`) and read
from its `…ExpiresAt` up to which block (exclusive) it can be used; a wrapper is accepted when its key hash
is that of `PendingKey` at the time it is applied.

The inherent runs **before** the wrappers of its block. By then the key of the block's own author has
already moved on from `PendingKey` to `CurrentKey`, so whether a wrapper for it
is accepted in that block is decided by the key that followed it through the pipeline
(`Run.window_honoured_iff`).
-/

namespace Qubitum
open Scale Outcome

namespace Shield
variable {A V : Type}

/-! ## Wrappers -/

/-- ML-KEM-768 encapsulation key -/
abbrev ShieldEncKey := Bytes

abbrev KeyHash := List.Vector UInt8 16

def mlkem768EncKeyLen : Nat := 1184

def mlkem768CiphertextLen : Nat := 1088

def minAeadCiphertextLen : Nat := 16

structure ShieldedTransaction where
  keyHash : KeyHash
  kemCt : Bytes
  nonce : Bytes
  aeadCt : Bytes

variable {shieldedTx : ShieldedTransaction}

/-- `ShieldedTransaction::parse` belongs to the crate of the cipher and is the parameter `parse`. -/
def parseValidSubmitEncryptedCiphertext (parse : Bytes → Option ShieldedTransaction) (ciphertext : Bytes) :
    Option ShieldedTransaction := do
  let shieldedTx ← parse ciphertext
  -- the length is all that `Ciphertext::<MlKem768>::try_from` checks
  guard (shieldedTx.kemCt.length = mlkem768CiphertextLen)
  guard (minAeadCiphertextLen ≤ shieldedTx.aeadCt.length)
  pure shieldedTx

/-- The calls of the shield pallet; the last stands for the root-only settings. -/
inductive Call where
  | announceNextKey (encKey : Option ShieldEncKey)
  | submitEncrypted (ciphertext : Bytes)
  | storeEncrypted (encryptedCall : Bytes)
  | setLimit

/-! ## Keys -/

/-- The key storage of the pallet, for authorities `V`. -/
structure Keys (V : Type) where
  currentKey : Option ShieldEncKey
  pendingKey : Option ShieldEncKey
  nextKey : Option ShieldEncKey
  authorKeys : V → Option ShieldEncKey
  pendingKeyExpiresAt : Option Nat
  nextKeyExpiresAt : Option Nat

inductive Error where
  | badOrigin
  | unreachable
  | badEncKeyLen
  | badCiphertext
  | invalidShieldedTxPubKeyHash
  deriving DecidableEq, Repr

/-- What `FindAuthors` answers in a block. -/
structure Authors (V : Type) where
  current : Option V
  nextNext : Option V

/-- `announce_next_key` in block `now`. -/
def announceNextKey [DecidableEq A] [DecidableEq V] (authors : Authors V) (now : Nat) (origin : Origin A)
    (encKey : Option ShieldEncKey) (keys : Keys V) : Except Error (Keys V) := do
  ensure (origin = .none) Error.badOrigin
  let author ← okOr authors.current Error.unreachable
  -- 1. CurrentKey ← PendingKey, 2. PendingKey ← NextKey, 3. NextKey ← next-next author's key
  let currentKey := keys.pendingKey
  let pendingKey := keys.nextKey
  let nextKey := authors.nextNext.bind keys.authorKeys
  -- 4. the announced key, after the reads above
  ensure (encKey.all fun key => key.length = mlkem768EncKeyLen) Error.badEncKeyLen
  -- 5. expiration of the user-facing keys
  pure
    { currentKey, pendingKey, nextKey
      authorKeys := Function.update keys.authorKeys author encKey
      pendingKeyExpiresAt := pendingKey.map fun _ => now + 2
      nextKeyExpiresAt := nextKey.map fun _ => now + 3 }

section Accept
variable (twox128 : Bytes → KeyHash) (parse : Bytes → Option ShieldedTransaction)

/-- Despite its name it compares with `PendingKey`. -/
def isShieldedUsingCurrentKey (keys : Keys V) (keyHash : KeyHash) : Bool := keys.pendingKey.map twox128 = some keyHash

def submitEncrypted (keys : Keys V) (origin : Origin A) (ciphertext : Bytes) : Except Error Unit := do
  match origin with
  | .signed _ => pure ()
  | _         => .error .badOrigin
  let shieldedTx ← okOr (parseValidSubmitEncryptedCiphertext parse ciphertext) Error.badCiphertext
  ensure (isShieldedUsingCurrentKey twox128 keys shieldedTx.keyHash) Error.invalidShieldedTxPubKeyHash
end Accept

/-! ## One block -/

section Block
variable [DecidableEq A] [DecidableEq V] {authors : Authors V} {now : Nat} {origin : Origin A}
  {encKey : Option ShieldEncKey} {keys keys' : Keys V}

/-- **One stage on.** What a successful inherent makes of the pipeline. -/
theorem announceNextKey_ok (h : announceNextKey authors now origin encKey keys = .ok keys') :
    keys'.currentKey = keys.pendingKey ∧ keys'.pendingKey = keys.nextKey ∧
      keys'.nextKey = authors.nextNext.bind keys.authorKeys ∧
      keys'.pendingKeyExpiresAt = keys'.pendingKey.map (fun _ => now + 2) ∧
      keys'.nextKeyExpiresAt = keys'.nextKey.map (fun _ => now + 3) := by
  obtain ⟨-, h⟩ := ensure_ok h
  obtain ⟨author, -, h⟩ := okOr_ok h
  obtain ⟨-, h⟩ := ensure_ok h
  obtain rfl := pure_ok h
  exact ⟨rfl, rfl, rfl, rfl, rfl⟩
end Block

/-- A well-formed wrapper of a signed account is accepted exactly when its key hash is that of
    `PendingKey`. -/
theorem submitEncrypted_ok_iff {twox128 : Bytes → KeyHash} {parse : Bytes → Option ShieldedTransaction}
    {keys : Keys V} {who : A} {ciphertext : Bytes}
    (hparse : parseValidSubmitEncryptedCiphertext parse ciphertext = some shieldedTx) :
    submitEncrypted twox128 parse keys (.signed who) ciphertext = .ok () ↔
      isShieldedUsingCurrentKey twox128 keys shieldedTx.keyHash := by
  have h : submitEncrypted twox128 parse keys (.signed who) ciphertext =
      ensure (isShieldedUsingCurrentKey twox128 keys shieldedTx.keyHash)
        Error.invalidShieldedTxPubKeyHash := by
    simp only [submitEncrypted, hparse]
    rfl
  rw [h, ensure_eq_ok]

/-! ## Runs -/

/-- Consecutive blocks from number `first` on, each beginning with one successful inherent:
    `keys i` is the key storage before the inherent of block `first + i`. -/
structure Run (V : Type) [DecidableEq V] where
  first : Nat
  length : Nat
  authors : Nat → Authors V
  announced : Nat → Option ShieldEncKey
  keys : Nat → Keys V
  inherent : ∀ i, i < length →
    announceNextKey (authors i) (first + i) (Origin.none : Origin Unit) (announced i) (keys i) = .ok (keys (i + 1))

namespace Run
variable [DecidableEq V] (run : Run V)

/-- The key storage after the inherent of block `n`. -/
def after (n : Nat) : Keys V := run.keys (n + 1 - run.first)

/-- Block `n` belongs to the run. -/
def Contains (n : Nat) : Prop := run.first ≤ n ∧ n < run.first + run.length

variable {run}
variable {n : Nat}

/-- The pipeline between two consecutive blocks. -/
theorem after_succ (h : run.Contains n) (h' : run.Contains (n + 1)) :
    (run.after (n + 1)).currentKey = (run.after n).pendingKey ∧
      (run.after (n + 1)).pendingKey = (run.after n).nextKey ∧
      (run.after (n + 1)).nextKey = (run.authors (n + 1 - run.first)).nextNext.bind (run.after n).authorKeys := by
  obtain ⟨hge, -⟩ := h
  have hi : n + 1 + 1 - run.first = n + 1 - run.first + 1 := by omega
  have hstep := run.inherent (n + 1 - run.first) (by obtain ⟨-, hlt⟩ := h'; omega)
  obtain ⟨hcurrent, hpending, hnext, -⟩ := announceNextKey_ok hstep
  unfold after
  rw [hi]
  exact ⟨hcurrent, hpending, hnext⟩

/-- The expiry a client reads. -/
theorem after_expiry (h : run.Contains n) :
    (run.after n).pendingKeyExpiresAt = (run.after n).pendingKey.map (fun _ => n + 2) ∧
      (run.after n).nextKeyExpiresAt = (run.after n).nextKey.map (fun _ => n + 3) := by
  obtain ⟨hge, hlt⟩ := h
  have hi : n + 1 - run.first = n - run.first + 1 := by omega
  have hn : run.first + (n - run.first) = n := by omega
  have hstep := run.inherent (n - run.first) (by omega)
  obtain ⟨-, -, -, hpending, hnext⟩ := announceNextKey_ok hstep
  unfold after
  rw [hi]
  rw [hn] at hpending hnext
  exact ⟨hpending, hnext⟩

/-- The key that takes `PendingKey` over in the last block before the expiry of a published key: the one
    published in `NextKey` next to it, or, for a key published in `NextKey`, the one the next-next author
    of the following block has on record. -/
def follower (run : Run V) (n : Nat) (inNextKey : Bool) : Option ShieldEncKey :=
  if inNextKey then (run.authors (n + 1 - run.first)).nextNext.bind (run.after n).authorKeys
  else (run.after n).nextKey

/-- **When a published window is honoured.** A well-formed wrapper for a published key `k`, applied after the
    inherent of the last block before the expiry of `k`, is accepted exactly when the key that follows `k`
    through the pipeline has the hash of `k`. -/
theorem window_honoured_iff (twox128 : Bytes → KeyHash) (parse : Bytes → Option ShieldedTransaction) (who : A)
    {n e : Nat} {k : ShieldEncKey} {ciphertext : Bytes} {shieldedTx : ShieldedTransaction}
    (hn : run.Contains n) (he : run.Contains (e - 1))
    (hparse : parseValidSubmitEncryptedCiphertext parse ciphertext = some shieldedTx)
    (hhash : shieldedTx.keyHash = twox128 k) :
    ((run.after n).pendingKey = some k → (run.after n).pendingKeyExpiresAt = some e →
      (submitEncrypted twox128 parse (run.after (e - 1)) (.signed who) ciphertext = .ok () ↔
        (run.follower n false).map twox128 = some (twox128 k))) ∧
    ((run.after n).nextKey = some k → (run.after n).nextKeyExpiresAt = some e →
      (submitEncrypted twox128 parse (run.after (e - 1)) (.signed who) ciphertext = .ok () ↔
        (run.follower n true).map twox128 = some (twox128 k))) := by
  obtain ⟨hpending, hnext⟩ := after_expiry hn
  rw [submitEncrypted_ok_iff hparse, isShieldedUsingCurrentKey, decide_eq_true_iff, hhash]
  constructor
  · intro hk hexp
    rw [hk, Option.map_some, hexp, Option.some.injEq] at hpending
    subst hpending
    -- one inherent later
    rw [show n + 2 - 1 = n + 1 by omega] at he ⊢
    rw [(after_succ hn he).2.1]
    rfl
  · intro hk hexp
    rw [hk, Option.map_some, hexp, Option.some.injEq] at hnext
    subst hnext
    -- two inherents later
    rw [show n + 3 - 1 = n + 1 + 1 by omega] at he ⊢
    have hmid : run.Contains (n + 1) := by
      obtain ⟨hge, -⟩ := hn
      obtain ⟨-, hlt⟩ := he
      exact ⟨by omega, by omega⟩
    rw [(after_succ hmid he).2.1, (after_succ hn hmid).2.2]
    rfl
end Run

namespace Sample

def digest (bytes : Bytes) : KeyHash := ⟨leBytes 16 (ofLeBytes (bytes.take 16)), leBytes_length _ _⟩

def key (n : UInt8) : ShieldEncKey := List.replicate mlkem768EncKeyLen n

theorem key_length (n : UInt8) : (key n).length = mlkem768EncKeyLen := List.length_replicate

section Rotation

/-! Three authors take turns, each announcing the same key every time. -/

variable (keyOf : Fin 3 → ShieldEncKey)

/-- The pipeline before block `1`, whose author is `0`. -/
def start : Keys (Fin 3) where
  currentKey := none
  pendingKey := some (keyOf 0)
  nextKey := some (keyOf 1)
  authorKeys author := some (keyOf author)
  pendingKeyExpiresAt := some 2
  nextKeyExpiresAt := some 3

def authors (i : Nat) : Authors (Fin 3) := ⟨some (Fin.ofNat 3 i), some (Fin.ofNat 3 (i + 2))⟩

def announced (i : Nat) : Option ShieldEncKey := some (keyOf (Fin.ofNat 3 i))

/-- The storage after an inherent. -/
def rotate (i : Nat) (keys : Keys (Fin 3)) : Keys (Fin 3) :=
  match announceNextKey (authors i) (1 + i) (Origin.none : Origin Unit) (announced keyOf i) keys with
  | .ok keys' => keys'
  | .error _  => keys

def keysAt : Nat → Keys (Fin 3)
  | 0     => start keyOf
  | i + 1 => rotate keyOf i (keysAt i)

variable {keyOf} (hkeys : ∀ author, (keyOf author).length = mlkem768EncKeyLen)
include hkeys

theorem rotate_ok (i : Nat) (keys : Keys (Fin 3)) :
    announceNextKey (authors i) (1 + i) (Origin.none : Origin Unit) (announced keyOf i) keys =
      .ok (rotate keyOf i keys) := by
  have hlen : (announced keyOf i).all (fun key => key.length = mlkem768EncKeyLen) = true := by
    simp only [announced, Option.all_some, hkeys, decide_true]
  have hauthor : (authors i).current = some (Fin.ofNat 3 i) := rfl
  unfold rotate
  simp only [announceNextKey, hauthor, hlen]
  rfl

/-- The first five blocks. -/
def rotation : Run (Fin 3) where
  first := 1
  length := 5
  authors := authors
  announced := announced keyOf
  keys := keysAt keyOf
  inherent i _ := rotate_ok hkeys i (keysAt keyOf i)

/-- Block `1` publishes the keys of authors `1` and `2`. -/
theorem rotation_after_one :
    ((rotation hkeys).after 1).pendingKey = some (keyOf 1) ∧ ((rotation hkeys).after 1).nextKey = some (keyOf 2) := by
  obtain ⟨-, hpending, hnext, -⟩ := announceNextKey_ok (rotate_ok hkeys 0 (start keyOf))
  exact ⟨hpending, hnext⟩

theorem rotation_contains {n : Nat} (hpos : 1 ≤ n) (hle : n ≤ 5) : (rotation hkeys).Contains n :=
  ⟨hpos, show n < 1 + 5 by omega⟩

/-- The window that block `1` publishes for the key of author `1`. -/
theorem rotation_expiry : ((rotation hkeys).after 1).pendingKeyExpiresAt = some 3 := by
  rw [(Run.after_expiry (rotation_contains hkeys (by decide) (by decide))).1,
    (rotation_after_one hkeys).1, Option.map_some]
end Rotation

/-- The wire format of the documentation, `key_hash(16) ‖ kem_len(2) ‖ kem_ct ‖ nonce(24) ‖ aead_ct`. -/
def parse (ciphertext : Bytes) : Option ShieldedTransaction := do
  let (keyHash, rest) ← decode (α := KeyHash) ciphertext
  let (kemLen, rest) ← decode (α := UInt16) rest
  let (kemCt, rest) ← takeBytes kemLen.toNat rest
  let (nonce, aeadCt) ← takeBytes 24 rest
  pure { keyHash, kemCt, nonce, aeadCt }

/-- The bytes a client submits, as the documentation of `submit_encrypted` composes them. -/
def ciphertext (shieldedTx : ShieldedTransaction) : Bytes :=
  encode shieldedTx.keyHash ++ (encode (UInt16.ofNat shieldedTx.kemCt.length) ++
    (shieldedTx.kemCt ++ (shieldedTx.nonce ++ shieldedTx.aeadCt)))

theorem parse_ciphertext {shieldedTx : ShieldedTransaction} (hkem : shieldedTx.kemCt.length < 2 ^ 16)
    (hnonce : shieldedTx.nonce.length = 24) : parse (ciphertext shieldedTx) = some shieldedTx := by
  have hlen : (UInt16.ofNat shieldedTx.kemCt.length).toNat = shieldedTx.kemCt.length := by
    rw [UInt16.toNat_ofNat', Nat.mod_eq_of_lt hkem]
  simp only [parse, ciphertext, Codec.decode_encode, Option.bind_eq_bind, Option.bind_some, hlen,
    takeBytes_append _ rfl, takeBytes_append _ hnonce]
  rfl

/-- A wrapper for a key. -/
def wrapper (k : ShieldEncKey) : ShieldedTransaction where
  keyHash := digest k
  kemCt := List.replicate mlkem768CiphertextLen 0xAA
  nonce := List.replicate 24 0xBB
  aeadCt := List.replicate minAeadCiphertextLen 0xDD

theorem wrapper_wellFormed (k : ShieldEncKey) :
    parseValidSubmitEncryptedCiphertext parse (ciphertext (wrapper k)) = some (wrapper k) := by
  have hkem : (wrapper k).kemCt.length = mlkem768CiphertextLen := List.length_replicate
  have haead : minAeadCiphertextLen ≤ (wrapper k).aeadCt.length := Nat.le_of_eq List.length_replicate.symm
  have hparse := parse_ciphertext (hkem ▸ by decide : (wrapper k).kemCt.length < 2 ^ 16)
    List.length_replicate
  simp only [parseValidSubmitEncryptedCiphertext, hparse, Option.bind_eq_bind, Option.bind_some, guard, hkem, haead,
    if_true]
  rfl

/-- Every author has a key of its own. -/
theorem own_length (author : Fin 3) : (key (author.val.toUInt8 + 1)).length = mlkem768EncKeyLen := key_length _

/-- All authors share one key. -/
theorem shared_length (_ : Fin 3) : (key 1).length = mlkem768EncKeyLen := key_length 1
end Sample
open Shield.Sample

/-- Block `2` belongs to the owner of `key 2`, published by block `1` as usable below block `3`; yet after
    the inherent of block `2` the pending key is `key 3`. -/
theorem published_window_refused :
    (rotation own_length).Contains 1 ∧ (rotation own_length).Contains (3 - 1) ∧
    ((rotation own_length).after 1).pendingKey = some (key 2) ∧
    ((rotation own_length).after 1).pendingKeyExpiresAt = some 3 ∧
    ((rotation own_length).after (3 - 1)).currentKey = some (key 2) ∧
    parseValidSubmitEncryptedCiphertext parse (ciphertext (wrapper (key 2))) = some (wrapper (key 2)) ∧
    (wrapper (key 2)).keyHash = digest (key 2) ∧
    submitEncrypted digest parse ((rotation own_length).after (3 - 1)) (Origin.signed ())
      (ciphertext (wrapper (key 2))) ≠ .ok () := by
  have hone := rotation_contains own_length (n := 1) (by decide) (by decide)
  have htwo := rotation_contains own_length (n := 2) (by decide) (by decide)
  have hpending := (rotation_after_one own_length).1
  refine ⟨hone, htwo, hpending, rotation_expiry own_length,
    (Run.after_succ hone htwo).1.trans hpending, wrapper_wellFormed _, rfl, ?_⟩
  rw [ne_eq, submitEncrypted_ok_iff (wrapper_wellFormed _), isShieldedUsingCurrentKey,
    (Run.after_succ hone htwo).2.1, (rotation_after_one own_length).2]
  decide +kernel

/-- Where all authors share one key, the window is honoured. -/
theorem window_honoured_shared :
    submitEncrypted digest parse ((rotation shared_length).after (3 - 1)) (Origin.signed ())
      (ciphertext (wrapper (key 1))) = .ok () := by
  have hone := rotation_contains shared_length (n := 1) (by decide) (by decide)
  have htwo := rotation_contains shared_length (n := 2) (by decide) (by decide)
  have hwindow := Run.window_honoured_iff digest parse () (e := 3) hone htwo (wrapper_wellFormed (key 1)) rfl
  apply (hwindow.1 (rotation_after_one shared_length).1 (rotation_expiry shared_length)).mpr
  rw [Run.follower, if_neg (by decide), (rotation_after_one shared_length).2, Option.map_some]
end Shield
end Qubitum
