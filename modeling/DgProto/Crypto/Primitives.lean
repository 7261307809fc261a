import DgProto.Library.Octets
import DgProto.Wire.Errors

/-!
# Cryptographic primitives and the key ratchet

The AEAD and HMAC-SHA256 come from outside the repository.  They are a
parameter of the development; what a result needs of them is a named
proposition about that parameter.  The only law built into the parameter is the
documented overhead of `Seal`, without which the source's own slicing of a
sealed text would not be defined.

On top of them stand the two uses of HMAC: the confirmation of a new epoch and
the ratchet that derives the next traffic key.
-/

namespace DgProto
namespace Crypto

open Library

/-- `KeySize`. -/
def keySize : Nat := 32

/-- A traffic key. -/
abbrev Key := Octets 32

/-- The primitives of other packages. -/
structure Primitives where
  /-- `chacha20poly1305.New`: the text of its error, if it fails. -/
  aeadNew : List UInt8 → Option String
  /-- `AEAD.Seal` under a key: nonce, plaintext, associated data. -/
  sealText : Key → List UInt8 → List UInt8 → List UInt8 → List UInt8
  /-- `AEAD.Open` under a key: nonce, sealed text, associated data. -/
  openText : Key → List UInt8 → List UInt8 → List UInt8 → Option (List UInt8)
  /-- HMAC-SHA256 of a message under a secret. -/
  hmacSha256 : List UInt8 → List UInt8 → Octets 32
  /-- `AEAD.Overhead` is 16. -/
  seal_length : ∀ key nonce plaintext aad,
    (sealText key nonce plaintext aad).length = plaintext.length + 16

namespace Primitives

variable (P : Primitives)

/-- `chacha20poly1305.New` accepts every 32-byte key. -/
def NewSucceeds : Prop :=
  ∀ key : List UInt8, key.length = keySize → P.aeadNew key = none

/-- `Open` inverts `Seal`. -/
def OpenInvertsSeal : Prop :=
  ∀ key nonce plaintext aad,
    P.openText key nonce (P.sealText key nonce plaintext aad) aad = some plaintext

end Primitives

/-! ## Epoch confirmation -/

/-- The octets of an ASCII label. -/
def label (text : String) : List UInt8 :=
  text.toList.map fun c => UInt8.ofNat c.toNat

/-- `RekeyState`: the epoch of one direction. -/
structure RekeyState where
  epoch : UInt32
  deriving DecidableEq, Repr

/-- The confirmation value for `epoch` under `secret`. -/
def confirmation (P : Primitives) (secret : List UInt8) (epoch : UInt32) : Octets 32 :=
  P.hmacSha256 secret (label "DGPv1 Rekey Confirm" ++ putUint32 epoch)

/-- `RekeyState.ComputeKeyConfirm`. -/
def RekeyState.computeKeyConfirm (P : Primitives) (r : RekeyState) (secret : List UInt8)
    (epoch : UInt32) : Except Error (Octets 32) :=
  if r.epoch = 0xFFFFFFFF then
    .error Sentinel.epochExhausted.bare
  else if r.epoch = 0 then
    .error (Sentinel.invalidEpoch.wrap "current epoch is zero")
  else if epoch ≠ r.epoch + 1 then
    .error (Sentinel.invalidEpoch.wrap s!"got {epoch}, want {r.epoch + 1}")
  else
    .ok (confirmation P secret epoch)

/-- For a live epoch, exactly the successor is confirmed. -/
theorem RekeyState.computeKeyConfirm_succ (P : Primitives) {epoch : UInt32}
    (hzero : epoch ≠ 0) (hmax : epoch ≠ 0xFFFFFFFF) (secret : List UInt8) :
    RekeyState.computeKeyConfirm P ⟨epoch⟩ secret (epoch + 1) =
      .ok (confirmation P secret (epoch + 1)) := by
  simp [computeKeyConfirm, hzero, hmax]

/-! ## The ratchet -/

/-- `DeriveNextKeys`. -/
def deriveNextKeys (P : Primitives) (currentSecret : List UInt8) :
    Except Error (List UInt8 × List UInt8) :=
  if currentSecret.length ≠ keySize then
    .error (Sentinel.invalidKeySize.wrap s!"got {currentSecret.length}, want {keySize}")
  else
    .ok ((P.hmacSha256 currentSecret (label "DGPv1 Rekey Send Key")).val,
      (P.hmacSha256 currentSecret (label "DGPv1 Rekey Receive Key")).val)

/-- `deriveNextTrafficKey`; the array stays zero if `DeriveNextKeys` fails. -/
def deriveNextTrafficKey (P : Primitives) (current : Key) : Key :=
  match deriveNextKeys P current.val with
  | .error _ => Octets.zero 32
  | .ok (next, _) => Octets.copy 32 next

/-- The chain of traffic keys from a handshake key on; epoch `e` uses entry `e - 1`. -/
def keyChain (P : Primitives) (key : Key) : Nat → Key
  | 0 => key
  | n + 1 => deriveNextTrafficKey P (keyChain P key n)

/-- The number of keys that one direction can use: an epoch is a nonzero `uint32`. -/
def epochCount : Nat := 2 ^ 32 - 1

/-- The ratchet chain of a direction has no repetition. -/
def ChainFresh (P : Primitives) (key : Key) : Prop :=
  ∀ i j, i < epochCount → j < epochCount → keyChain P key i = keyChain P key j → i = j

/-- The AEAD is ideal on the keys of a chain: what one of them has sealed opens under no
other one. -/
def ChainSeparated (P : Primitives) (key : Key) : Prop :=
  ∀ i j, i < epochCount → j < epochCount → keyChain P key i ≠ keyChain P key j →
    ∀ nonce plaintext aad,
      P.openText (keyChain P key j) nonce
        (P.sealText (keyChain P key i) nonce plaintext aad) aad = none

/-- No key of one chain occurs in the other. -/
def ChainsDisjoint (P : Primitives) (key key' : Key) : Prop :=
  ∀ i j, i < epochCount → j < epochCount → keyChain P key i ≠ keyChain P key' j

/-! ## A model of the assumptions

The assumptions above hold together in a transparent instance: it counts keys up,
and seals by appending octets of the key as the tag. -/

/-- Sealing appends the first half of the key; HMAC adds one to the secret. -/
def transparent : Primitives where
  aeadNew _ := none
  sealText key _ plaintext _ := plaintext ++ key.val.take 16
  openText key _ sealed _ :=
    if sealed.drop (sealed.length - 16) = key.val.take 16 then
      some (sealed.take (sealed.length - 16))
    else
      none
  hmacSha256 secret _ := ⟨putNat 32 (readNat secret + 1), putNat_length 32 _⟩
  seal_length key _ plaintext _ := by simp [key.property]

/-- The key that encodes a number. -/
def counterKey (n : Nat) : Key := ⟨putNat 32 n, putNat_length 32 n⟩

theorem transparent_newSucceeds : transparent.NewSucceeds := fun _ _ => rfl

theorem transparent_openInvertsSeal : transparent.OpenInvertsSeal := by
  intro key _ plaintext _
  simp [transparent, key.property]

theorem counterKey_inj {n m : Nat} (hn : n < 256 ^ 32) (hm : m < 256 ^ 32)
    (h : counterKey n = counterKey m) : n = m :=
  putNat_injOn hn hm (congrArg Subtype.val h)

theorem keyChain_counterKey {n i : Nat} (h : n + i < 256 ^ 32) :
    keyChain transparent (counterKey n) i = counterKey (n + i) := by
  induction i with
  | zero => rfl
  | succ i ih =>
      have hread : readNat (putNat 32 (n + i)) = n + i := readNat_putNat (by omega)
      rw [keyChain, ih (by omega)]
      apply Subtype.ext
      simp only [deriveNextTrafficKey, deriveNextKeys, counterKey, transparent, putNat_length,
        keySize, hread, ne_eq, not_true_eq_false, if_false]
      rw [Octets.copy_val (putNat_length 32 _), Nat.add_assoc]

theorem chainFresh_counterKey {n : Nat} (h : n + epochCount ≤ 256 ^ 32) :
    ChainFresh transparent (counterKey n) := by
  intro i j hi hj heq
  rw [keyChain_counterKey (by omega), keyChain_counterKey (by omega)] at heq
  have := counterKey_inj (by omega) (by omega) heq
  omega

theorem chainSeparated_counterKey {n : Nat} (h : n + epochCount ≤ 256 ^ 16) :
    ChainSeparated transparent (counterKey n) := by
  intro i j hi hj hne nonce plaintext aad
  have hwide : (256 : Nat) ^ 16 ≤ 256 ^ 32 := by decide
  rw [keyChain_counterKey (by omega), keyChain_counterKey (by omega)] at hne ⊢
  have htag : (counterKey (n + i)).val.take 16 ≠ (counterKey (n + j)).val.take 16 := by
    intro heq
    rw [counterKey, counterKey, take_putNat 16 16, take_putNat 16 16] at heq
    exact hne (congrArg counterKey (putNat_injOn (by omega) (by omega) heq))
  have hlength : (List.take 16 (counterKey (n + i)).val).length = 16 := by
    simp [(counterKey (n + i)).property]
  simp only [transparent, List.length_append, hlength, Nat.add_sub_cancel, List.drop_left]
  exact if_neg htag

theorem chainsDisjoint_counterKey {n m : Nat} (hn : n + epochCount ≤ m)
    (hm : m + epochCount ≤ 256 ^ 32) :
    ChainsDisjoint transparent (counterKey n) (counterKey m) := by
  intro i j hi hj heq
  rw [keyChain_counterKey (by omega), keyChain_counterKey (by omega)] at heq
  have := counterKey_inj (by omega) (by omega) heq
  omega

end Crypto
end DgProto
