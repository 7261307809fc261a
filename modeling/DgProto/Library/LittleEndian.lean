import Mathlib.Data.Nat.Basic
import Mathlib.Tactic.Common
import Mathlib.Tactic.Ring

/-!
# Little-endian octet strings

Fixed-width little-endian encodings of natural numbers.  `putNat width n`
writes the `width` low octets of `n`, and `readNat` folds an octet string back
into the number it denotes.  The two round trips below are the only facts that
a codec built from them needs: encoding loses nothing below the width bound,
and every octet string is the encoding of what it denotes.  The second half
states both for the 16-, 32- and 64-bit machine words.
-/

namespace DgProto
namespace Library

/-- The `width` little-endian octets of `n`; higher octets are dropped. -/
def putNat : Nat → Nat → List UInt8
  | 0, _ => []
  | width + 1, n => UInt8.ofNat n :: putNat width (n / 256)

/-- The natural number denoted by a little-endian octet string. -/
def readNat (octets : List UInt8) : Nat :=
  octets.foldr (fun octet high => octet.toNat + 256 * high) 0

@[simp] theorem readNat_nil : readNat [] = 0 := rfl

@[simp] theorem readNat_cons (octet : UInt8) (rest : List UInt8) :
    readNat (octet :: rest) = octet.toNat + 256 * readNat rest := rfl

@[simp] theorem putNat_length (width n : Nat) :
    (putNat width n).length = width := by
  induction width generalizing n with
  | zero => rfl
  | succ width ih => simp [putNat, ih]

theorem readNat_lt (octets : List UInt8) :
    readNat octets < 256 ^ octets.length := by
  induction octets with
  | nil => simp
  | cons octet rest ih =>
      have hoctet : octet.toNat < 256 := octet.toNat_lt
      rw [readNat_cons, List.length_cons, Nat.pow_succ]
      omega

/-- Decoding an encoding recovers the number modulo the width. -/
theorem readNat_putNat_mod (width n : Nat) :
    readNat (putNat width n) = n % 256 ^ width := by
  induction width generalizing n with
  | zero => simp [putNat, Nat.mod_one]
  | succ width ih =>
      have hsplit : n % 256 ^ (width + 1) =
          n % 256 + 256 * (n / 256 % 256 ^ width) := by
        rw [show 256 ^ (width + 1) = 256 * 256 ^ width by ring, Nat.mod_mul]
      simp [putNat, ih, hsplit]

theorem readNat_putNat {width n : Nat} (h : n < 256 ^ width) :
    readNat (putNat width n) = n := by
  rw [readNat_putNat_mod, Nat.mod_eq_of_lt h]

/-- Every octet string is the encoding of the number it denotes. -/
theorem putNat_readNat (octets : List UInt8) :
    putNat octets.length (readNat octets) = octets := by
  induction octets with
  | nil => rfl
  | cons octet rest ih =>
      have hoctet : octet.toNat < 256 := octet.toNat_lt
      have hlow : UInt8.ofNat (octet.toNat + 256 * readNat rest) = octet := by
        apply UInt8.toNat_inj.mp
        rw [UInt8.toNat_ofNat']
        omega
      have hhigh : (octet.toNat + 256 * readNat rest) / 256 = readNat rest := by
        omega
      rw [readNat_cons, List.length_cons, putNat, hlow, hhigh, ih]

/-- On numbers below the width bound the encoding is injective. -/
theorem putNat_injOn {width n m : Nat} (hn : n < 256 ^ width)
    (hm : m < 256 ^ width) (h : putNat width n = putNat width m) : n = m := by
  have hdecoded := congrArg readNat h
  rwa [readNat_putNat hn, readNat_putNat hm] at hdecoded

/-- The low octets of a wide encoding are the narrow encoding. -/
theorem take_putNat (width more n : Nat) :
    (putNat (width + more) n).take width = putNat width n := by
  induction width generalizing n with
  | zero => simp [putNat]
  | succ width ih =>
      rw [Nat.add_right_comm, putNat, List.take_succ_cons, ih, putNat]

/-! ## Machine words -/

/-- `binary.LittleEndian.PutUint64`. -/
def putUint64 (value : UInt64) : List UInt8 := putNat 8 value.toNat
/-- `binary.LittleEndian.PutUint32`. -/
def putUint32 (value : UInt32) : List UInt8 := putNat 4 value.toNat
/-- `binary.LittleEndian.PutUint16`. -/
def putUint16 (value : UInt16) : List UInt8 := putNat 2 value.toNat
/-- `binary.LittleEndian.Uint64` on a slice that starts with the number. -/
def readUint64 (source : List UInt8) : UInt64 := UInt64.ofNat (readNat (source.take 8))
/-- `binary.LittleEndian.Uint32`. -/
def readUint32 (source : List UInt8) : UInt32 := UInt32.ofNat (readNat (source.take 4))
/-- `binary.LittleEndian.Uint16`. -/
def readUint16 (source : List UInt8) : UInt16 := UInt16.ofNat (readNat (source.take 2))

@[simp] theorem putUint64_length (value : UInt64) : (putUint64 value).length = 8 :=
  putNat_length 8 value.toNat

@[simp] theorem putUint32_length (value : UInt32) : (putUint32 value).length = 4 :=
  putNat_length 4 value.toNat

@[simp] theorem putUint16_length (value : UInt16) : (putUint16 value).length = 2 :=
  putNat_length 2 value.toNat

theorem readUint64_putUint64_append (value : UInt64) (rest : List UInt8) :
    readUint64 (putUint64 value ++ rest) = value := by
  have hlt : value.toNat < 256 ^ 8 := value.toNat_lt
  rw [readUint64, List.take_append_of_le_length (by simp),
    List.take_of_length_le (by simp), putUint64, readNat_putNat hlt,
    UInt64.ofNat_toNat]

theorem readUint32_putUint32_append (value : UInt32) (rest : List UInt8) :
    readUint32 (putUint32 value ++ rest) = value := by
  have hlt : value.toNat < 256 ^ 4 := value.toNat_lt
  rw [readUint32, List.take_append_of_le_length (by simp),
    List.take_of_length_le (by simp), putUint32, readNat_putNat hlt,
    UInt32.ofNat_toNat]

theorem readUint16_putUint16_append (value : UInt16) (rest : List UInt8) :
    readUint16 (putUint16 value ++ rest) = value := by
  have hlt : value.toNat < 256 ^ 2 := value.toNat_lt
  rw [readUint16, List.take_append_of_le_length (by simp),
    List.take_of_length_le (by simp), putUint16, readNat_putNat hlt,
    UInt16.ofNat_toNat]

@[simp] theorem readUint64_putUint64 (value : UInt64) :
    readUint64 (putUint64 value) = value := by
  simpa using readUint64_putUint64_append value []

@[simp] theorem readUint32_putUint32 (value : UInt32) :
    readUint32 (putUint32 value) = value := by
  simpa using readUint32_putUint32_append value []

@[simp] theorem readUint16_putUint16 (value : UInt16) :
    readUint16 (putUint16 value) = value := by
  simpa using readUint16_putUint16_append value []

/-- An octet string is the encoding of the number it denotes. -/
theorem putNat_readNat_take {source : List UInt8} {n : Nat} (h : source.length = n) :
    putNat n (readNat (source.take n) % 256 ^ n) = source := by
  subst h
  rw [List.take_length, Nat.mod_eq_of_lt (readNat_lt source), putNat_readNat]

theorem putUint64_readUint64 {source : List UInt8} (h : source.length = 8) :
    putUint64 (readUint64 source) = source := by
  rw [putUint64, readUint64, UInt64.toNat_ofNat']
  exact putNat_readNat_take h

theorem putUint32_readUint32 {source : List UInt8} (h : source.length = 4) :
    putUint32 (readUint32 source) = source := by
  rw [putUint32, readUint32, UInt32.toNat_ofNat']
  exact putNat_readNat_take h

theorem putUint16_readUint16 {source : List UInt8} (h : source.length = 2) :
    putUint16 (readUint16 source) = source := by
  rw [putUint16, readUint16, UInt16.toNat_ofNat']
  exact putNat_readNat_take h

end Library
end DgProto
