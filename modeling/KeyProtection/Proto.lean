import Mathlib.Algebra.Group.Nat.Defs
import Mathlib.Data.List.Basic

/-! The shared protobuf vocabulary (km_common/proto, km_common/src/keymanager.rs) and
the identifiers every component passes around. Protobuf enumerations are open, so the
three algorithm numbers stay 32-bit integers and are recognised by `tryFrom`, as the
generated Rust code does. -/
namespace KeyProtection

abbrev Bytes := List UInt8

/- A 16-byte UUID read as one big-endian number, so that comparing the bytes in order
is comparing the numbers. -/
abbrev Uuid := BitVec 128

inductive Status where
  | unspecified | success | internalError | invalidArgument | notFound | alreadyExists
  | permissionDenied | unauthenticated | unsupportedAlgorithm | invalidKey | cryptoError
  | decryptionFailure | encryptionFailure | decapsulationFailure
  deriving DecidableEq, Repr

/- The discriminants shared by the Rust enum, the C header and the Go enum. -/
def Status.all : List Status :=
  [.unspecified,.success,.internalError,.invalidArgument,.notFound,.alreadyExists,.permissionDenied,
    .unauthenticated,.unsupportedAlgorithm,.invalidKey,.cryptoError,.decryptionFailure,.encryptionFailure,
    .decapsulationFailure]

def Status.code (s : Status) : Nat := Status.all.idxOf s

def Status.ofCode (n : Nat) : Status := Status.all.getD n .unspecified

theorem statusOfCode (s : Status) : Status.ofCode s.code = s := by cases s <;> rfl

def Status.asStrName : Status → String
  | .unspecified => "STATUS_UNSPECIFIED"
  | .success => "STATUS_SUCCESS"
  | .internalError => "STATUS_INTERNAL_ERROR"
  | .invalidArgument => "STATUS_INVALID_ARGUMENT"
  | .notFound => "STATUS_NOT_FOUND"
  | .alreadyExists => "STATUS_ALREADY_EXISTS"
  | .permissionDenied => "STATUS_PERMISSION_DENIED"
  | .unauthenticated => "STATUS_UNAUTHENTICATED"
  | .unsupportedAlgorithm => "STATUS_UNSUPPORTED_ALGORITHM"
  | .invalidKey => "STATUS_INVALID_KEY"
  | .cryptoError => "STATUS_CRYPTO_ERROR"
  | .decryptionFailure => "STATUS_DECRYPTION_FAILURE"
  | .encryptionFailure => "STATUS_ENCRYPTION_FAILURE"
  | .decapsulationFailure => "STATUS_DECAPSULATION_FAILURE"

inductive KemAlgorithm where
  | unspecified | dhkemX25519HkdfSha256
  deriving DecidableEq, Repr

def KemAlgorithm.tryFrom (n : Int32) : Option KemAlgorithm :=
  if n = 0 then some .unspecified else if n = 1 then some .dhkemX25519HkdfSha256 else none

inductive KdfAlgorithm where
  | unspecified | hkdfSha256
  deriving DecidableEq, Repr

def KdfAlgorithm.tryFrom (n : Int32) : Option KdfAlgorithm :=
  if n = 0 then some .unspecified else if n = 1 then some .hkdfSha256 else none

inductive AeadAlgorithm where
  | unspecified | aes256Gcm
  deriving DecidableEq, Repr

def AeadAlgorithm.tryFrom (n : Int32) : Option AeadAlgorithm :=
  if n = 0 then some .unspecified else if n = 1 then some .aes256Gcm else none

structure HpkeAlgorithm where
  kem : Int32
  kdf : Int32
  aead : Int32
  deriving DecidableEq, Repr

/- The one suite that key creation, sealing and opening accept. -/
def HpkeAlgorithm.Supported (a : HpkeAlgorithm) : Prop :=
  KemAlgorithm.tryFrom a.kem = some .dhkemX25519HkdfSha256 ∧
  KdfAlgorithm.tryFrom a.kdf = some .hkdfSha256 ∧
  AeadAlgorithm.tryFrom a.aead = some .aes256Gcm
instance (a) : Decidable (HpkeAlgorithm.Supported a) := by
  unfold HpkeAlgorithm.Supported; infer_instance

theorem recognised {α : Type} {zero one : α} (different : zero ≠ one) (n : Int32) :
    (if n = 0 then some zero else if n = 1 then some one else none) = some one ↔ n = 1 := by
  split
  · rename_i unspecified
    subst unspecified
    simp [different]
  · split <;> simp_all

theorem supportedSuite {a : HpkeAlgorithm} : a.Supported ↔ a = ⟨1,1,1⟩ := by
  obtain ⟨kem,kdf,aead⟩ := a
  simp only [HpkeAlgorithm.Supported,HpkeAlgorithm.mk.injEq]
  exact and_congr (recognised (by decide) kem)
    (and_congr (recognised (by decide) kdf) (recognised (by decide) aead))

end KeyProtection
