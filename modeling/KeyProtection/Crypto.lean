import KeyProtection.Proto

/-! km_common/src/crypto.rs and crypto/x25519.rs. The bssl_crypto primitives are an
explicit parameter; every byte string that the repository itself assembles around them
is written out. Randomness is an argument, so that one call is one value. -/
namespace KeyProtection

/- `err` is the Err branch of a Rust Result, `panic` an unwinding panic. -/
inductive Fault where
  | err (status : Status)
  | panic
  deriving DecidableEq, Repr

abbrev Rust := Except Fault

/- The functions of bssl_crypto that the repository calls: hpke::Kem::generate_keypair
on the given entropy (public, private), x25519 to_public and compute_shared_key, HKDF
extract (ikm, salt) and expand_into (prk, info, length), and the two sides of HPKE with
their key schedule context. -/
structure Bssl where
  generateKeypair : Bytes → Bytes × Bytes
  toPublic : Bytes → Bytes
  computeSharedKey : Bytes → Bytes → Option Bytes
  extract : Bytes → Bytes → Bytes
  expandInto : Bytes → Bytes → Nat → Option Bytes
  senderContext : (entropy publicKey info : Bytes) → Option (Bytes × Bytes)
  sealWith : (context plaintext aad : Bytes) → Bytes
  recipientContext : (privateKey enc info : Bytes) → Option Bytes
  openWith : (context ciphertext aad : Bytes) → Option Bytes

/- PublicKey has the one variant X25519([u8; 32]). -/
structure PublicKey where
  bytes : Bytes
  size : bytes.length = 32
  deriving DecidableEq, Repr

theorem publicKeySame {a b : PublicKey} (same : a.bytes = b.bytes) : a = b := by
  cases a
  cases b
  cases same
  rfl

def PublicKey.tryFrom (value : Bytes) : Rust PublicKey :=
  if size : value.length = 32 then .ok ⟨value,size⟩ else .error (.err .invalidArgument)

namespace Crypto
variable (c : Bssl)

def ascii (s : String) : Bytes := s.toList.map (fun ch => UInt8.ofNat ch.toNat)

def suiteId : Bytes := ascii "KEM" ++ [0,0x20]

def labeledExtract (salt label ikm suite : Bytes) : Bytes :=
  c.extract (ascii "HPKE-v1" ++ suite ++ label ++ ikm) salt

def toBeBytes (len : UInt16) : Bytes := [UInt8.ofNat (len.toNat / 256),UInt8.ofNat len.toNat]

def labeledInfo (label info suite : Bytes) (len : UInt16) : Bytes :=
  toBeBytes len ++ ascii "HPKE-v1" ++ suite ++ label ++ info

def labeledExpand (prk label info suite : Bytes) (len : UInt16) : Rust Bytes :=
  match c.expandInto prk (labeledInfo label info suite len) len.toNat with
  | some result => .ok result
  | none => .error (.err .decapsulationFailure)

/- The x25519 private key is a boxed slice, so its length is checked on use. -/
def decapsInternal (privateKey enc : Bytes) : Rust Bytes :=
  if privateKey.length ≠ 32 then .error (.err .invalidArgument)
  else if enc.length ≠ 32 then .error (.err .decapsulationFailure)
  else match c.computeSharedKey privateKey enc with
    | none => .error (.err .decapsulationFailure)
    | some sharedKey =>
      let prk := labeledExtract c [] (ascii "eae_prk") sharedKey suiteId
      let info := enc ++ c.toPublic privateKey
      labeledExpand c prk (ascii "shared_secret") info suiteId 32

def encapInternal (publicKey : PublicKey) (ephemeral : Option Bytes) (entropy : Bytes) :
    Rust (Bytes × Bytes) := do
  let (pkE,skE) ← match ephemeral with
    | some sk => if sk.length ≠ 32 then .error (.err .invalidArgument) else .ok (c.toPublic sk,sk)
    | none => .ok (c.generateKeypair entropy)
  if skE.length ≠ 32 then .error (.err .cryptoError)
  else match c.computeSharedKey skE publicKey.bytes with
    | none => .error (.err .cryptoError)
    | some sharedKey =>
      let prk := labeledExtract c [] (ascii "eae_prk") sharedKey suiteId
      let info := pkE ++ publicKey.bytes
      let sharedSecret ← labeledExpand c prk (ascii "shared_secret") info suiteId 32
      .ok (sharedSecret,pkE)

def hpkeSealInternal (publicKey : PublicKey) (plaintext aad : Bytes) (algo : HpkeAlgorithm)
    (entropy : Bytes) : Rust (Bytes × Bytes) :=
  if ¬ algo.Supported then .error (.err .unsupportedAlgorithm)
  else match c.senderContext entropy publicKey.bytes [] with
    | none => .error (.err .encryptionFailure)
    | some (context,encapsulatedKey) => .ok (encapsulatedKey,c.sealWith context plaintext aad)

def hpkeOpenInternal (privateKey enc ciphertext aad : Bytes) (algo : HpkeAlgorithm) : Rust Bytes :=
  if ¬ algo.Supported then .error (.err .unsupportedAlgorithm)
  else match c.recipientContext privateKey enc [] with
    | none => .error (.err .decryptionFailure)
    | some context =>
      match c.openWith context ciphertext aad with
      | none => .error (.err .decryptionFailure)
      | some plaintext => .ok plaintext

/- x25519::generate_keypair unwraps the public key's length with expect. -/
def x25519GenerateKeypair (entropy : Bytes) : Rust (PublicKey × Bytes) :=
  let pair := c.generateKeypair entropy
  if size : pair.1.length = 32 then .ok (⟨pair.1,size⟩,pair.2) else .error .panic

def generateKeypair (algo : KemAlgorithm) (entropy : Bytes) : Rust (PublicKey × Bytes) :=
  match algo with
  | .dhkemX25519HkdfSha256 => x25519GenerateKeypair c entropy
  | .unspecified => .error (.err .unsupportedAlgorithm)

end Crypto

def Honest {α : Type} (result : Rust α) : Prop := result ≠ .error (.err .success)

theorem honestBind {α β : Type} {first : Rust α} {next : α → Rust β} (left : Honest first)
    (right : ∀ value, Honest (next value)) : Honest (first >>= next) := by
  cases first with
  | error fault => exact fun same => left (congrArg Except.error (Except.error.inj same))
  | ok value => exact right value

/- What the repository relies on of bssl_crypto: key pairs match and have 32 bytes, the
X25519 exchange commutes, HKDF fills a 32-byte buffer, and HPKE to a generated key seals
with a 32-byte encapsulation and a 16-byte tag and is undone by its private key. -/
structure Bssl.Lawful (c : Bssl) : Prop where
  pairMatches : ∀ entropy, (c.generateKeypair entropy).1 = c.toPublic (c.generateKeypair entropy).2
  privateSize : ∀ entropy, (c.generateKeypair entropy).2.length = 32
  publicSize : ∀ sk, sk.length = 32 → (c.toPublic sk).length = 32
  exchange : ∀ a b, a.length = 32 → b.length = 32 →
    c.computeSharedKey a (c.toPublic b) = c.computeSharedKey b (c.toPublic a)
  expands : ∀ prk info, ∃ out, c.expandInto prk info 32 = some out ∧ out.length = 32
  sealOpens : ∀ sk, sk.length = 32 → ∀ entropy plaintext aad, ∃ context enc,
    c.senderContext entropy (c.toPublic sk) [] = some (context,enc) ∧ enc.length = 32 ∧
    (c.sealWith context plaintext aad).length = plaintext.length + 16 ∧
    ∃ recipient, c.recipientContext sk enc [] = some recipient ∧
      c.openWith recipient (c.sealWith context plaintext aad) aad = some plaintext

structure Bssl.Sized (c : Bssl) : Prop where
  encSize : ∀ {entropy publicKey info context enc}, c.senderContext entropy publicKey info = some (context,enc) →
    enc.length = 32
  tagSize : ∀ context plaintext aad, (c.sealWith context plaintext aad).length = plaintext.length + 16

namespace Crypto
variable {c : Bssl}

theorem expanded (laws : c.Lawful) (prk label info suite) :
    ∃ out, labeledExpand c prk label info suite 32 = .ok out ∧ out.length = 32 := by
  obtain ⟨out,filled,size⟩ := laws.expands prk (labeledInfo label info suite 32)
  have same : c.expandInto prk (labeledInfo label info suite 32) (32 : UInt16).toNat = some out := filled
  exact ⟨out,by simp only [labeledExpand,same],size⟩

theorem decapsSize (laws : c.Lawful) {sk enc secret} (ok : decapsInternal c sk enc = .ok secret) :
    secret.length = 32 := by
  simp only [decapsInternal] at ok
  split at ok <;> try contradiction
  split at ok <;> try contradiction
  split at ok <;> try contradiction
  rename_i sharedKey _
  obtain ⟨out,made,size⟩ := expanded laws (labeledExtract c [] (ascii "eae_prk") sharedKey suiteId)
    (ascii "shared_secret") (enc ++ c.toPublic sk) suiteId
  cases ok.symm.trans made
  exact size

/- Both sides feed HKDF the same bytes: the exchange commutes, and the sender's
encapsulated key and the recipient's own public key stand in the same two places. -/
theorem decapsInvertsEncap (laws : c.Lawful) {skR skE : Bytes} {pkR : PublicKey}
    (recipient : skR.length = 32) (ephemeral : skE.length = 32) (owns : pkR.bytes = c.toPublic skR)
    (defined : (c.computeSharedKey skE pkR.bytes).isSome) (entropy : Bytes) :
    ∃ secret, encapInternal c pkR (some skE) entropy = .ok (secret,c.toPublic skE) ∧
      decapsInternal c skR (c.toPublic skE) = .ok secret ∧ secret.length = 32 := by
  obtain ⟨dh,exchanged⟩ := Option.isSome_iff_exists.mp defined
  have commuted : c.computeSharedKey skR (c.toPublic skE) = some dh := by
    rw [laws.exchange skR skE recipient ephemeral,← owns]
    exact exchanged
  obtain ⟨secret,made,size⟩ := expanded laws (labeledExtract c [] (ascii "eae_prk") dh suiteId)
    (ascii "shared_secret") (c.toPublic skE ++ pkR.bytes) suiteId
  refine ⟨secret,?_,?_,size⟩
  · simp [encapInternal,ephemeral,exchanged,made,bind,Except.bind]
  · rw [owns] at made
    simp [decapsInternal,recipient,laws.publicSize skE ephemeral,commuted,made]

theorem generatedKeypair (laws : c.Lawful) {algo entropy pk sk}
    (ok : generateKeypair c algo entropy = .ok (pk,sk)) : pk.bytes = c.toPublic sk ∧ sk.length = 32 := by
  cases algo with
  | unspecified => simp [generateKeypair] at ok
  | dhkemX25519HkdfSha256 =>
    simp only [generateKeypair,x25519GenerateKeypair] at ok
    split at ok <;> try contradiction
    cases Except.ok.inj ok
    exact ⟨laws.pairMatches entropy,laws.privateSize entropy⟩

theorem sealThenOpen (laws : c.Lawful) {sk : Bytes} {pk : PublicKey} (size : sk.length = 32)
    (owns : pk.bytes = c.toPublic sk) {algo : HpkeAlgorithm} (suite : algo.Supported)
    (plaintext aad entropy : Bytes) :
    ∃ enc ct, hpkeSealInternal c pk plaintext aad algo entropy = .ok (enc,ct) ∧ enc.length = 32 ∧
      ct.length = plaintext.length + 16 ∧ hpkeOpenInternal c sk enc ct aad algo = .ok plaintext := by
  obtain ⟨context,enc,sent,encSize,ctSize,recipient,received,opened⟩ :=
    laws.sealOpens sk size entropy plaintext aad
  rw [← owns] at sent
  exact ⟨enc,c.sealWith context plaintext aad,by simp [hpkeSealInternal,suite,sent],encSize,ctSize,
    by simp [hpkeOpenInternal,suite,received,opened]⟩

theorem expandHonest (c : Bssl) (prk label info suite : Bytes) (len : UInt16) :
    Honest (labeledExpand c prk label info suite len) := by
  unfold Honest labeledExpand
  split <;> simp

theorem decapsHonest (c : Bssl) (privateKey enc : Bytes) : Honest (decapsInternal c privateKey enc) := by
  unfold decapsInternal
  split
  · simp [Honest]
  split
  · simp [Honest]
  split
  · simp [Honest]
  · exact expandHonest _ _ _ _ _ _

theorem decapsFault {privateKey enc : Bytes} {fault : Fault} (size : privateKey.length = 32)
    (failed : decapsInternal c privateKey enc = .error fault) : fault = .err .decapsulationFailure := by
  unfold decapsInternal at failed
  split at failed
  · contradiction
  split at failed
  · exact (Except.error.inj failed).symm
  split at failed
  · exact (Except.error.inj failed).symm
  simp only [labeledExpand] at failed
  split at failed <;> try contradiction
  exact (Except.error.inj failed).symm

theorem sealFault {publicKey : PublicKey} {plaintext aad entropy : Bytes} {algo : HpkeAlgorithm} {fault : Fault}
    (suite : algo.Supported) (failed : hpkeSealInternal c publicKey plaintext aad algo entropy = .error fault) :
    fault = .err .encryptionFailure := by
  simp only [hpkeSealInternal,suite,not_true,if_false] at failed
  split at failed <;> try contradiction
  exact (Except.error.inj failed).symm

theorem openFault {privateKey enc ciphertext aad : Bytes} {algo : HpkeAlgorithm} {fault : Fault}
    (suite : algo.Supported) (failed : hpkeOpenInternal c privateKey enc ciphertext aad algo = .error fault) :
    fault = .err .decryptionFailure := by
  simp only [hpkeOpenInternal,suite,not_true,if_false] at failed
  split at failed
  · exact (Except.error.inj failed).symm
  split at failed <;> try contradiction
  exact (Except.error.inj failed).symm

theorem sealSizes (sizes : c.Sized) {publicKey : PublicKey} {plaintext aad entropy enc ct : Bytes} {algo : HpkeAlgorithm}
    (ok : hpkeSealInternal c publicKey plaintext aad algo entropy = .ok (enc,ct)) :
    enc.length = 32 ∧ ct.length = plaintext.length + 16 := by
  unfold hpkeSealInternal at ok
  split at ok <;> try contradiction
  split at ok <;> try contradiction
  rename_i context encapsulatedKey sent
  cases Except.ok.inj ok
  exact ⟨sizes.encSize sent,sizes.tagSize context plaintext aad⟩

theorem sealHonest (c : Bssl) (publicKey : PublicKey) (plaintext aad : Bytes) (algo : HpkeAlgorithm)
    (entropy : Bytes) : Honest (hpkeSealInternal c publicKey plaintext aad algo entropy) := by
  unfold Honest hpkeSealInternal
  split
  · simp
  split <;> simp

theorem openHonest (c : Bssl) (privateKey enc ciphertext aad : Bytes) (algo : HpkeAlgorithm) :
    Honest (hpkeOpenInternal c privateKey enc ciphertext aad algo) := by
  unfold Honest hpkeOpenInternal
  split
  · simp
  split
  · simp
  split <;> simp

theorem keypairHonest (c : Bssl) (algo : KemAlgorithm) (entropy : Bytes) :
    Honest (generateKeypair c algo entropy) := by
  cases algo with
  | unspecified => simp [Honest,generateKeypair]
  | dhkemX25519HkdfSha256 =>
    simp only [Honest,generateKeypair,x25519GenerateKeypair]
    split <;> simp

end Crypto
end KeyProtection
