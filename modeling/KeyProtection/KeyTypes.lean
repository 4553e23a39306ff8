import KeyProtection.Crypto
import KeyProtection.Lib.TtlMap

/-! km_common/src/key_types.rs: key records and the registry that both custody cores
keep. Each registry method is one critical section; the clock readings that the source
takes inside it are the `now` arguments. -/
namespace KeyProtection
open Lib (Table)

/- A std::time::Instant is a number of nanoseconds; on Linux its seconds are an i64. -/
def nanosPerSec : Nat := 1000000000

def checkedAdd (now : Nat) (secs : UInt64) : Option Nat :=
  if now / nanosPerSec + secs.toNat < 2^63 then some (now + secs.toNat * nanosPerSec) else none

inductive KeySpec where
  | kemWithBindingPub (algo : HpkeAlgorithm) (kemPublicKey bindingPublicKey : PublicKey)
  | binding (algo : HpkeAlgorithm) (bindingPublicKey : PublicKey)
  deriving DecidableEq, Repr

def KeySpec.algo : KeySpec → HpkeAlgorithm
  | .kemWithBindingPub algo _ _ => algo
  | .binding algo _ => algo

def KeySpec.ownKey : KeySpec → PublicKey
  | .kemWithBindingPub _ kemPublicKey _ => kemPublicKey
  | .binding _ bindingPublicKey => bindingPublicKey

def KeySpec.bindingKey : KeySpec → PublicKey
  | .kemWithBindingPub _ _ bindingPublicKey => bindingPublicKey
  | .binding _ bindingPublicKey => bindingPublicKey

structure KeyMetadata where
  id : Uuid
  createdAt : Nat
  deleteAfter : Nat
  spec : KeySpec
  deriving DecidableEq, Repr

structure KeyRecord where
  metadata : KeyMetadata
  privateKey : Bytes
  deriving DecidableEq, Repr

abbrev KeyRegistry := Table Uuid KeyRecord

def KeyRecord.id (r : KeyRecord) : Uuid := r.metadata.id
def KeyRecord.deleteAfter (r : KeyRecord) : Nat := r.metadata.deleteAfter

namespace KeyRegistry

def addKey (keys : KeyRegistry) (record : KeyRecord) : KeyRegistry := keys.insert record.metadata.id record

def removeKey (keys : KeyRegistry) (id : Uuid) : Option KeyRecord × KeyRegistry :=
  (keys.lookup id,keys.erase id)

def removeAllKeys (_ : KeyRegistry) : KeyRegistry := ∅

def getKey (keys : KeyRegistry) (now : Nat) (id : Uuid) : Option KeyRecord :=
  (keys.lookup id).bind (fun record => if record.metadata.deleteAfter > now then some record else none)

/- The body of one pass of the reaper thread, `now` being its earlier clock reading. -/
def reap (keys : KeyRegistry) (now : Nat) : KeyRegistry :=
  Table.retain (fun key => decide (key.metadata.deleteAfter > now)) keys

def pageOrder (a b : KeyRecord) : Bool :=
  a.metadata.createdAt < b.metadata.createdAt ||
    (a.metadata.createdAt == b.metadata.createdAt && decide (a.metadata.id ≤ b.metadata.id))

def sortedLive (keys : KeyRegistry) (now : Nat) : List KeyRecord :=
  ((Table.values keys).filter (fun record => decide (record.metadata.deleteAfter > now))).mergeSort pageOrder

def listAllKeys (keys : KeyRegistry) (now : Nat) (offset limit : Nat) : List KeyMetadata × Nat :=
  let refs := sortedLive keys now
  (((refs.drop offset).take limit).map KeyRecord.metadata,refs.length)

def Keyed (keys : KeyRegistry) : Prop := ∀ id record, keys.lookup id = some record → record.id = id

theorem getKeyIff {keys : KeyRegistry} {now : Nat} {id : Uuid} {record : KeyRecord} :
    getKey keys now id = some record ↔ keys.lookup id = some record ∧ now < record.deleteAfter := by
  unfold getKey
  cases slot : keys.lookup id with
  | none => simp
  | some found =>
    simp only [Option.bind_some,Option.some.injEq,KeyRecord.deleteAfter]
    split
    · rename_i alive
      refine ⟨fun same => ?_,fun h => congrArg some h.1⟩
      cases Option.some.inj same
      exact ⟨rfl,alive⟩
    · rename_i dead
      refine ⟨fun absurd => by contradiction,fun h => ?_⟩
      rw [h.1] at dead
      exact absurd h.2 dead

theorem keyedAdd {keys : KeyRegistry} (h : Keyed keys) (record : KeyRecord) : Keyed (addKey keys record) := by
  intro id found stored
  rw [addKey,Table.lookupInsert] at stored
  split at stored
  · rename_i same
    cases Option.some.inj stored
    exact same.symm
  · exact h id found stored

theorem keyedRemove {keys : KeyRegistry} (h : Keyed keys) (gone : Uuid) : Keyed (removeKey keys gone).2 := by
  intro id found stored
  rw [removeKey,Table.lookupErase] at stored
  split at stored
  · contradiction
  · exact h id found stored

theorem keyedReap {keys : KeyRegistry} (h : Keyed keys) (now : Nat) : Keyed (reap keys now) := by
  intro id found stored
  rw [reap,Table.lookupRetain,Option.filter_eq_some_iff] at stored
  exact h id found stored.1

theorem reapKeeps {keys : KeyRegistry} {now : Nat} {id : Uuid} {record : KeyRecord}
    (here : keys.lookup id = some record) (alive : now < record.deleteAfter) :
    (reap keys now).lookup id = some record := by
  rw [reap,Table.lookupRetain,here]
  exact Option.filter_some_pos (decide_eq_true alive)

theorem getKeyReap {keys : KeyRegistry} {now later : Nat} {id : Uuid} (past : now ≤ later) :
    getKey (reap keys now) later id = getKey keys later id := by
  unfold getKey reap
  rw [Table.lookupRetain]
  cases here : keys.lookup id with
  | none => rfl
  | some record =>
    by_cases alive : record.metadata.deleteAfter > now
    · simp [Option.filter,alive]
    · have expired : ¬ record.metadata.deleteAfter > later := by omega
      simp [Option.filter,alive,expired]

theorem getKeyAdd {keys : KeyRegistry} {record : KeyRecord} {later : Nat} {id : Uuid} :
    getKey (addKey keys record) later id = if id = record.id then
      (if later < record.deleteAfter then some record else none) else getKey keys later id := by
  unfold getKey addKey
  rw [Table.lookupInsert]
  by_cases same : id = record.metadata.id
  · rw [if_pos same]
    exact (if_pos same).symm
  · rw [if_neg same]
    exact (if_neg same).symm

theorem getKeyErase {keys : KeyRegistry} {later : Nat} {id gone : Uuid} (other : id ≠ gone) :
    getKey (keys.erase gone) later id = getKey keys later id := by
  rw [getKey,Table.lookupErase,if_neg other,getKey]

theorem liveAdd {keys : KeyRegistry} {record : KeyRecord} {now : Nat} (missing : keys.lookup record.id = none)
    (alive : now < record.deleteAfter) :
    (sortedLive (addKey keys record) now).length = (sortedLive keys now).length + 1 := by
  have kept : decide (record.metadata.deleteAfter > now) = true := decide_eq_true alive
  have listed : Table.values (addKey keys record) = record :: Table.values keys := Table.valuesInsert missing record
  simp only [sortedLive,List.length_mergeSort,listed,List.filter_cons,kept,if_true,List.length_cons]

theorem keyedEmpty : Keyed (∅ : KeyRegistry) := by
  intro id found stored
  simp at stored

end KeyRegistry

/- What the operating system hands to one key creation: a v4 UUID, the key pair's
entropy, and whether memfd_secret could be set up for the vault. -/
structure Entropy where
  uuid : Uuid
  seed : Bytes
  vault : Bool
  deriving DecidableEq, Repr

namespace KeyRecord
variable (c : Bssl)

def createKeyInternal (algo : HpkeAlgorithm) (expirySecs : UInt64)
    (specBuilder : HpkeAlgorithm → PublicKey → KeySpec) (entropy : Entropy) (now : Nat) : Rust KeyRecord :=
  if ¬ algo.Supported then .error (.err .unsupportedAlgorithm)
  else do
    let (pubKey,privKey) ← Crypto.generateKeypair c .dhkemX25519HkdfSha256 entropy.seed
    if ¬ entropy.vault then .error (.err .cryptoError)
    else match checkedAdd now expirySecs with
      | none => .error (.err .unsupportedAlgorithm)
      | some deleteAfter => .ok ⟨⟨entropy.uuid,now,deleteAfter,specBuilder algo pubKey⟩,privKey⟩

def createBindingKey (algo : HpkeAlgorithm) (expirySecs : UInt64) (entropy : Entropy) (now : Nat) :
    Rust KeyRecord :=
  createKeyInternal c algo expirySecs (fun algo pubKey => .binding algo pubKey) entropy now

def createBoundKemKey (algo : HpkeAlgorithm) (bindingPublicKey : PublicKey) (expirySecs : UInt64)
    (entropy : Entropy) (now : Nat) : Rust KeyRecord :=
  match KemAlgorithm.tryFrom algo.kem with
  | some .dhkemX25519HkdfSha256 =>
    createKeyInternal c algo expirySecs
      (fun algo pubKey => .kemWithBindingPub algo pubKey bindingPublicKey) entropy now
  | _ => .error (.err .invalidKey)

structure Created (algo : HpkeAlgorithm) (expirySecs : UInt64) (entropy : Entropy) (now : Nat)
    (pubKey : PublicKey) (record : KeyRecord) : Prop where
  suite : algo.Supported
  vault : entropy.vault = true
  id : record.id = entropy.uuid
  createdAt : record.metadata.createdAt = now
  deadline : checkedAdd now expirySecs = some record.deleteAfter
  pair : Crypto.generateKeypair c .dhkemX25519HkdfSha256 entropy.seed = .ok (pubKey,record.privateKey)

theorem createdInternal {c algo expirySecs specBuilder entropy now record}
    (ok : createKeyInternal c algo expirySecs specBuilder entropy now = .ok record) :
    ∃ pubKey, Created c algo expirySecs entropy now pubKey record ∧
      record.metadata.spec = specBuilder algo pubKey := by
  unfold createKeyInternal at ok
  split at ok <;> try contradiction
  rename_i suite
  cases made : Crypto.generateKeypair c .dhkemX25519HkdfSha256 entropy.seed with
  | error fault => simp [made,bind,Except.bind] at ok
  | ok pair =>
    simp only [made,bind,Except.bind] at ok
    split at ok <;> try contradiction
    rename_i vault
    split at ok <;> try contradiction
    rename_i deleteAfter bounded
    cases Except.ok.inj ok
    exact ⟨pair.1,⟨not_not.mp suite,not_not.mp vault,rfl,rfl,bounded,made⟩,rfl⟩

theorem createdBinding {c algo expirySecs entropy now record}
    (ok : createBindingKey c algo expirySecs entropy now = .ok record) :
    ∃ pubKey, Created c algo expirySecs entropy now pubKey record ∧
      record.metadata.spec = .binding algo pubKey :=
  createdInternal ok

theorem createdKem {c algo bindingPublicKey expirySecs entropy now record}
    (ok : createBoundKemKey c algo bindingPublicKey expirySecs entropy now = .ok record) :
    ∃ pubKey, Created c algo expirySecs entropy now pubKey record ∧
      record.metadata.spec = .kemWithBindingPub algo pubKey bindingPublicKey := by
  unfold createBoundKemKey at ok
  split at ok
  · exact createdInternal ok
  · contradiction

theorem internalHonest (algo : HpkeAlgorithm) (expirySecs : UInt64)
    (specBuilder : HpkeAlgorithm → PublicKey → KeySpec) (entropy : Entropy) (now : Nat) :
    Honest (createKeyInternal c algo expirySecs specBuilder entropy now) := by
  unfold createKeyInternal
  split
  · simp [Honest]
  cases made : Crypto.generateKeypair c .dhkemX25519HkdfSha256 entropy.seed with
  | error fault =>
    have honest := Crypto.keypairHonest c .dhkemX25519HkdfSha256 entropy.seed
    rw [made] at honest
    simpa [Honest,bind,Except.bind] using honest
  | ok pair =>
    simp only [bind,Except.bind,Honest]
    split
    · simp
    split <;> simp

theorem internalNotInvalid (algo : HpkeAlgorithm) (expirySecs : UInt64)
    (specBuilder : HpkeAlgorithm → PublicKey → KeySpec) (entropy : Entropy) (now : Nat) :
    createKeyInternal c algo expirySecs specBuilder entropy now ≠ .error (.err .invalidArgument) := by
  unfold createKeyInternal
  split
  · simp
  simp only [Crypto.generateKeypair,Crypto.x25519GenerateKeypair]
  split
  · simp only [bind,Except.bind]
    split
    · simp
    split <;> simp
  · simp [bind,Except.bind]

theorem bindingHonest {c algo expirySecs entropy now fault}
    (failed : createBindingKey c algo expirySecs entropy now = .error fault) : fault ≠ .err .success := by
  intro same
  exact internalHonest c _ _ _ _ _ (failed.trans (congrArg Except.error same))

theorem kemHonest {c algo bindingPublicKey expirySecs entropy now fault}
    (failed : createBoundKemKey c algo bindingPublicKey expirySecs entropy now = .error fault) :
    fault ≠ .err .success := by
  intro same
  unfold createBoundKemKey at failed
  split at failed
  · exact internalHonest c _ _ _ _ _ (failed.trans (congrArg Except.error same))
  · cases failed
    contradiction

theorem createsInternal {c : Bssl} (laws : c.Lawful) {algo : HpkeAlgorithm} (suite : algo.Supported)
    {expirySecs : UInt64} (specBuilder : HpkeAlgorithm → PublicKey → KeySpec) {entropy : Entropy} {now : Nat}
    {deleteAfter : Nat} (vault : entropy.vault = true) (deadline : checkedAdd now expirySecs = some deleteAfter) :
    ∃ record, createKeyInternal c algo expirySecs specBuilder entropy now = .ok record := by
  have size : (c.generateKeypair entropy.seed).1.length = 32 := by
    rw [laws.pairMatches]
    exact laws.publicSize _ (laws.privateSize entropy.seed)
  simp [createKeyInternal,suite,Crypto.generateKeypair,Crypto.x25519GenerateKeypair,size,vault,deadline,bind,
    Except.bind]

end KeyRecord
end KeyProtection
