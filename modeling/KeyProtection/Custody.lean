import KeyProtection.KpsCore
import KeyProtection.WsCore
import KeyProtection.RegistryTtl
import KeyProtection.Standin

/-! The two registries under any calls of their C interfaces, whatever the pointers,
buffers and bytes. Each registry only ever holds records of one kind, of the one supported
suite, and so the branches that the cores mark as implementation errors are dead and the
buffers of the Go wrappers always fit. -/
namespace KeyProtection
open Lib Lib.Run KeyRegistry

namespace Custody

structure Core where
  keys : KeyRegistry
  now : Nat

def Core.initial (now : Nat) : Core := ⟨∅,now⟩

/- The calls of the KPS core. Those that only read the registry are one event. -/
inductive KpsEvent where
  | generateKemKeypair (entropy : Entropy) (algoPtr bindingPubkey : Option Bytes) (expirySecs : UInt64)
      (outUuid : Option Uuid) (outPubkey : Option Bytes)
  | destroyKemKey (uuidBytes : Option Uuid)
  | reads
  | reaps (now : Nat)
  | tick (elapsed : Nat)
  deriving DecidableEq, Repr

def kpsStep (x : Externals) (s : Core) : KpsEvent → Option Core
  | .generateKemKeypair entropy algoPtr bindingPubkey expirySecs outUuid outPubkey =>
      some {s with keys := (KpsCore.keyManagerGenerateKemKeypair x s.keys s.now entropy algoPtr bindingPubkey expirySecs
        outUuid outPubkey).keys}
  | .destroyKemKey uuidBytes => some {s with keys := (KpsCore.keyManagerDestroyKemKey s.keys uuidBytes).2}
  | .reads => some s
  | .reaps now => if now ≤ s.now then some {s with keys := reap s.keys now} else none
  | .tick elapsed => some {s with now := s.now + elapsed}

inductive WsEvent where
  | generateBindingKeypair (entropy : Entropy) (algoPtr : Option Bytes) (expirySecs : UInt64)
      (outUuid : Option Uuid) (outPubkey : Option Bytes)
  | destroyBindingKey (uuidBytes : Option Uuid)
  | destroyAllBindingKeys
  | reads
  | reaps (now : Nat)
  | tick (elapsed : Nat)
  deriving DecidableEq, Repr

def wsStep (x : Externals) (s : Core) : WsEvent → Option Core
  | .generateBindingKeypair entropy algoPtr expirySecs outUuid outPubkey =>
      some {s with keys := (WsCore.keyManagerGenerateBindingKeypair x s.keys s.now entropy algoPtr expirySecs
        outUuid outPubkey).keys}
  | .destroyBindingKey uuidBytes => some {s with keys := (WsCore.keyManagerDestroyBindingKey s.keys uuidBytes).2}
  | .destroyAllBindingKeys => some {s with keys := (WsCore.keyManagerDestroyAllBindingKeys s.keys).2}
  | .reads => some s
  | .reaps now => if now ≤ s.now then some {s with keys := reap s.keys now} else none
  | .tick elapsed => some {s with now := s.now + elapsed}

def KpsReachable (x : Externals) (s : Core) : Prop := ∃ now, Lib.Run.Reachable (kpsStep x) (Core.initial now) s

def WsReachable (x : Externals) (s : Core) : Prop := ∃ now, Lib.Run.Reachable (wsStep x) (Core.initial now) s

end Custody

/-! One kind of record. -/

structure KemKind (record : KeyRecord) (kemKey bindingKey : PublicKey) : Prop where
  spec : record.metadata.spec = .kemWithBindingPub ⟨1,1,1⟩ kemKey bindingKey
  kemSize : kemKey.bytes.length = 32
  bindingSize : bindingKey.bytes.length = 32
  privateSize : record.privateKey.length = 32

structure BindingKind (record : KeyRecord) (bindingKey : PublicKey) : Prop where
  spec : record.metadata.spec = .binding ⟨1,1,1⟩ bindingKey
  bindingSize : bindingKey.bytes.length = 32
  privateSize : record.privateKey.length = 32

def KemRecord (record : KeyRecord) : Prop := ∃ kemKey bindingKey, KemKind record kemKey bindingKey

def BindingRecord (record : KeyRecord) : Prop := ∃ bindingKey, BindingKind record bindingKey

structure Homogeneous (kind : KeyRecord → Prop) (keys : KeyRegistry) : Prop where
  keyed : Keyed keys
  kinds : ∀ id record, keys.lookup id = some record → kind record

section
variable {kind : KeyRecord → Prop} {keys : KeyRegistry}

theorem homogeneousEmpty : Homogeneous kind ∅ := ⟨keyedEmpty,fun id record stored => by simp at stored⟩

theorem homogeneousAdd (before : Homogeneous kind keys) {record : KeyRecord} (new : kind record) :
    Homogeneous kind (addKey keys record) := by
  refine ⟨keyedAdd before.keyed record,fun id other stored => ?_⟩
  rw [addKey,Table.lookupInsert] at stored
  split at stored
  · cases Option.some.inj stored
    exact new
  · exact before.kinds id other stored

theorem homogeneousErase (before : Homogeneous kind keys) (gone : Uuid) : Homogeneous kind (keys.erase gone) := by
  refine ⟨keyedRemove before.keyed gone,fun id other stored => ?_⟩
  rw [Table.lookupErase] at stored
  split at stored <;> try contradiction
  exact before.kinds id other stored

theorem homogeneousReap (before : Homogeneous kind keys) (now : Nat) : Homogeneous kind (reap keys now) := by
  refine ⟨keyedReap before.keyed now,fun id other stored => ?_⟩
  rw [reap,Table.lookupRetain,Option.filter_eq_some_iff] at stored
  exact before.kinds id other stored.1

theorem homogeneousDestroy (before : Homogeneous kind keys) (uuidBytes : Option Uuid) :
    Homogeneous kind (destroyByUuid keys uuidBytes).2 := by
  cases uuidBytes with
  | none => exact before
  | some uuid =>
    rw [destroyedByUuid]
    exact homogeneousErase before uuid

theorem homogeneousIssue {outUuid outPubkey out} {makes : KeyRecord → PublicKey → Prop}
    (before : Homogeneous kind keys) (issued : Issued keys outUuid outPubkey makes out)
    (kinds : ∀ record pubKey, makes record pubKey → kind record) : Homogeneous kind out.keys := by
  cases issued with
  | refused failure unmade => exact before
  | stored made buffer fits => exact homogeneousAdd before (kinds _ _ made)
  | stranded made buffer size => exact homogeneousAdd before (kinds _ _ made)

theorem homogeneousFound (before : Homogeneous kind keys) {now : Nat} {id : Uuid} {record : KeyRecord}
    (found : getKey keys now id = some record) : kind record :=
  before.kinds id record (getKeyIff.mp found).1

theorem homogeneousPage (before : Homogeneous kind keys) {now offset limit : Nat} {info : KeyMetadata}
    (mem : info ∈ pageOf keys now offset limit) : ∃ record, kind record ∧ record.metadata = info := by
  obtain ⟨record,inside,same⟩ := List.mem_map.mp mem
  have live : record ∈ sortedLive keys now := List.mem_of_mem_drop (List.mem_of_mem_take inside)
  have found := (RegistryTtl.memSortedLive before.keyed).mp live
  exact ⟨record,homogeneousFound before found,same⟩

end

section
variable {x : Externals} {now : Nat} {entropy : Entropy} {expirySecs : UInt64} {record : KeyRecord}

theorem kemCreated {algo : HpkeAlgorithm} {bindingKey : PublicKey} (laws : x.Lawful)
    (created : KeyRecord.createBoundKemKey x.bssl algo bindingKey expirySecs entropy now = .ok record) :
    KemRecord record := by
  obtain ⟨pubKey,fixed,spec⟩ := KeyRecord.createdKem created
  have size := (Crypto.generatedKeypair laws.bssl fixed.pair).2
  exact ⟨pubKey,bindingKey,supportedSuite.mp fixed.suite ▸ spec,pubKey.size,bindingKey.size,size⟩

theorem bindingCreated {algo : HpkeAlgorithm} (laws : x.Lawful)
    (created : KeyRecord.createBindingKey x.bssl algo expirySecs entropy now = .ok record) : BindingRecord record := by
  obtain ⟨pubKey,fixed,spec⟩ := KeyRecord.createdBinding created
  have size := (Crypto.generatedKeypair laws.bssl fixed.pair).2
  exact ⟨pubKey,supportedSuite.mp fixed.suite ▸ spec,pubKey.size,size⟩

theorem homogeneousKpsStep {s t : Custody.Core} {e : Custody.KpsEvent} (laws : x.Lawful)
    (before : Homogeneous KemRecord s.keys) (taken : Custody.kpsStep x s e = some t) :
    Homogeneous KemRecord t.keys := by
  cases e with
  | generateKemKeypair entropy algoPtr bindingPubkey expirySecs outUuid outPubkey =>
    cases Option.some.inj taken
    refine homogeneousIssue before (KpsCore.issuedKem x s.keys s.now entropy algoPtr bindingPubkey expirySecs outUuid
      outPubkey) (fun record pubKey made => ?_)
    cases made with
    | mk _ _ created _ => exact kemCreated laws created
  | destroyKemKey uuidBytes =>
    cases Option.some.inj taken
    exact homogeneousDestroy before uuidBytes
  | reads =>
    cases Option.some.inj taken
    exact before
  | reaps now =>
    simp only [Custody.kpsStep] at taken
    split at taken <;> try contradiction
    cases Option.some.inj taken
    exact homogeneousReap before now
  | tick elapsed =>
    cases Option.some.inj taken
    exact before

theorem homogeneousWsStep {s t : Custody.Core} {e : Custody.WsEvent} (laws : x.Lawful)
    (before : Homogeneous BindingRecord s.keys) (taken : Custody.wsStep x s e = some t) :
    Homogeneous BindingRecord t.keys := by
  cases e with
  | generateBindingKeypair entropy algoPtr expirySecs outUuid outPubkey =>
    cases Option.some.inj taken
    refine homogeneousIssue before (WsCore.issuedBinding x s.keys s.now entropy algoPtr expirySecs outUuid outPubkey)
      (fun record pubKey made => ?_)
    cases made with
    | mk _ _ created _ => exact bindingCreated laws created
  | destroyBindingKey uuidBytes =>
    cases Option.some.inj taken
    exact homogeneousDestroy before uuidBytes
  | destroyAllBindingKeys =>
    cases Option.some.inj taken
    exact homogeneousEmpty
  | reads =>
    cases Option.some.inj taken
    exact before
  | reaps now =>
    simp only [Custody.wsStep] at taken
    split at taken <;> try contradiction
    cases Option.some.inj taken
    exact homogeneousReap before now
  | tick elapsed =>
    cases Option.some.inj taken
    exact before

theorem kpsHomogeneous {s : Custody.Core} (laws : x.Lawful) (reach : Custody.KpsReachable x s) :
    Homogeneous KemRecord s.keys := by
  obtain ⟨now,run⟩ := reach
  exact @reachableInvariant _ _ _ (fun s : Custody.Core => Homogeneous KemRecord s.keys) _ _ homogeneousEmpty
    (fun _ _ _ before taken => homogeneousKpsStep laws before taken) run

theorem wsHomogeneous {s : Custody.Core} (laws : x.Lawful) (reach : Custody.WsReachable x s) :
    Homogeneous BindingRecord s.keys := by
  obtain ⟨now,run⟩ := reach
  exact @reachableInvariant _ _ _ (fun s : Custody.Core => Homogeneous BindingRecord s.keys) _ _ homogeneousEmpty
    (fun _ _ _ before taken => homogeneousWsStep laws before taken) run

end

/-! The KPS core on its own kind of records. -/

namespace KpsCore

def entryOf (x : Externals) (info : KeyMetadata) (now : Nat) : KpsKeyInfo :=
  ⟨info.id,copyInto KpsKeyInfo.zero.algorithm (x.marshal info.spec.algo),(x.marshal info.spec.algo).length,
    copyInto KpsKeyInfo.zero.pubKey info.spec.ownKey.bytes,info.spec.ownKey.bytes.length,
    copyInto KpsKeyInfo.zero.bindingPubKey info.spec.bindingKey.bytes,info.spec.bindingKey.bytes.length,
    remainingSecs info.deleteAfter now⟩

variable {x : Externals} {keys : KeyRegistry}

theorem fillsEntry (laws : x.Lawful) {record : KeyRecord} (kind : KemRecord record) (now : Nat) :
    fillEntry x record.metadata now = .ok (entryOf x record.metadata now) := by
  obtain ⟨kemKey,bindingKey,kind⟩ := kind
  have algo := laws.bounded ⟨1,1,1⟩
  have fits : ¬ (kemKey.bytes.length > maxPublicKeyLen ∨ (x.marshal ⟨1,1,1⟩).length > maxAlgorithmLen) := by
    simp only [kind.kemSize,maxPublicKeyLen,maxAlgorithmLen]
    omega
  have bindingFits : ¬ bindingKey.bytes.length > maxPublicKeyLen := by
    simp only [kind.bindingSize,maxPublicKeyLen]
    omega
  simp only [fillEntry,entryOf,kind.spec,KeySpec.algo,KeySpec.ownKey,KeySpec.bindingKey,if_neg fits,if_neg bindingFits]

theorem fillsPage (laws : x.Lawful) (kinds : Homogeneous KemRecord keys) (now offset limit : Nat) :
    ∀ info ∈ pageOf keys now offset limit, ∀ now', fillEntry x info now' = .ok (entryOf x info now') := by
  intro info mem now'
  obtain ⟨record,kind,same⟩ := homogeneousPage kinds mem
  exact same ▸ fillsEntry laws kind now'

theorem enumeratesKem (laws : x.Lawful) (kinds : Homogeneous KemRecord keys) (now : Nat) (readings : Nat → Nat)
    (entries : List KpsKeyInfo) (offset : Nat) :
    enumerateKemKeysInternal x keys now readings entries offset =
      (.ok ((pageOf keys now offset entries.length).length,
          decide ((offset + (pageOf keys now offset entries.length).length) % 2^64 < (sortedLive keys now).length)),
        (pageOf keys now offset entries.length).mapIdx (fun i info => entryOf x info (readings i)) ++
          entries.drop (pageOf keys now offset entries.length).length) := by
  exact enumeratesInternal readings entries offset (fillsPage laws kinds now offset entries.length)

theorem decapAndSealFault (laws : x.Lawful) (sizes : x.bssl.Sized) (kinds : Homogeneous KemRecord keys)
    {now : Nat} {entropy : Bytes} {uuid : Uuid} {encapsulatedKey aad : Bytes} {encLen ctLen : Nat} {fault : Fault}
    (failed : decapAndSealInternal x.bssl keys now entropy uuid encapsulatedKey aad encLen ctLen = .error fault) :
    fault = .err .notFound ∨ fault = .err .decapsulationFailure ∨ fault = .err .encryptionFailure ∨
      (fault = .err .invalidArgument ∧ (encLen ≠ 32 ∨ ctLen ≠ 48)) := by
  unfold decapAndSealInternal at failed
  split at failed
  · exact .inl (Except.error.inj failed).symm
  rename_i record found
  obtain ⟨kemKey,bindingKey,kind⟩ := homogeneousFound kinds found
  simp only [kind.spec] at failed
  cases decapsed : Crypto.decapsInternal x.bssl record.privateKey encapsulatedKey with
  | error fault' =>
    simp only [decapsed,bind,Except.bind] at failed
    cases Except.error.inj failed
    exact .inr (.inl (Crypto.decapsFault kind.privateSize decapsed))
  | ok secret =>
    cases sealing : Crypto.hpkeSealInternal x.bssl bindingKey secret aad ⟨1,1,1⟩ entropy with
    | error fault' =>
      simp only [decapsed,sealing,bind,Except.bind] at failed
      cases Except.error.inj failed
      exact .inr (.inr (.inl (Crypto.sealFault (supportedSuite.mpr rfl) sealing)))
    | ok pair =>
      obtain ⟨encSize,ctSize⟩ := Crypto.sealSizes sizes sealing
      rw [Crypto.decapsSize laws.bssl decapsed] at ctSize
      simp only [decapsed,sealing,bind,Except.bind] at failed
      split at failed <;> try contradiction
      rename_i mismatch
      rw [encSize,ctSize] at mismatch
      exact .inr (.inr (.inr ⟨(Except.error.inj failed).symm,mismatch⟩))

theorem decapAndSealNotInternal (laws : x.Lawful) (sizes : x.bssl.Sized) (kinds : Homogeneous KemRecord keys)
    (now : Nat) (entropy : Bytes) (uuidBytes : Option Uuid)
    (encapsulatedKey aad outEncapsulatedKey outCiphertext : Option Bytes) :
    (keyManagerDecapAndSeal x keys now entropy uuidBytes encapsulatedKey aad outEncapsulatedKey outCiphertext).status ≠
      .internalError := by
  unfold keyManagerDecapAndSeal
  simp only
  split
  · split
    · simp
    split
    · rename_i fault failed
      rcases decapAndSealFault laws sizes kinds failed with same | same | same | ⟨same,_⟩ <;> simp [same,ffiCall]
    · simp
  · simp

theorem decapAndSealFits (laws : x.Lawful) (sizes : x.bssl.Sized) (kinds : Homogeneous KemRecord keys)
    (now : Nat) (entropy : Bytes) (kemUUID : Uuid) (encapsulatedKey aad : Bytes) :
    decapAndSeal x keys now entropy kemUUID encapsulatedKey aad ≠ failed (.ffi .invalidArgument) := by
  by_cases given : encapsulatedKey = []
  · simp [decapAndSeal,given,failed]
  rw [decapAndSealEq x keys now entropy kemUUID aad given]
  split
  · simp [failed]
  · rename_i fault wrong
    rcases decapAndSealFault laws sizes kinds wrong with same | same | same | ⟨same,mismatch⟩
    · simp [same,ffiCall,failed]
    · simp [same,ffiCall,failed]
    · simp [same,ffiCall,failed]
    · rcases mismatch with absurd | absurd <;> contradiction

theorem getKemFound (kinds : Homogeneous KemRecord keys) (now later : Nat) (uuid : Uuid) :
    getKemKeyInternal keys now later uuid = .error (.err .notFound) ∨
      ∃ kemKey bindingKey remaining, getKemKeyInternal keys now later uuid = .ok (⟨1,1,1⟩,kemKey,bindingKey,remaining) := by
  unfold getKemKeyInternal
  split
  · exact .inl rfl
  · rename_i record found
    obtain ⟨kemKey,bindingKey,kind⟩ := homogeneousFound kinds found
    rw [kind.spec]
    exact .inr ⟨kemKey,bindingKey,_,rfl⟩

theorem getKemNotInternal (kinds : Homogeneous KemRecord keys) (now later : Nat) (uuidBytes : Option Uuid)
    (outKemPubkey outBindingPubkey outAlgo : Option Bytes) (outAlgoLen outRemainingLifespanSecs : Option Nat) :
    (keyManagerGetKemKey x keys now later uuidBytes outKemPubkey outBindingPubkey outAlgo outAlgoLen
      outRemainingLifespanSecs).status ≠ .internalError := by
  unfold keyManagerGetKemKey
  simp only
  split
  · rename_i uuid _ _ _ _ _
    split
    · simp
    rcases getKemFound kinds now later uuid with missing | ⟨kemKey,bindingKey,remaining,found⟩
    · simp [missing,ffiCall]
    · simp only [found]
      split <;> simp
  · simp

theorem getsKEMKey (laws : x.Lawful) {now later : Nat} {id : Uuid} {kemKey bindingKey : PublicKey} {remaining : Nat}
    (found : getKemKeyInternal keys now later id = .ok (⟨1,1,1⟩,kemKey,bindingKey,remaining)) :
    getKEMKey x keys now later id = .ok ⟨kemKey.bytes,bindingKey.bytes,⟨1,1,1⟩,remaining⟩ := by
  have bound := laws.bounded ⟨1,1,1⟩
  have fits : ¬ (32 ≠ kemKey.bytes.length ∨ 32 ≠ bindingKey.bytes.length ∨
      maxAlgorithmLen < (x.marshal ⟨1,1,1⟩).length) := by
    simp only [kemKey.size,bindingKey.size,maxAlgorithmLen]
    omega
  simp only [getKEMKey,keyManagerGetKemKey,kemPubKeySize,List.length_replicate,
    if_neg (show ¬ (32 = 0 ∨ 32 = 0) by decide),found,if_neg fits,Status.toStatus,if_true,Option.getD_some,sliceToLeft,
    bind,Except.bind,laws.decodes]

theorem getKEMKeyFits (laws : x.Lawful) (kinds : Homogeneous KemRecord keys) (now later : Nat) (id : Uuid) :
    getKEMKey x keys now later id = failed (.ffi .notFound) ∨
      ∃ kemKey bindingKey remaining, getKemKeyInternal keys now later id = .ok (⟨1,1,1⟩,kemKey,bindingKey,remaining) ∧
        getKEMKey x keys now later id = .ok ⟨kemKey.bytes,bindingKey.bytes,⟨1,1,1⟩,remaining⟩ := by
  rcases getKemFound kinds now later id with missing | ⟨kemKey,bindingKey,remaining,found⟩
  · simp only [getKEMKey,keyManagerGetKemKey,kemPubKeySize,List.length_replicate,
      if_neg (show ¬ (32 = 0 ∨ 32 = 0) by decide),missing]
    exact .inl rfl
  · exact .inr ⟨kemKey,bindingKey,remaining,found,getsKEMKey laws found⟩

theorem generateKEMKeypairFits (laws : x.Lawful) {now : Nat} {entropy : Entropy} {algo : HpkeAlgorithm}
    {bindingPubKey : Bytes} {lifespanSecs : UInt64}
    (invalid : (generateKEMKeypair x keys now entropy algo bindingPubKey lifespanSecs).1 =
      failed (.ffi .invalidArgument)) : bindingPubKey.length ≠ 32 := by
  intro size
  simp only [generateKEMKeypair,if_neg (show ¬ bindingPubKey.length = 0 by omega)] at invalid
  split at invalid
  · simp [failed] at invalid
  rename_i given
  have lengths : ¬ (bindingPubKey.length = 0 ∨ (x.marshal algo).length = 0) := not_or.mpr ⟨by omega,given⟩
  have key : PublicKey.tryFrom bindingPubKey = .ok ⟨bindingPubKey,size⟩ := by simp [PublicKey.tryFrom,size]
  simp only [keyManagerGenerateKemKeypair,if_neg lengths,key,laws.decodes] at invalid
  cases made : KeyRecord.createBoundKemKey x.bssl algo ⟨bindingPubKey,size⟩ lifespanSecs entropy now with
  | ok record =>
    obtain ⟨pubKey,_,_,out⟩ := generatedInternal keys made
    have fits : ¬ (List.replicate kemPubKeySize (0 : UInt8)).length ≠ pubKey.bytes.length := by
      simp [kemPubKeySize,pubKey.size]
    simp only [out,if_neg fits,Status.toStatus,if_true] at invalid
    cases invalid
  | error fault =>
    have honest := ffiCallFault (KeyRecord.kemHonest made)
    simp only [generateKemKeypairInternal,made,Status.toStatus,if_neg honest] at invalid
    have status : ffiCall (.error fault) = .invalidArgument := by
      simpa [failed] using invalid
    have blamed : fault = .err .invalidArgument := by
      cases fault with
      | err status' => exact congrArg Fault.err status
      | panic => contradiction
    subst blamed
    unfold KeyRecord.createBoundKemKey at made
    split at made
    · exact KeyRecord.internalNotInvalid _ _ _ _ _ _ made
    · contradiction

end KpsCore

/-! The workload core on its own kind of records. -/

namespace WsCore

def entryOf (x : Externals) (info : KeyMetadata) (now : Nat) : WsKeyInfo :=
  ⟨info.id,copyInto WsKeyInfo.zero.algorithm (x.marshal info.spec.algo),(x.marshal info.spec.algo).length,
    copyInto WsKeyInfo.zero.pubKey info.spec.ownKey.bytes,info.spec.ownKey.bytes.length,
    remainingSecs info.deleteAfter now⟩

variable {x : Externals} {keys : KeyRegistry}

theorem fillsEntry (laws : x.Lawful) {record : KeyRecord} (kind : BindingRecord record) (now : Nat) :
    fillEntry x record.metadata now = .ok (entryOf x record.metadata now) := by
  obtain ⟨bindingKey,kind⟩ := kind
  have algo := laws.bounded ⟨1,1,1⟩
  have fits : ¬ (bindingKey.bytes.length > maxPublicKeyLen ∨ (x.marshal ⟨1,1,1⟩).length > maxAlgorithmLen) := by
    simp only [kind.bindingSize,maxPublicKeyLen,maxAlgorithmLen]
    omega
  simp only [fillEntry,entryOf,kind.spec,KeySpec.algo,KeySpec.ownKey,if_neg fits]

theorem fillsPage (laws : x.Lawful) (kinds : Homogeneous BindingRecord keys) (now offset limit : Nat) :
    ∀ info ∈ pageOf keys now offset limit, ∀ now', fillEntry x info now' = .ok (entryOf x info now') := by
  intro info mem now'
  obtain ⟨record,kind,same⟩ := homogeneousPage kinds mem
  exact same ▸ fillsEntry laws kind now'

theorem enumeratesBinding (laws : x.Lawful) (kinds : Homogeneous BindingRecord keys) (now : Nat)
    (readings : Nat → Nat) (entries : List WsKeyInfo) (offset : Nat) :
    enumerateBindingKeysInternal x keys now readings entries offset =
      (.ok ((pageOf keys now offset entries.length).length,
          decide ((offset + (pageOf keys now offset entries.length).length) % 2^64 < (sortedLive keys now).length)),
        (pageOf keys now offset entries.length).mapIdx (fun i info => entryOf x info (readings i)) ++
          entries.drop (pageOf keys now offset entries.length).length) := by
  exact enumeratesInternal readings entries offset (fillsPage laws kinds now offset entries.length)

theorem openNotInternal (kinds : Homogeneous BindingRecord keys) (now : Nat) (uuidBytes : Option Uuid)
    (enc ciphertext aad outPlaintext : Option Bytes) :
    (keyManagerOpen x keys now uuidBytes enc ciphertext aad outPlaintext).status ≠ .internalError := by
  unfold keyManagerOpen
  simp only
  split
  · split
    · simp
    split
    · rename_i fault wrong
      unfold openInternal at wrong
      split at wrong
      · cases Except.error.inj wrong
        simp [ffiCall]
      · rename_i record found
        obtain ⟨bindingKey,kind⟩ := homogeneousFound kinds found
        simp only [kind.spec] at wrong
        rw [Crypto.openFault (supportedSuite.mpr rfl) wrong]
        simp [ffiCall]
    · split <;> simp
  · simp

theorem getBindingFound (kinds : Homogeneous BindingRecord keys) (now : Nat) (uuid : Uuid) :
    getBindingKeyInternal keys now uuid = .error (.err .notFound) ∨
      ∃ bindingKey, getBindingKeyInternal keys now uuid = .ok (⟨1,1,1⟩,bindingKey) := by
  unfold getBindingKeyInternal
  split
  · exact .inl rfl
  · rename_i record found
    obtain ⟨bindingKey,kind⟩ := homogeneousFound kinds found
    rw [kind.spec]
    exact .inr ⟨bindingKey,rfl⟩

theorem getBindingNotInternal (kinds : Homogeneous BindingRecord keys) (now : Nat) (uuidBytes : Option Uuid)
    (outPubkey outAlgo : Option Bytes) (outAlgoLen : Option Nat) :
    (keyManagerGetBindingKey x keys now uuidBytes outPubkey outAlgo outAlgoLen).status ≠ .internalError := by
  unfold keyManagerGetBindingKey
  simp only
  split
  · rename_i uuid _ _ _
    split
    · simp
    rcases getBindingFound kinds now uuid with missing | ⟨bindingKey,found⟩
    · simp [missing,ffiCall]
    · simp only [found]
      split <;> simp
  · simp

theorem getBindingKeyFits (laws : x.Lawful) (kinds : Homogeneous BindingRecord keys) (now : Nat) (id : Uuid) :
    getBindingKey x keys now id = failed (.ffi .notFound) ∨
      ∃ bindingKey, getBindingKeyInternal keys now id = .ok (⟨1,1,1⟩,bindingKey) ∧
        getBindingKey x keys now id = .ok (bindingKey.bytes,⟨1,1,1⟩) := by
  simp only [getBindingKey,keyManagerGetBindingKey,bindingPubKeySize,List.length_replicate,
    if_neg (show ¬ 32 = 0 by decide)]
  rcases getBindingFound kinds now id with missing | ⟨bindingKey,found⟩
  · simp only [missing]
    exact .inl rfl
  · have bound := laws.bounded ⟨1,1,1⟩
    have fits : ¬ (32 ≠ bindingKey.bytes.length ∨ maxAlgorithmLen < (x.marshal ⟨1,1,1⟩).length) := by
      simp only [bindingKey.size,maxAlgorithmLen]
      omega
    simp only [found,if_neg fits,Status.toStatus,if_true,Option.getD_some,sliceToLeft,bind,Except.bind,laws.decodes]
    exact .inr ⟨bindingKey,rfl,rfl⟩

theorem generateBindingKeypairFits (laws : x.Lawful) (now : Nat) (entropy : Entropy) (algo : HpkeAlgorithm)
    (lifespanSecs : UInt64) :
    (generateBindingKeypair x keys now entropy algo lifespanSecs).1 ≠ failed (.ffi .invalidArgument) := by
  simp only [generateBindingKeypair]
  split
  · simp [failed]
  rename_i given
  simp only [keyManagerGenerateBindingKeypair,if_neg given,laws.decodes]
  cases made : KeyRecord.createBindingKey x.bssl algo lifespanSecs entropy now with
  | ok record =>
    obtain ⟨pubKey,_,_,out⟩ := generatedInternal keys made
    have fits : ¬ (List.replicate bindingPubKeySize (0 : UInt8)).length ≠ pubKey.bytes.length := by
      simp [bindingPubKeySize,pubKey.size]
    simp only [out,if_neg fits,Status.toStatus,if_true]
    intro same
    cases same
  | error fault =>
    have honest := ffiCallFault (KeyRecord.bindingHonest made)
    simp only [generateBindingKeypairInternal,made,Status.toStatus,if_neg honest]
    cases fault with
    | panic => simp [ffiCall,failed]
    | err status =>
      have blameless : status ≠ .invalidArgument := by
        intro same
        subst same
        exact KeyRecord.internalNotInvalid _ _ _ _ _ _ made
      simpa [ffiCall,failed] using blameless

end WsCore

/-! Both registries, in every state that any calls can bring about. An enumeration that is
given an array returns its count, which the cast to 32 bits keeps as long as fewer than
2^31 keys are live or the array is shorter than that; the statuses of the readers are never
the internal error; and no wrapper is refused for the size of its own buffers. -/

theorem coresHomogeneous {x : Externals} (laws : x.Lawful) (sizes : x.bssl.Sized) :
    (∀ s, Custody.KpsReachable x s →
      (∀ id record, s.keys.lookup id = some record → KemRecord record) ∧
      (∀ now readings entries offset outHasMore, ∃ count hasMore,
        (KpsCore.enumerateKemKeysInternal x s.keys now readings entries offset).1 = .ok (count,hasMore) ∧
        (KpsCore.keyManagerEnumerateKemKeys x s.keys now readings (some entries) offset outHasMore).result =
          (BitVec.ofNat 32 count).toInt ∧
        (FewLive s.keys now ∨ entries.length < 2^31 →
          (KpsCore.keyManagerEnumerateKemKeys x s.keys now readings (some entries) offset outHasMore).result = count ∧
          0 ≤ (KpsCore.keyManagerEnumerateKemKeys x s.keys now readings (some entries) offset outHasMore).result)) ∧
      (∀ now entropy uuidBytes encapsulatedKey aad outEncapsulatedKey outCiphertext,
        (KpsCore.keyManagerDecapAndSeal x s.keys now entropy uuidBytes encapsulatedKey aad outEncapsulatedKey
          outCiphertext).status ≠ .internalError) ∧
      (∀ now later uuidBytes outKemPubkey outBindingPubkey outAlgo outAlgoLen outRemainingLifespanSecs,
        (KpsCore.keyManagerGetKemKey x s.keys now later uuidBytes outKemPubkey outBindingPubkey outAlgo outAlgoLen
          outRemainingLifespanSecs).status ≠ .internalError) ∧
      (∀ now entropy algo bindingPubKey lifespanSecs,
        (KpsCore.generateKEMKeypair x s.keys now entropy algo bindingPubKey lifespanSecs).1 =
          failed (.ffi .invalidArgument) → bindingPubKey.length ≠ 32) ∧
      (∀ now later id, KpsCore.getKEMKey x s.keys now later id ≠ failed (.ffi .invalidArgument)) ∧
      (∀ now entropy kemUUID encapsulatedKey aad,
        KpsCore.decapAndSeal x s.keys now entropy kemUUID encapsulatedKey aad ≠ failed (.ffi .invalidArgument))) ∧
    (∀ s, Custody.WsReachable x s →
      (∀ id record, s.keys.lookup id = some record → BindingRecord record) ∧
      (∀ now readings entries offset outHasMore, ∃ count hasMore,
        (WsCore.enumerateBindingKeysInternal x s.keys now readings entries offset).1 = .ok (count,hasMore) ∧
        (WsCore.keyManagerEnumerateBindingKeys x s.keys now readings (some entries) offset outHasMore).result =
          (BitVec.ofNat 32 count).toInt ∧
        (FewLive s.keys now ∨ entries.length < 2^31 →
          (WsCore.keyManagerEnumerateBindingKeys x s.keys now readings (some entries) offset outHasMore).result = count ∧
          0 ≤ (WsCore.keyManagerEnumerateBindingKeys x s.keys now readings (some entries) offset outHasMore).result)) ∧
      (∀ now uuidBytes enc ciphertext aad outPlaintext,
        (WsCore.keyManagerOpen x s.keys now uuidBytes enc ciphertext aad outPlaintext).status ≠ .internalError) ∧
      (∀ now uuidBytes outPubkey outAlgo outAlgoLen,
        (WsCore.keyManagerGetBindingKey x s.keys now uuidBytes outPubkey outAlgo outAlgoLen).status ≠ .internalError) ∧
      (∀ now entropy algo lifespanSecs,
        (WsCore.generateBindingKeypair x s.keys now entropy algo lifespanSecs).1 ≠ failed (.ffi .invalidArgument)) ∧
      (∀ now id, WsCore.getBindingKey x s.keys now id ≠ failed (.ffi .invalidArgument))) := by
  refine ⟨fun s reach => ?_,fun s reach => ?_⟩
  · have kinds := kpsHomogeneous laws reach
    refine ⟨kinds.kinds,?_,KpsCore.decapAndSealNotInternal laws sizes kinds,KpsCore.getKemNotInternal kinds,
      fun _ _ _ _ _ => KpsCore.generateKEMKeypairFits laws,?_,KpsCore.decapAndSealFits laws sizes kinds⟩
    · intro now readings entries offset outHasMore
      have made := KpsCore.enumeratesKem laws kinds now readings entries offset
      exact ⟨_,_,congrArg Prod.fst made,
        enumerateCounts readings (KpsCore.fillsPage laws kinds now offset entries.length) outHasMore⟩
    · intro now later id
      rcases KpsCore.getKEMKeyFits laws kinds now later id with missing | ⟨_,_,_,_,found⟩
      · simp [missing,failed]
      · simp [found,failed]
  · have kinds := wsHomogeneous laws reach
    refine ⟨kinds.kinds,?_,WsCore.openNotInternal kinds,WsCore.getBindingNotInternal kinds,
      WsCore.generateBindingKeypairFits laws,?_⟩
    · intro now readings entries offset outHasMore
      have made := WsCore.enumeratesBinding laws kinds now readings entries offset
      exact ⟨_,_,congrArg Prod.fst made,
        enumerateCounts readings (WsCore.fillsPage laws kinds now offset entries.length) outHasMore⟩
    · intro now id
      rcases WsCore.getBindingKeyFits laws kinds now id with missing | ⟨_,_,found⟩
      · simp [missing,failed]
      · simp [found,failed]

namespace Standin

def makeKem (n pubkeyLen : Nat) : Custody.KpsEvent :=
  .generateKemKeypair (entropy n) (some [8,1,16,1,24,1]) (some (pad32 [7])) 3600 (some 0)
    (some (List.replicate pubkeyLen 0))

def makeBinding (n pubkeyLen : Nat) : Custody.WsEvent :=
  .generateBindingKeypair (entropy n) (some [8,1,16,1,24,1]) 3600 (some 0) (some (List.replicate pubkeyLen 0))

def kpsAfter (events : List Custody.KpsEvent) : Custody.Core :=
  (exec (Custody.kpsStep externals) (Custody.Core.initial 0) events).getD (Custody.Core.initial 0)

def wsAfter (events : List Custody.WsEvent) : Custody.Core :=
  (exec (Custody.wsStep externals) (Custody.Core.initial 0) events).getD (Custody.Core.initial 0)

theorem kpsAfterReachable {events : List Custody.KpsEvent}
    (enabled : (exec (Custody.kpsStep externals) (Custody.Core.initial 0) events).isSome) :
    Custody.KpsReachable externals (kpsAfter events) := ⟨0,events,stepsGetD enabled⟩

theorem wsAfterReachable {events : List Custody.WsEvent}
    (enabled : (exec (Custody.wsStep externals) (Custody.Core.initial 0) events).isSome) :
    Custody.WsReachable externals (wsAfter events) := ⟨0,events,stepsGetD enabled⟩

def givenKey : PublicKey := ⟨pad32 [7],padSize _⟩

def madeRecord (n now : Nat) : KeyRecord :=
  ⟨⟨BitVec.ofNat 128 n,now,now + 3600 * nanosPerSec,.kemWithBindingPub ⟨1,1,1⟩ ⟨pad32 [UInt8.ofNat n],padSize _⟩
    givenKey⟩,pad32 [UInt8.ofNat n]⟩

theorem madeAlive (n now : Nat) : now < (madeRecord n now).deleteAfter := by
  simp only [madeRecord,KeyRecord.deleteAfter,nanosPerSec]
  omega

def crowd : Nat → Custody.Core
  | 0 => Custody.Core.initial 0
  | n+1 => ⟨addKey (crowd n).keys (madeRecord n 0),0⟩

theorem crowdMade (n : Nat) :
    KeyRecord.createBoundKemKey externals.bssl ⟨1,1,1⟩ ⟨pad32 [7],padSize _⟩ 3600 (entropy n) 0 =
      .ok (madeRecord n 0) := by
  have suite : (⟨1,1,1⟩ : HpkeAlgorithm).Supported := supportedSuite.mpr rfl
  have deadline : checkedAdd 0 3600 = some (0 + 3600 * nanosPerSec) := by decide
  have size : (externals.bssl.generateKeypair [UInt8.ofNat n]).1.length = 32 := padSize _
  simp [KeyRecord.createBoundKemKey,suite.1,KeyRecord.createKeyInternal,suite,Crypto.generateKeypair,
    Crypto.x25519GenerateKeypair,size,entropy,deadline,bind,Except.bind]
  rfl

theorem crowdGrows (n : Nat) : Custody.kpsStep externals (crowd n) (makeKem n 32) = some (crowd (n+1)) := by
  have clock : (crowd n).now = 0 := by cases n <;> rfl
  have key : PublicKey.tryFrom (pad32 [7]) = .ok ⟨pad32 [7],padSize _⟩ := by simp [PublicKey.tryFrom,padSize]
  have decoded : externals.decode [8,1,16,1,24,1] = .ok ⟨1,1,1⟩ := by rfl
  have given : ¬ ((pad32 [7]).length = 0 ∨ [8,1,16,1,24,(1 : UInt8)].length = 0) := by decide
  simp only [Custody.kpsStep,makeKem,KpsCore.keyManagerGenerateKemKeypair,clock,key,if_neg given,decoded,
    KpsCore.generateKemKeypairInternal,crowdMade]
  simp [padSize,crowd,madeRecord]

theorem crowdReachable (n : Nat) : Custody.KpsReachable externals (crowd n) := by
  induction n with
  | zero => exact ⟨0,[],.nil _⟩
  | succ n ih =>
    obtain ⟨now,run⟩ := ih
    have next : Steps (Custody.kpsStep externals) (crowd n) [makeKem n 32] (crowd (n+1)) :=
      .cons trivial (crowdGrows n) (.nil _)
    exact ⟨now,reachableAlong run next⟩

theorem crowdFree {n : Nat} (room : n < 2^128) : (crowd n).keys.lookup (BitVec.ofNat 128 n) = none := by
  have below : ∀ m, m ≤ n → ∀ k, m ≤ k → k ≤ n → (crowd m).keys.lookup (BitVec.ofNat 128 k) = none := by
    intro m inside
    induction m with
    | zero =>
      intro k _ _
      rfl
    | succ m ih =>
      intro k above inRange
      have other : BitVec.ofNat 128 k ≠ BitVec.ofNat 128 m := by
        intro same
        have nats := congrArg BitVec.toNat same
        simp only [BitVec.toNat_ofNat] at nats
        omega
      rw [crowd,addKey,Table.lookupInsert,if_neg (show BitVec.ofNat 128 k ≠ (madeRecord m 0).metadata.id from other)]
      exact ih (by omega) k (by omega) inRange
  exact below n (Nat.le_refl n) n (Nat.le_refl n) (Nat.le_refl n)

theorem crowdLive {n : Nat} (room : n ≤ 2^128) : (sortedLive (crowd n).keys 0).length = n := by
  induction n with
  | zero => simp [crowd,Custody.Core.initial,sortedLive,Table.values]
  | succ n ih =>
    have missing : (crowd n).keys.lookup (madeRecord n 0).id = none := crowdFree (by omega)
    have alive : 0 < (madeRecord n 0).deleteAfter := madeAlive n 0
    rw [crowd,liveAdd missing alive,ih (by omega)]

end Standin

theorem coresHomogeneousStranded :
    let kps := Standin.kpsAfter [Standin.makeKem 1 32,Standin.makeKem 2 40]
    let ws := Standin.wsAfter [Standin.makeBinding 1 32,Standin.makeBinding 2 40]
    let listed := KpsCore.keyManagerEnumerateKemKeys Standin.externals kps.keys 0 (fun _ => 0)
      (some (List.replicate 3 KpsCore.KpsKeyInfo.zero)) 0 none
    (kps.keys.lookup 2).isSome ∧ (ws.keys.lookup 2).isSome ∧
    (∀ id record, kps.keys.lookup id = some record → KemRecord record) ∧
    (∀ id record, ws.keys.lookup id = some record → BindingRecord record) ∧
    (∃ count : Nat, listed.result = count) ∧ 0 ≤ listed.result := by
  intro kps ws listed
  have both := coresHomogeneous Standin.lawful Standin.bsslSized
  obtain ⟨kems,lists,_⟩ := both.1 kps (Standin.kpsAfterReachable (by decide +kernel))
  obtain ⟨count,_,_,_,fits⟩ := lists 0 (fun _ => 0) (List.replicate 3 KpsCore.KpsKeyInfo.zero) 0 none
  have counted := fits (.inr (by decide))
  exact ⟨by decide +kernel,by decide +kernel,kems,
    (both.2 ws (Standin.wsAfterReachable (by decide +kernel))).1,⟨count,counted.1⟩,counted.2⟩

end KeyProtection
