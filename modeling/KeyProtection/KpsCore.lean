import KeyProtection.Ffi

/-! key_protection_service/key_custody_core: the Rust entry points and their Go wrappers.
Output buffers go in with the caller's bytes and come back with what the call left in
them. `now` is the clock reading of the registry call, `later` the one taken after it. -/
namespace KeyProtection.KpsCore
open KeyRegistry

def generateKemKeypairInternal (c : Bssl) (keys : KeyRegistry) (now : Nat) (entropy : Entropy)
    (algo : HpkeAlgorithm) (bindingPubkey : PublicKey) (expirySecs : UInt64) :
    Rust (Uuid × PublicKey) × KeyRegistry :=
  match KeyRecord.createBoundKemKey c algo bindingPubkey expirySecs entropy now with
  | .error fault => (.error fault,keys)
  | .ok record =>
    match record.metadata.spec with
    | .kemWithBindingPub _ kemPublicKey _ => (.ok (record.metadata.id,kemPublicKey),addKey keys record)
    | _ => (.error (.err .internalError),keys)

def keyManagerGenerateKemKeypair (x : Externals) (keys : KeyRegistry) (now : Nat) (entropy : Entropy)
    (algoPtr bindingPubkey : Option Bytes) (expirySecs : UInt64) (outUuid : Option Uuid)
    (outPubkey : Option Bytes) : KeypairOut :=
  let fail (status : Status) (keys : KeyRegistry) : KeypairOut := ⟨status,keys,outUuid,outPubkey⟩
  match bindingPubkey, outPubkey, outUuid, algoPtr with
  | some bindingSlice, some pubkeySlice, some _, some algoSlice =>
    if bindingSlice.length = 0 ∨ algoSlice.length = 0 then fail .invalidArgument keys
    else match PublicKey.tryFrom bindingSlice with
      | .error fault => fail (ffiCall (.error fault)) keys
      | .ok bindingKey =>
        match x.decode algoSlice with
        | .error _ => fail .invalidArgument keys
        | .ok algo =>
          match generateKemKeypairInternal x.bssl keys now entropy algo bindingKey expirySecs with
          | (.error fault,keys') => fail (ffiCall (.error fault)) keys'
          | (.ok (id,pubkey),keys') =>
            -- The length is compared after the key has been stored.
            if pubkeySlice.length ≠ pubkey.bytes.length then fail .invalidArgument keys'
            else ⟨.success,keys',some id,some pubkey.bytes⟩
  | _,_,_,_ => fail .invalidArgument keys

def kemPubKeySize : Nat := 32
def encKeySize : Nat := 32
def sealedCTSize : Nat := 48

/- Taking the address of the first byte of an empty slice panics. -/
def generateKEMKeypair (x : Externals) (keys : KeyRegistry) (now : Nat) (entropy : Entropy)
    (algo : HpkeAlgorithm) (bindingPubKey : Bytes) (lifespanSecs : UInt64) : Go (Uuid × Bytes) × KeyRegistry :=
  if bindingPubKey.length = 0 then (failed (.plain "binding public key must not be empty"),keys)
  else
    let algoBytes := x.marshal algo
    if algoBytes.length = 0 then (.error .panic,keys)
    else
      let out := keyManagerGenerateKemKeypair x keys now entropy (some algoBytes) (some bindingPubKey)
        lifespanSecs (some 0) (some (List.replicate kemPubKeySize 0))
      match out.status.toStatus with
      | some err => (failed err,out.keys)
      | none => (.ok (out.outUuid.getD 0,out.outPubkey.getD []),out.keys)

def keyManagerDestroyKemKey (keys : KeyRegistry) (uuidBytes : Option Uuid) : Status × KeyRegistry :=
  destroyByUuid keys uuidBytes

def destroyKEMKey (keys : KeyRegistry) (kemUUID : Uuid) : Option GoError × KeyRegistry :=
  let out := keyManagerDestroyKemKey keys (some kemUUID)
  (out.1.toStatus,out.2)

/- The two output slices are overwritten only after both lengths have been compared. -/
def decapAndSealInternal (c : Bssl) (keys : KeyRegistry) (now : Nat) (entropy : Bytes) (uuid : Uuid)
    (encapsulatedKey aad : Bytes) (outEncapsulatedKeyLen outCiphertextLen : Nat) : Rust (Bytes × Bytes) :=
  match getKey keys now uuid with
  | none => .error (.err .notFound)
  | some keyRecord =>
    match keyRecord.metadata.spec with
    | .binding _ _ => .error (.err .internalError)
    | .kemWithBindingPub hpkeAlgo _ bindingPublicKey => do
      let sharedSecret ← Crypto.decapsInternal c keyRecord.privateKey encapsulatedKey
      let (enc,ct) ← Crypto.hpkeSealInternal c bindingPublicKey sharedSecret aad hpkeAlgo entropy
      if outEncapsulatedKeyLen ≠ enc.length ∨ outCiphertextLen ≠ ct.length then
        .error (.err .invalidArgument)
      else .ok (enc,ct)

structure SealOut where
  status : Status
  outEncapsulatedKey : Option Bytes
  outCiphertext : Option Bytes

def keyManagerDecapAndSeal (x : Externals) (keys : KeyRegistry) (now : Nat) (entropy : Bytes)
    (uuidBytes : Option Uuid) (encapsulatedKey aad outEncapsulatedKey outCiphertext : Option Bytes) : SealOut :=
  let fail (status : Status) : SealOut := ⟨status,outEncapsulatedKey,outCiphertext⟩
  match uuidBytes, encapsulatedKey, outEncapsulatedKey, outCiphertext with
  | some uuid, some encSlice, some outEnc, some outCt =>
    if encSlice.length = 0 ∨ outEnc.length = 0 ∨ outCt.length = 0 then fail .invalidArgument
    else match decapAndSealInternal x.bssl keys now entropy uuid encSlice (aad.getD []) outEnc.length outCt.length with
      | .error fault => fail (ffiCall (.error fault))
      | .ok (enc,ct) => ⟨.success,some enc,some ct⟩
  | _,_,_,_ => fail .invalidArgument

def decapAndSeal (x : Externals) (keys : KeyRegistry) (now : Nat) (entropy : Bytes) (kemUUID : Uuid)
    (encapsulatedKey aad : Bytes) : Go (Bytes × Bytes) :=
  if encapsulatedKey.length = 0 then failed (.plain "encapsulated key must not be empty")
  else
    let out := keyManagerDecapAndSeal x keys now entropy (some kemUUID) (some encapsulatedKey)
      (if aad.length > 0 then some aad else none)
      (some (List.replicate encKeySize 0)) (some (List.replicate sealedCTSize 0))
    match out.status.toStatus with
    | some err => failed err
    | none => .ok (out.outEncapsulatedKey.getD [],out.outCiphertext.getD [])

def getKemKeyInternal (keys : KeyRegistry) (now later : Nat) (uuid : Uuid) :
    Rust (HpkeAlgorithm × PublicKey × PublicKey × Nat) :=
  match getKey keys now uuid with
  | none => .error (.err .notFound)
  | some record =>
    match record.metadata.spec with
    | .kemWithBindingPub algo kemPublicKey bindingPublicKey =>
      .ok (algo,kemPublicKey,bindingPublicKey,remainingSecs record.metadata.deleteAfter later)
    | .binding _ _ => .error (.err .internalError)

structure KemInfoOut where
  status : Status
  outKemPubkey : Option Bytes
  outBindingPubkey : Option Bytes
  outAlgo : Option Bytes
  outAlgoLen : Option Nat
  outRemainingLifespanSecs : Option Nat

/- The algorithm slice has the length that the caller wrote in `outAlgoLen`. -/
def keyManagerGetKemKey (x : Externals) (keys : KeyRegistry) (now later : Nat) (uuidBytes : Option Uuid)
    (outKemPubkey outBindingPubkey outAlgo : Option Bytes) (outAlgoLen outRemainingLifespanSecs : Option Nat) :
    KemInfoOut :=
  let fail (status : Status) : KemInfoOut :=
    ⟨status,outKemPubkey,outBindingPubkey,outAlgo,outAlgoLen,outRemainingLifespanSecs⟩
  match uuidBytes, outKemPubkey, outBindingPubkey, outAlgo, outAlgoLen, outRemainingLifespanSecs with
  | some uuid, some kemSlice, some bindingSlice, some algoSlice, some algoLen, some _ =>
    if kemSlice.length = 0 ∨ bindingSlice.length = 0 then fail .invalidArgument
    else match getKemKeyInternal keys now later uuid with
      | .error fault => fail (ffiCall (.error fault))
      | .ok (algo,kemPubkey,bindingPubkey,remaining) =>
        let algoBytes := x.marshal algo
        if kemSlice.length ≠ kemPubkey.bytes.length ∨ bindingSlice.length ≠ bindingPubkey.bytes.length ∨
            algoLen < algoBytes.length then fail .invalidArgument
        else ⟨.success,some kemPubkey.bytes,some bindingPubkey.bytes,
          some (algoBytes ++ algoSlice.drop algoBytes.length),some algoBytes.length,some remaining⟩
  | _,_,_,_,_,_ => fail .invalidArgument

structure KemInfo where
  kemPubKey : Bytes
  bindingPubKey : Bytes
  algo : HpkeAlgorithm
  remainingLifespanSecs : Nat
  deriving DecidableEq, Repr

def getKEMKey (x : Externals) (keys : KeyRegistry) (now later : Nat) (id : Uuid) : Go KemInfo :=
  let out := keyManagerGetKemKey x keys now later (some id) (some (List.replicate kemPubKeySize 0))
    (some (List.replicate kemPubKeySize 0)) (some (List.replicate maxAlgorithmLen 0)) (some maxAlgorithmLen) (some 0)
  match out.status.toStatus with
  | some err => failed err
  | none => do
    let algoBytes ← sliceTo (out.outAlgo.getD []) (out.outAlgoLen.getD 0)
    match x.decode algoBytes with
    | .error text => failed (.plain ("failed to unmarshal HpkeAlgorithm: " ++ text))
    | .ok algo => .ok ⟨out.outKemPubkey.getD [],out.outBindingPubkey.getD [],algo,
        out.outRemainingLifespanSecs.getD 0⟩

structure KpsKeyInfo where
  uuid : Uuid
  algorithm : Bytes
  algorithmLen : Nat
  pubKey : Bytes
  pubKeyLen : Nat
  bindingPubKey : Bytes
  bindingPubKeyLen : Nat
  remainingLifespanSecs : Nat
  deriving DecidableEq, Repr

def KpsKeyInfo.zero : KpsKeyInfo :=
  ⟨0,List.replicate maxAlgorithmLen 0,0,List.replicate maxPublicKeyLen 0,0,List.replicate maxPublicKeyLen 0,0,0⟩

/- A failed debug_assert panics and is reported as the same internal error. -/
def fillEntry (x : Externals) (info : KeyMetadata) (now : Nat) : Rust KpsKeyInfo :=
  match info.spec with
  | .binding _ _ => .error (.err .internalError)
  | .kemWithBindingPub algo pubKey bindingPubKey =>
    let algoBytes := x.marshal algo
    if pubKey.bytes.length > maxPublicKeyLen ∨ algoBytes.length > maxAlgorithmLen then
      .error (.err .internalError)
    else if bindingPubKey.bytes.length > maxPublicKeyLen then .error (.err .internalError)
    else .ok ⟨info.id,copyInto KpsKeyInfo.zero.algorithm algoBytes,algoBytes.length,
      copyInto KpsKeyInfo.zero.pubKey pubKey.bytes,pubKey.bytes.length,
      copyInto KpsKeyInfo.zero.bindingPubKey bindingPubKey.bytes,bindingPubKey.bytes.length,
      remainingSecs info.deleteAfter now⟩

def enumerateKemKeysInternal (x : Externals) (keys : KeyRegistry) (now : Nat) (readings : Nat → Nat)
    (entries : List KpsKeyInfo) (offset : Nat) : Rust (Nat × Bool) × List KpsKeyInfo :=
  enumerateInternal (fillEntry x) keys now readings entries offset

def keyManagerEnumerateKemKeys (x : Externals) (keys : KeyRegistry) (now : Nat) (readings : Nat → Nat)
    (outEntries : Option (List KpsKeyInfo)) (offset : Nat) (outHasMore : Option Bool) : EnumerateOut KpsKeyInfo :=
  keyManagerEnumerate (fillEntry x) keys now readings outEntries offset outHasMore

structure KEMKeyInfo where
  id : Uuid
  algorithm : HpkeAlgorithm
  kemPubKey : Bytes
  remainingLifespanSecs : Nat
  deriving DecidableEq, Repr

def readEntries (x : Externals) (index : Nat) : List KpsKeyInfo → Go (List KEMKeyInfo)
  | [] => .ok []
  | e::rest =>
    match x.decode (e.algorithm.take e.algorithmLen) with
    | .error text => failed (.wrap ("failed to unmarshal algorithm for key " ++ toString index ++ ": ") (.plain text))
    | .ok algo => do
      let tail ← readEntries x (index+1) rest
      .ok (⟨e.uuid,algo,e.pubKey.take e.pubKeyLen,e.remainingLifespanSecs⟩::tail)

def enumerateKEMKeys (x : Externals) (keys : KeyRegistry) (now : Nat) (readings : Nat → Nat)
    (limit offset : Int32) : Go (List KEMKeyInfo × Bool) :=
  if limit ≤ 0 then failed (.plain "limit must be positive")
  else if offset < 0 then failed (.plain "offset must be non-negative")
  else
    let out := keyManagerEnumerateKemKeys x keys now readings
      (some (List.replicate limit.toInt.toNat KpsKeyInfo.zero)) offset.toInt.toNat (some false)
    if out.result < 0 then
      match (Status.ofCode (-out.result).toNat).toStatus with
      | some err => failed err
      | none => .ok ([],false)
    else do
      let shown ← sliceTo (out.outEntries.getD []) out.result.toNat
      let keys ← readEntries x 0 shown
      .ok (keys,out.outHasMore.getD false)

/-! What each wrapper can do, said once. -/

inductive Generated (x : Externals) (keys : KeyRegistry) (now : Nat) (entropy : Entropy) (algo : HpkeAlgorithm)
    (bindingPubKey : Bytes) (lifespanSecs : UInt64) : Go (Uuid × Bytes) × KeyRegistry → Prop where
  | failed (fault : GoFault) : Generated x keys now entropy algo bindingPubKey lifespanSecs (.error fault,keys)
  | stored (suite : HpkeAlgorithm) (pubKey bindingKey : PublicKey) (record : KeyRecord)
      (bound : bindingKey.bytes = bindingPubKey) (decoded : x.decode (x.marshal algo) = .ok suite)
      (created : KeyRecord.Created x.bssl suite lifespanSecs entropy now pubKey record)
      (spec : record.metadata.spec = .kemWithBindingPub suite pubKey bindingKey) :
      Generated x keys now entropy algo bindingPubKey lifespanSecs
        (.ok (record.id,pubKey.bytes),addKey keys record)

theorem generatedInternal {c now entropy algo bindingKey expirySecs record} (keys : KeyRegistry)
    (ok : KeyRecord.createBoundKemKey c algo bindingKey expirySecs entropy now = .ok record) :
    ∃ pubKey, KeyRecord.Created c algo expirySecs entropy now pubKey record ∧
      record.metadata.spec = .kemWithBindingPub algo pubKey bindingKey ∧
      generateKemKeypairInternal c keys now entropy algo bindingKey expirySecs =
        (.ok (record.id,pubKey),addKey keys record) := by
  obtain ⟨pubKey,created,spec⟩ := KeyRecord.createdKem ok
  refine ⟨pubKey,created,spec,?_⟩
  simp only [generateKemKeypairInternal,ok,spec]
  rfl

theorem tryFromOk {value : Bytes} {key : PublicKey} (ok : PublicKey.tryFrom value = .ok key) : key.bytes = value := by
  unfold PublicKey.tryFrom at ok
  split at ok <;> try contradiction
  cases Except.ok.inj ok
  rfl

theorem tryFromHonest (value : Bytes) : Honest (PublicKey.tryFrom value) := by
  unfold PublicKey.tryFrom Honest
  split <;> simp

inductive Makes (x : Externals) (now : Nat) (entropy : Entropy) (expirySecs : UInt64) :
    Option Bytes → Option Bytes → Option Uuid → Option Bytes → KeyRecord → PublicKey → Prop where
  | mk {algoSlice suite bindingKey uuid slice record pubKey} (given : algoSlice ≠ [])
      (decoded : x.decode algoSlice = .ok suite)
      (created : KeyRecord.createBoundKemKey x.bssl suite bindingKey expirySecs entropy now = .ok record)
      (spec : record.metadata.spec = .kemWithBindingPub suite pubKey bindingKey) :
      Makes x now entropy expirySecs (some algoSlice) (some bindingKey.bytes) (some uuid) (some slice) record pubKey

theorem madeKem {x : Externals} {now entropy expirySecs algoSlice bindingKey outUuid outPubkey record pubKey}
    (made : Makes x now entropy expirySecs (some algoSlice) (some (PublicKey.bytes bindingKey)) outUuid outPubkey
      record pubKey) :
    ∃ suite, x.decode algoSlice = .ok suite ∧
      KeyRecord.createBoundKemKey x.bssl suite bindingKey expirySecs entropy now = .ok record ∧
      record.metadata.spec = .kemWithBindingPub suite pubKey bindingKey := by
  generalize binding : some bindingKey.bytes = bindingPtr at made
  cases made with
  | @mk _ suite other _ _ _ _ _ decoded created spec =>
    cases publicKeySame (Option.some.inj binding)
    exact ⟨suite,decoded,created,spec⟩

theorem issuedKem (x : Externals) (keys : KeyRegistry) (now : Nat) (entropy : Entropy)
    (algoPtr bindingPubkey : Option Bytes) (expirySecs : UInt64) (outUuid : Option Uuid) (outPubkey : Option Bytes) :
    Issued keys outUuid outPubkey (Makes x now entropy expirySecs algoPtr bindingPubkey outUuid outPubkey)
      (keyManagerGenerateKemKeypair x keys now entropy algoPtr bindingPubkey expirySecs outUuid outPubkey) := by
  unfold keyManagerGenerateKemKeypair
  simp only
  split
  · rename_i bindingSlice pubkeySlice uuid algoSlice
    split
    · rename_i empty
      refine .refused (by decide) (fun record pubKey made => ?_)
      cases made with
      | @mk _ _ bindingKey _ _ _ _ given _ _ _ =>
        have size := bindingKey.size
        rcases empty with none | none
        · omega
        · exact given (List.length_eq_zero_iff.mp none)
    rename_i given
    cases key : PublicKey.tryFrom bindingSlice with
    | error fault =>
      have honest := tryFromHonest bindingSlice
      rw [key] at honest
      refine .refused (ffiCallFault (fun same => honest (congrArg Except.error same))) (fun record pubKey made => ?_)
      cases made with
      | @mk _ _ bindingKey _ _ _ _ _ _ _ _ => simp [PublicKey.tryFrom,bindingKey.size] at key
    | ok bindingKey =>
      have same := tryFromOk key
      subst same
      cases decoded : x.decode algoSlice with
      | error text =>
        refine .refused (by decide) (fun record pubKey made => ?_)
        obtain ⟨suite,decoded',_⟩ := madeKem made
        cases decoded.symm.trans decoded'
      | ok suite =>
        cases made : KeyRecord.createBoundKemKey x.bssl suite bindingKey expirySecs entropy now with
        | error fault =>
          simp only [generateKemKeypairInternal,made]
          refine .refused (ffiCallFault (KeyRecord.kemHonest made)) (fun record pubKey made' => ?_)
          obtain ⟨suite',decoded',created,_⟩ := madeKem made'
          cases Except.ok.inj (decoded.symm.trans decoded')
          cases made.symm.trans created
        | ok record =>
          obtain ⟨pubKey,created,spec,out⟩ := generatedInternal keys made
          simp only [out]
          have makes : Makes x now entropy expirySecs (some algoSlice) (some bindingKey.bytes) (some uuid)
              (some pubkeySlice) record pubKey :=
            .mk (fun none => given (.inr (List.length_eq_zero_iff.mpr none))) decoded made spec
          split
          · rename_i size
            exact .stranded makes rfl (by rw [← pubKey.size]; exact size)
          · rename_i size
            exact .stored makes rfl (by rw [← pubKey.size]; exact not_not.mp size)
  · rename_i absent
    refine .refused (by decide) (fun record pubKey made => ?_)
    cases made with
    | mk _ _ _ _ => exact absent _ _ _ _ rfl rfl rfl rfl

theorem generatedKem (x : Externals) (keys : KeyRegistry) (now : Nat) (entropy : Entropy) (algo : HpkeAlgorithm)
    (bindingPubKey : Bytes) (lifespanSecs : UInt64) :
    Generated x keys now entropy algo bindingPubKey lifespanSecs
      (generateKEMKeypair x keys now entropy algo bindingPubKey lifespanSecs) := by
  simp only [generateKEMKeypair]
  split
  · exact .failed _
  split
  · exact .failed .panic
  have issued := issuedKem x keys now entropy (some (x.marshal algo)) (some bindingPubKey) lifespanSecs (some 0)
    (some (List.replicate kemPubKeySize 0))
  generalize keyManagerGenerateKemKeypair x keys now entropy (some (x.marshal algo)) (some bindingPubKey) lifespanSecs
    (some 0) (some (List.replicate kemPubKeySize 0)) = out at issued
  cases issued with
  | refused failure unmade =>
    simp only [Status.toStatus,if_neg failure]
    exact .failed _
  | stranded made buffer size =>
    cases Option.some.inj buffer
    exact absurd List.length_replicate size
  | @stored record pubKey slice made buffer fits =>
    generalize binding : some bindingPubKey = bindingPtr at made
    cases made with
    | @mk _ suite bindingKey _ _ _ _ given decoded created spec =>
      obtain ⟨pubKey',fixed,spec'⟩ := KeyRecord.createdKem created
      cases spec.symm.trans spec'
      exact .stored suite pubKey bindingKey record (Option.some.inj binding).symm decoded fixed spec

theorem destroyedKem (keys : KeyRegistry) (kemUUID : Uuid) :
    destroyKEMKey keys kemUUID =
      (if (keys.lookup kemUUID).isSome then none else some (.ffi .notFound),keys.erase kemUUID) := by
  simp only [destroyKEMKey,keyManagerDestroyKemKey,destroyedByUuid]
  split <;> rfl

theorem decapAndSealInternalOk {c keys now entropy uuid encapsulatedKey aad encLen ctLen enc ct}
    (ok : decapAndSealInternal c keys now entropy uuid encapsulatedKey aad encLen ctLen = .ok (enc,ct)) :
    ∃ record algo pubKey bindingKey secret, getKey keys now uuid = some record ∧
      record.metadata.spec = .kemWithBindingPub algo pubKey bindingKey ∧
      Crypto.decapsInternal c record.privateKey encapsulatedKey = .ok secret ∧
      Crypto.hpkeSealInternal c bindingKey secret aad algo entropy = .ok (enc,ct) ∧
      encLen = enc.length ∧ ctLen = ct.length := by
  unfold decapAndSealInternal at ok
  split at ok <;> try contradiction
  rename_i record found
  split at ok <;> try contradiction
  rename_i algo pubKey bindingKey spec
  cases decapsed : Crypto.decapsInternal c record.privateKey encapsulatedKey with
  | error fault => simp [decapsed,bind,Except.bind] at ok
  | ok secret =>
    cases sealing : Crypto.hpkeSealInternal c bindingKey secret aad algo entropy with
    | error fault => simp [decapsed,sealing,bind,Except.bind] at ok
    | ok pair =>
      simp only [decapsed,sealing,bind,Except.bind] at ok
      split at ok <;> try contradiction
      rename_i sizes
      cases Except.ok.inj ok
      obtain ⟨encSize,ctSize⟩ := not_or.mp sizes
      exact ⟨record,algo,pubKey,bindingKey,secret,found,spec,decapsed,sealing,not_not.mp encSize,
        not_not.mp ctSize⟩

theorem decapAndSealHonest (c : Bssl) (keys : KeyRegistry) (now : Nat) (entropy : Bytes) (uuid : Uuid)
    (encapsulatedKey aad : Bytes) (encLen ctLen : Nat) :
    Honest (decapAndSealInternal c keys now entropy uuid encapsulatedKey aad encLen ctLen) := by
  unfold decapAndSealInternal
  split
  · simp [Honest]
  rename_i record found
  split
  · simp [Honest]
  rename_i algo pubKey bindingKey spec
  refine honestBind (Crypto.decapsHonest c record.privateKey encapsulatedKey) (fun secret => ?_)
  refine honestBind (Crypto.sealHonest c bindingKey secret aad algo entropy) (fun pair => ?_)
  simp only [Honest]
  split <;> simp

/- An empty aad goes over as a null pointer and is read as an empty slice. -/
theorem decapAndSealEq (x : Externals) (keys : KeyRegistry) (now : Nat) (entropy : Bytes) (kemUUID : Uuid)
    {encapsulatedKey : Bytes} (aad : Bytes) (given : encapsulatedKey ≠ []) :
    decapAndSeal x keys now entropy kemUUID encapsulatedKey aad =
      match decapAndSealInternal x.bssl keys now entropy kemUUID encapsulatedKey aad 32 48 with
      | .ok (enc,ct) => .ok (enc,ct)
      | .error fault => failed (.ffi (ffiCall (.error fault))) := by
  have length : ¬ encapsulatedKey.length = 0 := by simpa using given
  have aadSame : (if aad.length > 0 then some aad else none).getD [] = aad := by
    cases aad <;> simp
  have honest := decapAndSealHonest x.bssl keys now entropy kemUUID encapsulatedKey aad 32 48
  have buffers : ¬ (encapsulatedKey.length = 0 ∨ encKeySize = 0 ∨ sealedCTSize = 0) := by
    simp [length,encKeySize,sealedCTSize]
  simp only [decapAndSeal,if_neg length,keyManagerDecapAndSeal,List.length_replicate,if_neg buffers,aadSame]
  simp only [encKeySize,sealedCTSize]
  cases made : decapAndSealInternal x.bssl keys now entropy kemUUID encapsulatedKey aad 32 48 with
  | error fault =>
    rw [made] at honest
    have failure := ffiCallFault (fun same => honest (congrArg Except.error same))
    simp only [Status.toStatus,if_neg failure]
  | ok pair => simp [Status.toStatus]

theorem decapAndSealVisible {x : Externals} {keys keys' : KeyRegistry} {now : Nat} {kemUUID : Uuid}
    (same : getKey keys now kemUUID = getKey keys' now kemUUID) (entropy encapsulatedKey aad : Bytes) :
    decapAndSeal x keys now entropy kemUUID encapsulatedKey aad =
      decapAndSeal x keys' now entropy kemUUID encapsulatedKey aad := by
  simp only [decapAndSeal,keyManagerDecapAndSeal,decapAndSealInternal,same]

theorem decapAndSealOk {x keys now entropy kemUUID encapsulatedKey aad enc ct}
    (ok : decapAndSeal x keys now entropy kemUUID encapsulatedKey aad = .ok (enc,ct)) :
    ∃ record algo pubKey bindingKey secret, getKey keys now kemUUID = some record ∧
      record.metadata.spec = .kemWithBindingPub algo pubKey bindingKey ∧
      Crypto.decapsInternal x.bssl record.privateKey encapsulatedKey = .ok secret ∧
      Crypto.hpkeSealInternal x.bssl bindingKey secret aad algo entropy = .ok (enc,ct) ∧
      enc ≠ [] ∧ ct ≠ [] := by
  have given : encapsulatedKey ≠ [] := by
    intro empty
    simp [decapAndSeal,empty,failed] at ok
  rw [decapAndSealEq x keys now entropy kemUUID aad given] at ok
  split at ok <;> try contradiction
  rename_i enc' ct' made
  cases Except.ok.inj ok
  obtain ⟨record,algo,pubKey,bindingKey,secret,found,spec,decapsed,sealing,encSize,ctSize⟩ :=
    decapAndSealInternalOk made
  refine ⟨record,algo,pubKey,bindingKey,secret,found,spec,decapsed,sealing,?_,?_⟩
  · intro empty
    simp [empty] at encSize
  · intro empty
    simp [empty] at ctSize

theorem decapsAndSeals {x : Externals} {keys now entropy kemUUID encapsulatedKey aad enc ct record algo pubKey
      bindingKey secret} (found : getKey keys now kemUUID = some record)
    (spec : record.metadata.spec = .kemWithBindingPub algo pubKey bindingKey) (given : encapsulatedKey ≠ [])
    (decapsed : Crypto.decapsInternal x.bssl record.privateKey encapsulatedKey = .ok secret)
    (sealing : Crypto.hpkeSealInternal x.bssl bindingKey secret aad algo entropy = .ok (enc,ct))
    (encSize : enc.length = 32) (ctSize : ct.length = 48) :
    decapAndSeal x keys now entropy kemUUID encapsulatedKey aad = .ok (enc,ct) := by
  rw [decapAndSealEq x keys now entropy kemUUID aad given]
  simp [decapAndSealInternal,found,spec,decapsed,sealing,encSize,ctSize,bind,Except.bind]

theorem getKemInternal {keys now later uuid algo key bindingKey remaining}
    (ok : getKemKeyInternal keys now later uuid = .ok (algo,key,bindingKey,remaining)) :
    ∃ record, getKey keys now uuid = some record ∧
      record.metadata.spec = .kemWithBindingPub algo key bindingKey := by
  unfold getKemKeyInternal at ok
  split at ok <;> try contradiction
  rename_i record found
  split at ok <;> try contradiction
  rename_i spec
  cases Except.ok.inj ok
  exact ⟨record,found,spec⟩

theorem getKemHonest (keys : KeyRegistry) (now later : Nat) (uuid : Uuid) :
    Honest (getKemKeyInternal keys now later uuid) := by
  unfold getKemKeyInternal Honest
  split
  · simp
  split <;> simp

theorem gotKEMKey {x keys now later id info} (ok : getKEMKey x keys now later id = .ok info) :
    ∃ record suite key bindingKey, getKey keys now id = some record ∧
      record.metadata.spec = .kemWithBindingPub suite key bindingKey ∧ info.kemPubKey = key.bytes ∧
      info.bindingPubKey = bindingKey.bytes ∧ x.decode (x.marshal suite) = .ok info.algo := by
  have honest := getKemHonest keys now later id
  simp only [getKEMKey,keyManagerGetKemKey,kemPubKeySize,List.length_replicate,
    if_neg (show ¬ (32 = 0 ∨ 32 = 0) by decide)] at ok
  cases got : getKemKeyInternal keys now later id with
  | error fault =>
    rw [got] at honest ok
    have failure := ffiCallFault (fun same => honest (congrArg Except.error same))
    simp only [Status.toStatus,if_neg failure] at ok
    contradiction
  | ok found =>
    obtain ⟨suite,key,bindingKey,remaining⟩ := found
    obtain ⟨record,found,spec⟩ := getKemInternal got
    simp only [got] at ok
    by_cases tooSmall : 32 ≠ key.bytes.length ∨ 32 ≠ bindingKey.bytes.length ∨
        maxAlgorithmLen < (x.marshal suite).length
    · simp only [if_pos tooSmall,Status.toStatus] at ok
      contradiction
    simp only [if_neg tooSmall,Status.toStatus,if_true,Option.getD_some,sliceToLeft,bind,Except.bind] at ok
    split at ok <;> try contradiction
    rename_i algo decoded
    cases Except.ok.inj ok
    exact ⟨record,suite,key,bindingKey,found,spec,rfl,rfl,decoded⟩

end KeyProtection.KpsCore
