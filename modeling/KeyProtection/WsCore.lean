import KeyProtection.Ffi

/-! workload_service/key_custody_core: the Rust entry points of the binding key registry
and their Go wrappers, in the conventions of the KPS core. -/
namespace KeyProtection.WsCore
open KeyRegistry

def generateBindingKeypairInternal (c : Bssl) (keys : KeyRegistry) (now : Nat) (entropy : Entropy)
    (algo : HpkeAlgorithm) (expirySecs : UInt64) : Rust (Uuid × PublicKey) × KeyRegistry :=
  match KeyRecord.createBindingKey c algo expirySecs entropy now with
  | .error fault => (.error fault,keys)
  | .ok record =>
    match record.metadata.spec with
    | .binding _ bindingPublicKey => (.ok (record.metadata.id,bindingPublicKey),addKey keys record)
    | _ => (.error (.err .internalError),keys)

def keyManagerGenerateBindingKeypair (x : Externals) (keys : KeyRegistry) (now : Nat) (entropy : Entropy)
    (algoPtr : Option Bytes) (expirySecs : UInt64) (outUuid : Option Uuid) (outPubkey : Option Bytes) :
    KeypairOut :=
  let fail (status : Status) (keys : KeyRegistry) : KeypairOut := ⟨status,keys,outUuid,outPubkey⟩
  match outPubkey, outUuid, algoPtr with
  | some pubkeySlice, some _, some algoSlice =>
    if algoSlice.length = 0 then fail .invalidArgument keys
    else match x.decode algoSlice with
      | .error _ => fail .invalidArgument keys
      | .ok algo =>
        match generateBindingKeypairInternal x.bssl keys now entropy algo expirySecs with
        | (.error fault,keys') => fail (ffiCall (.error fault)) keys'
        | (.ok (id,pubkey),keys') =>
          if pubkeySlice.length ≠ pubkey.bytes.length then fail .invalidArgument keys'
          else ⟨.success,keys',some id,some pubkey.bytes⟩
  | _,_,_ => fail .invalidArgument keys

def bindingPubKeySize : Nat := 32
def sharedSecretSize : Nat := 32

def generateBindingKeypair (x : Externals) (keys : KeyRegistry) (now : Nat) (entropy : Entropy)
    (algo : HpkeAlgorithm) (lifespanSecs : UInt64) : Go (Uuid × Bytes) × KeyRegistry :=
  let algoBytes := x.marshal algo
  if algoBytes.length = 0 then (.error .panic,keys)
  else
    let out := keyManagerGenerateBindingKeypair x keys now entropy (some algoBytes) lifespanSecs (some 0)
      (some (List.replicate bindingPubKeySize 0))
    match out.status.toStatus with
    | some err => (failed err,out.keys)
    | none => (.ok (out.outUuid.getD 0,out.outPubkey.getD []),out.keys)

def keyManagerDestroyBindingKey (keys : KeyRegistry) (uuidBytes : Option Uuid) : Status × KeyRegistry :=
  destroyByUuid keys uuidBytes

def destroyBindingKey (keys : KeyRegistry) (bindingUUID : Uuid) : Option GoError × KeyRegistry :=
  let out := keyManagerDestroyBindingKey keys (some bindingUUID)
  (out.1.toStatus,out.2)

def keyManagerDestroyAllBindingKeys (keys : KeyRegistry) : Status × KeyRegistry :=
  (.success,removeAllKeys keys)

def destroyAllKeys (keys : KeyRegistry) : Option GoError × KeyRegistry :=
  let out := keyManagerDestroyAllBindingKeys keys
  (out.1.toStatus,out.2)

def openInternal (c : Bssl) (keys : KeyRegistry) (now : Nat) (uuid : Uuid) (enc ciphertext aad : Bytes) :
    Rust Bytes :=
  match getKey keys now uuid with
  | none => .error (.err .notFound)
  | some record =>
    match record.metadata.spec with
    | .binding algo _ => Crypto.hpkeOpenInternal c record.privateKey enc ciphertext aad algo
    | .kemWithBindingPub _ _ _ => .error (.err .internalError)

structure OpenOut where
  status : Status
  outPlaintext : Option Bytes

def keyManagerOpen (x : Externals) (keys : KeyRegistry) (now : Nat) (uuidBytes : Option Uuid)
    (enc ciphertext aad outPlaintext : Option Bytes) : OpenOut :=
  let fail (status : Status) : OpenOut := ⟨status,outPlaintext⟩
  match uuidBytes, enc, ciphertext, outPlaintext with
  | some uuid, some encSlice, some ctSlice, some outSlice =>
    if outSlice.length = 0 then fail .invalidArgument
    else match openInternal x.bssl keys now uuid encSlice ctSlice (aad.getD []) with
      | .error fault => fail (ffiCall (.error fault))
      | .ok pt => if outSlice.length ≠ pt.length then fail .invalidArgument else ⟨.success,some pt⟩
  | _,_,_,_ => fail .invalidArgument

/- An empty aad is passed as a sentinel pointer with length 0. -/
def openSecret (x : Externals) (keys : KeyRegistry) (now : Nat) (bindingUUID : Uuid)
    (enc ciphertext aad : Bytes) : Go Bytes :=
  if enc.length = 0 then failed (.plain "enc must not be empty")
  else if ciphertext.length = 0 then failed (.plain "ciphertext must not be empty")
  else
    let out := keyManagerOpen x keys now (some bindingUUID) (some enc) (some ciphertext) (some aad)
      (some (List.replicate sharedSecretSize 0))
    match out.status.toStatus with
    | some err => failed err
    | none => .ok (out.outPlaintext.getD [])

def getBindingKeyInternal (keys : KeyRegistry) (now : Nat) (uuid : Uuid) : Rust (HpkeAlgorithm × PublicKey) :=
  match getKey keys now uuid with
  | none => .error (.err .notFound)
  | some record =>
    match record.metadata.spec with
    | .binding algo bindingPublicKey => .ok (algo,bindingPublicKey)
    | .kemWithBindingPub _ _ _ => .error (.err .internalError)

structure BindingOut where
  status : Status
  outPubkey : Option Bytes
  outAlgo : Option Bytes
  outAlgoLen : Option Nat

def keyManagerGetBindingKey (x : Externals) (keys : KeyRegistry) (now : Nat) (uuidBytes : Option Uuid)
    (outPubkey outAlgo : Option Bytes) (outAlgoLen : Option Nat) : BindingOut :=
  let fail (status : Status) : BindingOut := ⟨status,outPubkey,outAlgo,outAlgoLen⟩
  match uuidBytes, outPubkey, outAlgo, outAlgoLen with
  | some uuid, some pubkeySlice, some algoSlice, some algoLen =>
    if pubkeySlice.length = 0 then fail .invalidArgument
    else match getBindingKeyInternal keys now uuid with
      | .error fault => fail (ffiCall (.error fault))
      | .ok (algo,pubkey) =>
        let algoBytes := x.marshal algo
        if pubkeySlice.length ≠ pubkey.bytes.length ∨ algoLen < algoBytes.length then fail .invalidArgument
        else ⟨.success,some pubkey.bytes,some (algoBytes ++ algoSlice.drop algoBytes.length),
          some algoBytes.length⟩
  | _,_,_,_ => fail .invalidArgument

def getBindingKey (x : Externals) (keys : KeyRegistry) (now : Nat) (id : Uuid) : Go (Bytes × HpkeAlgorithm) :=
  let out := keyManagerGetBindingKey x keys now (some id) (some (List.replicate bindingPubKeySize 0))
    (some (List.replicate maxAlgorithmLen 0)) (some maxAlgorithmLen)
  match out.status.toStatus with
  | some err => failed err
  | none => do
    let algoBytes ← sliceTo (out.outAlgo.getD []) (out.outAlgoLen.getD 0)
    match x.decode algoBytes with
    | .error text => failed (.plain ("failed to unmarshal HpkeAlgorithm: " ++ text))
    | .ok algo => .ok (out.outPubkey.getD [],algo)

structure WsKeyInfo where
  uuid : Uuid
  algorithm : Bytes
  algorithmLen : Nat
  pubKey : Bytes
  pubKeyLen : Nat
  remainingLifespanSecs : Nat
  deriving DecidableEq, Repr

def WsKeyInfo.zero : WsKeyInfo :=
  ⟨0,List.replicate maxAlgorithmLen 0,0,List.replicate maxPublicKeyLen 0,0,0⟩

def fillEntry (x : Externals) (info : KeyMetadata) (now : Nat) : Rust WsKeyInfo :=
  match info.spec with
  | .kemWithBindingPub _ _ _ => .error (.err .internalError)
  | .binding algo pubKey =>
    let algoBytes := x.marshal algo
    if pubKey.bytes.length > maxPublicKeyLen ∨ algoBytes.length > maxAlgorithmLen then
      .error (.err .internalError)
    else .ok ⟨info.id,copyInto WsKeyInfo.zero.algorithm algoBytes,algoBytes.length,
      copyInto WsKeyInfo.zero.pubKey pubKey.bytes,pubKey.bytes.length,remainingSecs info.deleteAfter now⟩

def enumerateBindingKeysInternal (x : Externals) (keys : KeyRegistry) (now : Nat) (readings : Nat → Nat)
    (entries : List WsKeyInfo) (offset : Nat) : Rust (Nat × Bool) × List WsKeyInfo :=
  enumerateInternal (fillEntry x) keys now readings entries offset

def keyManagerEnumerateBindingKeys (x : Externals) (keys : KeyRegistry) (now : Nat) (readings : Nat → Nat)
    (outEntries : Option (List WsKeyInfo)) (offset : Nat) (outHasMore : Option Bool) : EnumerateOut WsKeyInfo :=
  keyManagerEnumerate (fillEntry x) keys now readings outEntries offset outHasMore

/-! What each wrapper can do, said once. -/

/- One call either fails and stores nothing, or stores one new record and returns its id
and public key. The suite is what the custody core decodes, not what the caller meant. -/
inductive Generated (x : Externals) (keys : KeyRegistry) (now : Nat) (entropy : Entropy)
    (algo : HpkeAlgorithm) (lifespanSecs : UInt64) : Go (Uuid × Bytes) × KeyRegistry → Prop where
  | failed (fault : GoFault) : Generated x keys now entropy algo lifespanSecs (.error fault,keys)
  | stored (suite : HpkeAlgorithm) (pubKey : PublicKey) (record : KeyRecord)
      (decoded : x.decode (x.marshal algo) = .ok suite)
      (created : KeyRecord.Created x.bssl suite lifespanSecs entropy now pubKey record)
      (spec : record.metadata.spec = .binding suite pubKey) :
      Generated x keys now entropy algo lifespanSecs (.ok (record.id,pubKey.bytes),addKey keys record)

theorem generatedInternal {c now entropy algo expirySecs record} (keys : KeyRegistry)
    (ok : KeyRecord.createBindingKey c algo expirySecs entropy now = .ok record) :
    ∃ pubKey, KeyRecord.Created c algo expirySecs entropy now pubKey record ∧
      record.metadata.spec = .binding algo pubKey ∧
      generateBindingKeypairInternal c keys now entropy algo expirySecs =
        (.ok (record.id,pubKey),addKey keys record) := by
  obtain ⟨pubKey,created,spec⟩ := KeyRecord.createdBinding ok
  refine ⟨pubKey,created,spec,?_⟩
  simp only [generateBindingKeypairInternal,ok,spec]
  rfl

inductive Makes (x : Externals) (now : Nat) (entropy : Entropy) (expirySecs : UInt64) :
    Option Bytes → Option Uuid → Option Bytes → KeyRecord → PublicKey → Prop where
  | mk {algoSlice suite uuid slice record pubKey} (given : algoSlice ≠ []) (decoded : x.decode algoSlice = .ok suite)
      (created : KeyRecord.createBindingKey x.bssl suite expirySecs entropy now = .ok record)
      (spec : record.metadata.spec = .binding suite pubKey) :
      Makes x now entropy expirySecs (some algoSlice) (some uuid) (some slice) record pubKey

theorem issuedBinding (x : Externals) (keys : KeyRegistry) (now : Nat) (entropy : Entropy) (algoPtr : Option Bytes)
    (expirySecs : UInt64) (outUuid : Option Uuid) (outPubkey : Option Bytes) :
    Issued keys outUuid outPubkey (Makes x now entropy expirySecs algoPtr outUuid outPubkey)
      (keyManagerGenerateBindingKeypair x keys now entropy algoPtr expirySecs outUuid outPubkey) := by
  unfold keyManagerGenerateBindingKeypair
  simp only
  split
  · rename_i pubkeySlice uuid algoSlice
    split
    · rename_i empty
      refine .refused (by decide) (fun record pubKey made => ?_)
      cases made with
      | mk given _ _ _ => exact given (List.length_eq_zero_iff.mp empty)
    rename_i given
    cases decoded : x.decode algoSlice with
    | error text =>
      refine .refused (by decide) (fun record pubKey made => ?_)
      cases made with
      | mk _ decoded' _ _ => exact (nomatch decoded.symm.trans decoded')
    | ok suite =>
      cases made : KeyRecord.createBindingKey x.bssl suite expirySecs entropy now with
      | error fault =>
        simp only [generateBindingKeypairInternal,made]
        refine .refused (ffiCallFault (KeyRecord.bindingHonest made)) (fun record pubKey made' => ?_)
        cases made' with
        | mk _ decoded' created _ =>
          cases Except.ok.inj (decoded.symm.trans decoded')
          exact (nomatch made.symm.trans created)
      | ok record =>
        obtain ⟨pubKey,created,spec,out⟩ := generatedInternal keys made
        simp only [out]
        have makes : Makes x now entropy expirySecs (some algoSlice) (some uuid) (some pubkeySlice) record pubKey :=
          .mk (fun none => given (List.length_eq_zero_iff.mpr none)) decoded made spec
        split
        · rename_i size
          exact .stranded makes rfl (by rw [← pubKey.size]; exact size)
        · rename_i size
          exact .stored makes rfl (by rw [← pubKey.size]; exact not_not.mp size)
  · rename_i absent
    refine .refused (by decide) (fun record pubKey made => ?_)
    cases made with
    | mk _ _ _ _ => exact absent _ _ _ rfl rfl rfl

theorem generatedBinding (x : Externals) (keys : KeyRegistry) (now : Nat) (entropy : Entropy)
    (algo : HpkeAlgorithm) (lifespanSecs : UInt64) :
    Generated x keys now entropy algo lifespanSecs
      (generateBindingKeypair x keys now entropy algo lifespanSecs) := by
  simp only [generateBindingKeypair]
  split
  · exact .failed .panic
  have issued := issuedBinding x keys now entropy (some (x.marshal algo)) lifespanSecs (some 0)
    (some (List.replicate bindingPubKeySize 0))
  generalize keyManagerGenerateBindingKeypair x keys now entropy (some (x.marshal algo)) lifespanSecs (some 0)
    (some (List.replicate bindingPubKeySize 0)) = out at issued
  cases issued with
  | refused failure unmade =>
    simp only [Status.toStatus,if_neg failure]
    exact .failed _
  | stranded made buffer size =>
    cases Option.some.inj buffer
    exact absurd List.length_replicate size
  | @stored record pubKey slice made buffer fits =>
    cases made with
    | @mk _ suite _ _ _ _ given decoded created spec =>
      obtain ⟨pubKey',fixed,spec'⟩ := KeyRecord.createdBinding created
      cases spec.symm.trans spec'
      exact .stored suite pubKey record decoded fixed spec

theorem generatesBinding {x : Externals} (laws : x.Lawful) (keys : KeyRegistry) {now : Nat} {entropy : Entropy}
    {algo : HpkeAlgorithm} (suite : algo.Supported) {lifespanSecs : UInt64} {deleteAfter : Nat}
    (vault : entropy.vault = true) (deadline : checkedAdd now lifespanSecs = some deleteAfter) :
    ∃ record pubKey, record.id = entropy.uuid ∧ record.deleteAfter = deleteAfter ∧
      generateBindingKeypair x keys now entropy algo lifespanSecs =
        (.ok (record.id,pubKey),addKey keys record) := by
  obtain ⟨record,made⟩ := KeyRecord.createsInternal laws.bssl suite (fun algo pubKey => .binding algo pubKey)
    vault deadline
  obtain ⟨pubKey,created,spec,out⟩ := generatedInternal keys made
  have nonempty : ¬ (x.marshal algo).length = 0 := by
    rw [List.length_eq_zero_iff,laws.emptyOnDefault,supportedSuite.mp suite]
    decide
  have size : ¬ (List.replicate bindingPubKeySize (0 : UInt8)).length ≠ pubKey.bytes.length := by
    simp [bindingPubKeySize,pubKey.size]
  refine ⟨record,pubKey.bytes,created.id,Option.some.inj (created.deadline.symm.trans deadline),?_⟩
  simp only [generateBindingKeypair,keyManagerGenerateBindingKeypair,if_neg nonempty,laws.decodes,out,if_neg size]
  rfl

theorem destroyedBinding (keys : KeyRegistry) (bindingUUID : Uuid) :
    destroyBindingKey keys bindingUUID =
      (if (keys.lookup bindingUUID).isSome then none else some (.ffi .notFound),keys.erase bindingUUID) := by
  simp only [destroyBindingKey,keyManagerDestroyBindingKey,destroyedByUuid]
  split <;> rfl

theorem openInternalHonest (c : Bssl) (keys : KeyRegistry) (now : Nat) (uuid : Uuid) (enc ciphertext aad : Bytes) :
    Honest (openInternal c keys now uuid enc ciphertext aad) := by
  unfold openInternal
  split
  · simp [Honest]
  split
  · exact Crypto.openHonest _ _ _ _ _ _
  · simp [Honest]

theorem openSecretEq (x : Externals) (keys : KeyRegistry) (now : Nat) (bindingUUID : Uuid)
    {enc ciphertext : Bytes} (aad : Bytes) (encGiven : enc ≠ []) (ciphertextGiven : ciphertext ≠ []) :
    openSecret x keys now bindingUUID enc ciphertext aad =
      match openInternal x.bssl keys now bindingUUID enc ciphertext aad with
      | .ok plaintext => if plaintext.length = 32 then .ok plaintext else failed (.ffi .invalidArgument)
      | .error fault => failed (.ffi (ffiCall (.error fault))) := by
  have encLength : ¬ enc.length = 0 := by simpa using encGiven
  have ciphertextLength : ¬ ciphertext.length = 0 := by simpa using ciphertextGiven
  have honest := openInternalHonest x.bssl keys now bindingUUID enc ciphertext aad
  simp only [openSecret,if_neg encLength,if_neg ciphertextLength,keyManagerOpen,sharedSecretSize,Option.getD_some,
    List.length_replicate,if_neg (show ¬ 32 = 0 by decide)]
  cases opened : openInternal x.bssl keys now bindingUUID enc ciphertext aad with
  | error fault =>
    rw [opened] at honest
    have failure := ffiCallFault (fun same => honest (congrArg Except.error same))
    simp only [Status.toStatus,if_neg failure]
  | ok plaintext =>
    by_cases size : plaintext.length = 32
    · simp [size,Status.toStatus]
    · have other : 32 ≠ plaintext.length := fun same => size same.symm
      simp [size,other,Status.toStatus]

theorem openSecretNonempty {x keys now bindingUUID enc ciphertext aad plaintext}
    (ok : openSecret x keys now bindingUUID enc ciphertext aad = .ok plaintext) : enc ≠ [] ∧ ciphertext ≠ [] := by
  unfold openSecret at ok
  split at ok <;> try contradiction
  split at ok <;> try contradiction
  rename_i encLength ciphertextLength
  exact ⟨by simpa using encLength,by simpa using ciphertextLength⟩

theorem openedSecret {x keys now bindingUUID enc ciphertext aad plaintext}
    (ok : openSecret x keys now bindingUUID enc ciphertext aad = .ok plaintext) :
    ∃ record algo pubKey, getKey keys now bindingUUID = some record ∧
      record.metadata.spec = .binding algo pubKey ∧
      Crypto.hpkeOpenInternal x.bssl record.privateKey enc ciphertext aad algo = .ok plaintext := by
  obtain ⟨encGiven,ciphertextGiven⟩ := openSecretNonempty ok
  rw [openSecretEq x keys now bindingUUID aad encGiven ciphertextGiven] at ok
  split at ok <;> try contradiction
  rename_i opened
  split at ok <;> try contradiction
  cases Except.ok.inj ok
  unfold openInternal at opened
  split at opened <;> try contradiction
  rename_i record found
  split at opened <;> try contradiction
  rename_i algo pubKey spec
  exact ⟨record,algo,pubKey,found,spec,opened⟩

theorem opensSecret {x : Externals} {keys now bindingUUID record algo pubKey enc ciphertext aad plaintext}
    (found : getKey keys now bindingUUID = some record) (spec : record.metadata.spec = .binding algo pubKey)
    (encGiven : enc ≠ []) (ciphertextGiven : ciphertext ≠ []) (size : plaintext.length = 32)
    (opened : Crypto.hpkeOpenInternal x.bssl record.privateKey enc ciphertext aad algo = .ok plaintext) :
    openSecret x keys now bindingUUID enc ciphertext aad = .ok plaintext := by
  rw [openSecretEq x keys now bindingUUID aad encGiven ciphertextGiven]
  simp only [openInternal,found,spec,opened,size,if_true]

theorem openVisible {x : Externals} {keys keys' : KeyRegistry} {now : Nat} {bindingUUID : Uuid}
    (same : getKey keys now bindingUUID = getKey keys' now bindingUUID) (enc ciphertext aad : Bytes) :
    openSecret x keys now bindingUUID enc ciphertext aad = openSecret x keys' now bindingUUID enc ciphertext aad := by
  simp only [openSecret,keyManagerOpen,openInternal,same]

theorem openMissing {x : Externals} {keys now bindingUUID enc ciphertext} (aad : Bytes)
    (missing : getKey keys now bindingUUID = none) (encGiven : enc ≠ []) (ciphertextGiven : ciphertext ≠ []) :
    openSecret x keys now bindingUUID enc ciphertext aad = failed (.ffi .notFound) := by
  rw [openSecretEq x keys now bindingUUID aad encGiven ciphertextGiven]
  simp only [openInternal,missing,ffiCall]

theorem getBindingInternal {keys now uuid algo key} (ok : getBindingKeyInternal keys now uuid = .ok (algo,key)) :
    ∃ record, getKey keys now uuid = some record ∧ record.metadata.spec = .binding algo key := by
  unfold getBindingKeyInternal at ok
  split at ok <;> try contradiction
  rename_i record found
  split at ok <;> try contradiction
  rename_i spec
  cases Except.ok.inj ok
  exact ⟨record,found,spec⟩

theorem getBindingHonest (keys : KeyRegistry) (now : Nat) (uuid : Uuid) :
    Honest (getBindingKeyInternal keys now uuid) := by
  unfold getBindingKeyInternal Honest
  split
  · simp
  split <;> simp

theorem gotBindingKey {x keys now id pubKey algo} (ok : getBindingKey x keys now id = .ok (pubKey,algo)) :
    ∃ record suite key, getKey keys now id = some record ∧ record.metadata.spec = .binding suite key ∧
      pubKey = key.bytes ∧ x.decode (x.marshal suite) = .ok algo := by
  have honest := getBindingHonest keys now id
  simp only [getBindingKey,keyManagerGetBindingKey,bindingPubKeySize,List.length_replicate,
    if_neg (show ¬ 32 = 0 by decide)] at ok
  cases got : getBindingKeyInternal keys now id with
  | error fault =>
    rw [got] at honest ok
    have failure := ffiCallFault (fun same => honest (congrArg Except.error same))
    simp only [Status.toStatus,if_neg failure] at ok
    contradiction
  | ok pair =>
    obtain ⟨suite,key⟩ := pair
    obtain ⟨record,found,spec⟩ := getBindingInternal got
    simp only [got] at ok
    by_cases tooSmall : 32 ≠ key.bytes.length ∨ maxAlgorithmLen < (x.marshal suite).length
    · simp only [if_pos tooSmall,Status.toStatus] at ok
      contradiction
    simp only [if_neg tooSmall,Status.toStatus,if_true,Option.getD_some,sliceToLeft,bind,Except.bind] at ok
    split at ok <;> try contradiction
    rename_i algo' decoded
    cases Except.ok.inj ok
    exact ⟨record,suite,key,found,spec,rfl,decoded⟩

end KeyProtection.WsCore
