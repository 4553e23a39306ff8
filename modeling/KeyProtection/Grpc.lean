import KeyProtection.Server
import KeyProtection.Standin
import Mathlib.Data.List.Find

/-! key_protection_service/grpc_server.go: the request messages, the validation in front of
the handlers, and the handlers over the custody core. A message field that may be absent
is an option; a KeyHandle message is the handle it holds. protovalidate reads `required` as
presence of the field. A panic in a handler ends the KPS process. -/
namespace KeyProtection

/- An order in which Go may range over the map ffiErrorToGrpcCode. -/
structure RangeOrder where
  rows : List (Status × Code)
  perm : rows.Perm ffiErrorToGrpcCode

def RangeOrder.grpcCodeFromError (order : RangeOrder) (err : GoError) : Code :=
  match order.rows.find? (fun row => err.is row.1) with
  | some row => row.2
  | none => .internal

def GoError.Solitary (err : GoError) : Prop := ∀ a b, err.is a = true → err.is b = true → a = b

theorem ffiSolitary (code : Status) : (GoError.ffi code).Solitary := by
  intro a b isA isB
  simp only [GoError.is,beq_iff_eq] at isA isB
  exact isA.symm.trans isB

theorem plainSolitary (text : String) : (GoError.plain text).Solitary := by
  intro a b isA
  simp [GoError.is] at isA

theorem wrapSolitary {err : GoError} (one : err.Solitary) (before : String) : (GoError.wrap before err).Solitary := one

theorem rangeOrderCode (order : RangeOrder) {err : GoError} (one : err.Solitary) :
    order.grpcCodeFromError err = grpcCodeFromError err := by
  have keyed : ∀ row ∈ ffiErrorToGrpcCode, ∀ other ∈ ffiErrorToGrpcCode, row.1 = other.1 → row = other := by decide
  have same : order.rows.find? (fun row => err.is row.1) = ffiErrorToGrpcCode.find? (fun row => err.is row.1) := by
    refine List.find?_eq_find?_of_perm order.perm (fun row left other right => ?_)
    exact keyed row (order.perm.mem_iff.mp left.1) other (order.perm.mem_iff.mp right.1) (one _ _ left.2 right.2)
  exact congrArg (fun found : Option (Status × Code) => match found with
    | some row => row.2
    | none => Code.internal) same

/-! The wrappers on any registry: but for one index expression they return, and their errors
carry one status at most. -/

inductive Sound {α : Type} : Go α → Prop where
  | ok (value : α) : Sound (.ok value)
  | failed {err : GoError} (one : err.Solitary) : Sound (failed err)

theorem soundFfi {α : Type} (status : Status) : Sound (failed (.ffi status) : Go α) := .failed (ffiSolitary status)

theorem soundPlain {α : Type} (text : String) : Sound (failed (.plain text) : Go α) := .failed (plainSolitary text)

theorem soundStatus {α : Type} (status : Status) {rest : Go α} (sound : status = .success → Sound rest) :
    Sound (match status.toStatus with
      | some err => failed err
      | none => rest) := by
  by_cases success : status = .success
  · rw [Status.toStatus,if_pos success]
    exact sound success
  · rw [Status.toStatus,if_neg success]
    exact soundFfi status

namespace KpsCore
variable {x : Externals} {keys : KeyRegistry} {now : Nat}

theorem decapAndSealSound (entropy : Bytes) (kemUUID : Uuid) (encapsulatedKey aad : Bytes) :
    Sound (decapAndSeal x keys now entropy kemUUID encapsulatedKey aad) := by
  unfold decapAndSeal
  split
  · exact soundPlain _
  · exact soundStatus _ (fun _ => .ok _)

theorem readEntriesSound (index : Nat) (entries : List KpsKeyInfo) : Sound (readEntries x index entries) := by
  induction entries generalizing index with
  | nil => exact .ok []
  | cons entry rest ih =>
    have tail := ih (index+1)
    simp only [readEntries]
    split
    · exact .failed (wrapSolitary (plainSolitary _) _)
    · generalize readEntries x (index+1) rest = read at tail
      cases tail with
      | ok infos => exact .ok _
      | failed one => exact .failed one

theorem enumerateSound (readings : Nat → Nat) (limit offset : Int32) :
    Sound (enumerateKEMKeys x keys now readings limit offset) := by
  unfold enumerateKEMKeys
  split
  · exact soundPlain _
  split
  · exact soundPlain _
  have word := Int32.toInt_lt limit
  generalize called : keyManagerEnumerateKemKeys x keys now readings
    (some (List.replicate limit.toInt.toNat KpsKeyInfo.zero)) offset.toInt.toNat (some false) = out
  have bounded : out.result.toNat ≤ (out.outEntries.getD []).length := by
    rw [← called]
    refine enumerateBounded (fillEntry x) keys now readings ?_ offset.toInt.toNat (some false)
    rw [List.length_replicate]
    omega
  simp only
  split
  · exact soundStatus _ (fun _ => .ok _)
  · simp only [sliceTo,if_pos bounded,bind,Except.bind]
    have read := @readEntriesSound x 0 ((out.outEntries.getD []).take out.result.toNat)
    generalize readEntries x 0 ((out.outEntries.getD []).take out.result.toNat) = infos at read
    cases read with
    | ok infos => exact .ok _
    | failed one => exact .failed one

theorem getSound (later : Nat) (id : Uuid) : Sound (getKEMKey x keys now later id) := by
  simp only [getKEMKey,keyManagerGetKemKey,kemPubKeySize,List.length_replicate,
    if_neg (show ¬ (32 = 0 ∨ 32 = 0) by decide)]
  cases got : getKemKeyInternal keys now later id with
  | error fault =>
    have honest := getKemHonest keys now later id
    rw [got] at honest
    have failure := ffiCallFault (fun same => honest (congrArg Except.error same))
    exact soundStatus _ (fun success => absurd success failure)
  | ok found =>
    obtain ⟨suite,key,bindingKey,remaining⟩ := found
    by_cases tooSmall : 32 ≠ key.bytes.length ∨ 32 ≠ bindingKey.bytes.length ∨
        maxAlgorithmLen < (x.marshal suite).length
    · simp only [if_pos tooSmall]
      exact soundFfi _
    · simp only [if_neg tooSmall,Status.toStatus,if_true,Option.getD_some,sliceToLeft,bind,Except.bind]
      split
      · exact soundPlain _
      · exact .ok _

/- The one index expression without a length check in front of it. -/
theorem generatePanics (entropy : Entropy) {algo : HpkeAlgorithm} {bindingPubKey : Bytes} (lifespanSecs : UInt64)
    (given : bindingPubKey ≠ []) (empty : x.marshal algo = []) :
    generateKEMKeypair x keys now entropy algo bindingPubKey lifespanSecs = (.error .panic,keys) := by
  have length : ¬ bindingPubKey.length = 0 := fun none => given (List.length_eq_zero_iff.mp none)
  simp [generateKEMKeypair,length,empty]

theorem generateSound (entropy : Entropy) {algo : HpkeAlgorithm} {bindingPubKey : Bytes} (lifespanSecs : UInt64)
    (checked : ¬ (bindingPubKey ≠ [] ∧ x.marshal algo = [])) :
    Sound (generateKEMKeypair x keys now entropy algo bindingPubKey lifespanSecs).1 := by
  unfold generateKEMKeypair
  split
  · exact soundPlain _
  rename_i given
  simp only
  split
  · rename_i empty
    refine absurd ⟨fun none => given ?_,List.length_eq_zero_iff.mp empty⟩ checked
    exact List.length_eq_zero_iff.mpr none
  · split
    · rename_i err failure
      unfold Status.toStatus at failure
      split at failure <;> try contradiction
      cases Option.some.inj failure
      exact soundFfi _
    · exact .ok _

end KpsCore
namespace Kpspb

structure HpkePublicKey where
  algorithm : Option HpkeAlgorithm
  publicKey : Bytes
  deriving DecidableEq, Repr

structure KemPublicKey where
  algorithm : Int32
  publicKey : Bytes
  deriving DecidableEq, Repr

structure GenerateKEMKeypairRequest where
  algo : Option HpkeAlgorithm
  bindingPubKey : Option HpkePublicKey
  lifespanSecs : UInt64
  deriving DecidableEq, Repr

structure GenerateKEMKeypairResponse where
  keyHandle : Option String
  kemPubKey : Option KemPublicKey
  deriving DecidableEq, Repr

structure DecapAndSealRequest where
  keyHandle : Option String
  ciphertext : Option KemCiphertext
  aad : Bytes
  deriving DecidableEq, Repr

structure DecapAndSealResponse where
  sealEnc : Bytes
  sealedCt : Bytes
  deriving DecidableEq, Repr

structure EnumerateKEMKeysRequest where
  limit : Int32
  offset : Int32
  deriving DecidableEq, Repr

structure KEMKeyInfo where
  keyHandle : Option String
  algorithm : Option HpkeAlgorithm
  kemPubKey : Bytes
  remainingLifespanSecs : Nat
  deriving DecidableEq, Repr

structure EnumerateKEMKeysResponse where
  keys : List KEMKeyInfo
  hasMore : Bool
  deriving DecidableEq, Repr

structure DestroyKEMKeyRequest where
  keyHandle : Option String
  deriving DecidableEq, Repr

structure GetKEMKeyRequest where
  keyHandle : Option String
  deriving DecidableEq, Repr

structure GetKEMKeyResponse where
  kemPubKey : Option KemPublicKey
  bindingPubKey : Option HpkePublicKey
  remainingLifespanSecs : Nat
  deriving DecidableEq, Repr

/-! The fields that break a rule of api.proto. -/

def GenerateKEMKeypairRequest.violations (req : GenerateKEMKeypairRequest) : List String :=
  requiredField "algo" req.algo.isSome

def DecapAndSealRequest.violations (req : DecapAndSealRequest) : List String :=
  requiredField "key_handle" req.keyHandle.isSome

def EnumerateKEMKeysRequest.violations (req : EnumerateKEMKeysRequest) : List String :=
  (if 0 < req.limit ∧ req.limit ≤ 10000 then [] else ["limit"]) ++ (if 0 ≤ req.offset then [] else ["offset"])

def DestroyKEMKeyRequest.violations (req : DestroyKEMKeyRequest) : List String :=
  requiredField "key_handle" req.keyHandle.isSome

def GetKEMKeyRequest.violations (req : GetKEMKeyRequest) : List String :=
  requiredField "key_handle" req.keyHandle.isSome

end Kpspb

def validationInterceptor {α : Type} (x : Externals) (violations : List String) (keys : KeyRegistry)
    (handler : Go α × KeyRegistry) : Go α × KeyRegistry :=
  if violations.isEmpty then handler
  else (failed (.grpc .invalidArgument ("invalid request: " ++ x.violation violations)),keys)

namespace GrpcServer
open Kpspb

/- status.Errorf(grpcCodeFromError(err), ...) with the handler's own words in front. -/
def statusErrorf {α : Type} (order : RangeOrder) (before : String) : GoFault → Go α
  | .error err => failed (.grpc (order.grpcCodeFromError err) (before ++ err.text))
  | .panic => .error .panic

def invalidHandle {α : Type} (text : String) : Go α :=
  failed (.grpc .invalidArgument ("invalid KEM key handle: " ++ text))

variable (x : Externals) (order : RangeOrder) (keys : KeyRegistry) (now : Nat)

def generateKEMKeypair (entropy : Entropy) (req : GenerateKEMKeypairRequest) :
    Go GenerateKEMKeypairResponse × KeyRegistry :=
  let algo := req.algo.getD ⟨0,0,0⟩
  match KpsCore.generateKEMKeypair x keys now entropy algo ((req.bindingPubKey.map Kpspb.HpkePublicKey.publicKey).getD [])
    req.lifespanSecs with
  | (.error fault,keys') => (statusErrorf order "failed to generate KEM keypair: " fault,keys')
  | (.ok (id,pubKey),keys') => (.ok ⟨some (uuidString id),some ⟨algo.kem,pubKey⟩⟩,keys')

def decapAndSeal (entropy : Bytes) (req : DecapAndSealRequest) : Go DecapAndSealResponse × KeyRegistry :=
  match x.parse (req.keyHandle.getD "") with
  | .error text => (invalidHandle text,keys)
  | .ok kemUUID =>
    match KpsCore.decapAndSeal x keys now entropy kemUUID ((req.ciphertext.map KemCiphertext.ciphertext).getD [])
      req.aad with
    | .error fault => (statusErrorf order "failed to decap and seal: " fault,keys)
    | .ok (sealEnc,sealedCt) => (.ok ⟨sealEnc,sealedCt⟩,keys)

def enumerateKEMKeys (readings : Nat → Nat) (req : EnumerateKEMKeysRequest) :
    Go EnumerateKEMKeysResponse × KeyRegistry :=
  match KpsCore.enumerateKEMKeys x keys now readings req.limit req.offset with
  | .error fault => (statusErrorf order "failed to enumerate KEM keys: " fault,keys)
  | .ok (infos,hasMore) => (.ok ⟨infos.map (fun k => ⟨some (uuidString k.id),some k.algorithm,k.kemPubKey,
      k.remainingLifespanSecs⟩),hasMore⟩,keys)

def destroyKEMKey (req : DestroyKEMKeyRequest) : Go Unit × KeyRegistry :=
  match x.parse (req.keyHandle.getD "") with
  | .error text => (invalidHandle text,keys)
  | .ok kemUUID =>
    match KpsCore.destroyKEMKey keys kemUUID with
    | (some err,keys') => (statusErrorf order "failed to destroy KEM key: " (.error err),keys')
    | (none,keys') => (.ok (),keys')

def getKEMKey (later : Nat) (req : GetKEMKeyRequest) : Go GetKEMKeyResponse × KeyRegistry :=
  match x.parse (req.keyHandle.getD "") with
  | .error text => (invalidHandle text,keys)
  | .ok kemUUID =>
    match KpsCore.getKEMKey x keys now later kemUUID with
    | .error fault => (statusErrorf order "failed to get KEM key: " fault,keys)
    | .ok info => (.ok ⟨some ⟨info.algo.kem,info.kemPubKey⟩,some ⟨some info.algo,info.bindingPubKey⟩,
        info.remainingLifespanSecs⟩,keys)

end GrpcServer

/-! All requests that reach the custody core. -/

inductive KpsRequest where
  | generateKEMKeypair (req : Kpspb.GenerateKEMKeypairRequest)
  | decapAndSeal (req : Kpspb.DecapAndSealRequest)
  | enumerateKEMKeys (req : Kpspb.EnumerateKEMKeysRequest)
  | destroyKEMKey (req : Kpspb.DestroyKEMKeyRequest)
  | getKEMKey (req : Kpspb.GetKEMKeyRequest)
  deriving DecidableEq, Repr

inductive KpsResponse where
  | generateKEMKeypair (resp : Kpspb.GenerateKEMKeypairResponse)
  | decapAndSeal (resp : Kpspb.DecapAndSealResponse)
  | enumerateKEMKeys (resp : Kpspb.EnumerateKEMKeysResponse)
  | destroyKEMKey
  | getKEMKey (resp : Kpspb.GetKEMKeyResponse)
  deriving DecidableEq, Repr

def KpsRequest.violations : KpsRequest → List String
  | .generateKEMKeypair req => req.violations
  | .decapAndSeal req => req.violations
  | .enumerateKEMKeys req => req.violations
  | .destroyKEMKey req => req.violations
  | .getKEMKey req => req.violations

def KpsRequest.Admitted (req : KpsRequest) : Prop := req.violations = []

structure Moment where
  now : Nat
  later : Nat
  readings : Nat → Nat
  entropy : Entropy

def GrpcServer.handle (x : Externals) (order : RangeOrder) (keys : KeyRegistry) (m : Moment) : KpsRequest → Go KpsResponse
  | .generateKEMKeypair req =>
      (GrpcServer.generateKEMKeypair x order keys m.now m.entropy req).1.map KpsResponse.generateKEMKeypair
  | .decapAndSeal req => (GrpcServer.decapAndSeal x order keys m.now m.entropy.seed req).1.map KpsResponse.decapAndSeal
  | .enumerateKEMKeys req => (GrpcServer.enumerateKEMKeys x order keys m.now m.readings req).1.map KpsResponse.enumerateKEMKeys
  | .destroyKEMKey req => (GrpcServer.destroyKEMKey x order keys req).1.map (fun _ => KpsResponse.destroyKEMKey)
  | .getKEMKey req => (GrpcServer.getKEMKey x order keys m.now m.later req).1.map KpsResponse.getKEMKey

inductive Answers {α : Type} : Go α → Prop where
  | response (resp : α) : Answers (.ok resp)
  | status (code : Code) (text : String) : Answers (failed (.grpc code text))

theorem answersMap {α β : Type} (f : α → β) (r : Go α) : Answers (r.map f) ↔ Answers r := by
  cases r with
  | ok resp => exact ⟨fun _ => .response resp,fun _ => .response (f resp)⟩
  | error fault =>
    constructor
    · intro answers
      cases answers with
      | status code text => exact .status code text
    · intro answers
      cases answers with
      | status code text => exact .status code text

theorem statusAnswers {α β : Type} (order : RangeOrder) (before : String) {r : Go β} {fault : GoFault}
    (sound : Sound r) (failure : r = .error fault) : Answers (GrpcServer.statusErrorf order before fault : Go α) := by
  cases sound with
  | ok value => contradiction
  | failed one =>
    cases Except.error.inj failure
    exact .status _ _

def KpsRequest.Defaulted : KpsRequest → Prop
  | .generateKEMKeypair req => req.algo = some ⟨0,0,0⟩ ∧ (req.bindingPubKey.map Kpspb.HpkePublicKey.publicKey).getD [] ≠ []
  | _ => False

section
variable {x : Externals} (order : RangeOrder) (keys : KeyRegistry)

theorem generateAnswers (laws : x.Lawful) (now : Nat) (entropy : Entropy) {req : Kpspb.GenerateKEMKeypairRequest}
    (admitted : req.violations = []) :
    Answers (GrpcServer.generateKEMKeypair x order keys now entropy req).1 ↔
      ¬ (KpsRequest.generateKEMKeypair req).Defaulted := by
  obtain ⟨algo,present⟩ := Option.isSome_iff_exists.mp (requiredFieldMet.mp admitted)
  simp only [KpsRequest.Defaulted,present,Option.some.injEq]
  by_cases defaulted : algo = ⟨0,0,0⟩ ∧ (req.bindingPubKey.map Kpspb.HpkePublicKey.publicKey).getD [] ≠ []
  · have panics := @KpsCore.generatePanics x keys now entropy algo _ req.lifespanSecs defaulted.2
      ((laws.emptyOnDefault algo).mpr defaulted.1)
    refine ⟨fun answers => ?_,fun kept => absurd defaulted kept⟩
    simp only [GrpcServer.generateKEMKeypair,present,Option.getD_some,panics] at answers
    cases answers
  · refine ⟨fun _ => defaulted,fun _ => ?_⟩
    have sound := @KpsCore.generateSound x keys now entropy algo
      ((req.bindingPubKey.map Kpspb.HpkePublicKey.publicKey).getD []) req.lifespanSecs
      (fun unchecked => defaulted ⟨(laws.emptyOnDefault algo).mp unchecked.2,unchecked.1⟩)
    simp only [GrpcServer.generateKEMKeypair,present,Option.getD_some]
    split
    · rename_i fault keys' made
      exact statusAnswers order _ sound (congrArg Prod.fst made)
    · exact .response _

theorem decapAndSealAnswers (now : Nat) (entropy : Bytes) (req : Kpspb.DecapAndSealRequest) :
    Answers (GrpcServer.decapAndSeal x order keys now entropy req).1 := by
  unfold GrpcServer.decapAndSeal
  split
  · exact .status _ _
  split
  · rename_i kemUUID _ _ fault failure
    exact statusAnswers order _ (KpsCore.decapAndSealSound entropy kemUUID _ req.aad) failure
  · exact .response _

theorem enumerateAnswers (now : Nat) (readings : Nat → Nat) (req : Kpspb.EnumerateKEMKeysRequest) :
    Answers (GrpcServer.enumerateKEMKeys x order keys now readings req).1 := by
  unfold GrpcServer.enumerateKEMKeys
  split
  · rename_i fault failure
    exact statusAnswers order _ (KpsCore.enumerateSound readings req.limit req.offset) failure
  · exact .response _

theorem destroyAnswers (req : Kpspb.DestroyKEMKeyRequest) : Answers (GrpcServer.destroyKEMKey x order keys req).1 := by
  unfold GrpcServer.destroyKEMKey
  split
  · exact .status _ _
  split
  · exact .status _ _
  · exact .response _

theorem getAnswers (now later : Nat) (req : Kpspb.GetKEMKeyRequest) :
    Answers (GrpcServer.getKEMKey x order keys now later req).1 := by
  unfold GrpcServer.getKEMKey
  split
  · exact .status _ _
  split
  · rename_i kemUUID _ _ fault failure
    exact statusAnswers order _ (KpsCore.getSound later kemUUID) failure
  · exact .response _

/- In words: one kind of admitted request panics in its handler, and no other. -/
theorem admittedAnswers (laws : x.Lawful) (m : Moment) {req : KpsRequest} (admitted : req.Admitted) :
    Answers (GrpcServer.handle x order keys m req) ↔ ¬ req.Defaulted := by
  cases req with
  | generateKEMKeypair req =>
    simp only [GrpcServer.handle,answersMap]
    exact generateAnswers order keys laws m.now m.entropy admitted
  | decapAndSeal req =>
    simp only [GrpcServer.handle,answersMap,KpsRequest.Defaulted]
    exact ⟨fun _ never => never,fun _ => decapAndSealAnswers order keys m.now m.entropy.seed req⟩
  | enumerateKEMKeys req =>
    simp only [GrpcServer.handle,answersMap,KpsRequest.Defaulted]
    exact ⟨fun _ never => never,fun _ => enumerateAnswers order keys m.now m.readings req⟩
  | destroyKEMKey req =>
    simp only [GrpcServer.handle,answersMap,KpsRequest.Defaulted]
    exact ⟨fun _ never => never,fun _ => destroyAnswers order keys req⟩
  | getKEMKey req =>
    simp only [GrpcServer.handle,answersMap,KpsRequest.Defaulted]
    exact ⟨fun _ never => never,fun _ => getAnswers order keys m.now m.later req⟩

end

namespace Standin

def order : RangeOrder := ⟨ffiErrorToGrpcCode,.refl _⟩

def moment : Moment := ⟨0,0,fun _ => 0,entropy 1⟩

def generateMessage (algo : HpkeAlgorithm) : KpsRequest := .generateKEMKeypair ⟨some algo,some ⟨none,pad32 [7]⟩,3600⟩

end Standin

theorem admittedAnswersSuite :
    (Standin.generateMessage ⟨1,1,1⟩).Admitted ∧
    Answers (GrpcServer.handle Standin.externals Standin.order ∅ Standin.moment (Standin.generateMessage ⟨1,1,1⟩)) := by
  have admitted : (Standin.generateMessage ⟨1,1,1⟩).Admitted := rfl
  refine ⟨admitted,(admittedAnswers Standin.order ∅ Standin.lawful Standin.moment admitted).mpr (fun defaulted => ?_)⟩
  have same := Option.some.inj defaulted.1
  exact absurd same (by decide)

theorem defaultAlgorithmPanics :
    (Standin.generateMessage ⟨0,0,0⟩).Admitted ∧
    GrpcServer.handle Standin.externals Standin.order ∅ Standin.moment (Standin.generateMessage ⟨0,0,0⟩) = .error .panic ∧
    ¬ Answers (GrpcServer.handle Standin.externals Standin.order ∅ Standin.moment (Standin.generateMessage ⟨0,0,0⟩)) := by
  have panics : GrpcServer.handle Standin.externals Standin.order ∅ Standin.moment (Standin.generateMessage ⟨0,0,0⟩) =
      .error .panic := by rfl
  refine ⟨rfl,panics,fun answers => ?_⟩
  rw [panics] at answers
  nomatch answers

end KeyProtection
