import KeyProtection.Grpc

/-! The remote adapter of workload_service/server.go: every call of the custody core is put
into a request message, goes through the validation and the gRPC handler of the KPS, and
is read back from the response. The transport delivers messages as they are sent. Against
the in-process adapter, which calls the custody core directly, it changes only errors, and
those not in their HTTP status. -/
namespace KeyProtection
open Kpspb

namespace RemoteKeyProtectionService

/- The results of a failed RPC: the translated error, with zero values beside it. -/
def rpcFault {α : Type} (zero : α) : GoFault → Go α
  | .panic => .error .panic
  | .error err =>
    match ffiStatusFromGrpcError err with
    | some err' => failed err'
    | none => .ok zero

variable (x : Externals) (order : RangeOrder) (keys : KeyRegistry) (now : Nat)

def generateKEMKeypair (entropy : Entropy) (algo : HpkeAlgorithm) (bindingPubKey : Bytes) (lifespanSecs : UInt64) :
    Go (Uuid × Bytes) × KeyRegistry :=
  let req : GenerateKEMKeypairRequest := ⟨some algo,some ⟨some algo,bindingPubKey⟩,lifespanSecs⟩
  match validationInterceptor x req.violations keys (GrpcServer.generateKEMKeypair x order keys now entropy req) with
  | (.error fault,keys') => (rpcFault (0,[]) fault,keys')
  | (.ok resp,keys') =>
    match x.parse (resp.keyHandle.getD "") with
    | .error text => (failed (.wrap "invalid KEM key handle from server: " (.plain text)),keys')
    | .ok id => (.ok (id,(resp.kemPubKey.map KemPublicKey.publicKey).getD []),keys')

def readKeys : List Kpspb.KEMKeyInfo → Go (List KpsCore.KEMKeyInfo)
  | [] => .ok []
  | k::rest =>
    let handle := k.keyHandle.getD ""
    match x.parse handle with
    | .error text => failed (.wrap ("invalid key handle " ++ x.quote handle ++ " from server: ") (.plain text))
    | .ok id => do
      let tail ← readKeys rest
      .ok (⟨id,k.algorithm.getD ⟨0,0,0⟩,k.kemPubKey,k.remainingLifespanSecs⟩::tail)

def enumerateKEMKeys (readings : Nat → Nat) (limit offset : Int32) : Go (List KpsCore.KEMKeyInfo × Bool) × KeyRegistry :=
  let req : EnumerateKEMKeysRequest := ⟨limit,offset⟩
  match validationInterceptor x req.violations keys (GrpcServer.enumerateKEMKeys x order keys now readings req) with
  | (.error fault,keys') => (rpcFault ([],false) fault,keys')
  | (.ok resp,keys') => ((readKeys x resp.keys).map (fun infos => (infos,resp.hasMore)),keys')

def destroyKEMKey (kemUUID : Uuid) : Go Unit × KeyRegistry :=
  let req : DestroyKEMKeyRequest := ⟨some (uuidString kemUUID)⟩
  match validationInterceptor x req.violations keys (GrpcServer.destroyKEMKey x order keys req) with
  | (.error fault,keys') => (rpcFault () fault,keys')
  | (.ok _,keys') => (.ok (),keys')

/- The ciphertext message is sent without its algorithm. -/
def decapAndSeal (entropy : Bytes) (kemUUID : Uuid) (encapsulatedKey aad : Bytes) : Go (Bytes × Bytes) × KeyRegistry :=
  let req : DecapAndSealRequest := ⟨some (uuidString kemUUID),some ⟨0,encapsulatedKey⟩,aad⟩
  match validationInterceptor x req.violations keys (GrpcServer.decapAndSeal x order keys now entropy req) with
  | (.error fault,keys') => (rpcFault ([],[]) fault,keys')
  | (.ok resp,keys') => (.ok (resp.sealEnc,resp.sealedCt),keys')

def getKEMKey (later : Nat) (id : Uuid) : Go KpsCore.KemInfo × KeyRegistry :=
  let req : GetKEMKeyRequest := ⟨some (uuidString id)⟩
  match validationInterceptor x req.violations keys (GrpcServer.getKEMKey x order keys now later req) with
  | (.error fault,keys') => (rpcFault ⟨[],[],⟨0,0,0⟩,0⟩ fault,keys')
  | (.ok resp,keys') => (.ok ⟨(resp.kemPubKey.map KemPublicKey.publicKey).getD [],
      (resp.bindingPubKey.map Kpspb.HpkePublicKey.publicKey).getD [],
      (resp.bindingPubKey.bind Kpspb.HpkePublicKey.algorithm).getD ⟨0,0,0⟩,resp.remainingLifespanSecs⟩,keys')

end RemoteKeyProtectionService

/-! Errors on their way through the two tables. -/

theorem grpcCodeNotOk (err : GoError) : grpcCodeFromError err ≠ .ok := by
  have rows : ∀ row ∈ ffiErrorToGrpcCode, row.2 ≠ .ok := by decide
  unfold grpcCodeFromError
  split
  · rename_i row found
    exact rows row (List.mem_of_find?_eq_some found)
  · decide

theorem ffiStatusSome {code : Code} (failure : code ≠ .ok) (text : String) :
    ∃ err, ffiStatusFromGrpcError (.grpc code text) = some err := by
  cases code with
  | ok => contradiction
  | _ => exact ⟨_,rfl⟩

def httpStatusOfCode : Code → Nat
  | .ok => 200
  | .notFound => 404
  | .invalidArgument => 400
  | .permissionDenied => 403
  | .unauthenticated => 401
  | .alreadyExists => 409
  | _ => 500

theorem httpStatusTranslated (code : Code) (text : String) :
    httpStatusFromError (ffiStatusFromGrpcError (.grpc code text)) = httpStatusOfCode code := by
  cases code <;> rfl

/- The two tables together keep the HTTP status. They lump together what has one status
anyway, and the first of them is read in the order of the HTTP table. -/
theorem httpStatusCarried (err : GoError) (text : String) :
    httpStatusFromError (ffiStatusFromGrpcError (.grpc (grpcCodeFromError err) text)) = httpStatusFromError (some err) := by
  rw [httpStatusTranslated]
  simp only [grpcCodeFromError,ffiErrorToGrpcCode,List.find?_cons,List.find?_nil,httpStatusFromError]
  cases err.is .notFound with
  | true => rfl
  | false =>
    cases err.is .invalidArgument with
    | true => rfl
    | false =>
      cases err.is .unsupportedAlgorithm with
      | true => rfl
      | false =>
        cases err.is .invalidKey with
        | true => rfl
        | false =>
          cases err.is .permissionDenied with
          | true => rfl
          | false =>
            cases err.is .unauthenticated with
            | true => rfl
            | false => cases err.is .alreadyExists <;> rfl

def carried {α : Type} (before : String) : Go α → Go α
  | .error (.error err) =>
      failed ((ffiStatusFromGrpcError (.grpc (grpcCodeFromError err) (before ++ err.text))).getD err)
  | result => result

theorem rpcCarried {α : Type} (zero : α) (order : RangeOrder) (before : String) {err : GoError} (one : err.Solitary) :
    RemoteKeyProtectionService.rpcFault zero (.error (.grpc (order.grpcCodeFromError err) (before ++ err.text))) =
      carried before (failed err) := by
  obtain ⟨err',translated⟩ := ffiStatusSome (grpcCodeNotOk err) (before ++ err.text)
  simp only [RemoteKeyProtectionService.rpcFault,carried,failed,rangeOrderCode order one,translated,Option.getD_some]

theorem handlePasses {α : Type} (x : Externals) (handle : String) (keys : KeyRegistry) (handler : Go α × KeyRegistry) :
    validationInterceptor x (requiredField "key_handle" (some handle).isSome) keys handler = handler := rfl

theorem interceptorPasses {α : Type} {x : Externals} {violations : List String} (clean : violations = [])
    (keys : KeyRegistry) (handler : Go α × KeyRegistry) :
    validationInterceptor x violations keys handler = handler := by
  rw [clean]
  rfl

namespace RemoteKeyProtectionService
variable {x : Externals} (order : RangeOrder) (keys : KeyRegistry) (now : Nat)

theorem generateRemotely (laws : x.Lawful) (entropy : Entropy) {algo : HpkeAlgorithm} (coded : x.marshal algo ≠ [])
    (bindingPubKey : Bytes) (lifespanSecs : UInt64) :
    generateKEMKeypair x order keys now entropy algo bindingPubKey lifespanSecs =
      (carried "failed to generate KEM keypair: "
          (KpsCore.generateKEMKeypair x keys now entropy algo bindingPubKey lifespanSecs).1,
        (KpsCore.generateKEMKeypair x keys now entropy algo bindingPubKey lifespanSecs).2) := by
  have sound := @KpsCore.generateSound x keys now entropy algo bindingPubKey lifespanSecs
    (fun unchecked => coded unchecked.2)
  have clean : (⟨some algo,some ⟨some algo,bindingPubKey⟩,lifespanSecs⟩ : GenerateKEMKeypairRequest).violations = [] := rfl
  simp only [generateKEMKeypair,interceptorPasses clean,GrpcServer.generateKEMKeypair,Option.getD_some,Option.map_some]
  generalize KpsCore.generateKEMKeypair x keys now entropy algo bindingPubKey lifespanSecs = out at sound ⊢
  obtain ⟨result,keys'⟩ := out
  cases sound with
  | ok made => simp only [Option.getD_some,Option.map_some,laws.parses,carried]
  | failed one => exact congrArg (fun result => (result,keys')) (rpcCarried (0,[]) order _ one)

theorem readsKeys (laws : x.Lawful) (infos : List KpsCore.KEMKeyInfo) :
    readKeys x (infos.map (fun k => ⟨some (uuidString k.id),some k.algorithm,k.kemPubKey,k.remainingLifespanSecs⟩)) =
      .ok infos := by
  induction infos with
  | nil => rfl
  | cons info infos ih => simp only [List.map_cons,readKeys,Option.getD_some,laws.parses,ih,bind,Except.bind]

theorem enumerateRemotely (laws : x.Lawful) (readings : Nat → Nat) {limit offset : Int32} (positive : 0 < limit)
    (bounded : limit ≤ 10000) (given : 0 ≤ offset) :
    enumerateKEMKeys x order keys now readings limit offset =
      (carried "failed to enumerate KEM keys: " (KpsCore.enumerateKEMKeys x keys now readings limit offset),keys) := by
  have sound := @KpsCore.enumerateSound x keys now readings limit offset
  have clean : (⟨limit,offset⟩ : EnumerateKEMKeysRequest).violations = [] := by
    simp only [EnumerateKEMKeysRequest.violations,if_pos (And.intro positive bounded),if_pos given,List.append_nil]
  rw [enumerateKEMKeys,interceptorPasses clean]
  simp only [GrpcServer.enumerateKEMKeys]
  generalize KpsCore.enumerateKEMKeys x keys now readings limit offset = result at sound ⊢
  cases sound with
  | ok listed =>
    obtain ⟨infos,hasMore⟩ := listed
    simp only [readsKeys laws,carried,Except.map]
  | failed one => exact congrArg (fun result => (result,keys)) (rpcCarried ([],false) order _ one)

theorem decapAndSealRemotely (laws : x.Lawful) (entropy : Bytes) (kemUUID : Uuid) (encapsulatedKey aad : Bytes) :
    decapAndSeal x order keys now entropy kemUUID encapsulatedKey aad =
      (carried "failed to decap and seal: " (KpsCore.decapAndSeal x keys now entropy kemUUID encapsulatedKey aad),
        keys) := by
  have sound := @KpsCore.decapAndSealSound x keys now entropy kemUUID encapsulatedKey aad
  simp only [decapAndSeal,DecapAndSealRequest.violations,handlePasses,GrpcServer.decapAndSeal,Option.getD_some,
    Option.map_some,laws.parses]
  generalize KpsCore.decapAndSeal x keys now entropy kemUUID encapsulatedKey aad = result at sound ⊢
  cases sound with
  | ok made => simp only [carried]
  | failed one => exact congrArg (fun result => (result,keys)) (rpcCarried ([],[]) order _ one)

theorem getRemotely (laws : x.Lawful) (later : Nat) (id : Uuid) :
    getKEMKey x order keys now later id =
      (carried "failed to get KEM key: " (KpsCore.getKEMKey x keys now later id),keys) := by
  have sound := @KpsCore.getSound x keys now later id
  simp only [getKEMKey,GetKEMKeyRequest.violations,handlePasses,GrpcServer.getKEMKey,Option.getD_some,laws.parses]
  generalize KpsCore.getKEMKey x keys now later id = result at sound ⊢
  cases sound with
  | ok info => simp only [carried,Option.map_some,Option.getD_some,Option.bind_some]
  | failed one =>
    exact congrArg (fun result => (result,keys)) (rpcCarried (⟨[],[],⟨0,0,0⟩,0⟩ : KpsCore.KemInfo) order _ one)

end RemoteKeyProtectionService

def errorOnly : Option GoError → Go Unit
  | none => .ok ()
  | some err => failed err

theorem destroySound (keys : KeyRegistry) (kemUUID : Uuid) : Sound (errorOnly (KpsCore.destroyKEMKey keys kemUUID).1) := by
  rw [KpsCore.destroyedKem]
  simp only
  split
  · exact .ok ()
  · exact soundFfi _

namespace RemoteKeyProtectionService
variable {x : Externals} (order : RangeOrder) (keys : KeyRegistry) (now : Nat)

theorem destroyRemotely (laws : x.Lawful) (kemUUID : Uuid) :
    destroyKEMKey x order keys kemUUID =
      (carried "failed to destroy KEM key: " (errorOnly (KpsCore.destroyKEMKey keys kemUUID).1),
        (KpsCore.destroyKEMKey keys kemUUID).2) := by
  have sound := destroySound keys kemUUID
  simp only [destroyKEMKey,DestroyKEMKeyRequest.violations,handlePasses,GrpcServer.destroyKEMKey,Option.getD_some,laws.parses]
  generalize KpsCore.destroyKEMKey keys kemUUID = out at sound ⊢
  obtain ⟨result,keys'⟩ := out
  cases result with
  | none => rfl
  | some err =>
    cases sound with
    | failed one => exact congrArg (fun result => (result,keys')) (rpcCarried () order _ one)

end RemoteKeyProtectionService

/-! The two adapters. -/

inductive Agrees {α : Type} : Go α → Go α → Prop where
  | ok (value : α) : Agrees (.ok value) (.ok value)
  | failed {err err' : GoError} (status : httpStatusFromError (some err') = httpStatusFromError (some err)) :
      Agrees (failed err) (failed err')

theorem carriedAgrees {α : Type} (before : String) {r : Go α} (sound : Sound r) : Agrees r (carried before r) := by
  cases sound with
  | ok value => exact .ok value
  | @failed err one =>
    obtain ⟨err',translated⟩ := ffiStatusSome (grpcCodeNotOk err) (before ++ err.text)
    have status := httpStatusCarried err (before ++ err.text)
    simp only [carried,failed,translated,Option.getD_some] at status ⊢
    exact .failed status

/- For every order of the error map and every registry and time: the five calls that the
workload service makes, with the results of both adapters side by side. -/
theorem remoteAgrees {x : Externals} (laws : x.Lawful) (order : RangeOrder) (keys : KeyRegistry) (now : Nat) :
    (∀ kem suite, kemToHpkeAlgorithm kem = .ok suite → ∀ entropy bindingPubKey lifespanSecs,
      let inProcess := KpsCore.generateKEMKeypair x keys now entropy suite bindingPubKey lifespanSecs
      let remote := RemoteKeyProtectionService.generateKEMKeypair x order keys now entropy suite bindingPubKey lifespanSecs
      Agrees inProcess.1 remote.1 ∧ remote.2 = inProcess.2) ∧
    (∀ entropy kemUUID encapsulatedKey aad,
      let remote := RemoteKeyProtectionService.decapAndSeal x order keys now entropy kemUUID encapsulatedKey aad
      Agrees (KpsCore.decapAndSeal x keys now entropy kemUUID encapsulatedKey aad) remote.1 ∧ remote.2 = keys) ∧
    (∀ readings limit offset, 0 < limit → limit ≤ 10000 → 0 ≤ offset →
      let remote := RemoteKeyProtectionService.enumerateKEMKeys x order keys now readings limit offset
      Agrees (KpsCore.enumerateKEMKeys x keys now readings limit offset) remote.1 ∧ remote.2 = keys) ∧
    (∀ kemUUID,
      let inProcess := KpsCore.destroyKEMKey keys kemUUID
      let remote := RemoteKeyProtectionService.destroyKEMKey x order keys kemUUID
      Agrees (errorOnly inProcess.1) remote.1 ∧ remote.2 = inProcess.2) ∧
    (∀ later id,
      let remote := RemoteKeyProtectionService.getKEMKey x order keys now later id
      Agrees (KpsCore.getKEMKey x keys now later id) remote.1 ∧ remote.2 = keys) := by
  refine ⟨?_,?_,?_,?_,?_⟩
  · intro kem suite named entropy bindingPubKey lifespanSecs
    have coded : x.marshal suite ≠ [] := by
      rw [Ne,laws.emptyOnDefault]
      unfold kemToHpkeAlgorithm at named
      split at named <;> try contradiction
      rename_i one
      cases Except.ok.inj named
      simp [one]
    simp only [RemoteKeyProtectionService.generateRemotely order keys now laws entropy coded bindingPubKey lifespanSecs]
    exact ⟨carriedAgrees _ (KpsCore.generateSound entropy lifespanSecs (fun unchecked => coded unchecked.2)),trivial⟩
  · intro entropy kemUUID encapsulatedKey aad
    simp only [RemoteKeyProtectionService.decapAndSealRemotely order keys now laws]
    exact ⟨carriedAgrees _ (KpsCore.decapAndSealSound entropy kemUUID encapsulatedKey aad),trivial⟩
  · intro readings limit offset positive bounded given
    simp only [RemoteKeyProtectionService.enumerateRemotely order keys now laws readings positive bounded given]
    exact ⟨carriedAgrees _ (KpsCore.enumerateSound readings limit offset),trivial⟩
  · intro kemUUID
    simp only [RemoteKeyProtectionService.destroyRemotely order keys laws]
    exact ⟨carriedAgrees _ (destroySound keys kemUUID),trivial⟩
  · intro later id
    simp only [RemoteKeyProtectionService.getRemotely order keys now laws]
    exact ⟨carriedAgrees _ (KpsCore.getSound later id),trivial⟩

theorem remoteAgreesSecondKey :
    let keys := (serveCall Standin.externals ∅ 0 (Standin.entropy 1) (.generate ⟨1,1,1⟩ (Standin.pad32 [7]) 3600)).2
    let remote := RemoteKeyProtectionService.generateKEMKeypair Standin.externals Standin.order keys 0
      (Standin.entropy 2) ⟨1,1,1⟩ (Standin.pad32 [7]) 3600
    let inProcess := KpsCore.generateKEMKeypair Standin.externals keys 0 (Standin.entropy 2) ⟨1,1,1⟩ (Standin.pad32 [7]) 3600
    inProcess.1 = .ok (2,Standin.pad32 [2]) ∧ Agrees inProcess.1 remote.1 ∧ remote.2 = inProcess.2 ∧
    Agrees (KpsCore.enumerateKEMKeys Standin.externals keys 0 (fun _ => 0) 10000 0)
      (RemoteKeyProtectionService.enumerateKEMKeys Standin.externals Standin.order keys 0 (fun _ => 0) 10000 0).1 := by
  intro keys remote inProcess
  obtain ⟨generates,_,lists,_⟩ := remoteAgrees Standin.lawful Standin.order keys 0
  have made := generates 1 ⟨1,1,1⟩ rfl (Standin.entropy 2) (Standin.pad32 [7]) 3600
  exact ⟨by decide +kernel,made.1,made.2,(lists (fun _ => 0) 10000 0 (by decide) (by decide) (by decide)).1⟩

/-! The calls of the system model in VM mode are calls of the remote adapter. -/

namespace RemoteKeyProtectionService

def serve (x : Externals) (order : RangeOrder) (keys : KeyRegistry) (now : Nat) (entropy : Entropy) :
    KpsCall → Go KpsReply × KeyRegistry
  | .generate algo bindingPubKey lifespanSecs =>
      let out := generateKEMKeypair x order keys now entropy algo bindingPubKey lifespanSecs
      (out.1.map (fun made => .generated made.1 made.2),out.2)
  | .decapAndSeal kemUUID encapsulatedKey aad =>
      let out := decapAndSeal x order keys now entropy.seed kemUUID encapsulatedKey aad
      (out.1.map (fun made => .sealed made.1 made.2),out.2)
  | .destroy kemUUID =>
      let out := destroyKEMKey x order keys kemUUID
      (out.1.map (fun _ => .destroyed),out.2)
  | .getKEMKey id =>
      let out := getKEMKey x order keys now now id
      (out.1.map .kem,out.2)
  | .enumerate limit offset =>
      let out := enumerateKEMKeys x order keys now (fun _ => now) limit offset
      (out.1.map (fun listed => .keys listed.1 listed.2),out.2)

end RemoteKeyProtectionService

end KeyProtection
