import KeyProtection.KpsCore
import KeyProtection.WsCore

/-! workload_service/server.go and the claims handler of key_protection_service/server.go.
Each handler is cut where it touches state shared with other requests: the pieces before,
between and after those accesses are the functions below. Request bodies are given as
decoded messages, or as the error text of a body that could not be read or decoded.
Expiration times in the answers and in the claims are floating point wall-clock seconds
and are left out.
The handlers set every required field of their answers, so writeJSON's own validation passes. -/
namespace KeyProtection

inductive Mode where
  | unspecified | default | vm | vmEmulated
  deriving DecidableEq, Repr

def Mode.string : Mode → String
  | .unspecified => "KEY_PROTECTION_MECHANISM_UNSPECIFIED"
  | .default => "DEFAULT"
  | .vm => "KEY_PROTECTION_VM"
  | .vmEmulated => "KEY_PROTECTION_VM_EMULATED"

/- The two backoffs are time.Duration values, int64 nanoseconds. -/
structure Setup where
  x : Externals
  mode : Mode
  mechanism : Mode
  initialBackoff : Int64
  maxBackoff : Int64

structure KemCiphertext where
  algorithm : Int32
  ciphertext : Bytes
  deriving DecidableEq, Repr

structure DecapsRequest where
  keyHandle : Option String
  ciphertext : Option KemCiphertext
  deriving DecidableEq, Repr

structure DestroyRequest where
  keyHandle : Option String
  deriving DecidableEq, Repr

structure AlgorithmDetails where
  type : String
  kemId : Option Int32
  deriving DecidableEq, Repr

structure GenerateKeyRequest where
  algorithm : Option AlgorithmDetails
  lifespan : UInt64
  deriving DecidableEq, Repr

/- The enumeration is open: a message can hold a number that has no name. -/
inductive KeyType where
  | unspecified | vmProtectionBinding | vmProtectionKey
  | unnamed (number : Int32) (other : number < 0 ∨ 2 < number)
  deriving DecidableEq, Repr

def KeyType.string : KeyType → String
  | .unspecified => "KEY_TYPE_UNSPECIFIED"
  | .vmProtectionBinding => "KEY_TYPE_VM_PROTECTION_BINDING"
  | .vmProtectionKey => "KEY_TYPE_VM_PROTECTION_KEY"
  | .unnamed number _ => toString number.toInt

structure GetKeyClaimsRequest where
  keyHandle : String
  keyType : KeyType
  deriving DecidableEq, Repr

abbrev Body (α : Type) := Except String α

inductive Request where
  | generateKey (body : Body GenerateKeyRequest)
  | decaps (body : Body DecapsRequest)
  | destroy (body : Body DestroyRequest)
  | enumerateKeys
  | getKeyClaims (req : GetKeyClaimsRequest)
  | kpsGetKeyClaims (req : GetKeyClaimsRequest)
  deriving DecidableEq, Repr

structure HpkePublicKey where
  algorithm : HpkeAlgorithm
  publicKey : Bytes
  deriving DecidableEq, Repr

inductive KeyClaims where
  | vmBindingClaims (bindingPubKey : HpkePublicKey)
  | vmKeyClaims (kemAlgorithm : Int32) (kemPubKey : Bytes) (bindingPubKey : HpkePublicKey) (remainingLifespan : Nat)
  deriving DecidableEq, Repr

structure KeyInfo where
  handle : String
  kemId : Int32
  publicKey : Bytes
  mechanism : String
  deriving DecidableEq, Repr

inductive Payload where
  | error (text : String)
  | key (info : KeyInfo)
  | secret (algorithm : Int32) (secret : Bytes)
  | keys (infos : List KeyInfo)
  | empty
  deriving DecidableEq, Repr

/- What a client sees: an HTTP status with a body, the two outcomes of a claims RPC, or a
connection closed because the handler panicked. -/
inductive Answer where
  | http (status : Nat) (payload : Payload)
  | claims (claims : KeyClaims)
  | claimsFailed (err : GoError)
  | closed
  deriving DecidableEq, Repr

def Answer.status : Answer → Nat
  | .http status _ => status
  | _ => 0

def writeError (text : String) (code : Nat) : Answer := .http code (.error text)

def writeFault (before : String) : GoFault → Answer
  | .error err => writeError (before ++ err.text) (httpStatusFromError (some err))
  | .panic => .closed

/- protovalidate reports every field that breaks a rule of api.proto. -/
def readRequest {α : Type} (x : Externals) (violations : α → List String) : Body α → Except String α
  | .error text => .error text
  | .ok req =>
    if (violations req).isEmpty then .ok req
    else .error ("invalid request: " ++ x.violation (violations req))

def requiredField (field : String) (present : Bool) : List String := if present then [] else [field]

def GenerateKeyRequest.violations (req : GenerateKeyRequest) : List String :=
  requiredField "algorithm" req.algorithm.isSome ++
    (if 0 < req.lifespan.toNat ∧ req.lifespan.toNat ≤ 9223372036854775807 then [] else ["lifespan"])

def DecapsRequest.violations (req : DecapsRequest) : List String :=
  requiredField "key_handle" req.keyHandle.isSome ++ requiredField "ciphertext" req.ciphertext.isSome

def DestroyRequest.violations (req : DestroyRequest) : List String :=
  requiredField "key_handle" req.keyHandle.isSome

/-! strconv.Quote, which %q prints. -/

def hexDigits (width n : Nat) : String :=
  String.ofList ((List.range width).map (fun i => hexDigit (n / 16 ^ (width - 1 - i) % 16)))

def shortEscapes : List (Nat × String) :=
  [(7,"\\a"),(8,"\\b"),(9,"\\t"),(10,"\\n"),(11,"\\v"),(12,"\\f"),(13,"\\r")]

def appendEscapedRune (x : Externals) (c : Char) : String :=
  let r := c.toNat
  -- The quotation mark and the backslash.
  if r = 34 ∨ r = 92 then "\\" ++ String.singleton c
  else if x.printable c then String.singleton c
  else match shortEscapes.lookup r with
    | some escape => escape
    | none =>
      if r < 32 ∨ r = 127 then "\\x" ++ hexDigits 2 r
      else if r < 65536 then "\\u" ++ hexDigits 4 r
      else "\\U" ++ hexDigits 8 r

def Externals.quote (x : Externals) (text : String) : String :=
  "\"" ++ String.join (text.toList.map (appendEscapedRune x)) ++ "\""

/- KemAlgorithm.String in Go: an unknown number is printed in decimal. -/
def kemAlgorithmString (k : Int32) : String :=
  if k = 0 then "KEM_ALGORITHM_UNSPECIFIED"
  else if k = 1 then "KEM_ALGORITHM_DHKEM_X25519_HKDF_SHA256"
  else toString k.toInt

def supportedKemAlgorithms : List Int32 := [1]

def isSupportedKemAlgorithm (k : Int32) : Bool := supportedKemAlgorithms.contains k

def supportedKemAlgorithmsString : String :=
  ", ".intercalate (supportedKemAlgorithms.map kemAlgorithmString)

def kemToHpkeAlgorithm (k : Int32) : Except String HpkeAlgorithm :=
  if k = 1 then .ok ⟨k,1,1⟩ else .error ("unsupported algorithm: " ++ kemAlgorithmString k)

def decapsAADContext (kemUUID : Uuid) (algorithm : Int32) : Bytes :=
  Crypto.ascii ("wsd:keys:decaps:v1:" ++ toString algorithm.toInt ++ ":" ++ uuidString kemUUID)

/-! Generate: everything before the first shared access. -/

structure GeneratePlan where
  details : AlgorithmDetails
  algo : HpkeAlgorithm
  lifespan : UInt64
  deriving DecidableEq, Repr

def handleGenerateKey (x : Externals) (body : Body GenerateKeyRequest) : Except Answer GeneratePlan :=
  match readRequest x GenerateKeyRequest.violations body with
  | .error text => .error (writeError text 400)
  | .ok req =>
    let details := req.algorithm.getD ⟨"",none⟩
    if details.type = "kem" then
      let kemId := details.kemId.getD 0
      if ¬ isSupportedKemAlgorithm kemId then
        .error (writeError ("unsupported algorithm: " ++ kemAlgorithmString kemId ++
          ". Supported algorithms: " ++ supportedKemAlgorithmsString) 400)
      else match kemToHpkeAlgorithm kemId with
        | .error text => .error (writeError text 400)
        | .ok algo => .ok ⟨details,algo,req.lifespan⟩
    else .error (writeError ("unsupported algorithm type: " ++ x.quote details.type ++
      ". Only 'kem' is supported.") 400)

def generateAnswer (u : Setup) (plan : GeneratePlan) (kemUUID : Uuid) (kemPubKey : Bytes) : Answer :=
  .http 200 (.key ⟨uuidString kemUUID,plan.details.kemId.getD 0,kemPubKey,u.mechanism.string⟩)

/- The list in the answer to GET /v1/capabilities, which has no request of its own. -/
def handleGetCapabilities : List AlgorithmDetails := supportedKemAlgorithms.map (fun algo => ⟨"kem",some algo⟩)

/-! Decapsulate. -/

structure DecapsCall where
  algorithm : Int32
  kemUUID : Uuid
  encapsulatedKey : Bytes
  aad : Bytes
  deriving DecidableEq, Repr

def decapsParse (x : Externals) (body : Body DecapsRequest) : Except Answer DecapsCall :=
  match readRequest x DecapsRequest.violations body with
  | .error text => .error (writeError text 400)
  | .ok req =>
    let ciphertext := req.ciphertext.getD ⟨0,[]⟩
    if ¬ isSupportedKemAlgorithm ciphertext.algorithm then
      .error (writeError ("unsupported ciphertext algorithm: " ++ toString ciphertext.algorithm.toInt ++
        ". Supported algorithms: " ++ supportedKemAlgorithmsString) 400)
    else match x.parse (req.keyHandle.getD "") with
      | .error text => .error (writeError ("invalid key_handle.handle: " ++ text) 400)
      | .ok kemUUID =>
        if ciphertext.ciphertext.length = 0 then
          .error (writeError "ciphertext.ciphertext must not be empty" 400)
        else .ok ⟨ciphertext.algorithm,kemUUID,ciphertext.ciphertext,
          decapsAADContext kemUUID ciphertext.algorithm⟩

def handleNotFound (kemUUID : Uuid) : Answer :=
  writeError ("KEM key handle not found: " ++ uuidString kemUUID) 404

def decapsAnswer (call : DecapsCall) : Go Bytes → Answer
  | .error fault => writeFault "failed to open sealed secret: " fault
  | .ok plaintext => .http 200 (.secret call.algorithm plaintext)

/-! Destroy. -/

def destroyParse (x : Externals) (body : Body DestroyRequest) : Except Answer Uuid :=
  match readRequest x DestroyRequest.violations body with
  | .error text => .error (writeError text 400)
  | .ok req =>
    match x.parse (req.keyHandle.getD "") with
    | .error text => .error (writeError ("invalid key handle: " ++ text) 400)
    | .ok kemUUID => .ok kemUUID

def destroyAnswer (errKps errWs : Option GoError) : Answer :=
  match errorsJoin errKps errWs with
  | some err => writeError ("failed to destroy keys: " ++ err.text) (httpStatusFromError (some err))
  | none => .http 204 .empty

/-! Enumerate. -/

def defaultEnumerateLimit : Int32 := 10000

def enumerateAnswer (u : Setup) : Go (List KpsCore.KEMKeyInfo × Bool) → Answer
  | .error fault => writeFault "failed to enumerate keys: " fault
  | .ok (keys,_) => .http 200 (.keys (keys.map (fun key =>
      ⟨uuidString key.id,key.algorithm.kem,key.kemPubKey,u.mechanism.string⟩)))

/-! Claims. A remaining lifespan that does not fit a time.Duration is clamped. -/

def maxDurationSeconds : Nat := 9223372036

def remainingDuration (secs : Nat) : Nat :=
  if maxDurationSeconds < secs then 9223372036854775807 else secs * nanosPerSec

def kemClaims (info : KpsCore.KemInfo) : KeyClaims :=
  .vmKeyClaims info.algo.kem info.kemPubKey ⟨info.algo,info.bindingPubKey⟩
    (remainingDuration info.remainingLifespanSecs)

inductive ClaimsPlan where
  | binding (id : Uuid)
  | kem (id : Uuid)
  deriving DecidableEq, Repr

def getKeyClaimsPlan (u : Setup) (req : GetKeyClaimsRequest) : Except GoError ClaimsPlan :=
  match u.x.parse req.keyHandle with
  | .error text => .error (.wrap "failed to retrieve key claims: " (.plain text))
  | .ok id =>
    match req.keyType with
    | .vmProtectionBinding => .ok (.binding id)
    | .vmProtectionKey =>
      if u.mode = .vm then .error (.grpc .invalidArgument
        "KEM key claims must be retrieved directly from the KPS VM in KEY_PROTECTION_VM mode")
      else .ok (.kem id)
    | _ => .error (.plain ("unsupported key type: " ++ req.keyType.string))

def bindingUnmapped (id : Uuid) : GoError :=
  .wrap "failed to retrieve binding key claims: "
    (.plain ("binding key ID not found for key handle: " ++ uuidString id))

def bindingClaimsAnswer : Go (Bytes × HpkeAlgorithm) → Answer
  | .ok (pubKey,algo) => .claims (.vmBindingClaims ⟨algo,pubKey⟩)
  | .error (.error err) => .claimsFailed (.wrap "failed to retrieve binding key claims: "
      (.wrap "failed to get binding key: " err))
  | .error .panic => .closed

def kemClaimsAnswer : Go KpsCore.KemInfo → Answer
  | .ok info => .claims (kemClaims info)
  | .error (.error err) => .claimsFailed (.wrap "failed to retrieve VM protection key claims: "
      (.wrap "failed to get KEM key: " err))
  | .error .panic => .closed

/- Server.GetKeyClaims of the KPS, which runs with the KPS role in VM mode only. -/
def kpsGetKeyClaims (u : Setup) (keys : KeyRegistry) (now later : Nat) (req : GetKeyClaimsRequest) : Answer :=
  if u.mode ≠ .vm then .claimsFailed (.grpc .permissionDenied
    "KEM key claims can only be retrieved from KPS VM in KEY_PROTECTION_VM mode and SERVICE_ROLE_KPS role")
  else if req.keyType ≠ .vmProtectionKey then .claimsFailed (.grpc .invalidArgument
    ("unsupported key type for KPS key claims: " ++ req.keyType.string))
  else match u.x.parse req.keyHandle with
    | .error text => .claimsFailed (.grpc .invalidArgument ("invalid KEM key handle: " ++ text))
    | .ok kemUUID =>
      match KpsCore.getKEMKey u.x keys now later kemUUID with
      | .ok info => .claims (kemClaims info)
      | .error (.error err) => .claimsFailed (.grpc (grpcCodeFromError err) ("failed to get KEM key: " ++ err.text))
      | .error .panic => .closed

/-! Calls to the KPS as messages, and what the KPS does with one. -/

inductive KpsCall where
  | generate (algo : HpkeAlgorithm) (bindingPubKey : Bytes) (lifespanSecs : UInt64)
  | decapAndSeal (kemUUID : Uuid) (encapsulatedKey aad : Bytes)
  | destroy (kemUUID : Uuid)
  | getKEMKey (id : Uuid)
  | enumerate (limit offset : Int32)
  deriving DecidableEq, Repr

inductive KpsReply where
  | generated (kemUUID : Uuid) (kemPubKey : Bytes)
  | sealed (sealEnc sealedCT : Bytes)
  | destroyed
  | kem (info : KpsCore.KemInfo)
  | keys (keys : List KpsCore.KEMKeyInfo) (hasMore : Bool)
  deriving DecidableEq, Repr

def KpsCall.errorPrefix : KpsCall → String
  | .generate _ _ _ => "failed to generate KEM keypair: "
  | .decapAndSeal _ _ _ => "failed to decap and seal: "
  | .destroy _ => "failed to destroy KEM key: "
  | .getKEMKey _ => "failed to get KEM key: "
  | .enumerate _ _ => "failed to enumerate KEM keys: "

def serveCall (x : Externals) (keys : KeyRegistry) (now : Nat) (entropy : Entropy) :
    KpsCall → Go KpsReply × KeyRegistry
  | .generate algo bindingPubKey lifespanSecs =>
      let out := KpsCore.generateKEMKeypair x keys now entropy algo bindingPubKey lifespanSecs
      (out.1.map (fun made => .generated made.1 made.2),out.2)
  | .decapAndSeal kemUUID encapsulatedKey aad =>
      ((KpsCore.decapAndSeal x keys now entropy.seed kemUUID encapsulatedKey aad).map
        (fun made => .sealed made.1 made.2),keys)
  | .destroy kemUUID =>
      match KpsCore.destroyKEMKey keys kemUUID with
      | (some err,keys') => (failed err,keys')
      | (none,keys') => (.ok .destroyed,keys')
  | .getKEMKey id => ((KpsCore.getKEMKey x keys now now id).map .kem,keys)
  | .enumerate limit offset =>
      ((KpsCore.enumerateKEMKeys x keys now (fun _ => now) limit offset).map (fun out => .keys out.1 out.2),keys)

/- How a KPS error reaches the handler: as it is from the in-process adapter, through the
two status tables from the remote one. -/
def kpsError (mode : Mode) (call : KpsCall) (err : GoError) : GoError :=
  if mode = .vm then
    (ffiStatusFromGrpcError (.grpc (grpcCodeFromError err) (call.errorPrefix ++ err.text))).getD err
  else err

/-! Answers that say only that something went wrong. -/

inductive Answer.Failure : Answer → Prop where
  | http {code text} (bad : code ≠ 200) : Failure (.http code (.error text))
  | claims (err) : Failure (.claimsFailed err)
  | closed : Failure .closed

theorem failureStatus {a : Answer} (failure : a.Failure) : a.status ≠ 200 := by
  cases failure with
  | http bad => exact bad
  | claims err => simp [Answer.status]
  | closed => simp [Answer.status]

theorem faultFails (before : String) (fault : GoFault) : (writeFault before fault).Failure := by
  cases fault with
  | error err => exact .http (httpStatusNotOk err).1
  | panic => exact .closed

theorem badRequestFails (text : String) : (writeError text 400).Failure := .http (by decide)

theorem notFoundFails (kemUUID : Uuid) : (handleNotFound kemUUID).Failure := .http (by decide)

theorem generateFails {x body a} (bad : handleGenerateKey x body = .error a) : a.Failure := by
  unfold handleGenerateKey at bad
  split at bad
  · cases Except.error.inj bad
    exact badRequestFails _
  simp only at bad
  split at bad
  · split at bad
    · cases Except.error.inj bad
      exact badRequestFails _
    · split at bad <;> try contradiction
      cases Except.error.inj bad
      exact badRequestFails _
  · cases Except.error.inj bad
    exact badRequestFails _

theorem decapsFails {x body a} (bad : decapsParse x body = .error a) : a.Failure := by
  unfold decapsParse at bad
  split at bad
  · cases Except.error.inj bad
    exact badRequestFails _
  simp only at bad
  split at bad
  · cases Except.error.inj bad
    exact badRequestFails _
  split at bad
  · cases Except.error.inj bad
    exact badRequestFails _
  split at bad <;> try contradiction
  cases Except.error.inj bad
  exact badRequestFails _

theorem destroyFails {x body a} (bad : destroyParse x body = .error a) : a.Failure := by
  unfold destroyParse at bad
  split at bad
  · cases Except.error.inj bad
    exact badRequestFails _
  split at bad <;> try contradiction
  cases Except.error.inj bad
  exact badRequestFails _

/-! What an accepted request was. -/

theorem readOk {α : Type} {x : Externals} {violations : α → List String} {body : Body α} {req : α}
    (read : readRequest x violations body = .ok req) : body = .ok req ∧ violations req = [] := by
  unfold readRequest at read
  split at read <;> try contradiction
  split at read <;> try contradiction
  rename_i valid
  cases Except.ok.inj read
  exact ⟨rfl,List.isEmpty_iff.mp valid⟩

@[simp] theorem requiredFieldMet {field : String} {present : Bool} : requiredField field present = [] ↔ present = true := by
  simp [requiredField]

theorem generateKeyValid {req : GenerateKeyRequest} :
    req.violations = [] ↔
      req.algorithm.isSome = true ∧ 0 < req.lifespan.toNat ∧ req.lifespan.toNat ≤ 9223372036854775807 := by
  simp [GenerateKeyRequest.violations]

theorem decapsValid {req : DecapsRequest} :
    req.violations = [] ↔ req.keyHandle.isSome = true ∧ req.ciphertext.isSome = true := by
  simp [DecapsRequest.violations]

theorem supportedKem {k : Int32} : isSupportedKemAlgorithm k = true ↔ k = 1 := by
  simp [isSupportedKemAlgorithm,supportedKemAlgorithms]

structure DecapsAccepted (x : Externals) (req : DecapsRequest) (call : DecapsCall) : Prop where
  handle : x.parse (req.keyHandle.getD "") = .ok call.kemUUID
  ciphertext : req.ciphertext = some ⟨call.algorithm,call.encapsulatedKey⟩
  algorithm : call.algorithm = 1
  given : call.encapsulatedKey ≠ []
  aad : call.aad = decapsAADContext call.kemUUID call.algorithm

theorem decapsParsed {x body call} (parsed : decapsParse x body = .ok call) :
    ∃ req, body = .ok req ∧ DecapsAccepted x req call := by
  unfold decapsParse at parsed
  split at parsed <;> try contradiction
  rename_i req read
  obtain ⟨same,valid⟩ := readOk read
  simp only at parsed
  split at parsed <;> try contradiction
  rename_i supported
  split at parsed <;> try contradiction
  rename_i kemUUID handle
  split at parsed <;> try contradiction
  rename_i given
  cases Except.ok.inj parsed
  have present : req.ciphertext = some (req.ciphertext.getD ⟨0,[]⟩) := by
    obtain ⟨ciphertext,given⟩ := Option.isSome_iff_exists.mp (decapsValid.mp valid).2
    rw [given]
    rfl
  exact ⟨req,same,handle,present,supportedKem.mp (by simpa using supported),by simpa using given,rfl⟩

theorem destroyParsed {x body kemUUID} (parsed : destroyParse x body = .ok kemUUID) :
    ∃ req, body = .ok req ∧ x.parse (req.keyHandle.getD "") = .ok kemUUID := by
  unfold destroyParse at parsed
  split at parsed <;> try contradiction
  rename_i req read
  split at parsed <;> try contradiction
  rename_i id handle
  cases Except.ok.inj parsed
  exact ⟨req,(readOk read).1,handle⟩

def ClaimsPlan.id : ClaimsPlan → Uuid
  | .binding id => id
  | .kem id => id

theorem claimsPlanned {u req plan} (planned : getKeyClaimsPlan u req = .ok plan) :
    u.x.parse req.keyHandle = .ok plan.id := by
  unfold getKeyClaimsPlan at planned
  split at planned <;> try contradiction
  rename_i id parsed
  split at planned
  · cases Except.ok.inj planned
    exact parsed
  · split at planned <;> try contradiction
    cases Except.ok.inj planned
    exact parsed
  · contradiction

theorem generatePlanned {x body plan} (planned : handleGenerateKey x body = .ok plan) :
    ∃ req, body = .ok req ∧ plan.algo = ⟨1,1,1⟩ ∧ plan.details.kemId = some 1 ∧ plan.lifespan = req.lifespan ∧
      0 < req.lifespan.toNat := by
  unfold handleGenerateKey at planned
  split at planned <;> try contradiction
  rename_i req read
  obtain ⟨same,valid⟩ := readOk read
  simp only at planned
  split at planned <;> try contradiction
  split at planned <;> try contradiction
  rename_i supported
  split at planned <;> try contradiction
  rename_i algo suite
  cases Except.ok.inj planned
  have kem : (req.algorithm.getD ⟨"",none⟩).kemId.getD 0 = 1 := supportedKem.mp (by simpa using supported)
  have named : (req.algorithm.getD ⟨"",none⟩).kemId = some 1 := by
    cases here : (req.algorithm.getD ⟨"",none⟩).kemId with
    | none =>
      rw [here] at kem
      contradiction
    | some k =>
      rw [here] at kem
      exact congrArg some kem
  simp only [kemToHpkeAlgorithm,kem,if_true] at suite
  exact ⟨req,same,(Except.ok.inj suite).symm,named,rfl,(generateKeyValid.mp valid).2.1⟩

theorem capabilitiesExact (x : Externals) (req : GenerateKeyRequest) :
    (∃ plan, handleGenerateKey x (.ok req) = .ok plan) ↔
      (∃ details ∈ handleGetCapabilities, req.algorithm = some details) ∧
        0 < req.lifespan.toNat ∧ req.lifespan.toNat ≤ 9223372036854775807 := by
  constructor
  · rintro ⟨plan,planned⟩
    unfold handleGenerateKey at planned
    split at planned <;> try contradiction
    rename_i req' read
    obtain ⟨same,valid⟩ := readOk read
    cases Except.ok.inj same
    simp only at planned
    split at planned <;> try contradiction
    rename_i kem
    split at planned <;> try contradiction
    rename_i supported
    have one : (req.algorithm.getD ⟨"",none⟩).kemId.getD 0 = 1 := supportedKem.mp (by simpa using supported)
    obtain ⟨given,lifespan⟩ := generateKeyValid.mp valid
    obtain ⟨⟨type,kemId⟩,algorithm⟩ := Option.isSome_iff_exists.mp given
    rw [algorithm] at kem one
    refine ⟨⟨⟨type,kemId⟩,?_,algorithm⟩,lifespan⟩
    cases kemId with
    | none => exact absurd (show (0 : Int32) = 1 from one) (by decide)
    | some k =>
      cases show type = "kem" from kem
      cases show k = 1 from one
      exact List.mem_singleton_self _
  · rintro ⟨⟨details,listed,algorithm⟩,positive,bounded⟩
    simp only [handleGetCapabilities,supportedKemAlgorithms,List.map_cons,List.map_nil,List.mem_singleton] at listed
    have valid : req.violations = [] := generateKeyValid.mpr ⟨by rw [algorithm]; rfl,positive,bounded⟩
    have supported : isSupportedKemAlgorithm 1 = true := supportedKem.mpr rfl
    exact ⟨⟨⟨"kem",some 1⟩,⟨1,1,1⟩,req.lifespan⟩,by simp [handleGenerateKey,readRequest,valid,algorithm,listed,supported,kemToHpkeAlgorithm]⟩

end KeyProtection
