import KeyProtection.Refinement

/-! The attestation service in front of the two others. It asks for the claims of a KEM key,
has them attested together with the challenge of the relying party, and the relying party
then encapsulates a secret to the attested key. Requests for endorsements run beside all
the other requests, and a claims call may fail or time out at any moment. TPM, agent and
protobuf encoding are outside; what the service makes of them is here. -/
namespace KeyProtection
open Lib Lib.Run Lib.Refine KeyRegistry
open KeyProtection.Ideal (Service Vouched Stands)

structure GetKeyEndorsementRequest where
  challenge : Bytes
  keyHandle : Option String
  requestAcpiData : Bool
  deriving DecidableEq, Repr

/- proto.Marshal of the claims, and AttestationAgent.AttestationEvidence with the challenge,
the extra data and the ACPI option. The message has one field more than the claims here,
expiration_time, of which only the bits are known: the server computes it in floating point
from the wall clock. Evidence differs from one moment to the next. -/
structure Agent (Evidence : Type) where
  marshal : KeyClaims → UInt64 → Except String Bytes
  attestationEvidence : Nat → Bytes → Bytes → Bool → Except String Evidence

inductive ClaimsServer where
  | kps
  | wsd
  deriving DecidableEq, Repr

def ClaimsServer.request : ClaimsServer → GetKeyClaimsRequest → Request
  | .kps, req => .kpsGetKeyClaims req
  | .wsd, req => .getKeyClaims req

/- errors.As with a status error as target. -/
def GoError.statusCode : GoError → Option Code
  | .grpc code _ => some code
  | .wrap _ cause => cause.statusCode
  | .join left right => left.statusCode.or right.statusCode
  | _ => none

/- What a gRPC client is given for an error that the handler returned. -/
def GoError.overRpc : GoError → GoError
  | .grpc code text => .grpc code text
  | err => .grpc (err.statusCode.getD .unknown) err.text

/-! GetKeyEndorsement, cut at its two calls. -/

inductive Endorsing (Evidence : Type) where
  -- The claims call, as a request of the system; its answer is awaited.
  | calling (thread : Nat)
  | attesting (kemBytes : Bytes)
  | returned (result : Except GoError Evidence)
  deriving DecidableEq

def checkEndorsement (req : GetKeyEndorsementRequest) : Except GoError GetKeyClaimsRequest :=
  if req.challenge.length = 0 then .error (.grpc .invalidArgument "challenge is required")
  else match req.keyHandle with
    | none => .error (.grpc .invalidArgument "key_handle is required")
    | some handle =>
      if handle.length = 0 then .error (.grpc .invalidArgument "key_handle is required")
      else .ok ⟨handle,.vmProtectionKey⟩

def claimsReturned {Evidence : Type} (agent : Agent Evidence) (expirationTime : UInt64) :
    Except GoError KeyClaims → Endorsing Evidence
  | .error err => .returned (.error (.grpc .internal ("failed to get key claims from KPS: " ++ err.text)))
  | .ok keyClaims =>
    match agent.marshal keyClaims expirationTime with
    | .error text => .returned (.error (.grpc .internal ("failed to marshal KEM key claims: " ++ text)))
    | .ok kemBytes => .attesting kemBytes

def evidenceReturned {Evidence : Type} : Except String Evidence → Endorsing Evidence
  | .error text => .returned (.error (.grpc .internal
      ("failed to collect attestation evidence with KEM key claims: " ++ text)))
  | .ok kemEvidence => .returned (.ok kemEvidence)

/-! All three services. -/

structure Attested (Evidence : Type) where
  system : System
  handlers : List (GetKeyEndorsementRequest × Endorsing Evidence)

inductive AttestedLabel where
  | system (l : Label)
  | endorse (req : GetKeyEndorsementRequest)
  | claimsArrive (e : Nat) (expirationTime : UInt64)
  -- A deadline of 30 seconds, a connection that breaks, or the server's process is gone.
  | claimsFail (e : Nat) (err : GoError)
  | attest (e : Nat) (moment : Nat)

def AttestedLabel.faithful : AttestedLabel → Bool
  | .system l => l.faithful
  | _ => true

namespace Attested
variable {Evidence : Type}

def put (d : Attested Evidence) (e : Nat) (req : GetKeyEndorsementRequest) (stage : Endorsing Evidence) : Attested Evidence :=
  {d with handlers := d.handlers.set e (req,stage)}

def endorse (server : ClaimsServer) (d : Attested Evidence) (req : GetKeyEndorsementRequest) : Attested Evidence :=
  match checkEndorsement req with
  | .error err => {d with handlers := d.handlers ++ [(req,.returned (.error err))]}
  | .ok claimsReq =>
    {system := {d.system with threads := d.system.threads ++ [⟨server.request claimsReq,.start,none⟩]},
      handlers := d.handlers ++ [(req,.calling d.system.threads.length)]}

def claimsOf (s : System) (thread : Nat) : Option (Except GoError KeyClaims) :=
  match s.threads[thread]?.map Thread.task with
  | some (.answered (.claims keyClaims)) => some (.ok keyClaims)
  | some (.answered (.claimsFailed err)) => some (.error err.overRpc)
  | _ => none

def step (u : Setup) (server : ClaimsServer) (agent : Agent Evidence) (d : Attested Evidence) :
    AttestedLabel → Option (Attested Evidence)
  | .system l => (KeyProtection.step u d.system l).map (fun s => {d with system := s})
  | .endorse req => some (d.endorse server req)
  | .claimsArrive e expirationTime =>
      match d.handlers[e]? with
      | some (req,.calling thread) =>
        (claimsOf d.system thread).map (fun out => d.put e req (claimsReturned agent expirationTime out))
      | _ => none
  | .claimsFail e err =>
      match d.handlers[e]? with
      | some (req,.calling _) => some (d.put e req (claimsReturned agent 0 (.error err)))
      | _ => none
  | .attest e moment =>
      match d.handlers[e]? with
      | some (req,.attesting kemBytes) =>
        some (d.put e req (evidenceReturned (agent.attestationEvidence moment req.challenge kemBytes req.requestAcpiData)))
      | _ => none

def initial (kpsNow wsNow : Nat) (token : String) : Attested Evidence := ⟨System.initial kpsNow wsNow token,[]⟩

end Attested

/-! What a handler knows at each stage. -/

section
variable {Evidence : Type} {u : Setup} {server : ClaimsServer} {agent : Agent Evidence} {s t : System}
  {d d' : Attested Evidence} {req : GetKeyEndorsementRequest} {l : AttestedLabel}

def Quotes (u : Setup) (agent : Agent Evidence) (s : System) (req : GetKeyEndorsementRequest) (kemBytes : Bytes) : Prop :=
  ∃ claimsReq, checkEndorsement req = .ok claimsReq ∧ ∃ kem ∈ s.kems, u.x.parse claimsReq.keyHandle = .ok kem.record.id ∧
    ∃ now expirationTime, agent.marshal ((keyOf kem.record).claims now) expirationTime = .ok kemBytes

def EndorsingOk (u : Setup) (server : ClaimsServer) (agent : Agent Evidence) (s : System)
    (req : GetKeyEndorsementRequest) : Endorsing Evidence → Prop
  | .calling thread => ∃ claimsReq th, checkEndorsement req = .ok claimsReq ∧ s.threads[thread]? = some th ∧
      th.request = server.request claimsReq
  | .attesting kemBytes => Quotes u agent s req kemBytes
  | .returned (.ok kemEvidence) => ∃ moment kemBytes, Quotes u agent s req kemBytes ∧
      agent.attestationEvidence moment req.challenge kemBytes req.requestAcpiData = .ok kemEvidence
  | .returned (.error _) => True

structure Endorsed (u : Setup) (server : ClaimsServer) (agent : Agent Evidence) (d : Attested Evidence) : Prop where
  table : ∃ v, Matches u d.system v ∧ Vouched u v
  handlers : ∀ (e : Nat) req stage, d.handlers[e]? = some (req,stage) → EndorsingOk u server agent d.system req stage

theorem issuedFrom {kems : List KemBirth} {id : Uuid} {key : Ideal.Key} (issued : issuedOf kems id = some key) :
    ∃ kem ∈ kems, kem.record.id = id ∧ keyOf kem.record = key := by
  obtain ⟨kem,found,same⟩ := Option.map_eq_some_iff.mp issued
  exact ⟨kem,List.mem_of_find?_eq_some found,by simpa using List.find?_some found,same⟩

theorem answeredStands {v : Service} {i : Nat} {th : Thread} {a : Answer} (same : Matches u s v) (vouched : Vouched u v)
    (found : s.threads[i]? = some th) (told : th.task = .answered a) : Stands u (issuedOf s.kems) th.request a := by
  obtain ⟨p,here,pends⟩ := pendingOf same found
  have ready := pends.foreseen
  rw [told] at ready
  rw [← pends.request,← same.issued]
  exact vouched.ready i p a here ready

theorem quotesGrows {kemBytes : Bytes} (grows : Grows s t) (quotes : Quotes u agent s req kemBytes) :
    Quotes u agent t req kemBytes := by
  obtain ⟨claimsReq,checked,kem,mem,rest⟩ := quotes
  exact ⟨claimsReq,checked,kem,grows.kems kem mem,rest⟩

theorem endorsingGrows {stage : Endorsing Evidence} (grows : Grows s t) (ok : EndorsingOk u server agent s req stage) :
    EndorsingOk u server agent t req stage := by
  unfold EndorsingOk at ok ⊢
  split at ok
  · obtain ⟨claimsReq,th,checked,found,request⟩ := ok
    obtain ⟨th',found',follows⟩ := grows.threads _ th found
    exact ⟨claimsReq,th',checked,found',follows.request.trans request⟩
  · exact quotesGrows grows ok
  · obtain ⟨moment,kemBytes,quotes,attested⟩ := ok
    exact ⟨moment,kemBytes,quotesGrows grows quotes,attested⟩
  · exact True.intro

theorem checkedKind {claimsReq : GetKeyClaimsRequest} (checked : checkEndorsement req = .ok claimsReq) :
    req.challenge ≠ [] ∧ req.keyHandle = some claimsReq.keyHandle ∧ claimsReq.keyType = .vmProtectionKey := by
  unfold checkEndorsement at checked
  split at checked <;> try contradiction
  rename_i given
  split at checked <;> try contradiction
  rename_i handle named
  split at checked <;> try contradiction
  cases Except.ok.inj checked
  exact ⟨fun none => given (by rw [none]; rfl),named,rfl⟩

theorem claimsArrived {thread : Nat} {keyClaims : KeyClaims} {kemBytes : Bytes} {expirationTime : UInt64} (table : ∃ v, Matches u s v ∧ Vouched u v)
    (ok : EndorsingOk u server agent s req (.calling thread)) (got : Attested.claimsOf s thread = some (.ok keyClaims))
    (marshalled : agent.marshal keyClaims expirationTime = .ok kemBytes) : Quotes u agent s req kemBytes := by
  obtain ⟨claimsReq,th,checked,found,request⟩ := ok
  obtain ⟨v,same,vouched⟩ := table
  simp only [Attested.claimsOf,found,Option.map_some] at got
  split at got <;> try contradiction
  · rename_i told
    cases Except.ok.inj (Option.some.inj got)
    obtain ⟨req',id,key,asked,parsed,issued,stated⟩ := answeredStands same vouched found (Option.some.inj told)
    have own : req' = claimsReq := by
      cases server <;> rcases asked with asked | asked <;> cases asked.symm.trans request <;> rfl
    subst own
    obtain ⟨kem,mem,rfl,rfl⟩ := issuedFrom issued
    rcases stated with ⟨now,rfl⟩ | ⟨kind,_⟩
    · exact ⟨req',checked,kem,mem,parsed,now,expirationTime,marshalled⟩
    · exact absurd (kind.symm.trans (checkedKind checked).2.2) (by decide)
  · cases Option.some.inj got

theorem handlersPut {e : Nat} {stage : Endorsing Evidence} (before : Endorsed u server agent d)
    (ok : EndorsingOk u server agent d.system req stage) : Endorsed u server agent (d.put e req stage) := by
  refine ⟨before.table,?_⟩
  intro f req' stage' here
  simp only [Attested.put,List.getElem?_set] at here
  split at here
  · split at here <;> try contradiction
    cases Option.some.inj here
    exact ok
  · exact before.handlers f req' stage' here

theorem handlersAdd {stage : Endorsing Evidence} (table : ∃ v, Matches u t v ∧ Vouched u v) (grows : Grows s t)
    (handlers : ∀ (e : Nat) req stage, d.handlers[e]? = some (req,stage) → EndorsingOk u server agent s req stage)
    (ok : EndorsingOk u server agent t req stage) : Endorsed u server agent ⟨t,d.handlers ++ [(req,stage)]⟩ := by
  refine ⟨table,?_⟩
  intro e req' stage' here
  simp only [List.getElem?_append] at here
  split at here
  · exact endorsingGrows grows (handlers e req' stage' here)
  · cases List.mem_singleton.mp (List.mem_of_getElem? here)
    exact ok

theorem tableStep {k : Label} (laws : u.x.Lawful) (table : ∃ v, Matches u s v ∧ Vouched u v) (faithful : k.faithful = true)
    (taken : step u s k = some t) : (∃ v, Matches u t v ∧ Vouched u v) ∧ Grows s t := by
  obtain ⟨v,same,vouched⟩ := table
  obtain ⟨w,many,after⟩ := idealStep laws same faithful (stepMove taken)
  have later := manyInvariant (fun _ _ _ before next => Ideal.vouchedNext before next) many vouched
  exact ⟨⟨w,after,later⟩,ownedGrows same.owned (stepMove taken)⟩

theorem endorsedStep (laws : u.x.Lawful) (before : Endorsed u server agent d) (faithful : l.faithful = true)
    (taken : d.step u server agent l = some d') : Endorsed u server agent d' := by
  cases l with
  | system k =>
    obtain ⟨t,moved,rfl⟩ := Option.map_eq_some_iff.mp taken
    obtain ⟨table,grows⟩ := tableStep laws before.table faithful moved
    exact ⟨table,fun e req stage here => endorsingGrows grows (before.handlers e req stage here)⟩
  | endorse req =>
    cases Option.some.inj taken
    unfold Attested.endorse
    split
    · exact handlersAdd before.table (growsSame rfl rfl rfl) before.handlers True.intro
    · rename_i claimsReq checked
      have arrives : step u d.system (.arrive (server.request claimsReq)) =
          some {d.system with threads := d.system.threads ++ [⟨server.request claimsReq,.start,none⟩]} := rfl
      obtain ⟨table,grows⟩ := tableStep laws before.table rfl arrives
      exact handlersAdd table grows before.handlers ⟨claimsReq,_,checked,List.getElem?_concat_length,rfl⟩
  | claimsArrive e expirationTime =>
    simp only [Attested.step] at taken
    split at taken <;> try contradiction
    rename_i req thread here
    obtain ⟨out,got,rfl⟩ := Option.map_eq_some_iff.mp taken
    have ok := before.handlers e req _ here
    refine handlersPut before ?_
    unfold claimsReturned
    split
    · exact True.intro
    · split
      · exact True.intro
      · rename_i marshalled
        exact claimsArrived before.table ok got marshalled
  | claimsFail e err =>
    simp only [Attested.step] at taken
    split at taken <;> try contradiction
    cases Option.some.inj taken
    exact handlersPut before True.intro
  | attest e moment =>
    simp only [Attested.step] at taken
    split at taken <;> try contradiction
    rename_i req kemBytes here
    cases Option.some.inj taken
    refine handlersPut before ?_
    unfold evidenceReturned
    split
    · exact True.intro
    · rename_i attested
      exact ⟨moment,kemBytes,before.handlers e req _ here,attested⟩

theorem endorsedInitial (kpsNow wsNow : Nat) (token : String) :
    Endorsed u server agent (Attested.initial kpsNow wsNow token) :=
  ⟨⟨_,matchesInitial u kpsNow wsNow token,Ideal.vouchedInitial u kpsNow⟩,fun e req stage here => by simp [Attested.initial] at here⟩

def Delivers (u : Setup) (s : System) (kem : KemBirth) : Prop :=
  ∀ skE entropy, skE.length = 32 → (u.x.bssl.computeSharedKey skE kem.record.metadata.spec.ownKey.bytes).isSome →
    ∃ secret, Crypto.encapInternal u.x.bssl kem.record.metadata.spec.ownKey (some skE) entropy =
        .ok (secret,u.x.bssl.toPublic skE) ∧
      ∀ (i : Nat) (th : Thread) call status algorithm told, s.threads[i]? = some th →
        th.task = .answered (.http status (.secret algorithm told)) → Decapsulating u call th.request →
        call.kemUUID = kem.record.id → call.encapsulatedKey = u.x.bssl.toPublic skE → told = secret

theorem tableDelivers {kem : KemBirth} (laws : u.x.Lawful) (table : ∃ v, Matches u s v ∧ Vouched u v) (mem : kem ∈ s.kems) :
    Delivers u s kem := by
  obtain ⟨v,same,vouched⟩ := table
  intro skE entropy size defined
  have issued := issuedMem same.owned mem
  obtain ⟨seed,pair⟩ := vouched.made kem.record.id (keyOf kem.record) (same.issued ▸ issued)
  obtain ⟨owns,recipient⟩ := Crypto.generatedKeypair laws.bssl pair
  obtain ⟨secret,encapsulated,decapsulated,_⟩ :=
    Crypto.decapsInvertsEncap laws.bssl recipient size owns defined entropy
  refine ⟨secret,encapsulated,?_⟩
  intro i th call status algorithm told found answered asks handle ciphertext
  obtain ⟨body,call',key,request,parsed,issued',decapsed⟩ := answeredStands same vouched found answered
  cases decapsulatingSame asks ⟨body,request,parsed⟩
  rw [handle,issued] at issued'
  cases Option.some.inj issued'
  rw [ciphertext] at decapsed
  exact Except.ok.inj (decapsed.symm.trans decapsulated)

/- Evidence that the service has given out is for the challenge of its request and for the
KEM key of its handle, whose binding key was made with it by the workload service; and a
secret that is encapsulated to that key is what every decapsulation request for the handle
is told, before the endorsement and after it. -/
theorem endorsedSecretsArrive {kpsNow wsNow : Nat} {token : String} {ls : List AttestedLabel} {e : Nat}
    {kemEvidence : Evidence} (laws : u.x.Lawful)
    (run : Along (Attested.step u server agent) (fun _ l => l.faithful = true) (Attested.initial kpsNow wsNow token) ls d)
    (endorsed : d.handlers[e]? = some (req,.returned (.ok kemEvidence))) :
    req.challenge ≠ [] ∧ ∃ handle, req.keyHandle = some handle ∧
      ∃ kem ∈ d.system.kems, u.x.parse handle = .ok kem.record.id ∧
        (∃ now expirationTime moment kemBytes, agent.marshal ((keyOf kem.record).claims now) expirationTime = .ok kemBytes ∧
          agent.attestationEvidence moment req.challenge kemBytes req.requestAcpiData = .ok kemEvidence) ∧
        (∃ binding ∈ d.system.bindings, binding.owner = kem.owner ∧ Bound kem.record binding.record) ∧
        Delivers u d.system kem := by
  have ok := alongInvariant (fun _ _ _ before faithful taken => endorsedStep laws before faithful taken) run
    (endorsedInitial kpsNow wsNow token)
  obtain ⟨moment,kemBytes,⟨claimsReq,checked,kem,mem,parsed,now,expirationTime,marshalled⟩,attested⟩ := ok.handlers e req _ endorsed
  obtain ⟨challenge,named,_⟩ := checkedKind checked
  obtain ⟨v,same,vouched⟩ := ok.table
  exact ⟨challenge,claimsReq.keyHandle,named,kem,mem,parsed,⟨now,expirationTime,moment,kemBytes,marshalled,attested⟩,
    (same.owned.kems kem mem).bound,tableDelivers laws ok.table mem⟩

end

/-! The stand-in of the wire format is the one of the claims message. -/

namespace Standin

def varint (n : Nat) : Nat → Bytes
  | 0 => []
  | fuel + 1 => if n < 128 then [UInt8.ofNat n] else UInt8.ofNat (n % 128 + 128) :: varint (n / 128) fuel

def numberField (tag : UInt8) (n : Nat) : Bytes := if n = 0 then [] else tag :: varint n 10

def bytesField (tag : UInt8) (body : Bytes) : Bytes := tag :: (varint body.length 10 ++ body)

def hpkePublicKey (key : HpkePublicKey) : Bytes :=
  bytesField 10 (marshal key.algorithm) ++ (if key.publicKey = [] then [] else bytesField 18 key.publicKey)

def fixed64 (n : UInt64) : Bytes := (List.range 8).map (fun i => UInt8.ofNat (n.toNat / 256 ^ i))

def marshalClaims (claims : KeyClaims) (expirationTime : UInt64) : Except String Bytes :=
  match claims with
  | .vmBindingClaims bindingPubKey => .ok (bytesField 10 (bytesField 10 (hpkePublicKey bindingPubKey)))
  | .vmKeyClaims kemAlgorithm kemPubKey bindingPubKey remainingLifespan =>
    .ok (bytesField 18 (
      bytesField 10 (numberField 8 kemAlgorithm.toNatClampNeg ++ (if kemPubKey = [] then [] else bytesField 18 kemPubKey)) ++
      bytesField 18 (hpkePublicKey bindingPubKey) ++
      bytesField 26 (numberField 8 (remainingLifespan / nanosPerSec) ++ numberField 16 (remainingLifespan % nanosPerSec)) ++
      (if expirationTime = 0 then [] else 33 :: fixed64 expirationTime)))

structure Quote where
  moment : Nat
  challenge : Bytes
  extraData : Bytes
  acpiData : Bool
  deriving DecidableEq

def agent : Agent Quote where
  marshal := marshalClaims
  attestationEvidence moment challenge extraData acpiData := .ok ⟨moment,challenge,extraData,acpiData⟩

end Standin

def endorsing : List AttestedLabel :=
  (Standin.generating 0 1 2).map .system ++
    [.endorse ⟨[5,6],some (uuidString 2),true⟩,.system (.arrive (Standin.decapsRequest 2 (Standin.pad32 [9]))),
      .system (.advance 2 (Standin.entropy 0)),.system (.advance 1 (Standin.entropy 0)),
      .system (.serve 2 (Standin.entropy 7)),.system (.serve 1 (Standin.entropy 0)),.system (.receive 1),
      .endorse ⟨[7],some (uuidString 2),false⟩,.system (.receive 2),.system (.advance 1 (Standin.entropy 0)),
      .claimsArrive 0 4744868316422144000,.claimsFail 1 (.grpc .deadlineExceeded "context deadline exceeded"),
      .system (.advance 2 (Standin.entropy 0)),.attest 0 3,.system (.advance 2 (Standin.entropy 0))]

theorem endorsedSecretsArriveBeside :
    let d := (exec (Attested.step Standin.setup .wsd Standin.agent) (Attested.initial 0 0 "boot-0") endorsing).getD
      (Attested.initial 0 0 "boot-0")
    let claims := KeyClaims.vmKeyClaims 1 (Standin.pad32 [2]) ⟨⟨1,1,1⟩,Standin.pad32 [1]⟩ 3600000000000
    let kemBytes := (Standin.marshalClaims claims 4744868316422144000).toOption.getD []
    let secret := (Crypto.decapsInternal Standin.bssl (Standin.pad32 [2]) (Standin.pad32 [9])).toOption.getD []
    secret.length = 32 ∧
      d.handlers[0]? = some (⟨[5,6],some (uuidString 2),true⟩,.returned (.ok ⟨3,[5,6],kemBytes,true⟩)) ∧
      d.handlers[1]?.map Prod.snd = some (.returned (.error (.grpc .internal
        "failed to get key claims from KPS: rpc error: code = DeadlineExceeded desc = context deadline exceeded"))) ∧
      d.system.threads[2]?.map Thread.task = some (.answered (.http 200 (.secret kemX25519 secret))) ∧
      ∃ kem ∈ d.system.kems, Standin.externals.parse (uuidString 2) = .ok kem.record.id ∧
        Delivers Standin.setup d.system kem := by
  intro d claims kemBytes secret
  have run : Along (Attested.step Standin.setup .wsd Standin.agent) (fun _ l => l.faithful = true)
      (Attested.initial 0 0 "boot-0") endorsing d := alongGetD (by decide +kernel)
  have attested : d.handlers[0]? =
      some (⟨[5,6],some (uuidString 2),true⟩,.returned (.ok ⟨3,[5,6],kemBytes,true⟩)) := by decide +kernel
  obtain ⟨_,handle,named,kem,mem,parsed,_,_,delivers⟩ := endorsedSecretsArrive Standin.lawful run attested
  cases Option.some.inj named
  exact ⟨by decide +kernel,attested,by decide +kernel,by decide +kernel,kem,mem,parsed,delivers⟩

end KeyProtection
