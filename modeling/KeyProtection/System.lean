import KeyProtection.Heartbeat
import KeyProtection.Lib.Run

/-! One workload service with its key registry and handle map, one KPS, and any number of
requests. Every access to shared state is one step: a lookup, store or delete in
kemToBindingMap, a call into either custody core, a message sent, served or received, and
the phases of the heartbeat. A request may time out while its RPC is still on its way, and
the RPC may be served afterwards. The KPS may restart at any time. -/
namespace KeyProtection
open Lib (Table)

/- Where a handler stands. Every one of them makes at most one RPC. -/
inductive Task where
  | start
  | generateCalling (plan : GeneratePlan) (bindingUUID : Uuid)
  | generateStoring (plan : GeneratePlan) (bindingUUID kemUUID : Uuid) (kemPubKey : Bytes)
  | decapsCalling (call : DecapsCall) (bindingUUID : Uuid)
  | decapsOpening (call : DecapsCall) (bindingUUID : Uuid) (sealEnc sealedCT : Bytes)
  | destroyCalling (kemUUID bindingUUID : Uuid)
  | destroyBinding (kemUUID bindingUUID : Uuid) (errKps : Option GoError)
  | destroyUnmapping (kemUUID bindingUUID : Uuid) (errKps errWs : Option GoError)
  | enumerateCalling
  | claimsBinding (id bindingID : Uuid)
  | claimsCalling (id : Uuid)
  | responding (a : Answer)
  | answered (a : Answer)
  deriving DecidableEq

structure Rpc where
  call : KpsCall
  reply : Option (Go KpsReply)
  deriving DecidableEq

structure Thread where
  request : Request
  task : Task
  rpc : Option Rpc
  deriving DecidableEq

structure KemBirth where
  owner : Nat
  boot : Nat
  record : KeyRecord
  deriving DecidableEq

structure BindingBirth where
  owner : Nat
  record : KeyRecord
  deriving DecidableEq

structure System where
  kps : KeyRegistry
  kpsNow : Nat
  boot : Nat
  token : String
  ws : KeyRegistry
  wsNow : Nat
  kemToBindingMap : Table Uuid Uuid
  threads : List Thread
  beat : Beat
  cachedToken : String
  -- History that no code reads: the tokens of all boots, the boot of the last token that
  -- arrived, key creations with the request that made them, and the binding keys destroyed
  -- by cleanups and by destroy requests.
  tokens : List Receipt
  seen : Option Nat
  kems : List KemBirth
  bindings : List BindingBirth
  purged : List Uuid
  unbound : List (Nat × Uuid)

def System.initial (kpsNow wsNow : Nat) (token : String) : System :=
  ⟨∅,kpsNow,0,token,∅,wsNow,∅,[],.idle none,"",[⟨0,token⟩],none,[],[],[],[]⟩

inductive Label where
  | arrive (request : Request)
  | advance (i : Nat) (entropy : Entropy)
  | serve (i : Nat) (entropy : Entropy)
  | receive (i : Nat)
  -- The answer to another DecapAndSeal call is delivered in place of the expected one.
  | replay (i j : Nat)
  | fail (i : Nat) (err : GoError)
  | tick (kps ws : Nat)
  | reapKps (now : Nat)
  | reapWs (now : Nat)
  | restart (token : String)
  | beat (pulse : Pulse)
  deriving DecidableEq

def KpsCall.creates : KpsCall → Bool
  | .generate _ _ _ => true
  | _ => false

def KpsCall.decaps : KpsCall → Bool
  | .decapAndSeal _ _ _ => true
  | _ => false

def System.Fresh (s : System) (id : Uuid) : Prop :=
  id ∉ s.kems.map (fun birth => birth.record.id) ∧ id ∉ s.bindings.map (fun birth => birth.record.id)

instance (s : System) (id : Uuid) : Decidable (s.Fresh id) := by unfold System.Fresh; infer_instance

def System.put (s : System) (i : Nat) (th : Thread) : System := {s with threads := s.threads.set i th}

namespace Thread

def goto (th : Thread) (task : Task) : Thread := {th with task := task}

def respond (th : Thread) (a : Answer) : Thread := th.goto (.responding a)

def call (th : Thread) (task : Task) (call : KpsCall) : Thread := {th with task := task, rpc := some ⟨call,none⟩}

end Thread

/- The first piece of every handler, up to and including its first shared access. -/
def startGenerate (u : Setup) (s : System) (i : Nat) (th : Thread) (entropy : Entropy)
    (body : Body GenerateKeyRequest) : Option System :=
  match handleGenerateKey u.x body with
  | .error a => some (s.put i (th.respond a))
  | .ok plan =>
    if ¬ s.Fresh entropy.uuid then none
    else
      let out := WsCore.generateBindingKeypair u.x s.ws s.wsNow entropy plan.algo plan.lifespan
      match out.1 with
      | .error fault => some {s.put i (th.respond (writeFault "failed to generate binding keypair: " fault)) with
          ws := out.2}
      | .ok (bindingUUID,bindingPubKey) =>
        some {s.put i (th.call (.generateCalling plan bindingUUID)
            (.generate plan.algo bindingPubKey plan.lifespan)) with
          ws := out.2, bindings := (out.2.lookup bindingUUID).toList.map (BindingBirth.mk i) ++ s.bindings}

def startDecaps (u : Setup) (s : System) (i : Nat) (th : Thread) (body : Body DecapsRequest) : Option System :=
  match decapsParse u.x body with
  | .error a => some (s.put i (th.respond a))
  | .ok call =>
    if s.beat.locked then none
    else match s.kemToBindingMap.lookup call.kemUUID with
      | none => some (s.put i (th.respond (handleNotFound call.kemUUID)))
      | some bindingUUID => some (s.put i (th.call (.decapsCalling call bindingUUID)
          (.decapAndSeal call.kemUUID call.encapsulatedKey call.aad)))

def startDestroy (u : Setup) (s : System) (i : Nat) (th : Thread) (body : Body DestroyRequest) : Option System :=
  match destroyParse u.x body with
  | .error a => some (s.put i (th.respond a))
  | .ok kemUUID =>
    if s.beat.locked then none
    else match s.kemToBindingMap.lookup kemUUID with
      | none => some (s.put i (th.respond (handleNotFound kemUUID)))
      | some bindingUUID => some (s.put i (th.call (.destroyCalling kemUUID bindingUUID) (.destroy kemUUID)))

def startClaims (u : Setup) (s : System) (i : Nat) (th : Thread) (req : GetKeyClaimsRequest) : Option System :=
  match getKeyClaimsPlan u req with
  | .error err => some (s.put i (th.respond (.claimsFailed err)))
  | .ok (.kem id) => some (s.put i (th.call (.claimsCalling id) (.getKEMKey id)))
  | .ok (.binding id) =>
    if s.beat.locked then none
    else match s.kemToBindingMap.lookup id with
      | none => some (s.put i (th.respond (.claimsFailed (bindingUnmapped id))))
      | some bindingID => some (s.put i (th.goto (.claimsBinding id bindingID)))

def start (u : Setup) (s : System) (i : Nat) (th : Thread) (entropy : Entropy) : Option System :=
  match th.request with
  | .generateKey body => startGenerate u s i th entropy body
  | .decaps body => startDecaps u s i th body
  | .destroy body => startDestroy u s i th body
  | .enumerateKeys => some (s.put i (th.call .enumerateCalling (.enumerate defaultEnumerateLimit 0)))
  | .getKeyClaims req => startClaims u s i th req
  | .kpsGetKeyClaims req => some (s.put i (th.respond (kpsGetKeyClaims u s.kps s.kpsNow s.kpsNow req)))

/- The later pieces, each with the shared access it makes. -/
def advance (u : Setup) (s : System) (i : Nat) (th : Thread) (entropy : Entropy) : Option System :=
  match th.task with
  | .start => start u s i th entropy
  | .generateStoring plan bindingUUID kemUUID kemPubKey =>
      if s.beat.locked then none
      else some {s.put i (th.respond (generateAnswer u plan kemUUID kemPubKey)) with
        kemToBindingMap := s.kemToBindingMap.insert kemUUID bindingUUID}
  | .decapsOpening call bindingUUID sealEnc sealedCT =>
      some (s.put i (th.respond (decapsAnswer call
        (WsCore.openSecret u.x s.ws s.wsNow bindingUUID sealEnc sealedCT call.aad))))
  | .destroyBinding kemUUID bindingUUID errKps =>
      let out := WsCore.destroyBindingKey s.ws bindingUUID
      some {s.put i (th.goto (.destroyUnmapping kemUUID bindingUUID errKps out.1)) with
        ws := out.2, unbound := (if out.1.isNone then [(i,bindingUUID)] else []) ++ s.unbound}
  | .destroyUnmapping kemUUID _ errKps errWs =>
      if s.beat.locked then none
      else some {s.put i (th.respond (destroyAnswer errKps errWs)) with
        kemToBindingMap := s.kemToBindingMap.erase kemUUID}
  | .claimsBinding _ bindingID =>
      some (s.put i (th.respond (bindingClaimsAnswer (WsCore.getBindingKey u.x s.ws s.wsNow bindingID))))
  | .responding a => some (s.put i (th.goto (.answered a)))
  | _ => none

/- What a handler does with the outcome of its RPC. DestroyKEMKey returns only an error. -/
def resume (u : Setup) : Task → Go KpsReply → Option Task
  | .generateCalling plan bindingUUID, .ok (.generated kemUUID kemPubKey) =>
      some (.generateStoring plan bindingUUID kemUUID kemPubKey)
  | .generateCalling _ _, .error fault => some (.responding (writeFault "failed to generate KEM keypair: " fault))
  | .decapsCalling call bindingUUID, .ok (.sealed sealEnc sealedCT) =>
      some (.decapsOpening call bindingUUID sealEnc sealedCT)
  | .decapsCalling _ _, .error fault => some (.responding (writeFault "failed to decap and seal: " fault))
  | .destroyCalling kemUUID bindingUUID, .ok .destroyed => some (.destroyBinding kemUUID bindingUUID none)
  | .destroyCalling kemUUID bindingUUID, .error (.error err) => some (.destroyBinding kemUUID bindingUUID (some err))
  | .enumerateCalling, .ok (.keys keys hasMore) => some (.responding (enumerateAnswer u (.ok (keys,hasMore))))
  | .enumerateCalling, .error fault => some (.responding (enumerateAnswer u (.error fault)))
  | .claimsCalling _, .ok (.kem info) => some (.responding (kemClaimsAnswer (.ok info)))
  | .claimsCalling _, .error fault => some (.responding (kemClaimsAnswer (.error fault)))
  | _, _ => none

def adapt (mode : Mode) (call : KpsCall) : Go KpsReply → Go KpsReply
  | .error (.error err) => .error (.error (kpsError mode call err))
  | result => result

def serve (u : Setup) (s : System) (i : Nat) (th : Thread) (entropy : Entropy) : Option System :=
  match th.rpc with
  | some ⟨call,none⟩ =>
    if call.creates ∧ ¬ s.Fresh entropy.uuid then none
    else
      let out := serveCall u.x s.kps s.kpsNow entropy call
      let births := match out.1 with
        | .ok (.generated kemUUID _) => (out.2.lookup kemUUID).toList.map (KemBirth.mk i s.boot)
        | _ => []
      some {s.put i {th with rpc := some ⟨call,some out.1⟩} with kps := out.2, kems := births ++ s.kems}
  | _ => none

def receive (u : Setup) (s : System) (i : Nat) (th : Thread) : Option System :=
  match th.rpc with
  | some ⟨call,some reply⟩ => (resume u th.task (adapt u.mode call reply)).map (fun task => s.put i (th.goto task))
  | _ => none

/- Only a handler that waits for a DecapAndSeal answer can be given another one. -/
def replay (u : Setup) (s : System) (i : Nat) (th other : Thread) : Option System :=
  match th.task, other.rpc with
  | .decapsCalling call bindingUUID, some ⟨sent,some reply⟩ =>
      if sent.decaps then
        (resume u (.decapsCalling call bindingUUID) (adapt u.mode sent reply)).map (fun task => s.put i (th.goto task))
      else none
  | _, _ => none

def beat (u : Setup) (s : System) (pulse : Pulse) : Option System :=
  (s.beat.step u s.cachedToken ⟨s.boot,s.token⟩ pulse).map (fun out =>
    let s' := {s with beat := out.1, cachedToken := out.2}
    match pulse with
    | .receives => {s' with seen := s.beat.arriving.map Receipt.boot}
    | .destroysAll => {s' with ws := (WsCore.destroyAllKeys s.ws).2, purged := s.ws.keys ++ s.purged}
    | .resets => {s' with kemToBindingMap := ∅}
    | _ => s')

def step (u : Setup) (s : System) : Label → Option System
  | .arrive request => some {s with threads := s.threads ++ [⟨request,.start,none⟩]}
  | .advance i entropy => s.threads[i]?.bind (fun th => advance u s i th entropy)
  | .serve i entropy => s.threads[i]?.bind (fun th => serve u s i th entropy)
  | .receive i => s.threads[i]?.bind (fun th => receive u s i th)
  | .replay i j => s.threads[i]?.bind (fun th => s.threads[j]?.bind (fun other => replay u s i th other))
  | .fail i err => s.threads[i]?.bind (fun th =>
      (resume u th.task (failed err)).map (fun task => s.put i (th.goto task)))
  | .tick kps ws => some {s with kpsNow := s.kpsNow + kps, wsNow := s.wsNow + ws}
  | .reapKps now => if now ≤ s.kpsNow then some {s with kps := KeyRegistry.reap s.kps now} else none
  | .reapWs now => if now ≤ s.wsNow then some {s with ws := KeyRegistry.reap s.ws now} else none
  | .restart token =>
      if token ≠ "" ∧ token ∉ s.tokens.map Receipt.token then
        some {s with kps := ∅, boot := s.boot + 1, token := token, tokens := ⟨s.boot + 1,token⟩ :: s.tokens}
      else none
  | .beat pulse => beat u s pulse

def Reachable (u : Setup) (s : System) : Prop :=
  ∃ kpsNow wsNow token, token ≠ "" ∧ Lib.Run.Reachable (step u) (System.initial kpsNow wsNow token) s

end KeyProtection
