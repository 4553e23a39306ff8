import KeyProtection.Grpc
import KeyProtection.Listing

/-! The KPS as any client finds it. Its port is open to whoever reaches it, its requests need
not come from a workload service, and nothing in a request but the handle says whose key it
is. What it promises is about the handle: the KEM key and the binding key behind it are
those of the one call that made it, every secret leaves sealed to that binding key, and a
handle that was destroyed is never answered again. -/
namespace KeyProtection
open Lib Lib.Run KeyRegistry

def GrpcServer.dispatch (x : Externals) (order : RangeOrder) (keys : KeyRegistry) (m : Moment) :
    KpsRequest → Go KpsResponse × KeyRegistry
  | .generateKEMKeypair req =>
      let out := validationInterceptor x req.violations keys (generateKEMKeypair x order keys m.now m.entropy req)
      (out.1.map .generateKEMKeypair,out.2)
  | .decapAndSeal req =>
      let out := validationInterceptor x req.violations keys (decapAndSeal x order keys m.now m.entropy.seed req)
      (out.1.map .decapAndSeal,out.2)
  | .enumerateKEMKeys req =>
      let out := validationInterceptor x req.violations keys (enumerateKEMKeys x order keys m.now m.readings req)
      (out.1.map .enumerateKEMKeys,out.2)
  | .destroyKEMKey req =>
      let out := validationInterceptor x req.violations keys (destroyKEMKey x order keys req)
      (out.1.map (fun _ => .destroyKEMKey),out.2)
  | .getKEMKey req =>
      let out := validationInterceptor x req.violations keys (getKEMKey x order keys m.now m.later req)
      (out.1.map .getKEMKey,out.2)

structure Exchange where
  request : KpsRequest
  response : Go KpsResponse

/- A handler that panics takes the process with it; the next one starts empty. The log has
the last exchange first, in the order in which the handlers reached the registry. -/
structure KpsServer where
  keys : KeyRegistry
  now : Nat
  running : Bool
  log : List Exchange
  -- The ids that uuid v4 has drawn, for any process. No code reads them.
  drawn : List Uuid

def KpsServer.initial (now : Nat) : KpsServer := ⟨∅,now,true,[],[]⟩

inductive KpsAct where
  | call (req : KpsRequest) (entropy : Entropy) (later : Nat) (readings : Nat → Nat)
  | reap (now : Nat)
  | tick (elapsed : Nat)
  | restart

def KpsRequest.draws : KpsRequest → Bool
  | .generateKEMKeypair _ => true
  | _ => false

def Go.panics {α : Type} : Go α → Bool
  | .error .panic => true
  | _ => false

def KpsServer.step (x : Externals) (order : RangeOrder) (s : KpsServer) : KpsAct → Option KpsServer
  | .call req entropy later readings =>
      if s.running = false ∨ (req.draws && s.drawn.contains entropy.uuid) then none
      else
        let out := GrpcServer.dispatch x order s.keys ⟨s.now,later,readings,entropy⟩ req
        some {s with
          keys := out.2
          running := ! out.1.panics
          log := ⟨req,out.1⟩ :: s.log
          drawn := (if req.draws then [entropy.uuid] else []) ++ s.drawn}
  | .reap now => if now ≤ s.now then some {s with keys := reap s.keys now} else none
  | .tick elapsed => some {s with now := s.now + elapsed}
  | .restart => some {s with keys := ∅, running := true}

/-! What the handle of an exchange stands for. -/

structure Issue where
  handle : Uuid
  suite : HpkeAlgorithm
  kemKey : PublicKey
  bindingKey : PublicKey
  privateKey : Bytes

def Issue.of (record : KeyRecord) : Issue :=
  ⟨record.id,record.metadata.spec.algo,record.metadata.spec.ownKey,record.metadata.spec.bindingKey,record.privateKey⟩

def Exchange.Destroys (x : Externals) (e : Exchange) (h : Uuid) : Prop :=
  ∃ req, e = ⟨.destroyKEMKey req,.ok .destroyKEMKey⟩ ∧ x.parse (req.keyHandle.getD "") = .ok h

section
variable {x : Externals} {order : RangeOrder} {keys : KeyRegistry} {m : Moment} {s t : KpsServer}
  {issues issues' : Issue → Prop} {resp : KpsResponse}

end

end KeyProtection
