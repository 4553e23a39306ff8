import KeyProtection.Ownership
import KeyProtection.Standin

/-! One generate request with no other request in between: its answer and what it leaves in
the key registry and the handle map, for every outcome of the call to the KPS. A failed
call is answered at once, and the binding key that was made for it stays. -/
namespace KeyProtection
open Lib Lib.Run KeyRegistry

/- generateKEMKey with the checks of handleGenerateKey before it. -/
def generateKey (u : Setup) (ws : KeyRegistry) (map : Table Uuid Uuid) (now : Nat) (entropy : Entropy)
    (kem : Go (Uuid × Bytes)) (body : Body GenerateKeyRequest) : Answer × KeyRegistry × Table Uuid Uuid :=
  match handleGenerateKey u.x body with
  | .error a => (a,ws,map)
  | .ok plan =>
    match WsCore.generateBindingKeypair u.x ws now entropy plan.algo plan.lifespan with
    | (.error fault,ws') => (writeFault "failed to generate binding keypair: " fault,ws',map)
    | (.ok (bindingUUID,_),ws') =>
      match kem with
      | .error fault => (writeFault "failed to generate KEM keypair: " fault,ws',map)
      | .ok (kemUUID,kemPubKey) => (generateAnswer u plan kemUUID kemPubKey,ws',map.insert kemUUID bindingUUID)

/-! The steps of the system compute this function. -/

def Alone (i : Nat) (_ : System) : Label → Prop
  | .advance j _ => j = i
  | .serve j _ => j = i
  | .receive j => j = i
  | .fail j _ => j = i
  | .tick _ _ => True
  | _ => False

def GenerateStage (u : Setup) (ws : KeyRegistry) (map : Table Uuid Uuid) (begun : Nat) (body : Body GenerateKeyRequest)
    (v : System) : Task → Prop
  | .start => v.ws = ws ∧ v.kemToBindingMap = map
  | .generateCalling plan bindingUUID => ∃ now entropy bindingPubKey, begun ≤ now ∧ now ≤ v.wsNow ∧
      handleGenerateKey u.x body = .ok plan ∧
      WsCore.generateBindingKeypair u.x ws now entropy plan.algo plan.lifespan = (.ok (bindingUUID,bindingPubKey),v.ws) ∧
      v.kemToBindingMap = map
  | .generateStoring plan bindingUUID _ _ => ∃ now entropy bindingPubKey, begun ≤ now ∧ now ≤ v.wsNow ∧
      handleGenerateKey u.x body = .ok plan ∧
      WsCore.generateBindingKeypair u.x ws now entropy plan.algo plan.lifespan = (.ok (bindingUUID,bindingPubKey),v.ws) ∧
      v.kemToBindingMap = map
  | .responding a => ∃ now entropy kem, begun ≤ now ∧ now ≤ v.wsNow ∧
      (a,v.ws,v.kemToBindingMap) = generateKey u ws map now entropy kem body
  | .answered a => ∃ now entropy kem, begun ≤ now ∧ now ≤ v.wsNow ∧
      (a,v.ws,v.kemToBindingMap) = generateKey u ws map now entropy kem body
  | _ => False

def Generating (u : Setup) (ws : KeyRegistry) (map : Table Uuid Uuid) (begun i : Nat) (body : Body GenerateKeyRequest)
    (v : System) : Prop :=
  begun ≤ v.wsNow ∧ ∃ th, v.threads[i]? = some th ∧ th.request = .generateKey body ∧
    GenerateStage u ws map begun body v th.task

section
variable {u : Setup} {ws : KeyRegistry} {map : Table Uuid Uuid} {begun i : Nat} {body : Body GenerateKeyRequest}
  {v w : System} {th : Thread} {entropy : Entropy}

theorem generatingPut {task : Task} {rpc : Option Rpc} (late : begun ≤ v.wsNow) (found : v.threads[i]? = some th)
    (request : th.request = .generateKey body) (threads : w.threads = v.threads.set i ⟨th.request,task,rpc⟩)
    (clock : w.wsNow = v.wsNow) (stage : GenerateStage u ws map begun body w task) :
    Generating u ws map begun i body w := by
  refine ⟨clock ▸ late,⟨th.request,task,rpc⟩,?_,request,stage⟩
  rw [threads,getPut found,if_pos rfl]

theorem generatingStarts (late : begun ≤ v.wsNow) (found : v.threads[i]? = some th)
    (request : th.request = .generateKey body) (same : v.ws = ws ∧ v.kemToBindingMap = map)
    (taken : startGenerate u v i th entropy body = some w) : Generating u ws map begun i body w := by
  obtain ⟨rfl,rfl⟩ := same
  unfold startGenerate at taken
  split at taken
  · rename_i a refused
    cases Option.some.inj taken
    refine generatingPut late found request rfl rfl ⟨v.wsNow,entropy,.error .panic,late,Nat.le_refl _,?_⟩
    simp only [generateKey,refused]
    rfl
  rename_i plan planned
  split at taken <;> try contradiction
  simp only at taken
  generalize made : WsCore.generateBindingKeypair u.x v.ws v.wsNow entropy plan.algo plan.lifespan = out at taken
  obtain ⟨outcome,ws'⟩ := out
  cases outcome with
  | error fault =>
    cases Option.some.inj taken
    refine generatingPut late found request rfl rfl ⟨v.wsNow,entropy,.error .panic,late,Nat.le_refl _,?_⟩
    simp only [generateKey,planned,made]
    rfl
  | ok pair =>
    obtain ⟨bindingUUID,bindingPubKey⟩ := pair
    cases Option.some.inj taken
    exact generatingPut late found request rfl rfl
      ⟨v.wsNow,entropy,bindingPubKey,late,Nat.le_refl _,planned,made,rfl⟩

theorem generatingAdvances (before : Generating u ws map begun i body v)
    (taken : step u v (.advance i entropy) = some w) : Generating u ws map begun i body w := by
  obtain ⟨late,th,found,request,stage⟩ := before
  simp only [step,found,Option.bind_some] at taken
  unfold advance at taken
  split at taken <;> try contradiction
  · rename_i fresh
    rw [fresh] at stage
    simp only [start,request] at taken
    exact generatingStarts late found request stage taken
  · rename_i plan bindingUUID kemUUID kemPubKey storing
    rw [storing] at stage
    obtain ⟨now,seed,bindingPubKey,after,before,planned,made,same⟩ := stage
    split at taken <;> try contradiction
    cases Option.some.inj taken
    refine generatingPut late found request rfl rfl ⟨now,seed,.ok (kemUUID,kemPubKey),after,before,?_⟩
    simp only [generateKey,planned,made,System.put,same]
  · rename_i opening
    rw [opening] at stage
    exact stage.elim
  · rename_i destroying
    rw [destroying] at stage
    exact stage.elim
  · rename_i unmapping
    rw [unmapping] at stage
    exact stage.elim
  · rename_i claiming
    rw [claiming] at stage
    exact stage.elim
  · rename_i responding
    rw [responding] at stage
    cases Option.some.inj taken
    exact generatingPut late found request rfl rfl stage

theorem generatingResumes {result : Go KpsReply} {task : Task} (late : begun ≤ v.wsNow) (found : v.threads[i]? = some th)
    (request : th.request = .generateKey body) (stage : GenerateStage u ws map begun body v th.task)
    (next : resume u th.task result = some task) : Generating u ws map begun i body (v.put i (th.goto task)) := by
  generalize waits : th.task = before at stage next
  cases before with
  | generateCalling plan bindingUUID =>
    obtain ⟨now,seed,bindingPubKey,after,past,planned,made,same⟩ := stage
    unfold resume at next
    split at next <;> try contradiction
    · rename_i calling
      cases calling
      cases Option.some.inj next
      exact generatingPut late found request rfl rfl ⟨now,seed,bindingPubKey,after,past,planned,made,same⟩
    · rename_i fault calling
      cases calling
      cases Option.some.inj next
      refine generatingPut late found request rfl rfl ⟨now,seed,.error fault,after,past,?_⟩
      simp only [generateKey,planned,made,System.put,same]
  | start => contradiction
  | generateStoring plan bindingUUID kemUUID kemPubKey => contradiction
  | responding a => contradiction
  | answered a => contradiction
  | _ => exact stage.elim

theorem stageServed {task : Task} (stage : GenerateStage u ws map begun body v task) (sameWs : w.ws = v.ws)
    (sameMap : w.kemToBindingMap = v.kemToBindingMap) (clock : v.wsNow ≤ w.wsNow) :
    GenerateStage u ws map begun body w task := by
  cases task with
  | start => exact ⟨sameWs.trans stage.1,sameMap.trans stage.2⟩
  | generateCalling plan bindingUUID =>
    obtain ⟨now,seed,bindingPubKey,after,past,planned,made,same⟩ := stage
    exact ⟨now,seed,bindingPubKey,after,past.trans clock,planned,sameWs ▸ made,sameMap.trans same⟩
  | generateStoring plan bindingUUID kemUUID kemPubKey =>
    obtain ⟨now,seed,bindingPubKey,after,past,planned,made,same⟩ := stage
    exact ⟨now,seed,bindingPubKey,after,past.trans clock,planned,sameWs ▸ made,sameMap.trans same⟩
  | responding a =>
    obtain ⟨now,seed,kem,after,past,same⟩ := stage
    exact ⟨now,seed,kem,after,past.trans clock,by rw [sameWs,sameMap]; exact same⟩
  | answered a =>
    obtain ⟨now,seed,kem,after,past,same⟩ := stage
    exact ⟨now,seed,kem,after,past.trans clock,by rw [sameWs,sameMap]; exact same⟩
  | _ => exact stage

theorem generatingStep {l : Label} (before : Generating u ws map begun i body v) (alone : Alone i v l)
    (taken : step u v l = some w) : Generating u ws map begun i body w := by
  cases l with
  | advance j entropy =>
    cases alone
    exact generatingAdvances before taken
  | serve j entropy =>
    cases alone
    obtain ⟨late,th,found,request,stage⟩ := before
    simp only [step,found,Option.bind_some] at taken
    unfold serve at taken
    split at taken <;> try contradiction
    split at taken <;> try contradiction
    cases Option.some.inj taken
    exact generatingPut late found request rfl rfl (stageServed stage rfl rfl (Nat.le_refl _))
  | receive j =>
    cases alone
    obtain ⟨late,th,found,request,stage⟩ := before
    simp only [step,found,Option.bind_some] at taken
    unfold receive at taken
    split at taken <;> try contradiction
    obtain ⟨task,next,same⟩ := Option.map_eq_some_iff.mp taken
    subst same
    exact generatingResumes late found request stage next
  | fail j err =>
    cases alone
    obtain ⟨late,th,found,request,stage⟩ := before
    simp only [step,found,Option.bind_some] at taken
    obtain ⟨task,next,same⟩ := Option.map_eq_some_iff.mp taken
    subst same
    exact generatingResumes late found request stage next
  | tick kps ws =>
    obtain ⟨late,th,found,request,stage⟩ := before
    cases Option.some.inj taken
    exact ⟨late.trans (Nat.le_add_right _ _),th,found,request,stageServed stage rfl rfl (Nat.le_add_right _ _)⟩
  | _ => exact alone.elim

theorem generateRunsAlone {s t : System} {ls : List Label} {a : Answer}
    (run : Along (step u) (Alone s.threads.length) {s with threads := s.threads ++ [⟨.generateKey body,.start,none⟩]} ls t)
    (here : t.threads[s.threads.length]? = some th) (answered : th.task = .answered a) :
    ∃ now entropy kem, s.wsNow ≤ now ∧ now ≤ t.wsNow ∧
      (a,t.ws,t.kemToBindingMap) = generateKey u s.ws s.kemToBindingMap now entropy kem body := by
  have arrived : Generating u s.ws s.kemToBindingMap s.wsNow s.threads.length body
      {s with threads := s.threads ++ [⟨.generateKey body,.start,none⟩]} :=
    ⟨Nat.le_refl _,⟨.generateKey body,.start,none⟩,by simp,rfl,rfl,rfl⟩
  obtain ⟨_,th',there,_,stage⟩ :=
    alongInvariant (fun _ _ _ before alone taken => generatingStep before alone taken) run arrived
  cases Option.some.inj (there.symm.trans here)
  rw [answered] at stage
  exact stage

/-! What it leaves. -/

/- The request is accepted and its binding key made, the KPS call fails, and the binding
key's time has not come. -/
def Leaks (u : Setup) (now later : Nat) (entropy : Entropy) (kem : Go (Uuid × Bytes)) (body : Body GenerateKeyRequest) :
    Prop :=
  ∃ plan deleteAfter fault, handleGenerateKey u.x body = .ok plan ∧ entropy.vault = true ∧
    checkedAdd now plan.lifespan = some deleteAfter ∧ kem = .error fault ∧ later < deleteAfter

theorem freshMissing {s : System} {id : Uuid} (owned : Owned u s) (fresh : s.Fresh id) : s.ws.lookup id = none := by
  cases here : s.ws.lookup id with
  | none => rfl
  | some record =>
    obtain ⟨recordId,binding,mem,same⟩ := owned.ws id record here
    subst same
    exact absurd (List.mem_map.mpr ⟨binding,mem,recordId⟩) fresh.2

inductive GenerateOutcome (u : Setup) (ws : KeyRegistry) (map : Table Uuid Uuid) (now : Nat) (entropy : Entropy)
    (kem : Go (Uuid × Bytes)) (body : Body GenerateKeyRequest) : Answer × KeyRegistry × Table Uuid Uuid → Prop where
  | unmade {a} (failure : a.Failure) : GenerateOutcome u ws map now entropy kem body (a,ws,map)
  | unbound {plan record a fault} (planned : handleGenerateKey u.x body = .ok plan) (vault : entropy.vault = true)
      (id : record.id = entropy.uuid) (deadline : checkedAdd now plan.lifespan = some record.deleteAfter)
      (failed : kem = .error fault) (failure : a.Failure) :
      GenerateOutcome u ws map now entropy kem body (a,addKey ws record,map)
  | made {plan record kemUUID kemPubKey} (ok : kem = .ok (kemUUID,kemPubKey)) :
      GenerateOutcome u ws map now entropy kem body
        (generateAnswer u plan kemUUID kemPubKey,addKey ws record,map.insert kemUUID record.id)

theorem generateOutcome (u : Setup) (ws : KeyRegistry) (map : Table Uuid Uuid) (now : Nat) (entropy : Entropy)
    (kem : Go (Uuid × Bytes)) (body : Body GenerateKeyRequest) :
    GenerateOutcome u ws map now entropy kem body (generateKey u ws map now entropy kem body) := by
  unfold generateKey
  split
  · rename_i a refused
    exact .unmade (generateFails refused)
  rename_i plan planned
  have spec := WsCore.generatedBinding u.x ws now entropy plan.algo plan.lifespan
  generalize WsCore.generateBindingKeypair u.x ws now entropy plan.algo plan.lifespan = out at spec
  cases spec with
  | failed fault => exact .unmade (faultFails _ fault)
  | stored suite pubKey record decoded created spec =>
    cases kem with
    | error fault => exact .unbound planned created.vault created.id created.deadline rfl (faultFails _ fault)
    | ok pair => exact .made rfl

theorem generateLeaves {now deleteAfter : Nat} {plan : GeneratePlan} {fault : GoFault} (laws : u.x.Lawful)
    (planned : handleGenerateKey u.x body = .ok plan) (vault : entropy.vault = true)
    (deadline : checkedAdd now plan.lifespan = some deleteAfter) :
    ∃ record, record.id = entropy.uuid ∧ record.deleteAfter = deleteAfter ∧
      generateKey u ws map now entropy (.error fault) body =
        (writeFault "failed to generate KEM keypair: " fault,addKey ws record,map) := by
  obtain ⟨req,_,suite,_⟩ := generatePlanned planned
  have supported : plan.algo.Supported := supportedSuite.mpr suite
  obtain ⟨record,pubKey,id,expiry,made⟩ := WsCore.generatesBinding laws ws supported vault deadline
  exact ⟨record,id,expiry,by simp only [generateKey,planned,made]⟩

theorem generateAllOrNothing {s : System} (laws : u.x.Lawful) (reach : Reachable u s) (fresh : s.Fresh entropy.uuid)
    (now later : Nat) (kem : Go (Uuid × Bytes)) (body : Body GenerateKeyRequest) :
    let out := generateKey u s.ws s.kemToBindingMap now entropy kem body
    (out.1.status ≠ 200 →
      (∀ id, getKey out.2.1 later id = getKey s.ws later id) ∧ out.2.2 = s.kemToBindingMap) ↔
    ¬ Leaks u now later entropy kem body := by
  intro out
  have missing := freshMissing (ownedReachable reach) fresh
  constructor
  · intro restores leaks
    obtain ⟨plan,deleteAfter,fault,planned,vault,deadline,failed,alive⟩ := leaks
    subst failed
    obtain ⟨record,id,expiry,left⟩ := generateLeaves laws planned vault deadline
    have same : out = (writeFault "failed to generate KEM keypair: " fault,addKey s.ws record,s.kemToBindingMap) := left
    rw [same] at restores
    have kept := (restores (failureStatus (faultFails _ fault))).1 record.id
    rw [getKeyAdd,if_pos rfl,if_pos (expiry ▸ alive)] at kept
    have gone : getKey s.ws later record.id = none := by
      rw [getKey,id,missing]
      rfl
    cases kept.trans gone
  · intro clean status
    have outcome : GenerateOutcome u s.ws s.kemToBindingMap now entropy kem body out := generateOutcome ..
    generalize out = result at outcome status
    cases outcome with
    | unmade failure => exact ⟨fun _ => rfl,rfl⟩
    | @unbound plan record a fault planned vault id deadline failed failure =>
      refine ⟨fun other => ?_,rfl⟩
      have expired : ¬ later < record.deleteAfter :=
        fun alive => clean ⟨plan,record.deleteAfter,fault,planned,vault,deadline,failed,alive⟩
      rw [getKeyAdd,if_neg expired]
      split
      · rename_i same
        rw [getKey,same,id,missing]
        rfl
      · rfl
    | made ok => exact absurd rfl status

end

def timedOut : GoError := .grpc .deadlineExceeded "context deadline exceeded"

def usualBody : Body GenerateKeyRequest := .ok ⟨some ⟨"kem",some 1⟩,3600⟩

theorem generateAllOrNothingTwice :
    let s := Standin.after (Standin.generating 0 1 2)
    let outcome := fun kem => generateKey Standin.setup s.ws s.kemToBindingMap 5 (Standin.entropy 3) kem usualBody
    let restores := fun (out : Answer × KeyRegistry × Table Uuid Uuid) => out.1.status ≠ 200 →
      (∀ id, getKey out.2.1 7 id = getKey s.ws 7 id) ∧ out.2.2 = s.kemToBindingMap
    restores (outcome (.ok (4,Standin.pad32 [4]))) ∧ ¬ restores (outcome (failed timedOut)) := by
  intro s outcome restores
  have reach : Reachable Standin.setup s := Standin.afterReachable _ (by decide +kernel)
  have fresh : s.Fresh (Standin.entropy 3).uuid := by decide +kernel
  have both := fun kem => generateAllOrNothing Standin.lawful reach fresh 5 7 kem usualBody
  have planned : handleGenerateKey Standin.externals usualBody = .ok ⟨⟨"kem",some 1⟩,⟨1,1,1⟩,3600⟩ := by decide +kernel
  refine ⟨(both _).mpr (fun leaks => ?_),fun kept => (both _).mp kept ?_⟩
  · obtain ⟨_,_,_,_,_,_,failed,_⟩ := leaks
    contradiction
  · exact ⟨_,3600000000005,_,planned,rfl,by decide +kernel,rfl,by decide⟩

def kemCallTimesOut : List Label :=
  [.arrive Standin.generateRequest,.advance 0 (Standin.entropy 1),.fail 0 timedOut,.advance 0 (Standin.entropy 0)]

theorem kemTimeoutLeavesKey :
    let t := Standin.after kemCallTimesOut
    Reachable Standin.setup t ∧ t.threads.map (fun th => th.task) = [.answered (writeFault
      "failed to generate KEM keypair: " (.error timedOut))] ∧
    (writeFault "failed to generate KEM keypair: " (.error timedOut)).status ≠ 200 ∧
    getKey Standin.start.ws t.wsNow 1 = none ∧ (getKey t.ws t.wsNow 1).isSome := by
  intro t
  exact ⟨Standin.afterReachable kemCallTimesOut (by decide +kernel),by decide +kernel,by decide +kernel,
    by decide +kernel,by decide +kernel⟩

end KeyProtection
