import KeyProtection.Decaps
import KeyProtection.Generate
import KeyProtection.Destroy

/-! What requests about other handles do to a decapsulation: nothing. The answer is a
function of the mapping of its handle, of the two keys of that pair as they are visible at
the time, and of the request; a step of a request that names another handle changes none
of them, because no two handles share a binding key. -/
namespace KeyProtection
open Lib Lib.Run KeyRegistry

def adaptFault (mode : Mode) (call : KpsCall) : GoFault → GoFault
  | .error err => .error (kpsError mode call err)
  | .panic => .panic

/- handleDecaps with nothing in between, the KPS reading its clock at kpsNow and the
workload service at wsNow. -/
def handleDecaps (u : Setup) (s : System) (kpsNow wsNow : Nat) (seed : Bytes) (body : Body DecapsRequest) : Answer :=
  match decapsParse u.x body with
  | .error a => a
  | .ok call =>
    match s.kemToBindingMap.lookup call.kemUUID with
    | none => handleNotFound call.kemUUID
    | some bindingUUID =>
      match KpsCore.decapAndSeal u.x s.kps kpsNow seed call.kemUUID call.encapsulatedKey call.aad with
      | .error fault => writeFault "failed to decap and seal: "
          (adaptFault u.mode (.decapAndSeal call.kemUUID call.encapsulatedKey call.aad) fault)
      | .ok (sealEnc,sealedCT) =>
          decapsAnswer call (WsCore.openSecret u.x s.ws wsNow bindingUUID sealEnc sealedCT call.aad)

/-! The steps of the system compute this function. -/

inductive DecapsAlone (u : Setup) (s : System) (body : Body DecapsRequest) : Task → Option Rpc → Prop where
  | arrived : DecapsAlone u s body .start none
  | sent {call b} (parsed : decapsParse u.x body = .ok call) (mapped : s.kemToBindingMap.lookup call.kemUUID = some b) :
      DecapsAlone u s body (.decapsCalling call b)
        (some ⟨.decapAndSeal call.kemUUID call.encapsulatedKey call.aad,none⟩)
  | served {call b} (kpsNow seed) (parsed : decapsParse u.x body = .ok call)
      (mapped : s.kemToBindingMap.lookup call.kemUUID = some b) :
      DecapsAlone u s body (.decapsCalling call b) (some ⟨.decapAndSeal call.kemUUID call.encapsulatedKey call.aad,
        some ((KpsCore.decapAndSeal u.x s.kps kpsNow seed call.kemUUID call.encapsulatedKey call.aad).map
          (fun made => .sealed made.1 made.2))⟩)
  | opening {call b sealEnc sealedCT sent reply} (kpsNow seed) (parsed : decapsParse u.x body = .ok call)
      (mapped : s.kemToBindingMap.lookup call.kemUUID = some b)
      (sealing : KpsCore.decapAndSeal u.x s.kps kpsNow seed call.kemUUID call.encapsulatedKey call.aad =
        .ok (sealEnc,sealedCT)) :
      DecapsAlone u s body (.decapsOpening call b sealEnc sealedCT) (some ⟨sent,some reply⟩)
  | responding {a rpc} (kpsNow wsNow seed) (unsent : ∀ sent, rpc ≠ some ⟨sent,none⟩)
      (same : a = handleDecaps u s kpsNow wsNow seed body) : DecapsAlone u s body (.responding a) rpc
  | answered {a rpc} (kpsNow wsNow seed) (unsent : ∀ sent, rpc ≠ some ⟨sent,none⟩)
      (same : a = handleDecaps u s kpsNow wsNow seed body) : DecapsAlone u s body (.answered a) rpc

structure AloneWith (u : Setup) (s : System) (i : Nat) (body : Body DecapsRequest) (v : System) : Prop where
  kps : v.kps = s.kps
  ws : v.ws = s.ws
  map : v.kemToBindingMap = s.kemToBindingMap
  thread : ∃ th, v.threads[i]? = some th ∧ th.request = .decaps body ∧ DecapsAlone u s body th.task th.rpc

section
variable {u : Setup} {s v w : System} {i : Nat} {th : Thread} {body : Body DecapsRequest} {l : Label}

theorem alonePut {task rpc} (before : AloneWith u s i body v) (found : v.threads[i]? = some th)
    (request : th.request = .decaps body) (stage : DecapsAlone u s body task rpc) :
    AloneWith u s i body (v.put i ⟨th.request,task,rpc⟩) :=
  ⟨before.kps,before.ws,before.map,_,(getPut found i).trans (if_pos rfl),request,stage⟩

theorem aloneAdvances {entropy : Entropy} (before : AloneWith u s i body v)
    (taken : step u v (.advance i entropy) = some w) : AloneWith u s i body w := by
  obtain ⟨th,found,request,stage⟩ := before.thread
  generalize task : th.task = task' at stage
  generalize sent : th.rpc = rpc at stage
  cases stage with
  | arrived =>
    have unsent : ∀ call, th.rpc ≠ some ⟨call,none⟩ := by simp [sent]
    simp only [step,found,Option.bind_some,advance,task,start,request,startDecaps] at taken
    split at taken
    · rename_i a refused
      cases Option.some.inj taken
      exact alonePut before found request (.responding 0 0 [] unsent (by simp only [handleDecaps,refused]))
    rename_i call parsed
    split at taken <;> try contradiction
    split at taken
    · rename_i missing
      cases Option.some.inj taken
      rw [before.map] at missing
      exact alonePut before found request (.responding 0 0 [] unsent (by simp only [handleDecaps,parsed,missing]))
    · rename_i b mapped
      cases Option.some.inj taken
      rw [before.map] at mapped
      exact alonePut before found request (.sent parsed mapped)
  | sent parsed mapped => simp [step,found,advance,task] at taken
  | served kpsNow seed parsed mapped => simp [step,found,advance,task] at taken
  | @opening call b sealEnc sealedCT sent' reply kpsNow seed parsed mapped sealing =>
    simp only [step,found,Option.bind_some,advance,task] at taken
    cases Option.some.inj taken
    refine alonePut before found request (.responding kpsNow v.wsNow seed (by simp [sent]) ?_)
    simp only [handleDecaps,parsed,mapped,sealing,before.ws]
  | responding kpsNow wsNow seed unsent same =>
    simp only [step,found,Option.bind_some,advance,task] at taken
    cases Option.some.inj taken
    exact alonePut before found request (.answered kpsNow wsNow seed (sent ▸ unsent) same)
  | answered kpsNow wsNow seed unsent same => simp [step,found,advance,task] at taken

theorem aloneServed {entropy : Entropy} (before : AloneWith u s i body v)
    (taken : step u v (.serve i entropy) = some w) : AloneWith u s i body w := by
  obtain ⟨th,found,request,stage⟩ := before.thread
  generalize task : th.task = task' at stage
  generalize sent : th.rpc = rpc at stage
  cases stage with
  | sent parsed mapped =>
    simp only [step,found,Option.bind_some,serve,sent,KpsCall.creates,Bool.false_eq_true,false_and,if_false,serveCall]
      at taken
    cases Option.some.inj taken
    refine ⟨before.kps,before.ws,before.map,_,(getPut found i).trans (if_pos rfl),request,?_⟩
    simp only [task,before.kps]
    exact .served v.kpsNow entropy.seed parsed mapped
  | arrived => simp [step,found,serve,sent] at taken
  | served kpsNow seed parsed mapped => simp [step,found,serve,sent] at taken
  | opening kpsNow seed parsed mapped sealing => simp [step,found,serve,sent] at taken
  | responding kpsNow wsNow seed unsent same =>
    simp only [step,found,Option.bind_some,serve,sent] at taken
    contradiction
  | answered kpsNow wsNow seed unsent same =>
    simp only [step,found,Option.bind_some,serve,sent] at taken
    contradiction

theorem aloneReceives (before : AloneWith u s i body v) (taken : step u v (.receive i) = some w) :
    AloneWith u s i body w := by
  obtain ⟨th,found,request,stage⟩ := before.thread
  generalize task : th.task = task' at stage
  generalize sent : th.rpc = rpc at stage
  cases stage with
  | arrived => simp [step,found,receive,sent] at taken
  | sent parsed mapped => simp [step,found,receive,sent] at taken
  | @served call b kpsNow seed parsed mapped =>
    simp only [step,found,Option.bind_some,receive,sent,task] at taken
    cases sealing : KpsCore.decapAndSeal u.x s.kps kpsNow seed call.kemUUID call.encapsulatedKey call.aad with
    | ok pair =>
      simp only [sealing,Except.map,adapt,resume,Option.map_some] at taken
      cases Option.some.inj taken
      refine alonePut before found request ?_
      rw [sent]
      exact .opening kpsNow seed parsed mapped sealing
    | error fault =>
      have faulted : resume u (.decapsCalling call b) (adapt u.mode
          (.decapAndSeal call.kemUUID call.encapsulatedKey call.aad) (.error fault)) =
          some (.responding (handleDecaps u s kpsNow 0 seed body)) := by
        simp only [handleDecaps,parsed,mapped,sealing]
        cases fault <;> rfl
      simp only [sealing,Except.map,faulted,Option.map_some] at taken
      cases Option.some.inj taken
      exact alonePut before found request (.responding kpsNow 0 seed (by simp [sent]) rfl)
  | opening kpsNow seed parsed mapped sealing => simp [step,found,receive,sent,task,resume] at taken
  | responding kpsNow wsNow seed unsent same =>
    simp only [step,found,Option.bind_some,receive,task] at taken
    split at taken <;> simp [resume] at taken
  | answered kpsNow wsNow seed unsent same =>
    simp only [step,found,Option.bind_some,receive,task] at taken
    split at taken <;> simp [resume] at taken

theorem aloneStep (before : AloneWith u s i body v) (alone : Alone i v l ∧ l.harms i = false)
    (taken : step u v l = some w) : AloneWith u s i body w := by
  obtain ⟨alone,unharmed⟩ := alone
  cases l with
  | advance j entropy =>
    cases alone
    exact aloneAdvances before taken
  | serve j entropy =>
    cases alone
    exact aloneServed before taken
  | receive j =>
    cases alone
    exact aloneReceives before taken
  | fail j err =>
    cases alone
    exact absurd rfl (beq_eq_false_iff_ne.mp unharmed)
  | tick kps ws =>
    cases Option.some.inj taken
    exact ⟨before.kps,before.ws,before.map,before.thread⟩
  | _ => exact alone.elim

theorem decapsRunsAlone {t : System} {ls : List Label} {a : Answer}
    (run : Along (step u) (fun v l => Alone s.threads.length v l ∧ l.harms s.threads.length = false)
      {s with threads := s.threads ++ [⟨.decaps body,.start,none⟩]} ls t)
    (here : t.threads[s.threads.length]? = some th) (answered : th.task = .answered a) :
    ∃ kpsNow wsNow seed, a = handleDecaps u s kpsNow wsNow seed body := by
  have arrived : AloneWith u s s.threads.length body {s with threads := s.threads ++ [⟨.decaps body,.start,none⟩]} :=
    ⟨rfl,rfl,rfl,_,List.getElem?_concat_length,rfl,.arrived⟩
  have final := alongInvariant (fun _ _ _ before alone taken => aloneStep before alone taken) run arrived
  obtain ⟨th',there,_,stage⟩ := final.thread
  cases Option.some.inj (there.symm.trans here)
  rw [answered] at stage
  generalize th.rpc = rpc at stage
  cases stage with
  | answered kpsNow wsNow seed unsent same => exact ⟨kpsNow,wsNow,seed,same⟩

end

/-! The answer depends on one pair only. -/

/- Only requests that do not name h move; there is no restart and no cleanup. -/
def Elsewhere (u : Setup) (h : Uuid) (s : System) : Label → Prop
  | .arrive request => request.handle u.x ≠ some h
  | .advance i _ => ∀ th ∈ s.threads[i]?, th.request.handle u.x ≠ some h
  | .serve i _ => ∀ th ∈ s.threads[i]?, th.request.handle u.x ≠ some h
  | .receive i => ∀ th ∈ s.threads[i]?, th.request.handle u.x ≠ some h
  | .replay i _ => ∀ th ∈ s.threads[i]?, th.request.handle u.x ≠ some h
  | .fail i _ => ∀ th ∈ s.threads[i]?, th.request.handle u.x ≠ some h
  | .restart _ => False
  | .beat pulse => pulse ≠ .destroysAll ∧ pulse ≠ .resets
  | _ => True

instance (u : Setup) (h : Uuid) (s : System) : (l : Label) → Decidable (Elsewhere u h s l)
  | .arrive request => inferInstanceAs (Decidable (request.handle u.x ≠ some h))
  | .advance i _ | .serve i _ | .receive i | .replay i _ | .fail i _ =>
      inferInstanceAs (Decidable (∀ th ∈ s.threads[i]?, th.request.handle u.x ≠ some h))
  | .restart _ => .isFalse id
  | .beat pulse => inferInstanceAs (Decidable (pulse ≠ .destroysAll ∧ pulse ≠ .resets))
  | .tick _ _ | .reapKps _ | .reapWs _ => .isTrue trivial

structure Untouched (u : Setup) (s : System) (h b : Uuid) (v : System) : Prop where
  owned : Owned u v
  mapped : v.kemToBindingMap.lookup h = some b
  kem : ∀ now, v.kpsNow ≤ now → getKey v.kps now h = getKey s.kps now h
  binding : ∀ now, v.wsNow ≤ now → getKey v.ws now b = getKey s.ws now b

section
variable {u : Setup} {s v w : System} {h b : Uuid} {l : Label}

theorem destroysHandle {k : Uuid} {request : Request} (destroys : Destroys u k request) :
    request.handle u.x = some k := by
  obtain ⟨body,same,parsed⟩ := destroys
  rw [same]
  exact destroyHandle parsed

theorem untouchedStep (before : Untouched u s h b v) (elsewhere : Elsewhere u h v l) (move : Move u v l w) :
    Untouched u s h b w := by
  have owned := before.owned
  have settled := owned.map h b before.mapped
  have owned' := ownedStep owned move
  cases move with
  | @bindingMade i th entropy body plan suite pubKey record found fresh request planned unused decoded created spec =>
    obtain ⟨other,mem,id⟩ := settledBorn settled
    have different : b ≠ record.id := fun same => unused.2 (List.mem_map.mpr ⟨other,mem,id.trans same⟩)
    refine ⟨owned',before.mapped,before.kem,fun now later => ?_⟩
    exact (getKeyAdd.trans (if_neg different)).trans (before.binding now later)
  | @kemMade i th entropy algo bindingPubKey lifespanSecs suite pubKey bindingKey record found sent unused bound decoded
      created spec =>
    obtain ⟨other,mem,_,_,id,_⟩ := settled
    have different : h ≠ record.id := fun same => unused.1 (List.mem_map.mpr ⟨other,mem,id.trans same⟩)
    refine ⟨owned',before.mapped,fun now later => ?_,before.binding⟩
    exact (getKeyAdd.trans (if_neg different)).trans (before.kem now later)
  | @kemDestroyed i th entropy kemUUID found sent =>
    have named := destroysHandle ((owned.threads i th found).destroys kemUUID none sent)
    have different : h ≠ kemUUID := fun same => elsewhere th found (same ▸ named)
    exact ⟨owned',before.mapped,fun now later => (getKeyErase different).trans (before.kem now later),before.binding⟩
  | @stored i th entropy plan bindingUUID kemUUID kemPubKey found stage free =>
    have different : h ≠ kemUUID := fun same => storingUnsettled owned found stage (same ▸ settled)
    exact ⟨owned',(Table.lookupInsert ..).trans ((if_neg different).trans before.mapped),before.kem,before.binding⟩
  | @bindingDestroyed i th entropy kemUUID bindingUUID errKps found stage =>
    have task := (owned.threads i th found).task
    rw [stage] at task
    obtain ⟨pair,destroys⟩ := task
    -- The binding key that goes is the one of the handle that the request names.
    have different : b ≠ bindingUUID := by
      intro same
      subst same
      have handles := settledKem owned settled pair
      exact elsewhere th found (handles ▸ destroysHandle destroys)
    exact ⟨owned',before.mapped,before.kem,fun now later => (getKeyErase different).trans (before.binding now later)⟩
  | @unmapped i th entropy kemUUID bindingUUID errKps errWs found stage free =>
    have task := (owned.threads i th found).task
    rw [stage] at task
    have different : h ≠ kemUUID := fun same => elsewhere th found (same ▸ destroysHandle task.2)
    exact ⟨owned',(Table.lookupErase ..).trans ((if_neg different).trans before.mapped),before.kem,before.binding⟩
  | ticked kps ws =>
    exact ⟨owned',before.mapped,fun now later => before.kem now ((Nat.le_add_right _ _).trans later),
      fun now later => before.binding now ((Nat.le_add_right _ _).trans later)⟩
  | reapedKps past =>
    exact ⟨owned',before.mapped,fun now later => (getKeyReap (past.trans later)).trans (before.kem now later),
      before.binding⟩
  | reapedWs past =>
    exact ⟨owned',before.mapped,before.kem,
      fun now later => (getKeyReap (past.trans later)).trans (before.binding now later)⟩
  | restarted given unused => exact elsewhere.elim
  | purged stage => exact absurd rfl elsewhere.1
  | reset stage => exact absurd rfl elsewhere.2
  | _ => exact ⟨owned',before.mapped,before.kem,before.binding⟩

inductive SealOutcome (u : Setup) (s : System) (now : Nat) (b : Uuid) (call : DecapsCall) : Prop where
  | fails (fault : GoFault) (always : ∀ seed,
      KpsCore.decapAndSeal u.x s.kps now seed call.kemUUID call.encapsulatedKey call.aad = .error fault)
  | seals (secret : Bytes) (size : secret.length = 32) (always : ∀ seed, ∃ sealEnc sealedCT,
      KpsCore.decapAndSeal u.x s.kps now seed call.kemUUID call.encapsulatedKey call.aad = .ok (sealEnc,sealedCT) ∧
      Opens u s b call.aad sealEnc sealedCT secret)

theorem sealOutcome (laws : u.x.Lawful) (owned : Owned u s) {call : DecapsCall} (settled : Settled s call.kemUUID b)
    (given : call.encapsulatedKey ≠ []) (now : Nat) : SealOutcome u s now b call := by
  cases live : getKey s.kps now call.kemUUID with
  | none =>
    refine .fails (.error (.ffi .notFound)) (fun seed => ?_)
    rw [KpsCore.decapAndSealEq u.x s.kps now seed call.kemUUID call.aad given]
    simp only [KpsCore.decapAndSealInternal,live,ffiCall,failed]
  | some record =>
    obtain ⟨recordId,kem,kemMem,same⟩ := owned.kps _ _ (getKeyLookup live)
    subst same
    obtain ⟨_,_,binding,bindingMem,_,bindingId,_⟩ := id settled
    have bound := settledBound owned settled kemMem recordId bindingMem bindingId
    cases decapsed : Crypto.decapsInternal u.x.bssl kem.record.privateKey call.encapsulatedKey with
    | error fault =>
      refine .fails (.error (.ffi (ffiCall (.error fault)))) (fun seed => ?_)
      obtain ⟨suite,kemKey,bindingKey,kemSpec,_⟩ := bound
      rw [KpsCore.decapAndSealEq u.x s.kps now seed call.kemUUID call.aad given]
      simp [KpsCore.decapAndSealInternal,live,kemSpec,decapsed,bind,Except.bind,failed]
    | ok secret =>
      have size := Crypto.decapsSize laws.bssl decapsed
      refine .seals secret size (fun seed => ?_)
      obtain ⟨suite,kemKey,bindingKey,sealEnc,sealedCT,kemSpec,bindingSpec,sealing,encSize,ctSize,opened⟩ :=
        pairSealsOpens laws.bssl bound (owned.bindings binding bindingMem).made secret call.aad seed
      have sealedSize : sealedCT.length = 48 := by rw [ctSize,size]
      refine ⟨sealEnc,sealedCT,KpsCore.decapsAndSeals live kemSpec given decapsed sealing encSize sealedSize,?_,?_,
        binding,bindingMem,bindingId,suite,bindingKey,bindingSpec,opened⟩
      · exact List.ne_nil_of_length_pos (by omega)
      · exact List.ne_nil_of_length_pos (by omega)

theorem decapsAnySeed (laws : u.x.Lawful) (owned : Owned u s) (kpsNow wsNow : Nat) (seed seed' : Bytes)
    (body : Body DecapsRequest) :
    handleDecaps u s kpsNow wsNow seed body = handleDecaps u s kpsNow wsNow seed' body := by
  unfold handleDecaps
  split
  · rfl
  rename_i call parsed
  split
  · rfl
  rename_i b mapped
  obtain ⟨req,_,accepted⟩ := decapsParsed parsed
  cases sealOutcome laws owned (owned.map _ _ mapped) accepted.given kpsNow with
  | fails fault always => rw [always seed,always seed']
  | seals secret size always =>
    obtain ⟨sealEnc,sealedCT,sealing,opens⟩ := always seed
    obtain ⟨sealEnc',sealedCT',sealing',opens'⟩ := always seed'
    rw [sealing,sealing']
    simp only [opensVisible owned size opens,opensVisible owned size opens']

theorem decapsVisible {kpsNow wsNow : Nat} {body : Body DecapsRequest} (seed : Bytes) (after : Untouched u s h b v)
    (mapped : s.kemToBindingMap.lookup h = some b) (names : (Request.decaps body).handle u.x = some h)
    (kpsLater : v.kpsNow ≤ kpsNow) (wsLater : v.wsNow ≤ wsNow) :
    handleDecaps u v kpsNow wsNow seed body = handleDecaps u s kpsNow wsNow seed body := by
  unfold handleDecaps
  split
  · rfl
  rename_i call parsed
  have same : call.kemUUID = h := Option.some.inj ((decapsHandle parsed).symm.trans names)
  rw [same,after.mapped,mapped]
  simp only [KpsCore.decapAndSealVisible (after.kem kpsNow kpsLater),WsCore.openVisible (after.binding wsNow wsLater)]

theorem decapsIsolated {ls : List Label} {t : System} {kpsNow wsNow : Nat} (laws : u.x.Lawful) (reach : Reachable u s)
    (mapped : s.kemToBindingMap.lookup h = some b) (run : Along (step u) (Elsewhere u h) s ls t)
    (kpsLater : t.kpsNow ≤ kpsNow) (wsLater : t.wsNow ≤ wsNow) (body : Body DecapsRequest)
    (names : (Request.decaps body).handle u.x = some h) (seed seed' : Bytes) :
    handleDecaps u t kpsNow wsNow seed body = handleDecaps u s kpsNow wsNow seed' body := by
  have owned := ownedReachable reach
  have untouched : Untouched u s h b s := ⟨owned,mapped,fun _ _ => rfl,fun _ _ => rfl⟩
  have after := alongInvariant (fun _ _ _ before elsewhere taken => untouchedStep before elsewhere (stepMove taken)) run
    untouched
  calc handleDecaps u t kpsNow wsNow seed body
      = handleDecaps u s kpsNow wsNow seed body := decapsVisible seed after mapped names kpsLater wsLater
    _ = handleDecaps u s kpsNow wsNow seed' body := decapsAnySeed laws owned kpsNow wsNow seed seed' body

end

def otherHandles : List Label :=
  Standin.generating 1 3 4 ++
    [.arrive (Standin.destroyRequest 4),.advance 2 (Standin.entropy 0),.serve 2 (Standin.entropy 0),.receive 2,
      .advance 2 (Standin.entropy 0),.advance 2 (Standin.entropy 0),.advance 2 (Standin.entropy 0),
      .arrive (Standin.decapsRequest 5 [1]),.advance 3 (Standin.entropy 0),.tick 9 9,.reapKps 9]

theorem decapsIsolatedFromOthers :
    let s := Standin.after (Standin.generating 0 1 2)
    let t := Standin.onward s otherHandles
    let body : Body DecapsRequest := .ok ⟨some (uuidString 2),some ⟨kemX25519,Standin.pad32 [9]⟩⟩
    handleDecaps Standin.setup t 20 20 [7] body = handleDecaps Standin.setup s 20 20 [8] body ∧
      (handleDecaps Standin.setup s 20 20 [8] body).status = 200 := by
  intro s t body
  have reach : Reachable Standin.setup s := Standin.afterReachable _ (by decide +kernel)
  have run : Along (step Standin.setup) (Elsewhere Standin.setup 2) s otherHandles t := alongGetD (by decide +kernel)
  exact ⟨decapsIsolated Standin.lawful reach (b := 1) (by decide +kernel) run (by decide +kernel) (by decide +kernel) body
    (by decide +kernel) [7] [8],by decide +kernel⟩

end KeyProtection
