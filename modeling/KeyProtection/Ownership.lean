import KeyProtection.Moves

/-! Who made which key. A binding key and a KEM key are linked by the one generate request
that made both, whatever happened between its steps; the handle map, the pending requests
and the answers only ever name pairs linked in that way. Facts about the history grow
with it, so they survive every step of every other request. -/
namespace KeyProtection
open Lib KeyRegistry

def Made (c : Bssl) (record : KeyRecord) : Prop :=
  record.metadata.spec.algo.Supported ∧ ∃ seed,
    Crypto.generateKeypair c .dhkemX25519HkdfSha256 seed = .ok (record.metadata.spec.ownKey,record.privateKey)

def Bound (kem binding : KeyRecord) : Prop :=
  ∃ suite kemKey bindingKey, kem.metadata.spec = .kemWithBindingPub suite kemKey bindingKey ∧
    binding.metadata.spec = .binding suite bindingKey

def Thread.done (th : Thread) : Prop := (∃ a, th.task = .responding a) ∨ (∃ a, th.task = .answered a)

def Settled (s : System) (k b : Uuid) : Prop :=
  ∃ kem ∈ s.kems, ∃ binding ∈ s.bindings, kem.record.id = k ∧ binding.record.id = b ∧
    kem.owner = binding.owner ∧ ∃ th, s.threads[kem.owner]? = some th ∧ th.done

def Born (s : System) (b : Uuid) : Prop := ∃ binding ∈ s.bindings, binding.record.id = b

def Sealing (u : Setup) (s : System) (k : Uuid) (encapsulatedKey aad sealEnc sealedCT : Bytes) : Prop :=
  ∃ kem ∈ s.kems, kem.record.id = k ∧ ∃ suite kemKey bindingKey secret seed,
    kem.record.metadata.spec = .kemWithBindingPub suite kemKey bindingKey ∧
    Crypto.decapsInternal u.x.bssl kem.record.privateKey encapsulatedKey = .ok secret ∧
    Crypto.hpkeSealInternal u.x.bssl bindingKey secret aad suite seed = .ok (sealEnc,sealedCT) ∧
    sealEnc ≠ [] ∧ sealedCT ≠ []

def NamesBinding (x : Externals) (record : KeyRecord) (key : HpkePublicKey) : Prop :=
  ∃ suite bindingKey, record.metadata.spec = .binding suite bindingKey ∧ key.publicKey = bindingKey.bytes ∧
    x.decode (x.marshal suite) = .ok key.algorithm

def NamesBound (x : Externals) (record : KeyRecord) (key : HpkePublicKey) : Prop :=
  ∃ suite kemKey bindingKey, record.metadata.spec = .kemWithBindingPub suite kemKey bindingKey ∧
    key.publicKey = bindingKey.bytes ∧ x.decode (x.marshal suite) = .ok key.algorithm

def Request.handle (x : Externals) : Request → Option Uuid
  | .decaps (.ok req) => (x.parse (req.keyHandle.getD "")).toOption
  | .destroy (.ok req) => (x.parse (req.keyHandle.getD "")).toOption
  | .getKeyClaims req => (x.parse req.keyHandle).toOption
  | .kpsGetKeyClaims req => (x.parse req.keyHandle).toOption
  | _ => none

def ReplyOk (u : Setup) (s : System) (i : Nat) : KpsCall → Go KpsReply → Prop
  | call, .ok (.generated kemUUID kemPubKey) => call.creates = true ∧
      ∃ kem ∈ s.kems, kem.owner = i ∧ kem.record.id = kemUUID ∧ kem.record.metadata.spec.ownKey.bytes = kemPubKey
  | call, .ok (.sealed sealEnc sealedCT) => ∃ k enc aad, call = .decapAndSeal k enc aad ∧
      Sealing u s k enc aad sealEnc sealedCT
  | call, .ok (.kem info) => ∃ id, call = .getKEMKey id ∧ ∃ kem ∈ s.kems, kem.record.id = id ∧
      NamesBound u.x kem.record ⟨info.algo,info.bindingPubKey⟩
  | _, _ => True

def Told (u : Setup) (s : System) (i : Nat) (request : Request) : Answer → Prop
  | .http _ (.key info) => ∃ kem ∈ s.kems, kem.owner = i ∧ info.handle = uuidString kem.record.id ∧
      info.publicKey = kem.record.metadata.spec.ownKey.bytes
  | .claims (.vmBindingClaims key) => ∃ k b, request.handle u.x = some k ∧ Settled s k b ∧
      ∃ binding ∈ s.bindings, binding.record.id = b ∧ NamesBinding u.x binding.record key
  | .claims (.vmKeyClaims _ _ key _) => ∃ k, request.handle u.x = some k ∧
      ∃ kem ∈ s.kems, kem.record.id = k ∧ NamesBound u.x kem.record key
  | _ => True

def Destroys (u : Setup) (k : Uuid) (request : Request) : Prop :=
  ∃ body, request = .destroy body ∧ destroyParse u.x body = .ok k

def Decapsulating (u : Setup) (call : DecapsCall) (request : Request) : Prop :=
  ∃ body, request = .decaps body ∧ decapsParse u.x body = .ok call

structure Mapping where
  kemUUID : Uuid
  bindingUUID : Uuid

/- What the next step of the request stores in the handle map. -/
def Task.storing : Task → Option Mapping
  | .generateStoring _ bindingUUID kemUUID _ => some ⟨kemUUID,bindingUUID⟩
  | _ => none

def MadeBinding (s : System) (i : Nat) (b : Uuid) : Prop :=
  ∃ binding ∈ s.bindings, binding.owner = i ∧ binding.record.id = b

def TaskOk (u : Setup) (s : System) (i : Nat) (th : Thread) : Task → Prop
  | .generateCalling _ b => MadeBinding s i b
  | .generateStoring _ b k kemPubKey => MadeBinding s i b ∧ ∃ kem ∈ s.kems, kem.owner = i ∧ kem.record.id = k ∧
      kem.record.metadata.spec.ownKey.bytes = kemPubKey
  | .decapsCalling call b => Settled s call.kemUUID b ∧ Decapsulating u call th.request ∧
      ∃ reply, th.rpc = some ⟨.decapAndSeal call.kemUUID call.encapsulatedKey call.aad,reply⟩
  | .decapsOpening call b _ _ => Settled s call.kemUUID b ∧ Decapsulating u call th.request
  | .destroyCalling k b => Settled s k b ∧ Destroys u k th.request ∧ ∃ reply, th.rpc = some ⟨.destroy k,reply⟩
  | .destroyBinding k b _ => Settled s k b ∧ Destroys u k th.request
  | .destroyUnmapping k b _ _ => Settled s k b ∧ Destroys u k th.request
  | .claimsBinding k b => Settled s k b ∧ th.request.handle u.x = some k
  | .claimsCalling k => th.request.handle u.x = some k ∧ ∃ reply, th.rpc = some ⟨.getKEMKey k,reply⟩
  | .responding a => Told u s i th.request a
  | .answered a => Told u s i th.request a
  | _ => True

structure ThreadOk (u : Setup) (s : System) (i : Nat) (th : Thread) : Prop where
  silent : th.task = .start → th.rpc = none
  sent : ∀ algo bindingPubKey lifespanSecs reply, th.rpc = some ⟨.generate algo bindingPubKey lifespanSecs,reply⟩ →
    ∃ binding ∈ s.bindings, binding.owner = i ∧ ∃ suite key, u.x.decode (u.x.marshal algo) = .ok suite ∧
      binding.record.metadata.spec = .binding suite key ∧ key.bytes = bindingPubKey
  destroys : ∀ k reply, th.rpc = some ⟨.destroy k,reply⟩ → Destroys u k th.request
  replied : ∀ call reply, th.rpc = some ⟨call,some reply⟩ → ReplyOk u s i call reply
  task : TaskOk u s i th th.task

structure KemOk (u : Setup) (s : System) (kem : KemBirth) : Prop where
  made : Made u.x.bssl kem.record
  bound : ∃ binding ∈ s.bindings, binding.owner = kem.owner ∧ Bound kem.record binding.record
  told : ∃ th call kemPubKey, s.threads[kem.owner]? = some th ∧
    th.rpc = some ⟨call,some (.ok (.generated kem.record.id kemPubKey))⟩

structure BindingOk (u : Setup) (s : System) (binding : BindingBirth) : Prop where
  made : Made u.x.bssl binding.record
  spec : ∃ suite key, binding.record.metadata.spec = .binding suite key
  begun : ∃ th, s.threads[binding.owner]? = some th ∧ th.task ≠ .start

structure Owned (u : Setup) (s : System) : Prop where
  kemIds : (s.kems.map (fun kem => kem.record.id)).Nodup
  kemOwners : (s.kems.map KemBirth.owner).Nodup
  bindingIds : (s.bindings.map (fun binding => binding.record.id)).Nodup
  bindingOwners : (s.bindings.map BindingBirth.owner).Nodup
  kps : ∀ id record, s.kps.lookup id = some record → record.id = id ∧ ∃ kem ∈ s.kems, kem.record = record
  ws : ∀ id record, s.ws.lookup id = some record → record.id = id ∧ ∃ binding ∈ s.bindings, binding.record = record
  kems : ∀ kem ∈ s.kems, KemOk u s kem
  bindings : ∀ binding ∈ s.bindings, BindingOk u s binding
  map : ∀ k b, s.kemToBindingMap.lookup k = some b → Settled s k b
  threads : ∀ (i : Nat) (th : Thread), s.threads[i]? = some th → ThreadOk u s i th

/-! Growth: what a later state keeps of an earlier one. -/

structure Follows (th th' : Thread) : Prop where
  request : th'.request = th.request
  begun : th.task ≠ .start → th'.task ≠ .start
  done : th.done → th'.done
  replied : ∀ call reply, th.rpc = some ⟨call,some reply⟩ → th'.rpc = some ⟨call,some reply⟩

structure Grows (s t : System) : Prop where
  kems : ∀ kem ∈ s.kems, kem ∈ t.kems
  bindings : ∀ binding ∈ s.bindings, binding ∈ t.bindings
  threads : ∀ (i : Nat) (th : Thread), s.threads[i]? = some th → ∃ th', t.threads[i]? = some th' ∧ Follows th th'

theorem followsRefl (th : Thread) : Follows th th := ⟨rfl,id,id,fun _ _ h => h⟩

section
variable {u : Setup} {s t : System} {i : Nat} {th th' : Thread}

theorem settledGrows {k b} (grows : Grows s t) (settled : Settled s k b) : Settled t k b := by
  obtain ⟨kem,kemMem,binding,bindingMem,kemId,bindingId,owner,th,found,done⟩ := settled
  obtain ⟨th',found',follows⟩ := grows.threads _ th found
  exact ⟨kem,grows.kems kem kemMem,binding,grows.bindings binding bindingMem,kemId,bindingId,owner,th',found',
    follows.done done⟩

theorem settledBorn {k b} (settled : Settled s k b) : Born s b := by
  obtain ⟨_,_,binding,mem,_,id,_⟩ := settled
  exact ⟨binding,mem,id⟩

theorem sealingGrows {k enc aad sealEnc sealedCT} (grows : Grows s t) (h : Sealing u s k enc aad sealEnc sealedCT) :
    Sealing u t k enc aad sealEnc sealedCT := by
  obtain ⟨kem,mem,rest⟩ := h
  exact ⟨kem,grows.kems kem mem,rest⟩

theorem replyGrows {call reply} (grows : Grows s t) (h : ReplyOk u s i call reply) : ReplyOk u t i call reply := by
  match reply with
  | .ok (.generated kemUUID kemPubKey) =>
    obtain ⟨creates,kem,mem,rest⟩ := h
    exact ⟨creates,kem,grows.kems kem mem,rest⟩
  | .ok (.sealed sealEnc sealedCT) =>
    obtain ⟨k,enc,aad,same,sealing⟩ := h
    exact ⟨k,enc,aad,same,sealingGrows grows sealing⟩
  | .ok (.kem info) =>
    obtain ⟨id,same,kem,mem,rest⟩ := h
    exact ⟨id,same,kem,grows.kems kem mem,rest⟩
  | .ok .destroyed => trivial
  | .ok (.keys _ _) => trivial
  | .error _ => trivial

theorem toldGrows {request a} (grows : Grows s t) (h : Told u s i request a) : Told u t i request a := by
  match a with
  | .http _ (.key info) =>
    obtain ⟨kem,mem,rest⟩ := h
    exact ⟨kem,grows.kems kem mem,rest⟩
  | .claims (.vmBindingClaims key) =>
    obtain ⟨k,b,handle,settled,binding,mem,rest⟩ := h
    exact ⟨k,b,handle,settledGrows grows settled,binding,grows.bindings binding mem,rest⟩
  | .claims (.vmKeyClaims _ _ key _) =>
    obtain ⟨k,handle,kem,mem,rest⟩ := h
    exact ⟨k,handle,kem,grows.kems kem mem,rest⟩
  | .http _ (.error _) => trivial
  | .http _ (.secret _ _) => trivial
  | .http _ (.keys _) => trivial
  | .http _ .empty => trivial
  | .claimsFailed _ => trivial
  | .closed => trivial

theorem madeBindingGrows {b} (grows : Grows s t) (h : MadeBinding s i b) : MadeBinding t i b := by
  obtain ⟨binding,mem,rest⟩ := h
  exact ⟨binding,grows.bindings binding mem,rest⟩

theorem taskGrows {task} (grows : Grows s t) (h : TaskOk u s i th task) : TaskOk u t i th task := by
  cases task with
  | generateCalling plan b => exact madeBindingGrows grows h
  | generateStoring plan b k kemPubKey =>
    obtain ⟨made,kem,mem,rest⟩ := h
    exact ⟨madeBindingGrows grows made,kem,grows.kems kem mem,rest⟩
  | decapsCalling call b => exact ⟨settledGrows grows h.1,h.2⟩
  | decapsOpening call b sealEnc sealedCT => exact ⟨settledGrows grows h.1,h.2⟩
  | destroyCalling k b => exact ⟨settledGrows grows h.1,h.2⟩
  | destroyBinding k b errKps => exact ⟨settledGrows grows h.1,h.2⟩
  | destroyUnmapping k b errKps errWs => exact ⟨settledGrows grows h.1,h.2⟩
  | claimsBinding k b => exact ⟨settledGrows grows h.1,h.2⟩
  | claimsCalling k => exact h
  | responding a => exact toldGrows grows h
  | answered a => exact toldGrows grows h
  | start => trivial
  | enumerateCalling => trivial

theorem threadGrows (grows : Grows s t) (h : ThreadOk u s i th) : ThreadOk u t i th where
  silent := h.silent
  sent := by
    intro algo bindingPubKey lifespanSecs reply sent
    obtain ⟨binding,mem,rest⟩ := h.sent algo bindingPubKey lifespanSecs reply sent
    exact ⟨binding,grows.bindings binding mem,rest⟩
  destroys := h.destroys
  replied := fun call reply sent => replyGrows grows (h.replied call reply sent)
  task := taskGrows grows h.task

theorem kemGrows {kem} (grows : Grows s t) (h : KemOk u s kem) : KemOk u t kem := by
  obtain ⟨binding,mem,rest⟩ := h.bound
  obtain ⟨th,call,kemPubKey,found,replied⟩ := h.told
  obtain ⟨th',found',follows⟩ := grows.threads _ th found
  exact ⟨h.made,⟨binding,grows.bindings binding mem,rest⟩,th',call,kemPubKey,found',
    follows.replied _ _ replied⟩

theorem bindingGrows {binding} (grows : Grows s t) (h : BindingOk u s binding) : BindingOk u t binding := by
  obtain ⟨th,found,begun⟩ := h.begun
  obtain ⟨th',found',follows⟩ := grows.threads _ th found
  exact ⟨h.made,h.spec,th',found',follows.begun begun⟩

/-! Every step grows the history. -/

theorem growsPut (found : s.threads[i]? = some th) (follows : Follows th th')
    (threads : t.threads = s.threads.set i th') (kems : ∀ kem ∈ s.kems, kem ∈ t.kems)
    (bindings : ∀ binding ∈ s.bindings, binding ∈ t.bindings) : Grows s t := by
  refine ⟨kems,bindings,fun j other here => ?_⟩
  rw [threads,getPut found]
  split
  · rename_i same
    subst same
    cases Option.some.inj (here.symm.trans found)
    exact ⟨th',rfl,follows⟩
  · exact ⟨other,here,followsRefl other⟩

theorem growsSame (threads : t.threads = s.threads) (kems : t.kems = s.kems) (bindings : t.bindings = s.bindings) :
    Grows s t := by
  refine ⟨fun kem mem => kems ▸ mem,fun binding mem => bindings ▸ mem,fun j other here => ?_⟩
  exact ⟨other,threads ▸ here,followsRefl other⟩

theorem notDone (fresh : th.task = .start) : ¬ th.done := by
  intro done
  rcases done with ⟨a,same⟩ | ⟨a,same⟩ <;> rw [fresh] at same <;> contradiction

theorem followsStart (next : Thread) (fresh : th.task = .start) (silent : th.rpc = none)
    (request : next.request = th.request) : Follows th next where
  request := request
  begun := fun begun => absurd fresh begun
  done := fun done => absurd done (notDone fresh)
  replied := by
    intro call reply replied
    rw [silent] at replied
    contradiction

theorem followsGoto {task} (begun : task ≠ .start) (done : th.done → (th.goto task).done) :
    Follows th (th.goto task) := ⟨rfl,fun _ => begun,done,fun _ _ replied => replied⟩

theorem followsReply {call reply} (sent : th.rpc = some ⟨call,none⟩) :
    Follows th {th with rpc := some ⟨call,some reply⟩} := by
  refine ⟨rfl,id,id,fun call' reply' replied => ?_⟩
  rw [sent] at replied
  simp at replied

theorem respondDone (a : Answer) : (th.respond a).done := .inl ⟨a,rfl⟩

theorem resumptionBegun {task result task'} (next : Resumption u task result task') : task' ≠ .start := by
  cases next <;> simp

theorem resumptionFollows {result task} (next : Resumption u th.task result task) : Follows th (th.goto task) := by
  generalize stage : th.task = before at next
  have waits : (∀ a, before ≠ .responding a) → (∀ a, before ≠ .answered a) → ¬ th.done := by
    intro notResponding notAnswered done
    rcases done with ⟨a,same⟩ | ⟨a,same⟩
    · exact notResponding a (stage.symm.trans same)
    · exact notAnswered a (stage.symm.trans same)
  cases next with
  | faulted ends failure =>
    exact followsGoto (by simp) (fun _ => respondDone _)
  | claimed => exact followsGoto (by simp) (fun _ => respondDone _)
  | listed => exact followsGoto (by simp) (fun _ => respondDone _)
  | _ => exact followsGoto (by simp) (fun done => absurd done (waits (by simp) (by simp)))

theorem quietFollows {l} (silent : th.task = .start → th.rpc = none) (next : Quiet u s i th l th') :
    Follows th th' := by
  cases next with
  | opened stage => exact followsGoto (by simp) (fun _ => respondDone _)
  | claimed stage => exact followsGoto (by simp) (fun _ => respondDone _)
  | answered stage => exact followsGoto (by simp) (fun _ => .inr ⟨_,rfl⟩)
  | resumed origin next => exact resumptionFollows (resumption next)
  | _ =>
    have fresh : th.task = .start := by assumption
    exact followsStart _ fresh (silent fresh) rfl

theorem moveGrows {l} (silent : ∀ (i : Nat) (th : Thread), s.threads[i]? = some th → th.task = .start → th.rpc = none)
    (move : Move u s l t) : Grows s t := by
  cases move with
  | arrived request =>
    refine ⟨fun _ mem => mem,fun _ mem => mem,fun j other here => ⟨other,?_,followsRefl other⟩⟩
    have bound : j < s.threads.length := (List.getElem?_eq_some_iff.mp here).1
    exact (List.getElem?_append_left bound).trans here
  | quiet found next =>
    exact growsPut found (quietFollows (silent _ _ found) next) rfl (fun _ mem => mem) (fun _ mem => mem)
  | bindingMade found fresh _ _ _ _ _ _ =>
    exact growsPut found (followsStart (Thread.call _ _ _) fresh (silent _ _ found fresh) rfl) rfl
      (fun _ mem => mem) (fun _ mem => List.mem_cons_of_mem _ mem)
  | kemMade found sent _ _ _ _ _ =>
    exact growsPut found (followsReply sent) rfl (fun _ mem => List.mem_cons_of_mem _ mem) (fun _ mem => mem)
  | kemDestroyed found sent => exact growsPut found (followsReply sent) rfl (fun _ mem => mem) (fun _ mem => mem)
  | served found sent _ _ _ => exact growsPut found (followsReply sent) rfl (fun _ mem => mem) (fun _ mem => mem)
  | stored found stage _ =>
    exact growsPut found (followsGoto (by simp) (fun _ => respondDone _)) rfl (fun _ mem => mem) (fun _ mem => mem)
  | bindingDestroyed found stage =>
    have waits : ¬ Thread.done _ := fun done => by
      rcases done with ⟨a,same⟩ | ⟨a,same⟩ <;> rw [stage] at same <;> contradiction
    exact growsPut found (followsGoto (by simp) (fun done => absurd done waits)) rfl (fun _ mem => mem)
      (fun _ mem => mem)
  | unmapped found stage _ =>
    exact growsPut found (followsGoto (by simp) (fun _ => respondDone _)) rfl (fun _ mem => mem) (fun _ mem => mem)
  | _ => exact growsSame rfl rfl rfl

theorem ownedGrows {l} (owned : Owned u s) (move : Move u s l t) : Grows s t :=
  moveGrows (fun j other here => (owned.threads j other here).silent) move

/-! Every step keeps the ownership. -/

theorem adaptOk {mode call result reply} (same : adapt mode call result = .ok reply) : result = .ok reply := by
  unfold adapt at same
  split at same <;> try contradiction
  exact same

theorem outcomeOwn {l result reply} (origin : Outcome u s i th l result) (ok : result = .ok reply) :
    (∃ call b, th.task = .decapsCalling call b) ∨ ∃ call, th.rpc = some ⟨call,some (.ok reply)⟩ := by
  cases origin with
  | received own =>
    rename_i call reply'
    exact .inr ⟨call,by rw [own,adaptOk ok]⟩
  | replayed _ _ _ waiting => exact .inl ⟨_,_,waiting⟩
  | timedOut err => contradiction

theorem failureTold {request a} (failure : a.Failure) : Told u s i request a := by
  cases failure <;> trivial

theorem resumedTask {l result task} (ok : ThreadOk u s i th) (origin : Outcome u s i th l result)
    (next : Resumption u th.task result task) : TaskOk u s i (th.goto task) task := by
  have before := ok.task
  have own : ∀ reply, result = .ok reply → _ := fun reply same => outcomeOwn origin same
  generalize stage : th.task = task' at next before
  cases next with
  | generated =>
    rcases own _ rfl with ⟨_,_,other⟩ | ⟨call,replied⟩
    · rw [stage] at other
      contradiction
    · exact ⟨before,(ok.replied _ _ replied).2⟩
  | sealed => exact ⟨before.1,before.2.1⟩
  | destroyed => exact ⟨before.1,before.2.1⟩
  | undestroyed => exact ⟨before.1,before.2.1⟩
  | claimed =>
    rcases own _ rfl with ⟨_,_,other⟩ | ⟨call,replied⟩
    · rw [stage] at other
      contradiction
    · obtain ⟨handle,reply,sent⟩ := before
      obtain ⟨named,same,kem,mem,kemId,names⟩ := ok.replied _ _ replied
      rw [replied] at sent
      have calls := congrArg Rpc.call (Option.some.inj sent)
      cases calls.symm.trans same
      exact ⟨_,handle,kem,mem,kemId,names⟩
  | listed => trivial
  | faulted ends failure => exact failureTold failure

theorem destroyHandle {x body kemUUID} (parsed : destroyParse x body = .ok kemUUID) :
    (Request.destroy body).handle x = some kemUUID := by
  obtain ⟨req,same,handle⟩ := destroyParsed parsed
  simp only [same,Request.handle,handle,Except.toOption]

theorem decapsHandle {x body call} (parsed : decapsParse x body = .ok call) :
    (Request.decaps body).handle x = some call.kemUUID := by
  obtain ⟨req,same,accepted⟩ := decapsParsed parsed
  simp only [same,Request.handle,accepted.handle,Except.toOption]

theorem claimsHandle {plan req} (planned : getKeyClaimsPlan u req = .ok plan) :
    (Request.getKeyClaims req).handle u.x = some plan.id := by
  simp only [Request.handle,claimsPlanned planned,Except.toOption]

theorem getKeyLookup {keys : KeyRegistry} {now id record} (got : getKey keys now id = some record) :
    keys.lookup id = some record := (getKeyIff.mp got).1

theorem bindingTold {request k b} (owned : Owned u s) (handle : request.handle u.x = some k) (settled : Settled s k b) :
    Told u s i request (bindingClaimsAnswer (WsCore.getBindingKey u.x s.ws s.wsNow b)) := by
  cases got : WsCore.getBindingKey u.x s.ws s.wsNow b with
  | error fault => cases fault <;> trivial
  | ok pair =>
    obtain ⟨record,suite,key,live,spec,pubKey,decoded⟩ := WsCore.gotBindingKey got
    obtain ⟨recordId,binding,mem,same⟩ := owned.ws b record (getKeyLookup live)
    subst same
    exact ⟨k,b,handle,settled,binding,mem,recordId,suite,key,spec,pubKey,decoded⟩

theorem kemQuoted {now later id info} (owned : Owned u s)
    (got : KpsCore.getKEMKey u.x s.kps now later id = .ok info) :
    ∃ kem ∈ s.kems, kem.record.id = id ∧ NamesBound u.x kem.record ⟨info.algo,info.bindingPubKey⟩ := by
  obtain ⟨record,suite,key,bindingKey,live,spec,_,pubKey,decoded⟩ := KpsCore.gotKEMKey got
  obtain ⟨recordId,kem,mem,same⟩ := owned.kps id record (getKeyLookup live)
  subst same
  exact ⟨kem,mem,recordId,suite,key,bindingKey,spec,pubKey,decoded⟩

theorem kpsTold {req} (owned : Owned u s) :
    Told u s i (.kpsGetKeyClaims req) (kpsGetKeyClaims u s.kps s.kpsNow s.kpsNow req) := by
  unfold kpsGetKeyClaims
  split
  · trivial
  split
  · trivial
  split
  · trivial
  rename_i kemUUID parsed
  have handle : (Request.kpsGetKeyClaims req).handle u.x = some kemUUID := by
    simp only [Request.handle,parsed,Except.toOption]
  split
  · rename_i info got
    exact ⟨kemUUID,handle,kemQuoted owned got⟩
  · trivial
  · trivial

theorem gotoOk {task} (begun : task ≠ .start) (ok : ThreadOk u s i th) (next : TaskOk u s i (th.goto task) task) :
    ThreadOk u s i (th.goto task) :=
  ⟨fun fresh => absurd fresh begun,ok.sent,ok.destroys,ok.replied,next⟩

theorem respondOk {a} (ok : ThreadOk u s i th) (told : Told u s i th.request a) : ThreadOk u s i (th.respond a) :=
  gotoOk (by simp) ok told

theorem callOk {task call} (begun : task ≠ .start) (reader : call.creates = false)
    (destroys : ∀ k, call = .destroy k → Destroys u k th.request)
    (next : TaskOk u s i (th.call task call) task) : ThreadOk u s i (th.call task call) := by
  refine ⟨fun fresh => absurd fresh begun,?_,?_,?_,next⟩
  · intro algo bindingPubKey lifespanSecs reply sent
    have same : call = .generate algo bindingPubKey lifespanSecs := congrArg Rpc.call (Option.some.inj sent)
    rw [same] at reader
    contradiction
  · intro k reply sent
    exact destroys k (congrArg Rpc.call (Option.some.inj sent))
  · intro call' reply replied
    have same : none = some reply := congrArg Rpc.reply (Option.some.inj replied)
    contradiction

theorem decapsTold {call result} {request : Request} : Told u s i request (decapsAnswer call result) := by
  cases result with
  | error fault => exact failureTold (faultFails _ fault)
  | ok plaintext => trivial

theorem quietThread {l} (owned : Owned u s) (ok : ThreadOk u s i th) (next : Quiet u s i th l th') :
    ThreadOk u s i th' := by
  cases next with
  | refused fresh why => exact respondOk ok (failureTold (refusedFails why))
  | notMade fresh request planned => exact respondOk ok (failureTold (faultFails _ _))
  | decapsFound fresh request parsed free mapped =>
    exact callOk (by simp) rfl (by simp) ⟨owned.map _ _ mapped,⟨_,request,parsed⟩,none,rfl⟩
  | decapsMissing fresh request parsed free missing => exact respondOk ok (failureTold (notFoundFails _))
  | destroyFound fresh request parsed free mapped =>
    refine callOk (by simp) rfl (fun k same => ?_) ⟨owned.map _ _ mapped,⟨_,request,parsed⟩,none,rfl⟩
    cases same
    exact ⟨_,request,parsed⟩
  | destroyMissing fresh request parsed free missing => exact respondOk ok (failureTold (notFoundFails _))
  | enumerating fresh request => exact callOk (by simp) rfl (by simp) trivial
  | claimsSent fresh request planned =>
    refine callOk (by simp) rfl (by simp) ⟨?_,none,rfl⟩
    rw [Thread.call,request]
    exact claimsHandle planned
  | claimsFound fresh request planned free mapped =>
    refine gotoOk (by simp) ok ⟨owned.map _ _ mapped,?_⟩
    rw [Thread.goto,request]
    exact claimsHandle planned
  | claimsMissing fresh request planned => exact respondOk ok (failureTold (.claims _))
  | kpsClaims fresh request =>
    refine respondOk ok ?_
    rw [request]
    exact kpsTold owned
  | opened stage => exact respondOk ok decapsTold
  | claimed stage =>
    have before := ok.task
    rw [stage] at before
    exact respondOk ok (bindingTold owned before.2 before.1)
  | answered stage =>
    have before := ok.task
    rw [stage] at before
    exact gotoOk (by simp) ok before
  | resumed origin next =>
    have resumes := resumption next
    exact gotoOk (resumptionBegun resumes) ok (resumedTask ok origin resumes)

theorem servedReply {entropy call reply} (owned : Owned u s)
    (reads : serveCall u.x s.kps s.kpsNow entropy call = (reply,s.kps))
    (nothing : ∀ kemUUID kemPubKey, reply ≠ .ok (.generated kemUUID kemPubKey)) : ReplyOk u s i call reply := by
  have made : (serveCall u.x s.kps s.kpsNow entropy call).1 = reply := congrArg Prod.fst reads
  subst made
  cases call with
  | generate algo bindingPubKey lifespanSecs =>
    simp only [serveCall] at nothing ⊢
    cases out : (KpsCore.generateKEMKeypair u.x s.kps s.kpsNow entropy algo bindingPubKey lifespanSecs).1 with
    | error fault => trivial
    | ok pair =>
      rw [out] at nothing
      exact absurd rfl (nothing pair.1 pair.2)
  | decapAndSeal kemUUID encapsulatedKey aad =>
    simp only [serveCall]
    cases out : KpsCore.decapAndSeal u.x s.kps s.kpsNow entropy.seed kemUUID encapsulatedKey aad with
    | error fault => trivial
    | ok pair =>
      obtain ⟨record,algo,pubKey,bindingKey,secret,live,spec,decapsed,sealing,given⟩ := KpsCore.decapAndSealOk out
      obtain ⟨recordId,kem,mem,same⟩ := owned.kps kemUUID record (getKeyLookup live)
      subst same
      exact ⟨kemUUID,encapsulatedKey,aad,rfl,kem,mem,recordId,algo,pubKey,bindingKey,secret,entropy.seed,spec,
        decapsed,sealing,given⟩
  | destroy kemUUID =>
    simp only [serveCall]
    split <;> trivial
  | getKEMKey id =>
    simp only [serveCall]
    cases out : KpsCore.getKEMKey u.x s.kps s.kpsNow s.kpsNow id with
    | error fault => trivial
    | ok info => exact ⟨id,rfl,kemQuoted owned out⟩
  | enumerate limit offset =>
    simp only [serveCall]
    cases KpsCore.enumerateKEMKeys u.x s.kps s.kpsNow (fun _ => s.kpsNow) limit offset <;> trivial

theorem replyOk {call reply} (ok : ThreadOk u s i th) (sent : th.rpc = some ⟨call,none⟩)
    (answer : ReplyOk u s i call reply) : ThreadOk u s i {th with rpc := some ⟨call,some reply⟩} := by
  refine ⟨fun fresh => ?_,fun algo bindingPubKey lifespanSecs reply' sent' => ?_,fun k reply' sent' => ?_,
    fun call' reply' replied => ?_,?_⟩
  · have silent := ok.silent fresh
    rw [sent] at silent
    contradiction
  · have same : call = .generate algo bindingPubKey lifespanSecs := congrArg Rpc.call (Option.some.inj sent')
    exact ok.sent algo bindingPubKey lifespanSecs none (same ▸ sent)
  · have same : call = .destroy k := congrArg Rpc.call (Option.some.inj sent')
    exact ok.destroys k none (same ▸ sent)
  · cases Option.some.inj replied
    exact answer
  · have before := ok.task
    generalize th.task = task at before
    cases task with
    | decapsCalling decaps b =>
      obtain ⟨settled,request,old,same⟩ := before
      cases Option.some.inj (sent.symm.trans same)
      exact ⟨settled,request,some reply,rfl⟩
    | destroyCalling k b =>
      obtain ⟨settled,request,old,same⟩ := before
      cases Option.some.inj (sent.symm.trans same)
      exact ⟨settled,request,some reply,rfl⟩
    | claimsCalling k =>
      obtain ⟨handle,old,same⟩ := before
      cases Option.some.inj (sent.symm.trans same)
      exact ⟨handle,some reply,rfl⟩
    | _ => exact before

theorem threadsPut (owned : Owned u s) (grows : Grows s t) (found : s.threads[i]? = some th)
    (threads : t.threads = s.threads.set i th') (ok : ThreadOk u t i th') :
    ∀ (j : Nat) (other : Thread), t.threads[j]? = some other → ThreadOk u t j other := by
  intro j other here
  rw [threads,getPut found] at here
  split at here
  · rename_i same
    subst same
    cases Option.some.inj here
    exact ok
  · exact threadGrows grows (owned.threads j other here)

theorem ownedKeep (owned : Owned u s) (grows : Grows s t) (kems : t.kems = s.kems) (bindings : t.bindings = s.bindings)
    (kps : ∀ id record, t.kps.lookup id = some record → s.kps.lookup id = some record)
    (ws : ∀ id record, t.ws.lookup id = some record → s.ws.lookup id = some record)
    (map : ∀ k b, t.kemToBindingMap.lookup k = some b → s.kemToBindingMap.lookup k = some b)
    (threads : ∀ (j : Nat) (other : Thread), t.threads[j]? = some other → ThreadOk u t j other) : Owned u t where
  kemIds := kems ▸ owned.kemIds
  kemOwners := kems ▸ owned.kemOwners
  bindingIds := bindings ▸ owned.bindingIds
  bindingOwners := bindings ▸ owned.bindingOwners
  kps := fun id record stored => kems ▸ owned.kps id record (kps id record stored)
  ws := fun id record stored => bindings ▸ owned.ws id record (ws id record stored)
  kems := fun kem mem => kemGrows grows (owned.kems kem (kems ▸ mem))
  bindings := fun binding mem => bindingGrows grows (owned.bindings binding (bindings ▸ mem))
  map := fun k b mapped => settledGrows grows (owned.map k b (map k b mapped))
  threads := threads

theorem createdMade {c suite lifespanSecs entropy now pubKey record}
    (created : KeyRecord.Created c suite lifespanSecs entropy now pubKey record)
    (algo : record.metadata.spec.algo = suite) (own : record.metadata.spec.ownKey = pubKey) : Made c record :=
  ⟨algo ▸ created.suite,entropy.seed,own ▸ created.pair⟩

theorem lookupAdd {keys : KeyRegistry} {new : KeyRecord} {id record} (stored : (addKey keys new).lookup id = some record) :
    (record = new ∧ id = new.id) ∨ keys.lookup id = some record := by
  rw [addKey,Table.lookupInsert] at stored
  split at stored
  · rename_i same
    exact .inl ⟨(Option.some.inj stored).symm,same⟩
  · exact .inr stored

theorem bindingUnborn (owned : Owned u s) (found : s.threads[i]? = some th) (fresh : th.task = .start) :
    i ∉ s.bindings.map BindingBirth.owner := by
  intro mem
  obtain ⟨binding,old,same⟩ := List.mem_map.mp mem
  obtain ⟨other,there,begun⟩ := (owned.bindings binding old).begun
  rw [same,found] at there
  cases Option.some.inj there
  exact begun fresh

theorem kemUnborn {call} (owned : Owned u s) (found : s.threads[i]? = some th) (sent : th.rpc = some ⟨call,none⟩) :
    i ∉ s.kems.map KemBirth.owner := by
  intro mem
  obtain ⟨kem,old,same⟩ := List.mem_map.mp mem
  obtain ⟨other,_,_,there,replied⟩ := (owned.kems kem old).told
  rw [same,found] at there
  cases Option.some.inj there
  rw [sent] at replied
  simp at replied

theorem sentBinding {algo bindingPubKey lifespanSecs suite pubKey bindingKey record reply} (owned : Owned u s)
    (found : s.threads[i]? = some th) (sent : th.rpc = some ⟨.generate algo bindingPubKey lifespanSecs,reply⟩)
    (bound : bindingKey.bytes = bindingPubKey) (decoded : u.x.decode (u.x.marshal algo) = .ok suite)
    (spec : record.metadata.spec = .kemWithBindingPub suite pubKey bindingKey) :
    ∃ binding ∈ s.bindings, binding.owner = i ∧ Bound record binding.record := by
  obtain ⟨binding,mem,owner,suite',key,decoded',bindingSpec,bytes⟩ :=
    (owned.threads i th found).sent algo bindingPubKey lifespanSecs reply sent
  cases Except.ok.inj (decoded.symm.trans decoded')
  have keys : key = bindingKey := publicKeySame (bytes.trans bound.symm)
  exact ⟨binding,mem,owner,suite,pubKey,bindingKey,spec,keys ▸ bindingSpec⟩

theorem ownedBindingMade {body plan entropy suite pubKey record} (owned : Owned u s)
    (found : s.threads[i]? = some th) (fresh : th.task = .start) (request : th.request = .generateKey body)
    (planned : handleGenerateKey u.x body = .ok plan) (unused : s.Fresh record.id)
    (decoded : u.x.decode (u.x.marshal plan.algo) = .ok suite)
    (created : KeyRecord.Created u.x.bssl suite plan.lifespan entropy s.wsNow pubKey record)
    (spec : record.metadata.spec = .binding suite pubKey) :
    Owned u {s.put i (th.call (.generateCalling plan record.id)
          (.generate plan.algo pubKey.bytes plan.lifespan)) with
        ws := addKey s.ws record, bindings := ⟨i,record⟩ :: s.bindings} := by
  have grows := ownedGrows owned (.bindingMade found fresh request planned unused decoded created spec)
  generalize after : {s.put i (th.call (.generateCalling plan record.id)
      (.generate plan.algo pubKey.bytes plan.lifespan)) with
        ws := addKey s.ws record, bindings := ⟨i,record⟩ :: s.bindings} = t at grows ⊢
  have kems : t.kems = s.kems := after ▸ rfl
  have bindings : t.bindings = ⟨i,record⟩ :: s.bindings := after ▸ rfl
  have threads : t.threads = s.threads.set i (th.call (.generateCalling plan record.id)
      (.generate plan.algo pubKey.bytes plan.lifespan)) := after ▸ rfl
  have here : t.threads[i]? = some (th.call (.generateCalling plan record.id)
      (.generate plan.algo pubKey.bytes plan.lifespan)) := by
    rw [threads,getPut found,if_pos rfl]
  have mine : ⟨i,record⟩ ∈ t.bindings := bindings ▸ List.mem_cons_self
  refine ⟨kems ▸ owned.kemIds,kems ▸ owned.kemOwners,?_,?_,?_,?_,?_,?_,?_,?_⟩
  · rw [bindings,List.map_cons]
    exact List.nodup_cons.mpr ⟨unused.2,owned.bindingIds⟩
  · rw [bindings,List.map_cons]
    exact List.nodup_cons.mpr ⟨bindingUnborn owned found fresh,owned.bindingOwners⟩
  · have kps : t.kps = s.kps := after ▸ rfl
    intro id other stored
    rw [kps] at stored
    exact kems ▸ owned.kps id other stored
  · have ws : t.ws = addKey s.ws record := after ▸ rfl
    intro id other stored
    rw [ws] at stored
    rcases lookupAdd stored with ⟨same,key⟩ | old
    · subst same
      exact ⟨key.symm,⟨i,other⟩,mine,rfl⟩
    · obtain ⟨recordId,binding,mem,same⟩ := owned.ws id other old
      exact ⟨recordId,binding,grows.bindings binding mem,same⟩
  · exact fun kem mem => kemGrows grows (owned.kems kem (kems ▸ mem))
  · intro binding mem
    rw [bindings] at mem
    rcases List.mem_cons.mp mem with same | old
    · subst same
      have made : Made u.x.bssl record := createdMade created (by rw [spec]; rfl) (by rw [spec]; rfl)
      exact ⟨made,⟨suite,pubKey,spec⟩,_,here,by simp [Thread.call]⟩
    · exact bindingGrows grows (owned.bindings binding old)
  · have map : t.kemToBindingMap = s.kemToBindingMap := after ▸ rfl
    exact fun k b mapped => settledGrows grows (owned.map k b (map ▸ mapped))
  · refine threadsPut owned grows found threads ⟨fun absurd => by contradiction,?_,fun _ _ sent => (nomatch sent),?_,
      ⟨i,record⟩,mine,rfl,rfl⟩
    · intro algo bindingPubKey lifespanSecs reply sent
      cases Option.some.inj sent
      exact ⟨⟨i,record⟩,mine,rfl,suite,pubKey,decoded,spec,rfl⟩
    · intro call reply replied
      have same : none = some reply := congrArg Rpc.reply (Option.some.inj replied)
      contradiction

theorem ownedKemMade {entropy algo bindingPubKey lifespanSecs suite pubKey bindingKey record} (owned : Owned u s)
    (found : s.threads[i]? = some th) (sent : th.rpc = some ⟨.generate algo bindingPubKey lifespanSecs,none⟩)
    (unused : s.Fresh record.id) (bound : bindingKey.bytes = bindingPubKey)
    (decoded : u.x.decode (u.x.marshal algo) = .ok suite)
    (created : KeyRecord.Created u.x.bssl suite lifespanSecs entropy s.kpsNow pubKey record)
    (spec : record.metadata.spec = .kemWithBindingPub suite pubKey bindingKey) :
    Owned u {s.put i {th with rpc := some ⟨.generate algo bindingPubKey lifespanSecs,
          some (.ok (.generated record.id pubKey.bytes))⟩} with
        kps := addKey s.kps record, kems := ⟨i,s.boot,record⟩ :: s.kems} := by
  have grows := ownedGrows owned (.kemMade found sent unused bound decoded created spec)
  generalize after : {s.put i {th with rpc := some ⟨.generate algo bindingPubKey lifespanSecs,
          some (.ok (.generated record.id pubKey.bytes))⟩} with
        kps := addKey s.kps record, kems := ⟨i,s.boot,record⟩ :: s.kems} = t at grows ⊢
  have kems : t.kems = ⟨i,s.boot,record⟩ :: s.kems := after ▸ rfl
  have bindings : t.bindings = s.bindings := after ▸ rfl
  have threads : t.threads = s.threads.set i {th with rpc := some ⟨.generate algo bindingPubKey lifespanSecs,
          some (.ok (.generated record.id pubKey.bytes))⟩} := after ▸ rfl
  have here : t.threads[i]? = some {th with rpc := some ⟨.generate algo bindingPubKey lifespanSecs,
          some (.ok (.generated record.id pubKey.bytes))⟩} := by
    rw [threads,getPut found,if_pos rfl]
  have mine : ⟨i,s.boot,record⟩ ∈ t.kems := kems ▸ List.mem_cons_self
  have own : record.metadata.spec.ownKey = pubKey := by rw [spec]; rfl
  refine ⟨?_,?_,bindings ▸ owned.bindingIds,bindings ▸ owned.bindingOwners,?_,?_,?_,?_,?_,?_⟩
  · rw [kems,List.map_cons]
    exact List.nodup_cons.mpr ⟨unused.1,owned.kemIds⟩
  · rw [kems,List.map_cons]
    exact List.nodup_cons.mpr ⟨kemUnborn owned found sent,owned.kemOwners⟩
  · have kps : t.kps = addKey s.kps record := after ▸ rfl
    intro id other stored
    rw [kps] at stored
    rcases lookupAdd stored with ⟨same,key⟩ | old
    · subst same
      exact ⟨key.symm,⟨i,s.boot,other⟩,mine,rfl⟩
    · obtain ⟨recordId,kem,mem,same⟩ := owned.kps id other old
      exact ⟨recordId,kem,grows.kems kem mem,same⟩
  · have ws : t.ws = s.ws := after ▸ rfl
    intro id other stored
    rw [ws] at stored
    exact bindings ▸ owned.ws id other stored
  · intro kem mem
    rw [kems] at mem
    rcases List.mem_cons.mp mem with same | old
    · subst same
      obtain ⟨binding,mem,owner,paired⟩ := sentBinding owned found sent bound decoded spec
      have made : Made u.x.bssl record := createdMade created (by rw [spec]; rfl) own
      exact ⟨made,⟨binding,grows.bindings binding mem,owner,paired⟩,_,_,pubKey.bytes,here,rfl⟩
    · exact kemGrows grows (owned.kems kem old)
  · exact fun binding mem => bindingGrows grows (owned.bindings binding (bindings ▸ mem))
  · have map : t.kemToBindingMap = s.kemToBindingMap := after ▸ rfl
    exact fun k b mapped => settledGrows grows (owned.map k b (map ▸ mapped))
  · refine threadsPut owned grows found threads (replyOk (threadGrows grows (owned.threads i th found)) sent ?_)
    exact ⟨rfl,⟨i,s.boot,record⟩,mine,rfl,rfl,congrArg PublicKey.bytes own⟩

theorem ownedStored {plan bindingUUID kemUUID kemPubKey} (entropy : Entropy) (owned : Owned u s)
    (found : s.threads[i]? = some th) (stage : th.task = .generateStoring plan bindingUUID kemUUID kemPubKey)
    (free : s.beat.locked = false) :
    Owned u {s.put i (th.respond (generateAnswer u plan kemUUID kemPubKey)) with
        kemToBindingMap := s.kemToBindingMap.insert kemUUID bindingUUID} := by
  have move : Move u s (.advance i entropy) _ := .stored found stage free
  have grows := ownedGrows owned move
  have before := (owned.threads i th found).task
  rw [stage] at before
  obtain ⟨⟨binding,bindingMem,bindingOwner,bindingId⟩,kem,kemMem,kemOwner,kemId,kemKey⟩ := before
  have told : Told u s i th.request (generateAnswer u plan kemUUID kemPubKey) :=
    ⟨kem,kemMem,kemOwner,by rw [kemId],kemKey.symm⟩
  have after := threadsPut owned grows found rfl (threadGrows grows (respondOk (owned.threads i th found) told))
  refine ⟨owned.kemIds,owned.kemOwners,owned.bindingIds,owned.bindingOwners,owned.kps,owned.ws,
    fun kem mem => kemGrows grows (owned.kems kem mem),
    fun binding mem => bindingGrows grows (owned.bindings binding mem),fun k b mapped => ?_,after⟩
  simp only [Table.lookupInsert] at mapped
  split at mapped
  · rename_i same
    subst same
    cases Option.some.inj mapped
    refine ⟨kem,kemMem,binding,bindingMem,kemId,bindingId,kemOwner.trans bindingOwner.symm,
      th.respond (generateAnswer u plan k kemPubKey),?_,respondDone _⟩
    rw [kemOwner]
    exact (getPut found i).trans (if_pos rfl)
  · exact settledGrows grows (owned.map k b mapped)

theorem ownedStep {l} (owned : Owned u s) (move : Move u s l t) : Owned u t := by
  have grows : Grows s t := ownedGrows owned move
  have others := fun (j : Nat) (other : Thread) here => threadGrows grows (owned.threads j other here)
  cases move with
  | arrived request =>
    refine ownedKeep owned grows rfl rfl (fun _ _ h => h) (fun _ _ h => h) (fun _ _ h => h) (fun j other here => ?_)
    rcases getArrived here with old | ⟨_,new⟩
    · exact others j other old
    · subst new
      exact ⟨fun _ => rfl,fun _ _ _ _ sent => (nomatch sent),fun _ _ sent => (nomatch sent),
        fun _ _ replied => (nomatch replied),trivial⟩
  | quiet found next =>
    exact ownedKeep owned grows rfl rfl (fun _ _ h => h) (fun _ _ h => h) (fun _ _ h => h)
      (threadsPut owned grows found rfl (threadGrows grows (quietThread owned (owned.threads _ _ found) next)))
  | kemDestroyed found sent =>
    refine ownedKeep owned grows rfl rfl (fun id record stored => ?_) (fun _ _ h => h) (fun _ _ h => h)
      (threadsPut owned grows found rfl (threadGrows grows (replyOk (owned.threads _ _ found) sent ?_)))
    · rw [Table.lookupErase] at stored
      split at stored <;> try contradiction
      exact stored
    · split <;> trivial
  | served found sent reads nothing keeps =>
    exact ownedKeep owned grows rfl rfl (fun _ _ h => h) (fun _ _ h => h) (fun _ _ h => h)
      (threadsPut owned grows found rfl
        (threadGrows grows (replyOk (owned.threads _ _ found) sent (servedReply owned reads nothing))))
  | bindingDestroyed found stage =>
    have before := (owned.threads _ _ found).task
    rw [stage] at before
    refine ownedKeep owned grows rfl rfl (fun _ _ h => h) (fun id record stored => ?_) (fun _ _ h => h)
      (threadsPut owned grows found rfl (threadGrows grows (gotoOk (by simp) (owned.threads _ _ found) before)))
    rw [Table.lookupErase] at stored
    split at stored <;> try contradiction
    exact stored
  | unmapped found stage free =>
    refine ownedKeep owned grows rfl rfl (fun _ _ h => h) (fun _ _ h => h) (fun k b mapped => ?_)
      (threadsPut owned grows found rfl (threadGrows grows (respondOk (owned.threads _ _ found) ?_)))
    · rw [Table.lookupErase] at mapped
      split at mapped <;> try contradiction
      exact mapped
    · unfold destroyAnswer
      split <;> trivial
  | ticked kps ws => exact ownedKeep owned grows rfl rfl (fun _ _ h => h) (fun _ _ h => h) (fun _ _ h => h) others
  | reapedKps past =>
    refine ownedKeep owned grows rfl rfl (fun id record stored => ?_) (fun _ _ h => h) (fun _ _ h => h) others
    rw [reap,Table.lookupRetain,Option.filter_eq_some_iff] at stored
    exact stored.1
  | reapedWs past =>
    refine ownedKeep owned grows rfl rfl (fun _ _ h => h) (fun id record stored => ?_) (fun _ _ h => h) others
    rw [reap,Table.lookupRetain,Option.filter_eq_some_iff] at stored
    exact stored.1
  | restarted given unused =>
    exact ownedKeep owned grows rfl rfl (fun id record stored => by simp at stored) (fun _ _ h => h)
      (fun _ _ h => h) others
  | beaten keeps unreset unheard taken =>
    exact ownedKeep owned grows rfl rfl (fun _ _ h => h) (fun _ _ h => h) (fun _ _ h => h) others
  | heard stage => exact ownedKeep owned grows rfl rfl (fun _ _ h => h) (fun _ _ h => h) (fun _ _ h => h) others
  | purged stage =>
    exact ownedKeep owned grows rfl rfl (fun _ _ h => h) (fun id record stored => by simp at stored)
      (fun _ _ h => h) others
  | reset stage =>
    exact ownedKeep owned grows rfl rfl (fun _ _ h => h) (fun _ _ h => h) (fun k b mapped => by simp at mapped) others
  | bindingMade found fresh request planned unused decoded created spec =>
    exact ownedBindingMade owned found fresh request planned unused decoded created spec
  | kemMade found sent unused bound decoded created spec =>
    exact ownedKemMade owned found sent unused bound decoded created spec
  | @stored i th entropy plan bindingUUID kemUUID kemPubKey found stage free =>
    exact ownedStored entropy owned found stage free

theorem ownedInitial (u : Setup) (kpsNow wsNow : Nat) (token : String) :
    Owned u (System.initial kpsNow wsNow token) := by
  refine ⟨?_,?_,?_,?_,?_,?_,?_,?_,?_,?_⟩ <;> simp [System.initial]

theorem ownedReachable (reach : Reachable u s) : Owned u s := by
  obtain ⟨kpsNow,wsNow,token,_,run⟩ := reach
  exact Run.reachableInvariant (ownedInitial u kpsNow wsNow token)
    (fun _ _ _ owned taken => ownedStep owned (stepMove taken)) run

/-! One id, one key; one request, one pair. -/

theorem kemSame (owned : Owned u s) {a b : KemBirth} (left : a ∈ s.kems) (right : b ∈ s.kems)
    (ids : a.record.id = b.record.id) : a = b := List.inj_on_of_nodup_map owned.kemIds left right ids

theorem kemOwnerSame (owned : Owned u s) {a b : KemBirth} (left : a ∈ s.kems) (right : b ∈ s.kems)
    (owners : a.owner = b.owner) : a = b := List.inj_on_of_nodup_map owned.kemOwners left right owners

theorem bindingSame (owned : Owned u s) {a b : BindingBirth} (left : a ∈ s.bindings) (right : b ∈ s.bindings)
    (ids : a.record.id = b.record.id) : a = b := List.inj_on_of_nodup_map owned.bindingIds left right ids

theorem bindingOwnerSame (owned : Owned u s) {a b : BindingBirth} (left : a ∈ s.bindings) (right : b ∈ s.bindings)
    (owners : a.owner = b.owner) : a = b := List.inj_on_of_nodup_map owned.bindingOwners left right owners

theorem settledBinding {k b b'} (owned : Owned u s) (left : Settled s k b) (right : Settled s k b') : b = b' := by
  obtain ⟨kem,kemMem,binding,mem,kemId,id,owner,_⟩ := left
  obtain ⟨kem',kemMem',binding',mem',kemId',id',owner',_⟩ := right
  have kems := kemSame owned kemMem kemMem' (kemId.trans kemId'.symm)
  subst kems
  have bindings := bindingOwnerSame owned mem mem' (owner.symm.trans owner')
  rw [← id,← id',bindings]

theorem settledKem {k k' b} (owned : Owned u s) (left : Settled s k b) (right : Settled s k' b) : k = k' := by
  obtain ⟨kem,kemMem,binding,mem,kemId,id,owner,_⟩ := left
  obtain ⟨kem',kemMem',binding',mem',kemId',id',owner',_⟩ := right
  have bindings := bindingSame owned mem mem' (id.trans id'.symm)
  subst bindings
  have kems := kemOwnerSame owned kemMem kemMem' (owner.trans owner'.symm)
  rw [← kemId,← kemId',kems]

theorem settledBound {k b} (owned : Owned u s) (settled : Settled s k b) {kem : KemBirth} {binding : BindingBirth}
    (kemMem : kem ∈ s.kems) (kemId : kem.record.id = k) (bindingMem : binding ∈ s.bindings)
    (bindingId : binding.record.id = b) : Bound kem.record binding.record := by
  obtain ⟨kem',kemMem',binding',bindingMem',kemId',bindingId',owner,_⟩ := settled
  cases kemSame owned kemMem kemMem' (kemId.trans kemId'.symm)
  cases bindingSame owned bindingMem bindingMem' (bindingId.trans bindingId'.symm)
  obtain ⟨bound,mem,owner',names⟩ := (owned.kems kem kemMem).bound
  cases bindingOwnerSame owned mem bindingMem (owner'.trans owner)
  exact names

end
end KeyProtection
