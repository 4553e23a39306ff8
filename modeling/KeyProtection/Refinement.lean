import KeyProtection.Ideal
import KeyProtection.Manageable
import KeyProtection.Progress
import KeyProtection.Replay

/-! The two services implement the ideal one. A key is in the ideal store as long as the KPS
holds it, and a request takes effect when the KPS serves its call. From then on its answer
is settled: what a handler still has to do, opening a secret or storing a mapping, either
yields that answer or ends in a refusal. -/
namespace KeyProtection
open Lib Lib.Run Lib.Refine KeyRegistry
open KeyProtection.Ideal (Service Store Pending Performs Next)

def keyOf (record : KeyRecord) : Ideal.Key :=
  ⟨record.metadata.spec.algo,record.metadata.spec.ownKey,record.metadata.spec.bindingKey,record.privateKey,
    record.metadata.createdAt,record.metadata.deleteAfter⟩

def storeOf (keys : KeyRegistry) : Store := fun id => (keys.lookup id).map keyOf

def issuedOf (kems : List KemBirth) : Store := fun id =>
  (kems.find? (fun kem => decide (kem.record.id = id))).map (fun kem => keyOf kem.record)

/- What a step of the system shows: requests that come in and answers that are written. -/
def System.event (s : System) : Label → List Event
  | .arrive request => [.arrived request]
  | .advance i _ =>
      match s.threads[i]?.map Thread.task with
      | some (.responding a) => [.answered i a]
      | _ => []
  | _ => []

/- Every answer is delivered to the call it belongs to. -/
def Label.faithful : Label → Bool
  | .replay _ _ => false
  | _ => true

inductive Asked (u : Setup) : Request → KpsCall → Prop where
  | generate {body plan bindingPubKey} (planned : handleGenerateKey u.x body = .ok plan) :
      Asked u (.generateKey body) (.generate plan.algo bindingPubKey plan.lifespan)
  | decaps {body call} (parsed : decapsParse u.x body = .ok call) :
      Asked u (.decaps body) (.decapAndSeal call.kemUUID call.encapsulatedKey call.aad)
  | destroy {body id} (parsed : destroyParse u.x body = .ok id) : Asked u (.destroy body) (.destroy id)
  | enumerate : Asked u .enumerateKeys (.enumerate defaultEnumerateLimit 0)
  | claims {req id} (planned : getKeyClaimsPlan u req = .ok (.kem id)) : Asked u (.getKeyClaims req) (.getKEMKey id)

/- What a handler will answer once it has gone on from this point. -/
def Foreseen (u : Setup) (s : System) (request : Request) (performed : Bool) (ready : Option Answer) : Task → Prop
  | .start => performed = false
  | .claimsBinding id _ => performed = false ∧ ∃ req, request = .getKeyClaims req ∧
      getKeyClaimsPlan u req = .ok (.binding id)
  | .generateCalling plan _ => ∃ body, request = .generateKey body ∧ handleGenerateKey u.x body = .ok plan
  | .generateStoring plan _ kemUUID kemPubKey => ready = some (generateAnswer u plan kemUUID kemPubKey)
  | .decapsOpening call b sealEnc sealedCT => ∃ secret, secret.length = 32 ∧
      Opens u s b call.aad sealEnc sealedCT secret ∧ ready = some (.http 200 (.secret call.algorithm secret))
  | .destroyBinding _ _ errKps => errKps = none → ready = some (.http 204 .empty)
  | .destroyUnmapping _ _ errKps _ => errKps = none → ready = some (.http 204 .empty)
  | .responding a => ready = some a
  | .answered a => ready = some a
  | _ => True

def Foretold (u : Setup) (s : System) (ready : Option Answer) : Task → KpsReply → Prop
  | .generateCalling plan _, .generated kemUUID kemPubKey => ready = some (generateAnswer u plan kemUUID kemPubKey)
  | .decapsCalling call b, .sealed sealEnc sealedCT => ∃ secret, secret.length = 32 ∧
      Opens u s b call.aad sealEnc sealedCT secret ∧ ready = some (.http 200 (.secret call.algorithm secret))
  | .destroyCalling _ _, .destroyed => ready = some (.http 204 .empty)
  | .enumerateCalling, .keys keys hasMore => ready = some (enumerateAnswer u (.ok (keys,hasMore)))
  | .claimsCalling _, .kem info => ready = some (.claims (kemClaims info))
  | _, _ => True

structure Pends (u : Setup) (s : System) (th : Thread) (p : Pending) : Prop where
  request : p.request = th.request
  unanswered : (∀ a, th.task ≠ .answered a) → p.answered = false
  asked : ∀ call reply, th.rpc = some ⟨call,reply⟩ → Asked u th.request call
  unserved : ∀ call, th.rpc = some ⟨call,none⟩ → p.performed = false
  foreseen : Foreseen u s th.request p.performed p.ready th.task
  foretold : ∀ call reply, th.rpc = some ⟨call,some (.ok reply)⟩ → Foretold u s p.ready th.task reply

structure Matches (u : Setup) (s : System) (v : Service) : Prop where
  owned : Owned u s
  keys : v.keys = storeOf s.kps
  issued : v.issued = issuedOf s.kems
  now : v.now = s.kpsNow
  length : v.requests.length = s.threads.length
  requests : ∀ (i : Nat) th p, s.threads[i]? = some th → v.requests[i]? = some p → Pends u s th p

section
variable {u : Setup} {s t : System} {v : Service} {i : Nat} {th th' : Thread} {p : Pending} {l : Label}

theorem pendingOf (same : Matches u s v) (found : s.threads[i]? = some th) :
    ∃ p, v.requests[i]? = some p ∧ Pends u s th p := by
  have bound : i < v.requests.length := same.length ▸ (List.getElem?_eq_some_iff.mp found).1
  have here := List.getElem?_eq_getElem bound
  exact ⟨_,here,same.requests i th _ found here⟩

theorem foreseenGrows {request : Request} {performed : Bool} {ready : Option Answer} {task : Task} (grows : Grows s t)
    (foreseen : Foreseen u s request performed ready task) : Foreseen u t request performed ready task := by
  cases task with
  | decapsOpening call b sealEnc sealedCT =>
    obtain ⟨secret,size,opens,ready⟩ := foreseen
    exact ⟨secret,size,opensGrows grows opens,ready⟩
  | _ => exact foreseen

theorem foretoldGrows {ready : Option Answer} {task : Task} {reply : KpsReply} (grows : Grows s t)
    (foretold : Foretold u s ready task reply) : Foretold u t ready task reply := by
  cases task with
  | decapsCalling call b =>
    cases reply with
    | sealed sealEnc sealedCT =>
      obtain ⟨secret,size,opens,ready⟩ := foretold
      exact ⟨secret,size,opensGrows grows opens,ready⟩
    | _ => exact foretold
  | _ => cases reply <;> exact foretold

theorem pendsGrows (grows : Grows s t) (pends : Pends u s th p) : Pends u t th p :=
  ⟨pends.request,pends.unanswered,pends.asked,pends.unserved,foreseenGrows grows pends.foreseen,
    fun call reply replied => foretoldGrows grows (pends.foretold call reply replied)⟩

theorem matchesPut {w : Service} {q : Pending} (same : Matches u s v) (move : Move u s l t)
    (found : s.threads[i]? = some th) (here : v.requests[i]? = some p) (threads : t.threads = s.threads.set i th')
    (requests : w.requests = v.requests.set i q) (keys : w.keys = storeOf t.kps) (issued : w.issued = issuedOf t.kems)
    (now : w.now = t.kpsNow) (pends : Pends u t th' q) : Matches u t w := by
  refine ⟨ownedStep same.owned move,keys,issued,now,?_,fun j other p' there there' => ?_⟩
  · rw [requests,threads,List.length_set,List.length_set,same.length]
  · rw [threads,getPut found] at there
    rw [requests,List.getElem?_set] at there'
    by_cases mover : j = i
    · subst mover
      rw [if_pos rfl] at there
      rw [if_pos rfl,if_pos (List.getElem?_eq_some_iff.mp here).1] at there'
      cases Option.some.inj there
      cases Option.some.inj there'
      exact pends
    · rw [if_neg mover] at there
      rw [if_neg (fun eq => mover eq.symm)] at there'
      exact pendsGrows (ownedGrows same.owned move) (same.requests j other p' there there')

theorem matchesQuiet (same : Matches u s v) (move : Move u s l t) (found : s.threads[i]? = some th)
    (here : v.requests[i]? = some p) (threads : t.threads = s.threads.set i th') (kps : storeOf t.kps = storeOf s.kps)
    (kems : t.kems = s.kems) (now : t.kpsNow = s.kpsNow) (pends : Pends u t th' p) :
    ∃ w, Many (Next u) v [] w ∧ Matches u t w := by
  have unchanged : v.requests = v.requests.set i p := by
    obtain ⟨bound,same⟩ := List.getElem?_eq_some_iff.mp here
    rw [← same,List.set_getElem_self]
  exact ⟨v,.nil v,matchesPut same move found here threads unchanged (same.keys.trans kps.symm)
    (kems ▸ same.issued) (now ▸ same.now) pends⟩

theorem matchesStill {w : Service} (same : Matches u s v) (move : Move u s l t) (threads : t.threads = s.threads)
    (requests : w.requests = v.requests) (keys : w.keys = storeOf t.kps) (issued : w.issued = issuedOf t.kems)
    (now : w.now = t.kpsNow) : Matches u t w := by
  refine ⟨ownedStep same.owned move,keys,issued,now,by rw [requests,threads,same.length],
    fun j other p there there' => ?_⟩
  rw [threads] at there
  rw [requests] at there'
  exact pendsGrows (ownedGrows same.owned move) (same.requests j other p there there')

/-! The ideal service's side of a step. -/

theorem idealRefuses {a : Answer} (same : Matches u s v) (found : s.threads[i]? = some th) (move : Move u s l t)
    (threads : t.threads = s.threads.set i (th.respond a)) (kps : t.kps = s.kps) (kems : t.kems = s.kems)
    (now : t.kpsNow = s.kpsNow) (undone : ∀ a, th.task ≠ .answered a) (failure : a.Failure) :
    ∃ w, Many (Next u) v [] w ∧ Matches u t w := by
  obtain ⟨p,here,pends⟩ := pendingOf same found
  have unanswered := pends.unanswered undone
  refine ⟨_,manyOne (.refuses here unanswered failure),
    matchesPut same move found here threads rfl (kps ▸ same.keys) (kems ▸ same.issued) (now ▸ same.now) ?_⟩
  exact ⟨pends.request,fun _ => unanswered,pends.asked,pends.unserved,rfl,fun _ reply _ => by cases reply <;> trivial⟩

theorem idealReads {a : Answer} (same : Matches u s v) (found : s.threads[i]? = some th)
    (move : Move u s l (s.put i (th.respond a))) (undone : ∀ a, th.task ≠ .answered a)
    (once : ∀ p, Pends u s th p → p.performed = false) (unsent : ∀ call, th.rpc ≠ some ⟨call,none⟩)
    (does : Performs u v th.request a v.keys v.issued) :
    ∃ w, Many (Next u) v [] w ∧ Matches u (s.put i (th.respond a)) w := by
  obtain ⟨p,here,pends⟩ := pendingOf same found
  have unanswered := pends.unanswered undone
  rw [← pends.request] at does
  refine ⟨_,manyOne (.performs here (once p pends) unanswered does),
    matchesPut same move found here rfl rfl same.keys same.issued same.now ?_⟩
  exact ⟨pends.request,fun _ => unanswered,pends.asked,fun call sent => absurd sent (unsent call),rfl,
    fun _ reply _ => by cases reply <;> trivial⟩

theorem foreseenWaits {request : Request} {performed performed' : Bool} {ready ready' : Option Answer} {task : Task}
    (waits : task.waits = true) (foreseen : Foreseen u s request performed ready task) :
    Foreseen u s request performed' ready' task := by
  cases task <;> first | contradiction | exact foreseen

theorem foreseenSent {call : KpsCall} {performed : Bool} (owned : Owned u s) (found : s.threads[i]? = some th)
    (pends : Pends u s th p) (sent : th.rpc = some ⟨call,none⟩) : Foreseen u s th.request performed p.ready th.task := by
  have before := pends.foreseen
  have asked := pends.asked call none sent
  have silent := (owned.threads i th found).silent
  generalize th.task = task at before silent
  cases task with
  | start =>
    rw [silent rfl] at sent
    contradiction
  | claimsBinding id b =>
    obtain ⟨_,req,request,planned⟩ := before
    rw [request] at asked
    cases asked with
    | claims planned' => cases planned.symm.trans planned'
  | _ => exact before

theorem undoneWaits {task : Task} (waits : task.waits = true) : ∀ a, task ≠ .answered a := by
  intro a same
  subst same
  contradiction

theorem foretoldDone {ready : Option Answer} {task : Task} (unread : task.waits = false) (reply : KpsReply) :
    Foretold u s ready task reply := by
  cases task <;> first | contradiction | (cases reply <;> trivial)

theorem idealGoes {task : Task} (same : Matches u s v) (found : s.threads[i]? = some th) (move : Move u s l t)
    (threads : t.threads = s.threads.set i (th.goto task)) (kps : t.kps = s.kps) (kems : t.kems = s.kems)
    (now : t.kpsNow = s.kpsNow) (undone : ∀ a, th.task ≠ .answered a) (unread : task.waits = false)
    (next : ∀ p, Pends u s th p → Foreseen u s th.request p.performed p.ready task) :
    ∃ w, Many (Next u) v [] w ∧ Matches u t w := by
  obtain ⟨p,here,pends⟩ := pendingOf same found
  refine matchesQuiet same move found here threads (kps ▸ rfl) kems now ?_
  exact ⟨pends.request,fun _ => pends.unanswered undone,pends.asked,pends.unserved,
    foreseenGrows (ownedGrows same.owned move) (next p pends),fun _ reply _ => foretoldDone unread reply⟩

theorem idealCalls {task : Task} {call : KpsCall} (same : Matches u s v) (found : s.threads[i]? = some th)
    (fresh : th.task = .start) (move : Move u s l t) (threads : t.threads = s.threads.set i (th.call task call))
    (kps : t.kps = s.kps) (kems : t.kems = s.kems) (now : t.kpsNow = s.kpsNow) (asked : Asked u th.request call)
    (next : ∀ performed ready, Foreseen u t th.request performed ready task) :
    ∃ w, Many (Next u) v [] w ∧ Matches u t w := by
  obtain ⟨p,here,pends⟩ := pendingOf same found
  have once : p.performed = false := by
    have foreseen := pends.foreseen
    rw [fresh] at foreseen
    exact foreseen
  have undone : ∀ a, th.task ≠ .answered a := fun a done => by rw [fresh] at done; contradiction
  refine matchesQuiet same move found here threads (kps ▸ rfl) kems now ?_
  refine ⟨pends.request,fun _ => pends.unanswered undone,?_,fun _ _ => once,next _ _,?_⟩
  · intro call' reply sent
    cases Option.some.inj sent
    exact asked
  · intro call' reply replied
    cases Option.some.inj replied

theorem pendsReplied {q : Pending} {call : KpsCall} {reply : Go KpsReply} (pends : Pends u s th p)
    (sent : th.rpc = some ⟨call,none⟩) (request : q.request = p.request) (answered : q.answered = p.answered)
    (foreseen : Foreseen u s th.request q.performed q.ready th.task)
    (foretold : ∀ r, reply = .ok r → Foretold u s q.ready th.task r) :
    Pends u s {th with rpc := some ⟨call,some reply⟩} q := by
  refine ⟨request.trans pends.request,fun undone => answered.trans (pends.unanswered undone),?_,?_,foreseen,?_⟩
  · intro call' reply' same
    cases congrArg Rpc.call (Option.some.inj same)
    exact pends.asked call none sent
  · intro call' same
    have absurd : some reply = none := congrArg Rpc.reply (Option.some.inj same)
    contradiction
  · intro call' r same
    have replied : some reply = some (.ok r) := congrArg Rpc.reply (Option.some.inj same)
    exact foretold r (Option.some.inj replied)

theorem idealServed {call : KpsCall} {reply : KpsReply} {a : Answer} (same : Matches u s v)
    (found : s.threads[i]? = some th) (sent : th.rpc = some ⟨call,none⟩) (move : Move u s l t)
    (threads : t.threads = s.threads.set i {th with rpc := some ⟨call,some (.ok reply)⟩}) (now : t.kpsNow = s.kpsNow)
    (does : Performs u v th.request a (storeOf t.kps) (issuedOf t.kems)) (tells : Foretold u t (some a) th.task reply) :
    ∃ w, Many (Next u) v [] w ∧ Matches u t w := by
  obtain ⟨p,here,pends⟩ := pendingOf same found
  have once := pends.unserved call sent
  have later := pendsGrows (ownedGrows same.owned move) pends
  rw [← pends.request] at does
  cases waits : th.task.waits with
  | true =>
    refine ⟨_,manyOne (.performs here once (pends.unanswered (undoneWaits waits)) does),
      matchesPut same move found here threads rfl rfl rfl (now ▸ same.now) ?_⟩
    refine pendsReplied later sent rfl rfl (foreseenWaits waits later.foreseen) (fun r ok => ?_)
    cases Except.ok.inj ok
    exact tells
  | false =>
    refine ⟨_,manyOne (.performsLate here once does),matchesPut same move found here threads rfl rfl rfl (now ▸ same.now) ?_⟩
    have foreseen : Foreseen u s th.request true p.ready th.task := foreseenSent same.owned found pends sent
    exact pendsReplied later sent rfl rfl (foreseenGrows (ownedGrows same.owned move) foreseen)
      (fun r _ => foretoldDone waits r)

theorem idealUnserved {call : KpsCall} {fault : GoFault} (same : Matches u s v) (found : s.threads[i]? = some th)
    (sent : th.rpc = some ⟨call,none⟩) (move : Move u s l t)
    (threads : t.threads = s.threads.set i {th with rpc := some ⟨call,some (.error fault)⟩})
    (kps : storeOf t.kps = storeOf s.kps) (kems : t.kems = s.kems) (now : t.kpsNow = s.kpsNow) :
    ∃ w, Many (Next u) v [] w ∧ Matches u t w := by
  obtain ⟨p,here,pends⟩ := pendingOf same found
  have later := pendsGrows (ownedGrows same.owned move) pends
  exact matchesQuiet same move found here threads kps kems now
    (pendsReplied later sent rfl rfl later.foreseen (fun r ok => nomatch ok))

/-! What the handlers read is what the ideal service holds. -/

theorem visibleIff (same : Matches u s v) {id : Uuid} {key : Ideal.Key} :
    v.Visible id key ↔ ∃ record, getKey s.kps s.kpsNow id = some record ∧ keyOf record = key := by
  simp only [Service.Visible,same.keys,same.now,storeOf,Option.map_eq_some_iff,getKeyIff]
  constructor
  · rintro ⟨⟨record,stored,rfl⟩,alive⟩
    exact ⟨record,⟨stored,alive⟩,rfl⟩
  · rintro ⟨record,⟨stored,alive⟩,rfl⟩
    exact ⟨⟨record,stored,rfl⟩,alive⟩

theorem issuedMem (owned : Owned u s) {kem : KemBirth} (mem : kem ∈ s.kems) :
    issuedOf s.kems kem.record.id = some (keyOf kem.record) := by
  have found : s.kems.find? (fun other => decide (other.record.id = kem.record.id)) = some kem := by
    cases search : s.kems.find? (fun other => decide (other.record.id = kem.record.id)) with
    | none =>
      have missed := List.find?_eq_none.mp search kem mem
      simp at missed
    | some other =>
      have ids : other.record.id = kem.record.id := by simpa using List.find?_some search
      rw [kemSame owned (List.mem_of_find?_eq_some search) mem ids]
  rw [issuedOf,found]
  rfl

theorem issuedUnborn {id : Uuid} (unused : id ∉ s.kems.map (fun kem => kem.record.id)) : issuedOf s.kems id = none := by
  have missed : s.kems.find? (fun kem => decide (kem.record.id = id)) = none := by
    refine List.find?_eq_none.mpr (fun kem mem => ?_)
    have other : kem.record.id ≠ id := fun ids => unused (List.mem_map.mpr ⟨kem,mem,ids⟩)
    simpa using other
  rw [issuedOf,missed]
  rfl

theorem issuedCons (kem : KemBirth) (kems : List KemBirth) :
    issuedOf (kem :: kems) = Function.update (issuedOf kems) kem.record.id (some (keyOf kem.record)) := by
  funext id
  rw [Function.update_apply,issuedOf,List.find?_cons]
  by_cases ids : kem.record.id = id
  · rw [if_pos ids.symm,decide_eq_true ids]
    rfl
  · rw [if_neg (fun same => ids same.symm),decide_eq_false ids]
    rfl

theorem storeAdd (keys : KeyRegistry) (record : KeyRecord) :
    storeOf (addKey keys record) = Function.update (storeOf keys) record.id (some (keyOf record)) := by
  funext id
  rw [Function.update_apply,storeOf,addKey,Table.lookupInsert]
  by_cases ids : id = record.id
  · rw [if_pos ids]
    exact congrArg _ (if_pos ids)
  · rw [if_neg ids]
    exact congrArg _ (if_neg ids)

theorem storeErase (keys : KeyRegistry) (gone : Uuid) :
    storeOf (keys.erase gone) = Function.update (storeOf keys) gone none := by
  funext id
  rw [Function.update_apply,storeOf,Table.lookupErase]
  split
  · rfl
  · rfl

theorem readsClaims (laws : u.x.Lawful) (same : Matches u s v) {id : Uuid} {info : KpsCore.KemInfo}
    (got : KpsCore.getKEMKey u.x s.kps s.kpsNow s.kpsNow id = .ok info) :
    ∃ key, v.Visible id key ∧ kemClaims info = key.claims v.now := by
  rcases KpsCore.getKEMKeyFits laws (kpsKinds laws same.owned) s.kpsNow s.kpsNow id with missing | found
  · rw [missing] at got
    contradiction
  obtain ⟨kemKey,bindingKey,remaining,read,fits⟩ := found
  cases Except.ok.inj (got.symm.trans fits)
  obtain ⟨record,visible,spec⟩ := KpsCore.getKemInternal read
  have left : remaining = remainingSecs record.metadata.deleteAfter s.kpsNow := by
    simp only [KpsCore.getKemKeyInternal,visible,spec,Except.ok.injEq,Prod.mk.injEq] at read
    exact read.2.2.2.symm
  refine ⟨keyOf record,(visibleIff same).mpr ⟨record,visible,rfl⟩,?_⟩
  subst left
  simp only [kemClaims,Ideal.Key.claims,Ideal.Key.bindingClaims,keyOf,spec,same.now,KeySpec.algo,KeySpec.ownKey,
    KeySpec.bindingKey]

theorem readsListing (laws : u.x.Lawful) (same : Matches u s v) {keys : List KpsCore.KEMKeyInfo} {hasMore : Bool}
    (read : KpsCore.enumerateKEMKeys u.x s.kps s.kpsNow (fun _ => s.kpsNow) defaultEnumerateLimit 0 = .ok (keys,hasMore)) :
    ∃ page, v.Listed page ∧ enumerateAnswer u (.ok (keys,hasMore)) = .http 200 (.keys (page.map (Ideal.Key.info u))) := by
  have kinds := kpsKinds laws same.owned
  have answer := answersFirstPage laws kinds .inProcess s.kpsNow (fun _ => s.kpsNow)
  simp only [handleEnumerateKeys,Adapter.enumerateKEMKeys,read] at answer
  have sorted := sortedLiveBefore kinds.keyed s.kpsNow
  generalize live : sortedLive s.kps s.kpsNow = records at answer sorted
  have inside : ∀ record, record ∈ records ↔ getKey s.kps s.kpsNow record.id = some record := by
    intro record
    rw [← live]
    exact RegistryTtl.memSortedLive kinds.keyed
  refine ⟨(records.take 10000).map (fun record => (record.id,keyOf record)),⟨?_,?_,?_,?_⟩,?_⟩
  · intro entry mem
    obtain ⟨record,first,rfl⟩ := List.mem_map.mp mem
    exact (visibleIff same).mpr ⟨record,(inside record).mp (List.mem_of_mem_take first),rfl⟩
  · rw [List.pairwise_map]
    exact (sorted.sublist (List.take_sublist _ _)).imp (fun before => before)
  · rw [List.length_map,List.length_take]
    exact Nat.min_le_left _ _
  · intro id key visible
    obtain ⟨record,found,rfl⟩ := (visibleIff same).mp visible
    have named : record.id = id := kinds.keyed id record (getKeyIff.mp found).1
    subst named
    have mem := (inside record).mpr found
    rw [← List.take_append_drop 10000 records] at mem sorted
    rcases List.mem_append.mp mem with first | rest
    · exact .inl (List.mem_map.mpr ⟨record,first,rfl⟩)
    · refine .inr ⟨?_,fun entry listed => ?_⟩
      · have some : 0 < (records.drop 10000).length := List.length_pos_of_mem rest
        rw [List.length_drop] at some
        rw [List.length_map,List.length_take]
        omega
      · obtain ⟨other,first,rfl⟩ := List.mem_map.mp listed
        exact (List.pairwise_append.mp sorted).2.2 other first record rest
  · rw [answer,List.map_map]
    rfl

theorem readsBinding (laws : u.x.Lawful) (same : Matches u s v) {k b : Uuid} (settled : Settled s k b) {pubKey : Bytes}
    {algo : HpkeAlgorithm} (got : WsCore.getBindingKey u.x s.ws s.wsNow b = .ok (pubKey,algo)) :
    ∃ key, v.issued k = some key ∧ (⟨algo,pubKey⟩ : HpkePublicKey) = key.bindingClaims := by
  obtain ⟨record,suite,bindingKey,found,spec,bytes,decoded⟩ := WsCore.gotBindingKey got
  obtain ⟨named,binding,bindingMem,birth⟩ := same.owned.ws b record (getKeyLookup found)
  subst birth
  obtain ⟨kem,kemMem,_,_,kemId,_⟩ := id settled
  obtain ⟨suite',kemKey,bindingKey',kemSpec,bindingSpec⟩ := settledBound same.owned settled kemMem kemId bindingMem named
  cases spec.symm.trans bindingSpec
  refine ⟨keyOf kem.record,?_,?_⟩
  · rw [same.issued,← kemId]
    exact issuedMem same.owned kemMem
  · rw [laws.decodes] at decoded
    cases Except.ok.inj decoded
    simp only [Ideal.Key.bindingClaims,keyOf,kemSpec,bytes,KeySpec.algo,KeySpec.bindingKey]

/-! Every step of the system is one of the ideal service, or none. -/

theorem eventHidden {entropy : Entropy} (found : s.threads[i]? = some th) (unready : ∀ a, th.task ≠ .responding a) :
    s.event (.advance i entropy) = [] := by
  simp only [System.event,found,Option.map_some]
  split
  · rename_i a ready
    exact absurd (Option.some.inj ready) (unready a)
  · rfl

theorem undoneAt {task : Task} (stage : th.task = task) (undone : ∀ a, task ≠ .answered a) :
    ∀ a, th.task ≠ .answered a := fun a done => undone a (stage.symm.trans done)

theorem startedOnce (fresh : th.task = .start) (pends : Pends u s th p) : p.performed = false := by
  have foreseen := pends.foreseen
  rw [fresh] at foreseen
  exact foreseen

theorem kpsClaimsAnswer (u : Setup) (keys : KeyRegistry) (now later : Nat) (req : GetKeyClaimsRequest) :
    (kpsGetKeyClaims u keys now later req).Failure ∨ ∃ id info, u.x.parse req.keyHandle = .ok id ∧
      KpsCore.getKEMKey u.x keys now later id = .ok info ∧
      kpsGetKeyClaims u keys now later req = .claims (kemClaims info) := by
  unfold kpsGetKeyClaims
  split
  · exact .inl (.claims _)
  split
  · exact .inl (.claims _)
  split
  · exact .inl (.claims _)
  rename_i id parsed
  split
  · rename_i info got
    exact .inr ⟨id,info,parsed,got,rfl⟩
  · exact .inl (.claims _)
  · exact .inl .closed

theorem idealKpsClaims {req : GetKeyClaimsRequest} (laws : u.x.Lawful) (same : Matches u s v)
    (found : s.threads[i]? = some th) (fresh : th.task = .start) (request : th.request = .kpsGetKeyClaims req)
    (move : Move u s l (s.put i (th.respond (kpsGetKeyClaims u s.kps s.kpsNow s.kpsNow req)))) :
    ∃ w, Many (Next u) v [] w ∧ Matches u (s.put i (th.respond (kpsGetKeyClaims u s.kps s.kpsNow s.kpsNow req))) w := by
  have undone := undoneAt fresh (by simp)
  rcases kpsClaimsAnswer u s.kps s.kpsNow s.kpsNow req with failure | ⟨id,info,parsed,got,answer⟩
  · exact idealRefuses same found move rfl rfl rfl rfl undone failure
  · obtain ⟨key,visible,claims⟩ := readsClaims laws same got
    refine idealReads same found move undone (fun p pends => startedOnce fresh pends) (fun call sent => ?_) ?_
    · rw [(same.owned.threads i th found).silent fresh] at sent
      contradiction
    · rw [request,answer,claims]
      exact .kpsClaims parsed visible

theorem idealOpens {call : DecapsCall} {b : Uuid} {sealEnc sealedCT : Bytes} (same : Matches u s v)
    (found : s.threads[i]? = some th) (stage : th.task = .decapsOpening call b sealEnc sealedCT)
    (move : Move u s l (s.put i (th.respond (decapsAnswer call
      (WsCore.openSecret u.x s.ws s.wsNow b sealEnc sealedCT call.aad))))) :
    ∃ w, Many (Next u) v [] w ∧ Matches u (s.put i (th.respond (decapsAnswer call
      (WsCore.openSecret u.x s.ws s.wsNow b sealEnc sealedCT call.aad)))) w := by
  have undone := undoneAt stage (by simp)
  obtain ⟨p,here,pends⟩ := pendingOf same found
  have foreseen := pends.foreseen
  rw [stage] at foreseen
  obtain ⟨secret,size,opens,_⟩ := foreseen
  have opened := opensVisible same.owned size opens s.wsNow
  split at opened
  · rw [opened] at move ⊢
    refine idealGoes same found move rfl rfl rfl rfl undone rfl (fun p pends => ?_)
    have foreseen := pends.foreseen
    rw [stage] at foreseen
    obtain ⟨secret',size',opens',ready⟩ := foreseen
    rename_i live
    have opened' := opensVisible same.owned size' opens' s.wsNow
    rw [if_pos live] at opened'
    cases Except.ok.inj (opened.symm.trans opened')
    exact ready
  · rw [opened] at move ⊢
    exact idealRefuses same found move rfl rfl rfl rfl undone (faultFails "failed to open sealed secret: " (.error (.ffi .notFound)))

theorem idealBindingClaims {id b : Uuid} (laws : u.x.Lawful) (same : Matches u s v) (found : s.threads[i]? = some th)
    (stage : th.task = .claimsBinding id b)
    (move : Move u s l (s.put i (th.respond (bindingClaimsAnswer (WsCore.getBindingKey u.x s.ws s.wsNow b))))) :
    ∃ w, Many (Next u) v [] w ∧
      Matches u (s.put i (th.respond (bindingClaimsAnswer (WsCore.getBindingKey u.x s.ws s.wsNow b)))) w := by
  have undone := undoneAt stage (by simp)
  have ok := (same.owned.threads i th found).task
  rw [stage] at ok
  cases got : WsCore.getBindingKey u.x s.ws s.wsNow b with
  | error fault =>
    rw [got] at move
    cases fault with
    | error err => exact idealRefuses same found move rfl rfl rfl rfl undone (.claims _)
    | panic => exact idealRefuses same found move rfl rfl rfl rfl undone .closed
  | ok read =>
    rw [got] at move
    obtain ⟨key,made,claims⟩ := readsBinding laws same ok.1 got
    obtain ⟨p,here,pends⟩ := pendingOf same found
    have foreseen := pends.foreseen
    rw [stage] at foreseen
    obtain ⟨once,req,request,planned⟩ := foreseen
    refine idealReads same found move undone (fun p pends => ?_) (fun call sent => ?_) ?_
    · have foreseen := pends.foreseen
      rw [stage] at foreseen
      exact foreseen.1
    · have asked := pends.asked call none sent
      rw [request] at asked
      cases asked with
      | claims planned' => cases planned.symm.trans planned'
    · simp only [bindingClaimsAnswer,claims,request]
      exact .bindingClaims planned made

theorem idealResumes {result : Go KpsReply} {task : Task} (same : Matches u s v) (found : s.threads[i]? = some th)
    (faithful : l.faithful = true) (origin : Outcome u s i th l result) (resumes : Resumption u th.task result task)
    (move : Move u s l (s.put i (th.goto task))) : ∃ w, Many (Next u) v [] w ∧ Matches u (s.put i (th.goto task)) w := by
  have told : ∀ reply, result = .ok reply → ∀ p, Pends u s th p → Foretold u s p.ready th.task reply := by
    intro reply ok p pends
    cases origin with
    | received own =>
      rw [adaptOk ok] at own
      exact pends.foretold _ reply own
    | replayed other served decaps waiting => contradiction
    | timedOut err => contradiction
  have undone : ∀ a, th.task ≠ .answered a := by
    intro a done
    rw [done] at resumes
    cases resumes with
    | faulted ends failure => contradiction
  generalize stage : th.task = from_ at resumes told undone
  cases resumes with
  | faulted ends failure => exact idealRefuses same found move rfl rfl rfl rfl (stage ▸ undone) failure
  | undestroyed =>
    exact idealGoes same found move rfl rfl rfl rfl (stage ▸ undone) rfl (fun p pends absurd => by contradiction)
  | destroyed =>
    exact idealGoes same found move rfl rfl rfl rfl (stage ▸ undone) rfl (fun p pends _ => told _ rfl p pends)
  | _ => exact idealGoes same found move rfl rfl rfl rfl (stage ▸ undone) rfl (told _ rfl)

theorem idealAnswers {a : Answer} {entropy : Entropy} (same : Matches u s v) (found : s.threads[i]? = some th)
    (stage : th.task = .responding a) (move : Move u s (.advance i entropy) (s.put i (th.goto (.answered a)))) :
    ∃ w, Many (Next u) v (s.event (.advance i entropy)) w ∧ Matches u (s.put i (th.goto (.answered a))) w := by
  obtain ⟨p,here,pends⟩ := pendingOf same found
  have ready := pends.foreseen
  rw [stage] at ready
  have unanswered := pends.unanswered (undoneAt stage (by simp))
  simp only [System.event,found,Option.map_some,stage]
  refine ⟨_,manyOne (.answers here unanswered ready),matchesPut same move found here rfl rfl same.keys same.issued same.now ?_⟩
  exact ⟨pends.request,fun undone => absurd rfl (undone a),pends.asked,pends.unserved,ready,
    fun _ reply _ => foretoldDone rfl reply⟩

theorem idealQuiet (laws : u.x.Lawful) (same : Matches u s v) (faithful : l.faithful = true)
    (found : s.threads[i]? = some th) (taken : Quiet u s i th l th') :
    ∃ w, Many (Next u) v (s.event l) w ∧ Matches u (s.put i th') w := by
  have move : Move u s l (s.put i th') := .quiet found taken
  cases taken with
  | refused fresh why =>
    rw [eventHidden found (by simp [fresh])]
    exact idealRefuses same found move rfl rfl rfl rfl (undoneAt fresh (by simp)) (refusedFails why)
  | notMade fresh request planned =>
    rw [eventHidden found (by simp [fresh])]
    exact idealRefuses same found move rfl rfl rfl rfl (undoneAt fresh (by simp)) (faultFails _ _)
  | decapsFound fresh request parsed free mapped =>
    rw [eventHidden found (by simp [fresh])]
    exact idealCalls same found fresh move rfl rfl rfl rfl (request ▸ .decaps parsed) (fun _ _ => trivial)
  | decapsMissing fresh request parsed free missing =>
    rw [eventHidden found (by simp [fresh])]
    exact idealRefuses same found move rfl rfl rfl rfl (undoneAt fresh (by simp)) (notFoundFails _)
  | destroyFound fresh request parsed free mapped =>
    rw [eventHidden found (by simp [fresh])]
    exact idealCalls same found fresh move rfl rfl rfl rfl (request ▸ .destroy parsed) (fun _ _ => trivial)
  | destroyMissing fresh request parsed free missing =>
    rw [eventHidden found (by simp [fresh])]
    exact idealRefuses same found move rfl rfl rfl rfl (undoneAt fresh (by simp)) (notFoundFails _)
  | enumerating fresh request =>
    rw [eventHidden found (by simp [fresh])]
    exact idealCalls same found fresh move rfl rfl rfl rfl (request ▸ .enumerate) (fun _ _ => trivial)
  | claimsSent fresh request planned =>
    rw [eventHidden found (by simp [fresh])]
    exact idealCalls same found fresh move rfl rfl rfl rfl (request ▸ .claims planned) (fun _ _ => trivial)
  | claimsFound fresh request planned free mapped =>
    rw [eventHidden found (by simp [fresh])]
    exact idealGoes same found move rfl rfl rfl rfl (undoneAt fresh (by simp)) rfl
      (fun p pends => ⟨startedOnce fresh pends,_,request,planned⟩)
  | claimsMissing fresh request planned =>
    rw [eventHidden found (by simp [fresh])]
    exact idealRefuses same found move rfl rfl rfl rfl (undoneAt fresh (by simp)) (.claims _)
  | kpsClaims fresh request =>
    rw [eventHidden found (by simp [fresh])]
    exact idealKpsClaims laws same found fresh request move
  | opened stage =>
    rw [eventHidden found (by simp [stage])]
    exact idealOpens same found stage move
  | claimed stage =>
    rw [eventHidden found (by simp [stage])]
    exact idealBindingClaims laws same found stage move
  | answered stage =>
    exact idealAnswers same found stage move
  | resumed origin next =>
    have hidden : s.event l = [] := by cases origin <;> rfl
    rw [hidden]
    exact idealResumes same found faithful origin (resumption next) move

/-! The calls that the KPS serves. -/

theorem idealKemMade {entropy : Entropy} {algo suite : HpkeAlgorithm} {bindingPubKey : Bytes} {lifespanSecs : UInt64}
    {pubKey bindingKey : PublicKey} {record : KeyRecord} (laws : u.x.Lawful) (same : Matches u s v)
    (found : s.threads[i]? = some th) (sent : th.rpc = some ⟨.generate algo bindingPubKey lifespanSecs,none⟩)
    (unused : s.Fresh record.id) (decoded : u.x.decode (u.x.marshal algo) = .ok suite)
    (created : KeyRecord.Created u.x.bssl suite lifespanSecs entropy s.kpsNow pubKey record)
    (spec : record.metadata.spec = .kemWithBindingPub suite pubKey bindingKey) (move : Move u s l t)
    (threads : t.threads = s.threads.set i {th with rpc := some ⟨.generate algo bindingPubKey lifespanSecs,
      some (.ok (.generated record.id pubKey.bytes))⟩})
    (kps : t.kps = addKey s.kps record) (kems : t.kems = ⟨i,s.boot,record⟩ :: s.kems) (now : t.kpsNow = s.kpsNow) :
    ∃ w, Many (Next u) v [] w ∧ Matches u t w := by
  obtain ⟨p,here,pends⟩ := pendingOf same found
  have asked := pends.asked _ _ sent
  rw [laws.decodes] at decoded
  cases Except.ok.inj decoded
  generalize request : th.request = r at asked
  cases asked with
  | @generate body plan _ planned =>
    have own : (keyOf record).publicKey = pubKey := by simp only [keyOf,spec,KeySpec.ownKey]
    have does : Performs u v th.request (generateAnswer u plan record.id (keyOf record).publicKey.bytes)
        (storeOf t.kps) (issuedOf t.kems) := by
      rw [request,kps,kems,storeAdd,issuedCons,← same.keys,← same.issued]
      refine .generates planned ?_ (by simp only [keyOf,spec,KeySpec.algo]) (own ▸ created.pair)
        (created.createdAt.trans same.now.symm) (same.now ▸ created.deadline)
      rw [same.issued]
      exact issuedUnborn unused.1
    refine idealServed same found sent move threads now does ?_
    have foreseen := pends.foreseen
    generalize th.task = task at foreseen
    cases task with
    | generateCalling plan' b =>
      obtain ⟨body',request',planned'⟩ := foreseen
      rw [request] at request'
      cases request'
      cases Except.ok.inj (planned.symm.trans planned')
      exact congrArg (fun key => some (generateAnswer u plan record.id (PublicKey.bytes key))) own
    | _ => trivial

theorem idealKemDestroyed {kemUUID : Uuid} (same : Matches u s v) (found : s.threads[i]? = some th)
    (sent : th.rpc = some ⟨.destroy kemUUID,none⟩) (move : Move u s l t)
    (threads : t.threads = s.threads.set i {th with rpc := some ⟨.destroy kemUUID,
      some (if (s.kps.lookup kemUUID).isSome then .ok .destroyed else failed (.ffi .notFound))⟩})
    (kps : t.kps = s.kps.erase kemUUID) (kems : t.kems = s.kems) (now : t.kpsNow = s.kpsNow) :
    ∃ w, Many (Next u) v [] w ∧ Matches u t w := by
  cases slot : s.kps.lookup kemUUID with
  | none =>
    rw [slot] at threads
    refine idealUnserved same found sent move threads ?_ kems now
    rw [kps,storeErase,Function.update_eq_self_iff]
    simp only [storeOf,slot,Option.map_none]
  | some record =>
    rw [slot] at threads
    obtain ⟨p,here,pends⟩ := pendingOf same found
    have asked := pends.asked _ _ sent
    generalize request : th.request = r at asked
    cases asked with
    | destroy parsed =>
      have does : Performs u v th.request (.http 204 .empty) (storeOf t.kps) (issuedOf t.kems) := by
        have stored : v.keys kemUUID = some (keyOf record) := by
          simp only [same.keys,storeOf,slot,Option.map_some]
        rw [request,kps,kems,storeErase,← same.keys,← same.issued]
        exact .destroys parsed stored
      refine idealServed same found sent move threads now does ?_
      cases th.task <;> trivial

theorem mapOk {α β : Type} {f : α → β} {r : Go α} {b : β} (mapped : r.map f = .ok b) : ∃ a, r = .ok a ∧ f a = b := by
  cases r with
  | error fault => contradiction
  | ok a => exact ⟨a,rfl,Except.ok.inj mapped⟩

theorem idealSealed {entropy : Entropy} {kemUUID : Uuid} {encapsulatedKey aad sealEnc sealedCT : Bytes} (laws : u.x.Lawful)
    (same : Matches u s v) (found : s.threads[i]? = some th)
    (sent : th.rpc = some ⟨.decapAndSeal kemUUID encapsulatedKey aad,none⟩)
    (did : KpsCore.decapAndSeal u.x s.kps s.kpsNow entropy.seed kemUUID encapsulatedKey aad = .ok (sealEnc,sealedCT))
    (move : Move u s l t) (threads : t.threads = s.threads.set i {th with
      rpc := some ⟨.decapAndSeal kemUUID encapsulatedKey aad,some (.ok (.sealed sealEnc sealedCT))⟩})
    (kps : t.kps = s.kps) (kems : t.kems = s.kems) (now : t.kpsNow = s.kpsNow) :
    ∃ w, Many (Next u) v [] w ∧ Matches u t w := by
  obtain ⟨record,suite,pubKey,bindingKey,secret,visible,spec,decapsed,_⟩ := KpsCore.decapAndSealOk did
  obtain ⟨p,here,pends⟩ := pendingOf same found
  have asked := pends.asked _ _ sent
  generalize request : th.request = r at asked
  cases asked with
  | @decaps body call parsed =>
    have does : Performs u v th.request (.http 200 (.secret call.algorithm secret)) (storeOf t.kps) (issuedOf t.kems) := by
      rw [request,kps,kems,← same.keys,← same.issued]
      exact .decapsulates parsed ((visibleIff same).mpr ⟨record,visible,rfl⟩) decapsed
    refine idealServed same found sent move threads now does ?_
    have ok := (same.owned.threads i th found).task
    generalize stage : th.task = task at ok
    cases task with
    | decapsCalling call' b =>
      obtain ⟨settled,⟨body',request',parsed'⟩,_⟩ := ok
      cases request.symm.trans request'
      cases Except.ok.inj (parsed.symm.trans parsed')
      have grows := ownedGrows same.owned move
      have owned := ownedStep same.owned move
      -- The response is on record in the state after the call, where its secret opens.
      let response : Response := ⟨call.kemUUID,call.encapsulatedKey,call.aad,sealEnc,sealedCT⟩
      have mem : response ∈ t.responses := by
        have replied : t.threads[i]? = some {th with
            rpc := some ⟨.decapAndSeal call.kemUUID call.encapsulatedKey call.aad,some (.ok (.sealed sealEnc sealedCT))⟩} := by
          rw [threads,getPut found,if_pos rfl]
        exact memResponses.mpr ⟨i,_,replied,rfl⟩
      have settled' : Settled t response.kemUUID b := settledGrows grows settled
      obtain ⟨kem,kemMem,kemId,secret',decapsed',size,opens⟩ := responseOpens laws owned settled' mem
      obtain ⟨named,kem',kemMem',birth⟩ := same.owned.kps _ record (getKeyLookup visible)
      cases kemSame owned kemMem (grows.kems kem' kemMem') (by rw [kemId,birth,named])
      rw [birth] at decapsed'
      cases Except.ok.inj (decapsed.symm.trans decapsed')
      exact ⟨secret,size,opens,rfl⟩
    | _ => trivial

theorem idealRead {entropy : Entropy} {call : KpsCall} {reply : Go KpsReply} (laws : u.x.Lawful) (same : Matches u s v)
    (found : s.threads[i]? = some th) (sent : th.rpc = some ⟨call,none⟩)
    (reads : serveCall u.x s.kps s.kpsNow entropy call = (reply,s.kps))
    (nothing : ∀ kemUUID kemPubKey, reply ≠ .ok (.generated kemUUID kemPubKey))
    (keeps : ∀ kemUUID, call ≠ .destroy kemUUID) (move : Move u s l t)
    (threads : t.threads = s.threads.set i {th with rpc := some ⟨call,some reply⟩})
    (kps : t.kps = s.kps) (kems : t.kems = s.kems) (now : t.kpsNow = s.kpsNow) :
    ∃ w, Many (Next u) v [] w ∧ Matches u t w := by
  have made : (serveCall u.x s.kps s.kpsNow entropy call).1 = reply := congrArg Prod.fst reads
  cases reply with
  | error fault => exact idealUnserved same found sent move threads (kps ▸ rfl) kems now
  | ok reply =>
    obtain ⟨p,here,pends⟩ := pendingOf same found
    have asked := pends.asked _ _ sent
    cases call with
    | generate algo bindingPubKey lifespanSecs =>
      obtain ⟨pair,_,rfl⟩ := mapOk made
      exact absurd rfl (nothing pair.1 pair.2)
    | decapAndSeal kemUUID encapsulatedKey aad =>
      obtain ⟨pair,did,rfl⟩ := mapOk made
      exact idealSealed laws same found sent did move threads kps kems now
    | destroy kemUUID => exact absurd rfl (keeps kemUUID)
    | getKEMKey id =>
      obtain ⟨info,got,rfl⟩ := mapOk made
      obtain ⟨key,visible,claims⟩ := readsClaims laws same got
      generalize request : th.request = r at asked
      cases asked with
      | claims planned =>
        have does : Performs u v th.request (.claims (key.claims v.now)) (storeOf t.kps) (issuedOf t.kems) := by
          rw [request,kps,kems,← same.keys,← same.issued]
          exact .claims planned visible
        refine idealServed same found sent move threads now does ?_
        rw [← claims]
        cases th.task <;> trivial
    | enumerate limit offset =>
      generalize request : th.request = r at asked
      cases asked with
      | enumerate =>
        simp only [serveCall] at made
        obtain ⟨listed,read,rfl⟩ := mapOk made
        obtain ⟨page,lists,answer⟩ := readsListing laws same read
        have does : Performs u v th.request (enumerateAnswer u (.ok listed)) (storeOf t.kps) (issuedOf t.kems) := by
          rw [request,kps,kems,← same.keys,← same.issued,answer]
          exact .lists lists
        refine idealServed same found sent move threads now does ?_
        cases th.task <;> first | exact rfl | exact True.intro

theorem sweptExpired {now : Nat} (past : now ≤ s.kpsNow) (id : Uuid) : storeOf (reap s.kps now) id = storeOf s.kps id ∨
    (storeOf (reap s.kps now) id = none ∧ ∀ key, storeOf s.kps id = some key → key.deadline ≤ s.kpsNow) := by
  simp only [storeOf,reap,Table.lookupRetain]
  cases slot : s.kps.lookup id with
  | none => exact .inl rfl
  | some record =>
    by_cases alive : record.metadata.deleteAfter > now
    · rw [Option.filter_some_pos (by simpa using alive)]
      exact .inl rfl
    · rw [Option.filter_some_neg (by simpa using alive)]
      refine .inr ⟨rfl,fun key stored => ?_⟩
      cases Option.some.inj stored
      exact (Nat.not_lt.mp alive).trans past

theorem destroyAnswerCases (errKps errWs : Option GoError) :
    (destroyAnswer errKps errWs).Failure ∨ (errKps = none ∧ errWs = none) := by
  unfold destroyAnswer
  split
  · rename_i err joined
    exact .inl (.http (httpStatusNotOk err).1)
  · rename_i joined
    cases errKps <;> cases errWs <;> first | exact .inr ⟨rfl,rfl⟩ | contradiction

theorem idealStep (laws : u.x.Lawful) (same : Matches u s v) (faithful : l.faithful = true) (move : Move u s l t) :
    ∃ w, Many (Next u) v (s.event l) w ∧ Matches u t w := by
  have moved := move
  cases move with
  | arrived request =>
    refine ⟨_,manyOne (.arrives request),ownedStep same.owned moved,same.keys,same.issued,same.now,?_,?_⟩
    · simp only [List.length_append,same.length,List.length_singleton]
    · intro j other p there here
      have grows := ownedGrows same.owned moved
      rw [List.getElem?_append,same.length] at here
      rcases getArrived there with old | ⟨last,new⟩
      · rw [if_pos (List.getElem?_eq_some_iff.mp old).1] at here
        exact pendsGrows grows (same.requests j other p old here)
      · subst last new
        rw [if_neg (Nat.lt_irrefl _),Nat.sub_self] at here
        cases Option.some.inj here
        exact ⟨rfl,fun _ => rfl,by simp,by simp,rfl,by simp⟩
  | quiet found next => exact idealQuiet laws same faithful found next
  | bindingMade found fresh request planned unused decoded created spec =>
    rw [eventHidden found (by simp [fresh])]
    exact idealCalls same found fresh moved rfl rfl rfl rfl (request ▸ .generate planned) (fun _ _ => ⟨_,request,planned⟩)
  | kemMade found sent unused bound decoded created spec =>
    exact idealKemMade laws same found sent unused decoded created spec moved rfl rfl rfl rfl
  | kemDestroyed found sent => exact idealKemDestroyed same found sent moved rfl rfl rfl rfl
  | served found sent reads nothing keeps =>
    exact idealRead laws same found sent reads nothing keeps moved rfl rfl rfl rfl
  | stored found stage free =>
    rw [eventHidden found (by simp [stage])]
    refine idealGoes same found moved rfl rfl rfl rfl (undoneAt stage (by simp)) rfl (fun p pends => ?_)
    have ready := pends.foreseen
    rw [stage] at ready
    exact ready
  | bindingDestroyed found stage =>
    rw [eventHidden found (by simp [stage])]
    refine idealGoes same found moved rfl rfl rfl rfl (undoneAt stage (by simp)) rfl
      (fun p pends => ?_)
    have ready := pends.foreseen
    rw [stage] at ready
    exact ready
  | @unmapped i th entropy kemUUID bindingUUID errKps errWs found stage free =>
    rw [eventHidden found (by simp [stage])]
    rcases destroyAnswerCases errKps errWs with failure | ⟨rfl,rfl⟩
    · exact idealRefuses same found moved rfl rfl rfl rfl (undoneAt stage (by simp)) failure
    · refine idealGoes same found moved rfl rfl rfl rfl (undoneAt stage (by simp)) rfl (fun p pends => ?_)
      have ready := pends.foreseen
      rw [stage] at ready
      exact ready rfl
  | ticked kps ws =>
    exact ⟨_,manyOne (.ticks kps),matchesStill same moved rfl rfl same.keys same.issued
      (congrArg (· + kps) same.now)⟩
  | reapedKps past =>
    refine ⟨_,manyOne (.forgets (storeOf (reap s.kps _)) fun id => ?_),
      matchesStill same moved rfl rfl rfl same.issued same.now⟩
    rw [same.keys,same.now]
    exact sweptExpired past id
  | restarted given unused =>
    exact ⟨_,manyOne .restarts,matchesStill same moved rfl rfl rfl same.issued same.now⟩
  | reapedWs past => exact ⟨v,.nil v,matchesStill same moved rfl rfl same.keys same.issued same.now⟩
  | beaten keeps unreset unheard taken =>
    exact ⟨v,.nil v,matchesStill same moved rfl rfl same.keys same.issued same.now⟩
  | heard stage => exact ⟨v,.nil v,matchesStill same moved rfl rfl same.keys same.issued same.now⟩
  | purged stage => exact ⟨v,.nil v,matchesStill same moved rfl rfl same.keys same.issued same.now⟩
  | reset stage => exact ⟨v,.nil v,matchesStill same moved rfl rfl same.keys same.issued same.now⟩

theorem matchesInitial (u : Setup) (kpsNow wsNow : Nat) (token : String) :
    Matches u (System.initial kpsNow wsNow token) (Service.initial kpsNow) :=
  ⟨ownedInitial u kpsNow wsNow token,rfl,rfl,rfl,rfl,fun i th p found => by simp [System.initial] at found⟩

end

def decapsulated : List Label :=
  Standin.generating 0 1 2 ++ [.arrive (Standin.decapsRequest 2 (Standin.pad32 [9]))] ++ decapsBesideGenerate

end KeyProtection
