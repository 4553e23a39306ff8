import KeyProtection.Decaps

/-! Responses of the KPS that are delivered to another request. The context that a response
is sealed under names the handle and the algorithm, so it is never opened for another
handle; it does not name the encapsulated key, so for one handle any response is opened for
any request. What a request is told is right whenever the response that it opened carries
the secret that it asked for. -/
namespace KeyProtection
open Lib Lib.Run KeyRegistry

structure Response where
  kemUUID : Uuid
  encapsulatedKey : Bytes
  aad : Bytes
  sealEnc : Bytes
  sealedCT : Bytes
  deriving DecidableEq, Repr

def Rpc.response : Rpc → Option Response
  | ⟨.decapAndSeal kemUUID encapsulatedKey aad,some (.ok (.sealed sealEnc sealedCT))⟩ =>
      some ⟨kemUUID,encapsulatedKey,aad,sealEnc,sealedCT⟩
  | _ => none

/- Every response that the KPS has ever sent; a request that timed out keeps its own. -/
def System.responses (s : System) : List Response := s.threads.filterMap (fun th => th.rpc.bind Rpc.response)

/- What is asked of HPKE, about the keys, contexts and responses of the run: a binding key
opens a response under the context of a handle only if it was sealed under that context.
That it then opens to what was sealed is proved, see responseOpens. -/
def OpensOnlySealed (u : Setup) (s : System) : Prop :=
  ∀ response ∈ s.responses, ∀ binding ∈ s.bindings, ∀ kem ∈ s.kems,
    (Crypto.hpkeOpenInternal u.x.bssl binding.record.privateKey response.sealEnc response.sealedCT
      (decapsAADContext kem.record.id kemX25519) binding.record.metadata.spec.algo).toOption.isSome = true →
    response.aad = decapsAADContext kem.record.id kemX25519

def Decapsulated (u : Setup) (s : System) (call : DecapsCall) (secret : Bytes) : Prop :=
  ∃ kem ∈ s.kems, kem.record.id = call.kemUUID ∧
    Crypto.decapsInternal u.x.bssl kem.record.privateKey call.encapsulatedKey = .ok secret

/- The response is one for another handle, or its binding key is no longer there to open
it, or it carries the decapsulation that was asked for. -/
def Response.Harmless (u : Setup) (s : System) (call : DecapsCall) (b : Uuid) (response : Response) : Prop :=
  response.kemUUID ≠ call.kemUUID ∨ getKey s.ws s.wsNow b = none ∨ ∀ kem ∈ s.kems, kem.record.id = call.kemUUID →
    Crypto.decapsInternal u.x.bssl kem.record.privateKey response.encapsulatedKey =
      Crypto.decapsInternal u.x.bssl kem.record.privateKey call.encapsulatedKey

/-! The context of one algorithm names the handle. -/

theorem uuidCharsKnown {id : Uuid} {c : Char} (mem : c ∈ uuidChars id) : c ∈ "0123456789abcdef-".toList := by
  have digits : ∀ c ∈ uuidDigits id, c ∈ "0123456789abcdef-".toList := by
    intro c mem
    obtain ⟨n,_,same⟩ := List.mem_map.mp mem
    have all : ∀ n : Fin 16, hexDigit n.val ∈ "0123456789abcdef-".toList := by decide +kernel
    rw [← same]
    exact all ⟨_,Nat.mod_lt _ (by decide)⟩
  have dash : '-' ∈ "0123456789abcdef-".toList := by decide +kernel
  simp only [uuidChars,List.mem_append,List.mem_singleton] at mem
  rcases mem with (((((((part | same) | part) | same) | part) | same) | part) | same) | part
  · exact digits c (List.mem_of_mem_take part)
  · exact same ▸ dash
  · exact digits c (List.mem_of_mem_drop (List.mem_of_mem_take part))
  · exact same ▸ dash
  · exact digits c (List.mem_of_mem_drop (List.mem_of_mem_take part))
  · exact same ▸ dash
  · exact digits c (List.mem_of_mem_drop (List.mem_of_mem_take part))
  · exact same ▸ dash
  · exact digits c (List.mem_of_mem_drop part)

theorem contextNamesHandle {x : Externals} (laws : x.Lawful) {k k' : Uuid}
    (same : decapsAADContext k kemX25519 = decapsAADContext k' kemX25519) : k = k' := by
  have codes : "0123456789abcdef-".toList.map (fun c => Char.ofNat (UInt8.ofNat c.toNat).toNat) =
      "0123456789abcdef-".toList.map id := by decide +kernel
  have back : ∀ id, (Crypto.ascii (uuidString id)).map (fun byte => Char.ofNat byte.toNat) = uuidChars id := by
    intro id
    rw [Crypto.ascii,uuidString,String.toList_ofList,List.map_map]
    refine (List.map_congr_left (fun c mem => ?_)).trans (List.map_id' _)
    exact List.map_inj_left.mp codes c (uuidCharsKnown mem)
  simp only [decapsAADContext,Crypto.ascii,String.toList_append,List.map_append] at same
  have tails : Crypto.ascii (uuidString k) = Crypto.ascii (uuidString k') := List.append_cancel_left same
  have strings : uuidString k = uuidString k' := by rw [uuidString,uuidString,← back k,← back k',tails]
  have parsed := laws.parses k
  rw [strings,laws.parses k'] at parsed
  exact (Except.ok.inj parsed).symm

section
variable {u : Setup} {s t : System} {l : Label} {i : Nat} {th : Thread} {call : DecapsCall} {b : Uuid}
  {response : Response}

theorem rpcResponse {rpc : Rpc} (got : rpc.response = some response) : rpc =
    ⟨.decapAndSeal response.kemUUID response.encapsulatedKey response.aad,
      some (.ok (.sealed response.sealEnc response.sealedCT))⟩ := by
  unfold Rpc.response at got
  split at got <;> try contradiction
  cases Option.some.inj got
  rfl

theorem memResponses : response ∈ s.responses ↔ ∃ (j : Nat) (other : Thread), s.threads[j]? = some other ∧
    other.rpc = some ⟨.decapAndSeal response.kemUUID response.encapsulatedKey response.aad,
      some (.ok (.sealed response.sealEnc response.sealedCT))⟩ := by
  simp only [System.responses,List.mem_filterMap]
  constructor
  · intro found
    obtain ⟨other,mem,got⟩ := found
    obtain ⟨j,here⟩ := List.mem_iff_getElem?.mp mem
    obtain ⟨rpc,same,shape⟩ := Option.bind_eq_some_iff.mp got
    exact ⟨j,other,here,by rw [same,rpcResponse shape]⟩
  · intro found
    obtain ⟨j,other,here,same⟩ := found
    exact ⟨other,List.mem_of_getElem? here,by rw [same]; rfl⟩

theorem decapsulatingContext {request : Request} (asks : Decapsulating u call request) :
    call.aad = decapsAADContext call.kemUUID kemX25519 ∧ call.algorithm = kemX25519 := by
  obtain ⟨body,_,parsed⟩ := asks
  obtain ⟨req,_,accepted⟩ := decapsParsed parsed
  have algorithm : call.algorithm = kemX25519 := accepted.algorithm
  exact ⟨algorithm ▸ accepted.aad,algorithm⟩

/-! One opening. -/

theorem responseOpens (laws : u.x.Lawful) (owned : Owned u s) (settled : Settled s response.kemUUID b)
    (mem : response ∈ s.responses) : ∃ kem ∈ s.kems, kem.record.id = response.kemUUID ∧ ∃ secret,
      Crypto.decapsInternal u.x.bssl kem.record.privateKey response.encapsulatedKey = .ok secret ∧ secret.length = 32 ∧
      Opens u s b response.aad response.sealEnc response.sealedCT secret := by
  obtain ⟨j,other,there,replied⟩ := memResponses.mp mem
  obtain ⟨k,enc,aad,same,sealing⟩ := (owned.threads j other there).replied _ _ replied
  cases same
  obtain ⟨kem,kemMem,kemId,suite,kemKey,bindingKey,secret,seed,kemSpec,decapsed,seals,encGiven,ctGiven⟩ := sealing
  obtain ⟨_,_,binding,bindingMem,_,bindingId,_⟩ := id settled
  have bound := settledBound owned settled kemMem kemId bindingMem bindingId
  obtain ⟨suite',kemKey',bindingKey',sealEnc,sealedCT,kemSpec',bindingSpec,seals',_,_,opened⟩ :=
    pairSealsOpens laws.bssl bound (owned.bindings binding bindingMem).made secret response.aad seed
  cases kemSpec.symm.trans kemSpec'
  cases Except.ok.inj (seals.symm.trans seals')
  exact ⟨kem,kemMem,kemId,secret,decapsed,Crypto.decapsSize laws.bssl decapsed,encGiven,ctGiven,binding,bindingMem,
    bindingId,suite,bindingKey,bindingSpec,opened⟩

theorem openedResponse {secret : Bytes} (laws : u.x.Lawful) (owned : Owned u s) (authentic : OpensOnlySealed u s)
    (settled : Settled s call.kemUUID b) (context : call.aad = decapsAADContext call.kemUUID kemX25519)
    (mem : response ∈ s.responses) (sealed : response.aad = decapsAADContext response.kemUUID kemX25519)
    (opened : WsCore.openSecret u.x s.ws s.wsNow b response.sealEnc response.sealedCT call.aad = .ok secret) :
    response.kemUUID = call.kemUUID ∧ (getKey s.ws s.wsNow b).isSome ∧ ∃ kem ∈ s.kems,
      kem.record.id = call.kemUUID ∧
      Crypto.decapsInternal u.x.bssl kem.record.privateKey response.encapsulatedKey = .ok secret := by
  obtain ⟨record,suite,key,live,spec,opens⟩ := WsCore.openedSecret opened
  obtain ⟨_,binding,bindingMem,same⟩ := owned.ws _ _ (getKeyLookup live)
  subst same
  obtain ⟨kem,kemMem,_,_,kemId,_⟩ := id settled
  have plain : (Crypto.hpkeOpenInternal u.x.bssl binding.record.privateKey response.sealEnc response.sealedCT
      (decapsAADContext kem.record.id kemX25519) binding.record.metadata.spec.algo).toOption.isSome = true := by
    have algo : binding.record.metadata.spec.algo = suite := by rw [spec]; rfl
    rw [kemId,← context,algo,opens]
    rfl
  have contexts := authentic response mem binding bindingMem kem kemMem plain
  have handles : response.kemUUID = call.kemUUID := contextNamesHandle laws (sealed.symm.trans (kemId ▸ contexts))
  -- The binding key of the handle opens it to what its KEM key gave.
  obtain ⟨sealer,sealerMem,sealerId,told,decapsed,size,sealing⟩ := responseOpens laws owned (handles ▸ settled) mem
  have visible := opensVisible owned size sealing s.wsNow
  rw [sealed,handles,← context,live,Option.isSome_some,if_pos rfl] at visible
  cases Except.ok.inj (visible.symm.trans opened)
  exact ⟨handles,by rw [live]; rfl,sealer,sealerMem,sealerId.trans handles,decapsed⟩

theorem openedRightIff (laws : u.x.Lawful) (owned : Owned u s) (authentic : OpensOnlySealed u s)
    (settled : Settled s call.kemUUID b) (context : call.aad = decapsAADContext call.kemUUID kemX25519)
    (mem : response ∈ s.responses) (sealed : response.aad = decapsAADContext response.kemUUID kemX25519) :
    (∀ secret, WsCore.openSecret u.x s.ws s.wsNow b response.sealEnc response.sealedCT call.aad = .ok secret →
      Decapsulated u s call secret) ↔ response.Harmless u s call b := by
  constructor
  · intro right
    by_cases handles : response.kemUUID = call.kemUUID
    · refine .inr ?_
      cases live : getKey s.ws s.wsNow b with
      | none => exact .inl rfl
      | some record =>
        refine .inr (fun kem kemMem kemId => ?_)
        obtain ⟨kem',kemMem',kemId',secret,decapsed,size,opens⟩ :=
          responseOpens laws owned (handles ▸ settled) mem
        have aads : response.aad = call.aad := by rw [sealed,handles,context]
        rw [aads] at opens
        have opened := opensVisible owned size opens s.wsNow
        rw [live,Option.isSome_some,if_pos rfl] at opened
        obtain ⟨kem'',kemMem'',kemId'',asked⟩ := right secret opened
        cases kemSame owned kemMem kemMem' (kemId.trans (kemId'.trans handles).symm)
        cases kemSame owned kemMem kemMem'' (kemId.trans kemId''.symm)
        exact decapsed.trans asked.symm
    · exact .inl handles
  · intro harmless secret opened
    obtain ⟨handles,live,kem,kemMem,kemId,decapsed⟩ :=
      openedResponse laws owned authentic settled context mem sealed opened
    rcases harmless with other | gone | same
    · exact absurd handles other
    · rw [gone] at live
      contradiction
    · exact ⟨kem,kemMem,kemId,(same kem kemMem kemId).symm.trans decapsed⟩

/-! Every delivery. -/

def Task.secret : Task → Option Bytes
  | .responding (.http _ (.secret _ secret)) => some secret
  | .answered (.http _ (.secret _ secret)) => some secret
  | _ => none

structure Delivering (u : Setup) (s : System) : Prop where
  owned : Owned u s
  sent : ∀ (j : Nat) (th : Thread) k enc aad reply, s.threads[j]? = some th →
    th.rpc = some ⟨.decapAndSeal k enc aad,reply⟩ → ∃ first, Decapsulating u first th.request ∧
      first.kemUUID = k ∧ first.encapsulatedKey = enc ∧ first.aad = aad
  opening : ∀ (j : Nat) (th : Thread) call b sealEnc sealedCT, s.threads[j]? = some th →
    th.task = .decapsOpening call b sealEnc sealedCT →
    ∃ response ∈ s.responses, response.sealEnc = sealEnc ∧ response.sealedCT = sealedCT

theorem responsesGrow (grows : Grows s t) (mem : response ∈ s.responses) : response ∈ t.responses := by
  obtain ⟨j,other,there,replied⟩ := memResponses.mp mem
  obtain ⟨other',there',follows⟩ := grows.threads j other there
  exact memResponses.mpr ⟨j,other',there',follows.replied _ _ replied⟩

theorem sentBefore {k : Uuid} {enc aad : Bytes} {reply : Option (Go KpsReply)} {th' : Thread}
    (moved : Moved u s l t i th th') (sent : th'.rpc = some ⟨.decapAndSeal k enc aad,reply⟩) :
    (∃ earlier, th.rpc = some ⟨.decapAndSeal k enc aad,earlier⟩) ∨ ∃ first, Decapsulating u first th.request ∧
      first.kemUUID = k ∧ first.encapsulatedKey = enc ∧ first.aad = aad := by
  cases moved with
  | quiet taken same =>
    cases taken with
    | @decapsFound entropy body call bindingUUID fresh request parsed free mapped =>
      cases Option.some.inj sent
      exact .inr ⟨call,⟨body,request,parsed⟩,rfl,rfl,rfl⟩
    | destroyFound fresh request parsed free mapped => cases Option.some.inj sent
    | enumerating fresh request => cases Option.some.inj sent
    | claimsSent fresh request planned => cases Option.some.inj sent
    | _ => exact .inl ⟨reply,sent⟩
  | making label fresh request born ws => cases Option.some.inj sent
  | replied label unserved reads destroys =>
    cases Option.some.inj sent
    exact .inl ⟨none,unserved⟩
  | _ => exact .inl ⟨reply,sent⟩

theorem openingBefore {th' : Thread} {sealEnc sealedCT : Bytes} (owned : Owned u s) (found : s.threads[i]? = some th)
    (moved : Moved u s l t i th th') (stage : th'.task = .decapsOpening call b sealEnc sealedCT) :
    th.task = .decapsOpening call b sealEnc sealedCT ∨
      ∃ response ∈ s.responses, response.sealEnc = sealEnc ∧ response.sealedCT = sealedCT := by
  have sentFrom : ∀ (j : Nat) (other : Thread) sent reply, s.threads[j]? = some other →
      other.rpc = some ⟨sent,some reply⟩ → adapt u.mode sent reply = .ok (.sealed sealEnc sealedCT) →
      ∃ response ∈ s.responses, response.sealEnc = sealEnc ∧ response.sealedCT = sealedCT := by
    intro j other sent reply there replied ok
    have honest := adaptOk ok
    subst honest
    obtain ⟨k,enc,aad,same,_⟩ := (owned.threads j other there).replied _ _ replied
    subst same
    exact ⟨⟨k,enc,aad,sealEnc,sealedCT⟩,memResponses.mpr ⟨j,other,there,replied⟩,rfl,rfl⟩
  cases moved with
  | quiet taken same =>
    cases taken with
    | @resumed l result task origin next =>
      have resumes := resumption next
      generalize th.task = before at resumes
      cases resumes with
      | sealed =>
        cases stage
        generalize outcome : (Except.ok (KpsReply.sealed sealEnc sealedCT) : Go KpsReply) = result at origin
        cases origin with
        | received own => exact .inr (sentFrom i th _ _ found own outcome.symm)
        | replayed there served decaps waiting => exact .inr (sentFrom _ _ _ _ there served outcome.symm)
        | timedOut err => contradiction
      | _ => contradiction
    | _ => contradiction
  | replied label sent reads destroys => exact .inl stage
  | _ => contradiction

theorem deliveringStep (before : Delivering u s) (move : Move u s l t) : Delivering u t := by
  have grows := ownedGrows before.owned move
  refine ⟨ownedStep before.owned move,fun j th' k enc aad reply here sent => ?_,
    fun j th' call b sealEnc sealedCT here stage => ?_⟩
  · rcases threadBefore move here with ⟨request,_,new⟩ | old | ⟨th,found,moved⟩
    · subst new
      contradiction
    · exact before.sent j th' k enc aad reply old sent
    · rw [movedRequest moved]
      rcases sentBefore moved sent with ⟨earlier,same⟩ | made
      · exact before.sent j th k enc aad earlier found same
      · exact made
  · have known : ∃ response ∈ s.responses, response.sealEnc = sealEnc ∧ response.sealedCT = sealedCT := by
      rcases threadBefore move here with ⟨request,_,new⟩ | old | ⟨th,found,moved⟩
      · subst new
        contradiction
      · exact before.opening j th' call b sealEnc sealedCT old stage
      · rcases openingBefore before.owned found moved stage with same | got
        · exact before.opening j th call b sealEnc sealedCT found same
        · exact got
    obtain ⟨response,mem,same⟩ := known
    exact ⟨response,responsesGrow grows mem,same⟩

theorem deliveringInitial (u : Setup) (kpsNow wsNow : Nat) (token : String) :
    Delivering u (System.initial kpsNow wsNow token) := by
  refine ⟨ownedInitial u kpsNow wsNow token,?_,?_⟩ <;> simp [System.initial]

theorem deliveringReachable (reach : Reachable u s) : Delivering u s := by
  obtain ⟨kpsNow,wsNow,token,_,run⟩ := reach
  exact reachableInvariant (deliveringInitial u kpsNow wsNow token)
    (fun _ _ _ before taken => deliveringStep before (stepMove taken)) run

theorem responseContext (delivering : Delivering u s) (mem : response ∈ s.responses) :
    response.aad = decapsAADContext response.kemUUID kemX25519 := by
  obtain ⟨j,other,there,replied⟩ := memResponses.mp mem
  obtain ⟨first,asks,kem,_,aad⟩ := delivering.sent j other _ _ _ _ there replied
  rw [← aad,← kem]
  exact (decapsulatingContext asks).1

def Task.OpensHarmless (u : Setup) (s : System) : Task → Prop
  | .decapsOpening call b sealEnc sealedCT => ∀ response ∈ s.responses, response.sealEnc = sealEnc →
      response.sealedCT = sealedCT → response.Harmless u s call b
  | _ => True

def OpensHarmless (u : Setup) (s : System) : Label → Prop
  | .advance i _ => ∀ th ∈ s.threads[i]?, th.task.OpensHarmless u s
  | _ => True

structure Answering (u : Setup) (s : System) : Prop where
  delivering : Delivering u s
  right : ∀ (j : Nat) (th : Thread) call secret, s.threads[j]? = some th → Decapsulating u call th.request →
    th.task.secret = some secret → Decapsulated u s call secret

theorem decapsulatingSame {call' : DecapsCall} {request : Request} (left : Decapsulating u call request)
    (right : Decapsulating u call' request) : call = call' := by
  obtain ⟨body,same,parsed⟩ := left
  obtain ⟨body',same',parsed'⟩ := right
  cases same.symm.trans same'
  exact Except.ok.inj (parsed.symm.trans parsed')

theorem decapsulatedGrows {secret : Bytes} (grows : Grows s t) (right : Decapsulated u s call secret) :
    Decapsulated u t call secret := by
  obtain ⟨kem,mem,rest⟩ := right
  exact ⟨kem,grows.kems kem mem,rest⟩

theorem failureTellsNoSecret {a : Answer} (failure : a.Failure) : (Task.responding a).secret = none := by
  cases failure <;> rfl

theorem secretBefore {th' : Thread} {secret : Bytes} (moved : Moved u s l t i th th')
    (tells : th'.task.secret = some secret) : th.task.secret = some secret ∨
      ∃ entropy call b sealEnc sealedCT, l = .advance i entropy ∧ th.task = .decapsOpening call b sealEnc sealedCT ∧
        WsCore.openSecret u.x s.ws s.wsNow b sealEnc sealedCT call.aad = .ok secret := by
  cases stage : th'.task with
  | responding a =>
    rw [stage] at tells
    cases responded moved stage with
    | kept same => exact .inl (by rw [same]; exact tells)
    | failed failure => exact (nomatch (failureTellsNoSecret failure).symm.trans tells)
    | generated entropy label storing => contradiction
    | opened entropy label opening ok =>
      cases Option.some.inj tells
      exact .inr ⟨entropy,_,_,_,_,label,opening,ok⟩
    | destroyed =>
      simp only [destroyAnswer] at tells
      split at tells <;> contradiction
    | listed => contradiction
    | claimed claims => contradiction
  | answered a =>
    rw [stage] at tells
    have written : (Task.responding a).secret = some secret := by
      cases a with
      | http status payload => cases payload <;> exact tells
      | _ => contradiction
    rcases answeredFrom moved stage with same | same
    · exact .inl (by rw [same]; exact written)
    · exact .inl (by rw [same]; exact tells)
  | _ =>
    rw [stage] at tells
    contradiction

theorem answeringStep (laws : u.x.Lawful) (before : Answering u s) (authentic : OpensOnlySealed u s)
    (harmless : OpensHarmless u s l) (move : Move u s l t) : Answering u t := by
  have delivering := before.delivering
  have grows := ownedGrows delivering.owned move
  refine ⟨deliveringStep delivering move,fun j th' call secret here asks tells => decapsulatedGrows grows ?_⟩
  rcases threadBefore move here with ⟨request,_,new⟩ | old | ⟨th,found,moved⟩
  · subst new
    contradiction
  · exact before.right j th' call secret old asks tells
  · rw [movedRequest moved] at asks
    rcases secretBefore moved tells with same | ⟨entropy,call',b,sealEnc,sealedCT,label,opening,opened⟩
    · exact before.right j th call secret found asks same
    · have task := (delivering.owned.threads j th found).task
      rw [opening] at task
      cases decapsulatingSame asks task.2
      obtain ⟨response,mem,rfl,rfl⟩ := delivering.opening j th call b sealEnc sealedCT found opening
      subst label
      have allowed := harmless th found
      rw [opening] at allowed
      exact (openedRightIff laws delivering.owned authentic task.1 (decapsulatingContext asks).1 mem
        (responseContext delivering mem)).mpr (allowed response mem rfl rfl) secret opened

theorem answeringInitial (u : Setup) (kpsNow wsNow : Nat) (token : String) :
    Answering u (System.initial kpsNow wsNow token) := by
  refine ⟨deliveringInitial u kpsNow wsNow token,?_⟩
  simp [System.initial]

theorem openingAnswers {sealEnc sealedCT : Bytes} {entropy : Entropy} (secret : Bytes) (found : s.threads[i]? = some th)
    (opening : th.task = .decapsOpening call b sealEnc sealedCT) (taken : step u s (.advance i entropy) = some t) :
    t.kems = s.kems ∧ (t.threads[i]?.map Thread.task = some (.responding (.http 200 (.secret call.algorithm secret))) ↔
      WsCore.openSecret u.x s.ws s.wsNow b sealEnc sealedCT call.aad = .ok secret) := by
  simp only [step,found,Option.bind_some,advance,opening] at taken
  cases Option.some.inj taken
  refine ⟨rfl,?_⟩
  have here : (s.put i (th.respond (decapsAnswer call
      (WsCore.openSecret u.x s.ws s.wsNow b sealEnc sealedCT call.aad)))).threads[i]? = some (th.respond
      (decapsAnswer call (WsCore.openSecret u.x s.ws s.wsNow b sealEnc sealedCT call.aad))) :=
    (getPut found i).trans (if_pos rfl)
  rw [here,Option.map_some]
  cases opened : WsCore.openSecret u.x s.ws s.wsNow b sealEnc sealedCT call.aad with
  | ok plaintext => simp [Thread.respond,Thread.goto,decapsAnswer]
  | error fault =>
    have other := failureTellsNoSecret (faultFails "failed to open sealed secret: " fault)
    constructor
    · intro same
      have told : Task.responding (writeFault "failed to open sealed secret: " fault) =
        .responding (.http 200 (.secret call.algorithm secret)) := Option.some.inj same
      rw [told] at other
      contradiction
    · intro same
      cases same

theorem sealedResponsesBound (laws : u.x.Lawful) :
    (∀ kpsNow wsNow token ls s,
      Along (step u) (fun v l => OpensOnlySealed u v ∧ OpensHarmless u v l) (System.initial kpsNow wsNow token) ls s →
      ∀ (i : Nat) (th : Thread) call algorithm secret, s.threads[i]? = some th → Decapsulating u call th.request →
        th.task = .answered (.http 200 (.secret algorithm secret)) → Decapsulated u s call secret) ∧
    (∀ s, Reachable u s → OpensOnlySealed u s → ∀ (i : Nat) (th : Thread) call b response, s.threads[i]? = some th →
      th.task = .decapsOpening call b response.sealEnc response.sealedCT → response ∈ s.responses →
      ((∀ entropy t secret, step u s (.advance i entropy) = some t →
        t.threads[i]?.map Thread.task = some (.responding (.http 200 (.secret call.algorithm secret))) →
        Decapsulated u t call secret) ↔ response.Harmless u s call b)) := by
  refine ⟨fun kpsNow wsNow token ls s run i th call algorithm secret found asks answered => ?_,
    fun s reach authentic i th call b response found opening mem => ?_⟩
  · have final : Answering u s := alongInvariant (fun _ _ _ before allowed taken =>
      answeringStep laws before allowed.1 allowed.2 (stepMove taken)) run (answeringInitial u kpsNow wsNow token)
    exact final.right i th call secret found asks (by rw [answered]; rfl)
  · have delivering := deliveringReachable reach
    have task := (delivering.owned.threads i th found).task
    rw [opening] at task
    have right := openedRightIff laws delivering.owned authentic task.1 (decapsulatingContext task.2).1 mem
      (responseContext delivering mem)
    refine Iff.trans ⟨fun answers secret opened => ?_,fun opens entropy t secret taken told => ?_⟩ right
    · have enabled : (step u s (.advance i ⟨0,[],true⟩)).isSome := by simp [step,found,advance,opening]
      obtain ⟨t,taken⟩ := Option.isSome_iff_exists.mp enabled
      have shape := openingAnswers secret found opening taken
      obtain ⟨kem,kemMem,rest⟩ := answers _ t secret taken (shape.2.mpr opened)
      exact ⟨kem,shape.1 ▸ kemMem,rest⟩
    · have shape := openingAnswers secret found opening taken
      obtain ⟨kem,kemMem,rest⟩ := opens secret (shape.2.mp told)
      exact ⟨kem,shape.1 ▸ kemMem,rest⟩

end

/-! Two runs of the stand-in. -/

instance (u : Setup) (s : System) : Decidable (OpensOnlySealed u s) := by
  unfold OpensOnlySealed
  infer_instance

instance (u : Setup) (s : System) (call : DecapsCall) (secret : Bytes) : Decidable (Decapsulated u s call secret) := by
  unfold Decapsulated
  infer_instance

instance (u : Setup) (s : System) (call : DecapsCall) (b : Uuid) (response : Response) :
    Decidable (response.Harmless u s call b) := by
  unfold Response.Harmless
  infer_instance

instance (u : Setup) (s : System) (task : Task) : Decidable (task.OpensHarmless u s) := by
  unfold Task.OpensHarmless
  split <;> infer_instance

instance (u : Setup) (s : System) : (l : Label) → Decidable (OpensHarmless u s l)
  | .advance i _ => inferInstanceAs (Decidable (∀ th ∈ s.threads[i]?, th.task.OpensHarmless u s))
  | .arrive _ | .serve _ _ | .receive _ | .replay _ _ | .fail _ _ | .tick _ _ | .reapKps _ | .reapWs _ | .restart _
  | .beat _ => .isTrue trivial

def askedFor (h : Uuid) (ciphertext : Bytes) : DecapsCall := ⟨kemX25519,h,ciphertext,decapsAADContext h kemX25519⟩

theorem standinAsks (h : Uuid) {ciphertext : Bytes} (given : ciphertext ≠ []) :
    Decapsulating Standin.setup (askedFor h ciphertext) (Standin.decapsRequest h ciphertext) :=
  ⟨_,rfl,decapsAccepts (Standin.lawful.parses h) given⟩

def sharedResponse : List Label :=
  Standin.generating 0 1 2 ++
    [.arrive (Standin.decapsRequest 2 (Standin.pad32 [9])),.advance 1 (Standin.entropy 0),.serve 1 (Standin.entropy 7),
      .arrive (Standin.decapsRequest 2 (Standin.pad32 [9])),.advance 2 (Standin.entropy 0),.replay 2 1,
      .advance 2 (Standin.entropy 0),.advance 2 (Standin.entropy 0)]

def crossedHandles : List Label :=
  Standin.generating 0 1 2 ++ Standin.generating 1 3 4 ++
    [.arrive (Standin.decapsRequest 2 (Standin.pad32 [9])),.advance 2 (Standin.entropy 0),.serve 2 (Standin.entropy 7),
      .arrive (Standin.decapsRequest 4 (Standin.pad32 [9])),.advance 3 (Standin.entropy 0),.replay 3 2]

theorem sharedAndCrossedBound :
    let t := Standin.after sharedResponse
    let s := Standin.after crossedHandles
    Decapsulated Standin.setup t (askedFor 2 (Standin.pad32 [9])) (Standin.pad32 [11]) ∧
    ∃ response ∈ s.responses, response.Harmless Standin.setup s (askedFor 4 (Standin.pad32 [9])) 3 ∧
      ∀ entropy t secret, step Standin.setup s (.advance 3 entropy) = some t →
        t.threads[3]?.map Thread.task = some (.responding (.http 200 (.secret kemX25519 secret))) →
        Decapsulated Standin.setup t (askedFor 4 (Standin.pad32 [9])) secret := by
  intro t s
  have run : Along (step Standin.setup) (fun v l => OpensOnlySealed Standin.setup v ∧ OpensHarmless Standin.setup v l)
      (System.initial 0 0 "boot-0") sharedResponse t := alongGetD (by decide +kernel)
  have answered : t.threads[2]?.map (fun th => (th.request,th.task)) = some (Standin.decapsRequest 2 (Standin.pad32 [9]),
      .answered (.http 200 (.secret 1 (Standin.pad32 [11])))) := by decide +kernel
  obtain ⟨th,found,both⟩ := Option.map_eq_some_iff.mp answered
  obtain ⟨request,task⟩ := Prod.mk.inj both
  have asks : Decapsulating Standin.setup (askedFor 2 (Standin.pad32 [9])) th.request :=
    request ▸ standinAsks 2 (by decide)
  have reach : Reachable Standin.setup s := Standin.afterReachable crossedHandles (by decide +kernel)
  have waiting : OpensOnlySealed Standin.setup s ∧ ∃ response ∈ s.responses, s.threads[3]?.map Thread.task =
        some (.decapsOpening (askedFor 4 (Standin.pad32 [9])) 3 response.sealEnc response.sealedCT) ∧
      response.kemUUID = 2 := by decide +kernel
  obtain ⟨opens,response,mem,stage,other⟩ := waiting
  obtain ⟨th',found',opening⟩ := Option.map_eq_some_iff.mp stage
  have harmless : response.Harmless Standin.setup s (askedFor 4 (Standin.pad32 [9])) 3 :=
    .inl (by rw [other]; decide)
  have right := ((sealedResponsesBound Standin.lawful).2 s reach opens 3 th' _ 3 response found' opening mem).mpr harmless
  exact ⟨(sealedResponsesBound Standin.lawful).1 0 0 "boot-0" _ t run 2 th _ 1 _ found asks task,response,mem,harmless,
    right⟩

def crossedCiphertexts : List Label :=
  Standin.generating 0 1 2 ++
    [.arrive (Standin.decapsRequest 2 (Standin.pad32 [9])),.advance 1 (Standin.entropy 0),.serve 1 (Standin.entropy 7),
      .receive 1,.advance 1 (Standin.entropy 0),.advance 1 (Standin.entropy 0),
      .arrive (Standin.decapsRequest 2 (Standin.pad32 [8])),.advance 2 (Standin.entropy 0),.replay 2 1,
      .advance 2 (Standin.entropy 0),.advance 2 (Standin.entropy 0)]

theorem crossedCiphertextsConfused :
    let t := Standin.after crossedCiphertexts
    Reachable Standin.setup t ∧ OpensOnlySealed Standin.setup t ∧ ∃ th, t.threads[2]? = some th ∧
      Decapsulating Standin.setup (askedFor 2 (Standin.pad32 [8])) th.request ∧
      th.task = .answered (.http 200 (.secret kemX25519 (Standin.pad32 [11]))) ∧
      Decapsulated Standin.setup t (askedFor 2 (Standin.pad32 [8])) (Standin.pad32 [10]) ∧
      ¬ Decapsulated Standin.setup t (askedFor 2 (Standin.pad32 [8])) (Standin.pad32 [11]) := by
  intro t
  have ends : t.threads[2]?.map (fun th => (th.request,th.task)) = some (Standin.decapsRequest 2 (Standin.pad32 [8]),
        .answered (.http 200 (.secret kemX25519 (Standin.pad32 [11])))) ∧ OpensOnlySealed Standin.setup t ∧
      Decapsulated Standin.setup t (askedFor 2 (Standin.pad32 [8])) (Standin.pad32 [10]) ∧
      ¬ Decapsulated Standin.setup t (askedFor 2 (Standin.pad32 [8])) (Standin.pad32 [11]) := by decide +kernel
  obtain ⟨answered,opens,right⟩ := ends
  obtain ⟨th,found,both⟩ := Option.map_eq_some_iff.mp answered
  obtain ⟨request,task⟩ := Prod.mk.inj both
  exact ⟨Standin.afterReachable _ (by decide +kernel),opens,th,found,request ▸ standinAsks 2 (by decide),task,right⟩

end KeyProtection
