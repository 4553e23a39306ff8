import KeyProtection.Lib.Refine
import KeyProtection.Server

/-! What the two services are for: one store of KEM keys, in which every request takes effect
at most once, at one moment between its arrival and its answer. No binding keys, no handle
map, no sealed messages, no second registry. A request may be refused at any time and may
still take effect after that, but an answer other than a refusal says what was done. The
running system, with all its messages, timeouts, cleanups and restarts, shows nothing that
this service could not show, as long as answers are delivered to the calls they belong to. -/
namespace KeyProtection

inductive Event where
  | arrived (request : Request)
  | answered (i : Nat) (a : Answer)
  deriving DecidableEq

namespace Ideal

structure Key where
  suite : HpkeAlgorithm
  publicKey : PublicKey
  bindingKey : PublicKey
  privateKey : Bytes
  createdAt : Nat
  deadline : Nat
  deriving DecidableEq

abbrev Store := Uuid → Option Key

/- A request with what it would be answered if it were answered now. -/
structure Pending where
  request : Request
  performed : Bool
  ready : Option Answer
  answered : Bool
  deriving DecidableEq

/- `issued` has every key that was ever made, `keys` those that are left. -/
structure Service where
  keys : Store
  issued : Store
  now : Nat
  requests : List Pending

def Service.initial (now : Nat) : Service := ⟨fun _ => none,fun _ => none,now,[]⟩

def Service.Visible (v : Service) (id : Uuid) (key : Key) : Prop := v.keys id = some key ∧ v.now < key.deadline

def Earlier (a b : Uuid × Key) : Prop :=
  a.2.createdAt < b.2.createdAt ∨ (a.2.createdAt = b.2.createdAt ∧ a.1 < b.1)

structure Service.Listed (v : Service) (page : List (Uuid × Key)) : Prop where
  visible : ∀ entry ∈ page, v.Visible entry.1 entry.2
  ordered : page.Pairwise Earlier
  size : page.length ≤ 10000
  others : ∀ id key, v.Visible id key → (id,key) ∈ page ∨ (page.length = 10000 ∧ ∀ entry ∈ page, Earlier entry (id,key))

def Key.info (u : Setup) (entry : Uuid × Key) : KeyInfo :=
  ⟨uuidString entry.1,entry.2.suite.kem,entry.2.publicKey.bytes,u.mechanism.string⟩

def Key.bindingClaims (key : Key) : HpkePublicKey := ⟨key.suite,key.bindingKey.bytes⟩

def Key.claims (key : Key) (now : Nat) : KeyClaims :=
  .vmKeyClaims key.suite.kem key.publicKey.bytes key.bindingClaims (remainingDuration (remainingSecs key.deadline now))

inductive Performs (u : Setup) (v : Service) : Request → Answer → Store → Store → Prop where
  | generates {body plan id key seed} (planned : handleGenerateKey u.x body = .ok plan) (unused : v.issued id = none)
      (suite : key.suite = plan.algo)
      (pair : Crypto.generateKeypair u.x.bssl .dhkemX25519HkdfSha256 seed = .ok (key.publicKey,key.privateKey))
      (created : key.createdAt = v.now) (deadline : checkedAdd v.now plan.lifespan = some key.deadline) :
      Performs u v (.generateKey body) (generateAnswer u plan id key.publicKey.bytes)
        (Function.update v.keys id (some key)) (Function.update v.issued id (some key))
  | decapsulates {body call key secret} (parsed : decapsParse u.x body = .ok call)
      (visible : v.Visible call.kemUUID key)
      (decapsed : Crypto.decapsInternal u.x.bssl key.privateKey call.encapsulatedKey = .ok secret) :
      Performs u v (.decaps body) (.http 200 (.secret call.algorithm secret)) v.keys v.issued
  | destroys {body id key} (parsed : destroyParse u.x body = .ok id) (here : v.keys id = some key) :
      Performs u v (.destroy body) (.http 204 .empty) (Function.update v.keys id none) v.issued
  | lists {page} (listed : v.Listed page) :
      Performs u v .enumerateKeys (.http 200 (.keys (page.map (Key.info u)))) v.keys v.issued
  | claims {req id key} (planned : getKeyClaimsPlan u req = .ok (.kem id)) (visible : v.Visible id key) :
      Performs u v (.getKeyClaims req) (.claims (key.claims v.now)) v.keys v.issued
  | kpsClaims {req id key} (parsed : u.x.parse req.keyHandle = .ok id) (visible : v.Visible id key) :
      Performs u v (.kpsGetKeyClaims req) (.claims (key.claims v.now)) v.keys v.issued
  | bindingClaims {req id key} (planned : getKeyClaimsPlan u req = .ok (.binding id)) (made : v.issued id = some key) :
      Performs u v (.getKeyClaims req) (.claims (.vmBindingClaims key.bindingClaims)) v.keys v.issued

def Service.put (v : Service) (i : Nat) (p : Pending) : Service := {v with requests := v.requests.set i p}

inductive Next (u : Setup) : Service → List Event → Service → Prop where
  | arrives {v} (request) :
      Next u v [.arrived request] {v with requests := v.requests ++ [⟨request,false,none,false⟩]}
  | performs {v i p a keys issued} (here : v.requests[i]? = some p) (once : p.performed = false)
      (unanswered : p.answered = false) (does : Performs u v p.request a keys issued) :
      Next u v [] {v.put i {p with performed := true, ready := some a} with keys := keys, issued := issued}
  -- The result of a request that nobody waits for any more is dropped.
  | performsLate {v i p a keys issued} (here : v.requests[i]? = some p) (once : p.performed = false)
      (does : Performs u v p.request a keys issued) :
      Next u v [] {v.put i {p with performed := true} with keys := keys, issued := issued}
  | refuses {v i p a} (here : v.requests[i]? = some p) (unanswered : p.answered = false) (failure : a.Failure) :
      Next u v [] (v.put i {p with ready := some a})
  | answers {v i p a} (here : v.requests[i]? = some p) (unanswered : p.answered = false) (ready : p.ready = some a) :
      Next u v [.answered i a] (v.put i {p with answered := true})
  | ticks {v} (n) : Next u v [] {v with now := v.now + n}
  | forgets {v} (keys : Store) (expired : ∀ id, keys id = v.keys id ∨
      (keys id = none ∧ ∀ key, v.keys id = some key → key.deadline ≤ v.now)) : Next u v [] {v with keys := keys}
  | restarts {v} : Next u v [] {v with keys := fun _ => none}

/-! Every answer that was ever given is about one table of keys, whatever was destroyed,
lost or refused in between. -/

def Stands (u : Setup) (table : Store) (request : Request) : Answer → Prop
  | .http _ (.key info) => ∃ id key, table id = some key ∧ info.handle = uuidString id ∧
      info.publicKey = key.publicKey.bytes
  | .http _ (.secret _ secret) => ∃ body call key, request = .decaps body ∧ decapsParse u.x body = .ok call ∧
      table call.kemUUID = some key ∧ Crypto.decapsInternal u.x.bssl key.privateKey call.encapsulatedKey = .ok secret
  | .http _ (.keys infos) => ∀ info ∈ infos, ∃ id key, table id = some key ∧ info = Key.info u (id,key)
  | .claims claims => ∃ req id key, (request = .getKeyClaims req ∨ request = .kpsGetKeyClaims req) ∧
      u.x.parse req.keyHandle = .ok id ∧ table id = some key ∧
      ((∃ now, claims = key.claims now) ∨
        (req.keyType = .vmProtectionBinding ∧ claims = .vmBindingClaims key.bindingClaims))
  | _ => True

structure Vouched (u : Setup) (v : Service) : Prop where
  held : ∀ id key, v.keys id = some key → v.issued id = some key
  made : ∀ id key, v.issued id = some key → ∃ seed, Crypto.generateKeypair u.x.bssl .dhkemX25519HkdfSha256 seed =
    .ok (key.publicKey,key.privateKey)
  ready : ∀ (i : Nat) p a, v.requests[i]? = some p → p.ready = some a → Stands u v.issued p.request a

section
variable {u : Setup} {v w : Service} {request : Request} {a : Answer} {keys issued table table' : Store}

theorem standsLater (grows : ∀ id key, table id = some key → table' id = some key) (stands : Stands u table request a) :
    Stands u table' request a := by
  unfold Stands at stands ⊢
  split at stands
  · obtain ⟨id,key,here,rest⟩ := stands
    exact ⟨id,key,grows id key here,rest⟩
  · obtain ⟨body,call,key,same,parsed,here,rest⟩ := stands
    exact ⟨body,call,key,same,parsed,grows _ key here,rest⟩
  · intro info mem
    obtain ⟨id,key,here,rest⟩ := stands info mem
    exact ⟨id,key,grows id key here,rest⟩
  · obtain ⟨req,id,key,asked,parsed,here,rest⟩ := stands
    exact ⟨req,id,key,asked,parsed,grows id key here,rest⟩
  · exact True.intro

theorem failureStands (failure : a.Failure) : Stands u table request a := by
  cases failure <;> exact True.intro

theorem bindingPlanned {req : GetKeyClaimsRequest} {id : Uuid} (planned : getKeyClaimsPlan u req = .ok (.binding id)) :
    req.keyType = .vmProtectionBinding := by
  unfold getKeyClaimsPlan at planned
  split at planned <;> try contradiction
  split at planned <;> try contradiction
  · assumption
  · split at planned <;> try contradiction
    cases Except.ok.inj planned

theorem performsTruly (vouched : Vouched u v) (does : Performs u v request a keys issued) :
    (∀ id key, v.issued id = some key → issued id = some key) ∧ (∀ id key, keys id = some key → issued id = some key) ∧
      (∀ id key, issued id = some key → ∃ seed, Crypto.generateKeypair u.x.bssl .dhkemX25519HkdfSha256 seed =
        .ok (key.publicKey,key.privateKey)) ∧ Stands u issued request a := by
  have same : ∀ id key, v.issued id = some key → v.issued id = some key := fun _ _ here => here
  cases does with
  | @generates body plan id key seed planned unused suite pair created deadline =>
    refine ⟨?_,?_,?_,id,key,Function.update_self ..,rfl,rfl⟩
    · intro id' key' here
      by_cases ids : id' = id
      · rw [ids,unused] at here
        contradiction
      · rw [Function.update_of_ne ids]
        exact here
    · intro id' key' here
      by_cases ids : id' = id
      · subst ids
        rw [Function.update_self] at here ⊢
        exact here
      · rw [Function.update_of_ne ids] at here ⊢
        exact vouched.held id' key' here
    · intro id' key' here
      by_cases ids : id' = id
      · subst ids
        rw [Function.update_self] at here
        cases Option.some.inj here
        exact ⟨seed,pair⟩
      · rw [Function.update_of_ne ids] at here
        exact vouched.made id' key' here
  | decapsulates parsed visible decapsed =>
    exact ⟨same,vouched.held,vouched.made,_,_,_,rfl,parsed,vouched.held _ _ visible.1,decapsed⟩
  | @destroys body id key parsed here =>
    refine ⟨same,?_,vouched.made,True.intro⟩
    intro id' key' left
    by_cases ids : id' = id
    · rw [ids,Function.update_self] at left
      contradiction
    · rw [Function.update_of_ne ids] at left
      exact vouched.held id' key' left
  | lists listed =>
    refine ⟨same,vouched.held,vouched.made,?_⟩
    intro info mem
    obtain ⟨entry,inside,rfl⟩ := List.mem_map.mp mem
    exact ⟨entry.1,entry.2,vouched.held _ _ (listed.visible entry inside).1,rfl⟩
  | claims planned visible =>
    exact ⟨same,vouched.held,vouched.made,_,_,_,.inl rfl,claimsPlanned planned,vouched.held _ _ visible.1,.inl ⟨_,rfl⟩⟩
  | kpsClaims parsed visible =>
    exact ⟨same,vouched.held,vouched.made,_,_,_,.inr rfl,parsed,vouched.held _ _ visible.1,.inl ⟨_,rfl⟩⟩
  | bindingClaims planned made =>
    exact ⟨same,vouched.held,vouched.made,_,_,_,.inl rfl,claimsPlanned planned,made,.inr ⟨bindingPlanned planned,rfl⟩⟩

theorem readyPut {i : Nat} {p : Pending} (vouched : Vouched u v)
    (later : ∀ id key, v.issued id = some key → w.issued id = some key) (requests : w.requests = v.requests.set i p)
    (stands : ∀ a, p.ready = some a → Stands u w.issued p.request a) :
    ∀ (j : Nat) q a, w.requests[j]? = some q → q.ready = some a → Stands u w.issued q.request a := by
  intro j q a here ready
  rw [requests,List.getElem?_set] at here
  split at here
  · split at here <;> try contradiction
    cases Option.some.inj here
    exact stands a ready
  · exact standsLater later (vouched.ready j q a here ready)

theorem vouchedNext {es : List Event} (vouched : Vouched u v) (next : Next u v es w) : Vouched u w := by
  cases next with
  | arrives request =>
    refine ⟨vouched.held,vouched.made,?_⟩
    intro j q a here ready
    rw [List.getElem?_append] at here
    split at here
    · exact vouched.ready j q a here ready
    · cases List.mem_singleton.mp (List.mem_of_getElem? here)
      contradiction
  | performs here once unanswered does =>
    obtain ⟨later,held,made,stands⟩ := performsTruly vouched does
    refine ⟨held,made,readyPut vouched later rfl (fun a ready => ?_)⟩
    cases Option.some.inj ready
    exact stands
  | performsLate here once does =>
    obtain ⟨later,held,made,_⟩ := performsTruly vouched does
    refine ⟨held,made,readyPut vouched later rfl (fun a ready => ?_)⟩
    have before := vouched.ready _ _ a here ready
    exact standsLater later before
  | refuses here unanswered failure =>
    refine ⟨vouched.held,vouched.made,readyPut vouched (fun _ _ here => here) rfl (fun a ready => ?_)⟩
    cases Option.some.inj ready
    exact failureStands failure
  | answers here unanswered ready =>
    refine ⟨vouched.held,vouched.made,readyPut vouched (fun _ _ here => here) rfl (fun a ready => ?_)⟩
    have before := vouched.ready _ _ a here ready
    exact before
  | ticks n => exact ⟨vouched.held,vouched.made,vouched.ready⟩
  | forgets keys expired =>
    refine ⟨?_,vouched.made,vouched.ready⟩
    intro id key left
    rcases expired id with same | ⟨gone,_⟩
    · exact vouched.held id key (same.symm.trans left)
    · exact absurd (gone.symm.trans left) (by simp)
  | restarts => exact ⟨fun _ _ absurd => (nomatch absurd),vouched.made,vouched.ready⟩

theorem vouchedInitial (u : Setup) (now : Nat) : Vouched u (Service.initial now) :=
  ⟨fun _ _ absurd => (nomatch absurd),fun _ _ absurd => (nomatch absurd),fun i p a here => by simp [Service.initial] at here⟩

end

end Ideal

end KeyProtection
