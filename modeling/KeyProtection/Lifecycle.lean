import KeyProtection.Progress
import KeyProtection.Generate

/-! One key from its generation to its destruction, in whatever state the service has come
to. A cleanup that holds the mutex ends by itself; after that a request can make a key, a
second one gets back the secret that a client encapsulates to it, and a third one destroys
it, and the stores hold what they held before. Nobody else has to move and no time has to
pass, so no history of restarts, lost calls and abandoned requests wears the service out. -/
namespace KeyProtection
open Lib Lib.Run KeyRegistry

namespace WsCore

theorem makesBinding {x : Externals} (laws : x.Lawful) (keys : KeyRegistry) {now : Nat} {entropy : Entropy}
    {algo : HpkeAlgorithm} (suite : algo.Supported) {lifespanSecs : UInt64} {deleteAfter : Nat}
    (vault : entropy.vault = true) (deadline : checkedAdd now lifespanSecs = some deleteAfter) :
    ∃ record pubKey, KeyRecord.Created x.bssl algo lifespanSecs entropy now pubKey record ∧
      record.metadata.spec = .binding algo pubKey ∧
      generateBindingKeypair x keys now entropy algo lifespanSecs = (.ok (record.id,pubKey.bytes),addKey keys record) := by
  obtain ⟨_,_,_,_,made⟩ := generatesBinding laws keys suite vault deadline
  have spec := generatedBinding x keys now entropy algo lifespanSecs
  generalize generateBindingKeypair x keys now entropy algo lifespanSecs = out at made spec
  cases spec with
  | failed fault => cases made
  | stored suite' pubKey record decoded created spec =>
    cases Except.ok.inj ((laws.decodes algo).symm.trans decoded)
    exact ⟨record,pubKey,created,spec,rfl⟩

end WsCore

namespace KpsCore

theorem generatesKem {x : Externals} (laws : x.Lawful) (keys : KeyRegistry) {now : Nat} {entropy : Entropy}
    {algo : HpkeAlgorithm} (suite : algo.Supported) (bindingKey : PublicKey) {lifespanSecs : UInt64} {deleteAfter : Nat}
    (vault : entropy.vault = true) (deadline : checkedAdd now lifespanSecs = some deleteAfter) :
    ∃ record pubKey, KeyRecord.Created x.bssl algo lifespanSecs entropy now pubKey record ∧
      record.metadata.spec = .kemWithBindingPub algo pubKey bindingKey ∧
      generateKEMKeypair x keys now entropy algo bindingKey.bytes lifespanSecs =
        (.ok (record.id,pubKey.bytes),addKey keys record) := by
  obtain ⟨record,made⟩ := KeyRecord.createsInternal laws.bssl suite
    (fun algo pubKey => .kemWithBindingPub algo pubKey bindingKey) vault deadline
  have kem : KemAlgorithm.tryFrom algo.kem = some .dhkemX25519HkdfSha256 := by
    rw [supportedSuite.mp suite]
    rfl
  have bound : KeyRecord.createBoundKemKey x.bssl algo bindingKey lifespanSecs entropy now = .ok record := by
    simp only [KeyRecord.createBoundKemKey,kem]
    exact made
  obtain ⟨pubKey,created,spec,out⟩ := generatedInternal keys bound
  have nonempty : ¬ (x.marshal algo).length = 0 := by
    rw [List.length_eq_zero_iff,laws.emptyOnDefault,supportedSuite.mp suite]
    decide
  have given : ¬ bindingKey.bytes.length = 0 := by simp [bindingKey.size]
  have both : ¬ (bindingKey.bytes.length = 0 ∨ (x.marshal algo).length = 0) := not_or.mpr ⟨given,nonempty⟩
  have read : PublicKey.tryFrom bindingKey.bytes = .ok bindingKey := by
    simp [PublicKey.tryFrom,bindingKey.size]
  have size : ¬ (List.replicate kemPubKeySize (0 : UInt8)).length ≠ pubKey.bytes.length := by
    simp [kemPubKeySize,pubKey.size]
  refine ⟨record,pubKey,created,spec,?_⟩
  simp only [generateKEMKeypair,keyManagerGenerateKemKeypair,if_neg given,if_neg nonempty,if_neg both,read,
    laws.decodes,out,if_neg size]
  rfl

end KpsCore

def System.joined (s : System) (th : Thread) : System := {s with threads := s.threads ++ [th]}

structure Usable (u : Setup) (s : System) (h b : Uuid) (kem binding : KeyRecord) : Prop where
  mapped : s.kemToBindingMap.lookup h = some b
  kemLive : getKey s.kps s.kpsNow h = some kem
  bindingLive : getKey s.ws s.wsNow b = some binding
  bound : Bound kem binding
  made : Made u.x.bssl binding

section
variable {u : Setup} {s : System}

@[simp] theorem joinedLast (s : System) (th : Thread) : (s.threads ++ [th])[s.threads.length]? = some th :=
  List.getElem?_concat_length

@[simp] theorem joinedPut (s : System) (th th' : Thread) :
    (s.threads ++ [th]).set s.threads.length th' = s.threads ++ [th'] := by
  simp

theorem joinedAnswers (s : System) (request : Request) (a : Answer) (rpc : Option Rpc) :
    step u (s.joined ⟨request,.responding a,rpc⟩) (.advance s.threads.length ⟨0,[],true⟩) =
      some (s.joined ⟨request,.answered a,rpc⟩) := by
  simp [step,System.joined,System.put,advance,Thread.goto]

/-! Three requests, each alone with the stores. -/

theorem decapsPlain {b : Uuid} {kem binding : KeyRecord} {body : Body DecapsRequest} {call : DecapsCall} {secret : Bytes}
    (laws : u.x.Lawful) (usable : Usable u s call.kemUUID b kem binding) (free : s.beat.locked = false)
    (parsed : decapsParse u.x body = .ok call)
    (decapsed : Crypto.decapsInternal u.x.bssl kem.privateKey call.encapsulatedKey = .ok secret)
    (size : secret.length = 32) : ∃ ls rpc, Steps (step u) (s.joined ⟨.decaps body,.start,none⟩) ls
        (s.joined ⟨.decaps body,.answered (.http 200 (.secret call.algorithm secret)),rpc⟩) ∧
      ls.length = 5 ∧ ∀ l ∈ ls, l.own s.threads.length = true := by
  obtain ⟨suite,kemKey,bindingKey,sealEnc,sealedCT,kemSpec,bindingSpec,sealing,encSize,ctSize,opened⟩ :=
    pairSealsOpens laws.bssl usable.bound usable.made secret call.aad []
  obtain ⟨_,_,accepted⟩ := decapsParsed parsed
  rw [size] at ctSize
  have seals := KpsCore.decapsAndSeals usable.kemLive kemSpec accepted.given decapsed sealing encSize ctSize
  have opens := WsCore.opensSecret usable.bindingLive bindingSpec (List.ne_nil_of_length_pos (by omega))
    (List.ne_nil_of_length_pos (by omega)) size opened
  have starts : step u (s.joined ⟨.decaps body,.start,none⟩) (.advance s.threads.length ⟨0,[],true⟩) =
      some (s.joined ⟨.decaps body,.decapsCalling call b,
        some ⟨.decapAndSeal call.kemUUID call.encapsulatedKey call.aad,none⟩⟩) := by
    simp [step,System.joined,System.put,advance,start,startDecaps,parsed,free,usable.mapped,Thread.call]
  generalize sent : KpsCall.decapAndSeal call.kemUUID call.encapsulatedKey call.aad = rpc at starts
  have serves : step u (s.joined ⟨.decaps body,.decapsCalling call b,some ⟨rpc,none⟩⟩)
      (.serve s.threads.length ⟨0,[],true⟩) = some (s.joined ⟨.decaps body,.decapsCalling call b,
        some ⟨rpc,some (.ok (.sealed sealEnc sealedCT))⟩⟩) := by
    simp [← sent,step,System.joined,System.put,serve,KpsCall.creates,serveCall,seals,Except.map]
  have receives : step u (s.joined ⟨.decaps body,.decapsCalling call b,some ⟨rpc,some (.ok (.sealed sealEnc sealedCT))⟩⟩)
      (.receive s.threads.length) = some (s.joined ⟨.decaps body,.decapsOpening call b sealEnc sealedCT,
        some ⟨rpc,some (.ok (.sealed sealEnc sealedCT))⟩⟩) := by
    simp [step,System.joined,System.put,receive,adapt,resume,Thread.goto]
  generalize some (⟨rpc,some (.ok (.sealed sealEnc sealedCT))⟩ : Rpc) = served at serves receives
  have responds : step u (s.joined ⟨.decaps body,.decapsOpening call b sealEnc sealedCT,served⟩)
      (.advance s.threads.length ⟨0,[],true⟩) = some (s.joined
        ⟨.decaps body,.responding (.http 200 (.secret call.algorithm secret)),served⟩) := by
    simp [step,System.joined,System.put,advance,opens,decapsAnswer,Thread.respond,Thread.goto]
  exact ⟨_,served,.cons trivial starts (.cons trivial serves (.cons trivial receives (.cons trivial responds
    (.cons trivial (joinedAnswers s _ _ served) (.nil _))))),rfl,by simp [Label.own]⟩

theorem destroyPlain {h b : Uuid} {kem binding : KeyRecord} {body : Body DestroyRequest}
    (usable : Usable u s h b kem binding) (free : s.beat.locked = false) (parsed : destroyParse u.x body = .ok h) :
    ∃ ls rpc, Steps (step u) (s.joined ⟨.destroy body,.start,none⟩) ls
        {s.joined ⟨.destroy body,.answered (.http 204 .empty),rpc⟩ with
          kps := s.kps.erase h
          ws := s.ws.erase b
          kemToBindingMap := s.kemToBindingMap.erase h
          unbound := (s.threads.length,b) :: s.unbound} ∧
      ls.length = 6 ∧ ∀ l ∈ ls, l.own s.threads.length = true := by
  have kemGone : KpsCore.destroyKEMKey s.kps h = (none,s.kps.erase h) := by
    rw [KpsCore.destroyedKem,getKeyLookup usable.kemLive]
    rfl
  have bindingGone : WsCore.destroyBindingKey s.ws b = (none,s.ws.erase b) := by
    rw [WsCore.destroyedBinding,getKeyLookup usable.bindingLive]
    rfl
  let unkeyed := {s with kps := s.kps.erase h}
  let unbound := {unkeyed with ws := s.ws.erase b, unbound := (s.threads.length,b) :: s.unbound}
  have starts : step u (s.joined ⟨.destroy body,.start,none⟩) (.advance s.threads.length ⟨0,[],true⟩) =
      some (s.joined ⟨.destroy body,.destroyCalling h b,some ⟨.destroy h,none⟩⟩) := by
    simp [step,System.joined,System.put,advance,start,startDestroy,parsed,free,usable.mapped,Thread.call]
  have serves : step u (s.joined ⟨.destroy body,.destroyCalling h b,some ⟨.destroy h,none⟩⟩)
      (.serve s.threads.length ⟨0,[],true⟩) = some (unkeyed.joined ⟨.destroy body,.destroyCalling h b,
        some ⟨.destroy h,some (.ok .destroyed)⟩⟩) := by
    simp [step,System.joined,System.put,serve,KpsCall.creates,serveCall,kemGone,unkeyed]
  have receives : step u (unkeyed.joined ⟨.destroy body,.destroyCalling h b,some ⟨.destroy h,some (.ok .destroyed)⟩⟩)
      (.receive s.threads.length) = some (unkeyed.joined ⟨.destroy body,.destroyBinding h b none,
        some ⟨.destroy h,some (.ok .destroyed)⟩⟩) := by
    simp [step,System.joined,System.put,receive,adapt,resume,Thread.goto,unkeyed]
  generalize some (⟨.destroy h,some (.ok .destroyed)⟩ : Rpc) = served at serves receives
  have unbinds : step u (unkeyed.joined ⟨.destroy body,.destroyBinding h b none,served⟩)
      (.advance s.threads.length ⟨0,[],true⟩) = some (unbound.joined ⟨.destroy body,.destroyUnmapping h b none none,served⟩) := by
    simp [step,System.joined,System.put,advance,bindingGone,Thread.goto,unkeyed,unbound]
  have unmaps : step u (unbound.joined ⟨.destroy body,.destroyUnmapping h b none none,served⟩)
      (.advance s.threads.length ⟨0,[],true⟩) = some ({unbound with kemToBindingMap := s.kemToBindingMap.erase h}.joined
        ⟨.destroy body,.responding (.http 204 .empty),served⟩) := by
    simp [step,System.joined,System.put,advance,free,Thread.respond,Thread.goto,unkeyed,unbound,destroyAnswer,errorsJoin]
  exact ⟨_,served,.cons trivial starts (.cons trivial serves (.cons trivial receives (.cons trivial unbinds
    (.cons trivial unmaps (.cons trivial (joinedAnswers _ _ _ served) (.nil _)))))),rfl,by simp [Label.own,unbound,unkeyed]⟩

theorem addedSelf (keys : KeyRegistry) (record : KeyRecord) : (addKey keys record).lookup record.id = some record := by
  rw [addKey,Table.lookupInsert]
  exact if_pos rfl

def System.keyed (s : System) (kem binding : KeyRecord) : System :=
  {s with
    kps := addKey s.kps kem
    ws := addKey s.ws binding
    kemToBindingMap := s.kemToBindingMap.insert kem.id binding.id
    kems := ⟨s.threads.length,s.boot,kem⟩ :: s.kems
    bindings := ⟨s.threads.length,binding⟩ :: s.bindings}

structure Pair (u : Setup) (s : System) (plan : GeneratePlan) (seed : Bytes) (kemKey : PublicKey) (kem binding : KeyRecord) :
    Prop where
  bindingFresh : s.Fresh binding.id
  kemFresh : kem.id ∉ s.kems.map (fun birth => birth.record.id)
  kemCreated : ∃ id, KeyRecord.Created u.x.bssl plan.algo plan.lifespan ⟨id,seed,true⟩ s.kpsNow kemKey kem
  bindingCreated : ∃ entropy pubKey, KeyRecord.Created u.x.bssl plan.algo plan.lifespan entropy s.wsNow pubKey binding ∧
    kem.metadata.spec = .kemWithBindingPub plan.algo kemKey pubKey ∧ binding.metadata.spec = .binding plan.algo pubKey

theorem generatePlain {body : Body GenerateKeyRequest} {plan : GeneratePlan} (bindingSeed kemSeed : Bytes)
    (laws : u.x.Lawful) (planned : handleGenerateKey u.x body = .ok plan) (free : s.beat.locked = false)
    (kpsTime : (checkedAdd s.kpsNow plan.lifespan).isSome) (wsTime : (checkedAdd s.wsNow plan.lifespan).isSome)
    (room : s.kems.length + s.bindings.length + 2 ≤ 2 ^ 128) :
    ∃ ls kem binding kemKey rpc, Pair u s plan kemSeed kemKey kem binding ∧
      Steps (step u) (s.joined ⟨.generateKey body,.start,none⟩) ls ((s.keyed kem binding).joined
        ⟨.generateKey body,.answered (generateAnswer u plan kem.id kemKey.bytes),rpc⟩) ∧
      ls.length = 5 ∧ ∀ l ∈ ls, l.own s.threads.length = true := by
  obtain ⟨_,_,suite,_⟩ := generatePlanned planned
  have supported : plan.algo.Supported := supportedSuite.mpr suite
  obtain ⟨kpsDeadline,kpsTime⟩ := Option.isSome_iff_exists.mp kpsTime
  obtain ⟨wsDeadline,wsTime⟩ := Option.isSome_iff_exists.mp wsTime
  obtain ⟨id,fresh⟩ := freshId (s := s) (by omega)
  obtain ⟨binding,pubKey,bindingCreated,bindingSpec,bindingMade⟩ :=
    WsCore.makesBinding laws s.ws supported (show (⟨id,bindingSeed,true⟩ : Entropy).vault = true from rfl) wsTime
  have bindingFresh : s.Fresh binding.id := bindingCreated.id ▸ fresh
  let bound := {s with ws := addKey s.ws binding, bindings := ⟨s.threads.length,binding⟩ :: s.bindings}
  obtain ⟨id',fresh'⟩ := freshId (s := bound) (by simp only [bound,List.length_cons]; omega)
  obtain ⟨kem,kemKey,kemCreated,kemSpec,kemMade⟩ :=
    KpsCore.generatesKem laws s.kps supported pubKey (show (⟨id',kemSeed,true⟩ : Entropy).vault = true from rfl) kpsTime
  let both := {bound with kps := addKey s.kps kem, kems := ⟨s.threads.length,s.boot,kem⟩ :: s.kems}
  have starts : step u (s.joined ⟨.generateKey body,.start,none⟩) (.advance s.threads.length ⟨id,bindingSeed,true⟩) =
      some (bound.joined ⟨.generateKey body,.generateCalling plan binding.id,
        some ⟨.generate plan.algo pubKey.bytes plan.lifespan,none⟩⟩) := by
    have unused : (s.joined ⟨.generateKey body,.start,none⟩).Fresh id := fresh
    simp only [System.joined] at unused
    simp [step,System.joined,System.put,advance,start,startGenerate,planned,unused,bindingMade,addedSelf,Thread.call,bound]
  have serves : step u (bound.joined ⟨.generateKey body,.generateCalling plan binding.id,
      some ⟨.generate plan.algo pubKey.bytes plan.lifespan,none⟩⟩) (.serve s.threads.length ⟨id',kemSeed,true⟩) =
      some (both.joined ⟨.generateKey body,.generateCalling plan binding.id,
        some ⟨.generate plan.algo pubKey.bytes plan.lifespan,some (.ok (.generated kem.id kemKey.bytes))⟩⟩) := by
    have unused : (bound.joined ⟨.generateKey body,.generateCalling plan binding.id,
        some ⟨.generate plan.algo pubKey.bytes plan.lifespan,none⟩⟩).Fresh id' := fresh'
    simp only [System.joined,bound] at unused
    simp [step,System.joined,System.put,serve,KpsCall.creates,unused,serveCall,kemMade,addedSelf,Except.map,both,bound]
  have receives : step u (both.joined ⟨.generateKey body,.generateCalling plan binding.id,
      some ⟨.generate plan.algo pubKey.bytes plan.lifespan,some (.ok (.generated kem.id kemKey.bytes))⟩⟩)
      (.receive s.threads.length) = some (both.joined ⟨.generateKey body,
        .generateStoring plan binding.id kem.id kemKey.bytes,
        some ⟨.generate plan.algo pubKey.bytes plan.lifespan,some (.ok (.generated kem.id kemKey.bytes))⟩⟩) := by
    simp [step,System.joined,System.put,receive,adapt,resume,Thread.goto,both,bound]
  generalize some (⟨.generate plan.algo pubKey.bytes plan.lifespan,some (.ok (.generated kem.id kemKey.bytes))⟩ : Rpc) =
    served at serves receives
  have stores : step u (both.joined ⟨.generateKey body,.generateStoring plan binding.id kem.id kemKey.bytes,served⟩)
      (.advance s.threads.length ⟨0,[],true⟩) = some ((s.keyed kem binding).joined ⟨.generateKey body,
        .responding (generateAnswer u plan kem.id kemKey.bytes),served⟩) := by
    simp [step,System.joined,System.put,advance,free,Thread.respond,Thread.goto,both,bound,System.keyed]
  exact ⟨_,kem,binding,kemKey,served,
    ⟨bindingFresh,fun taken => fresh'.1 (by rwa [kemCreated.id] at taken),⟨_,kemCreated⟩,_,pubKey,bindingCreated,kemSpec,bindingSpec⟩,
    .cons trivial starts (.cons trivial serves (.cons trivial receives (.cons trivial stores
      (.cons trivial (joinedAnswers _ _ _ served) (.nil _))))),rfl,by simp [Label.own,System.keyed]⟩

/-! The three together. -/

theorem createdVisible {c : Bssl} {suite : HpkeAlgorithm} {lifespanSecs : UInt64} {entropy : Entropy} {now : Nat}
    {pubKey : PublicKey} {record : KeyRecord} (keys : KeyRegistry) (positive : 0 < lifespanSecs.toNat)
    (created : KeyRecord.Created c suite lifespanSecs entropy now pubKey record) :
    getKey (addKey keys record) now record.id = some record := by
  have deadline := created.deadline
  unfold checkedAdd at deadline
  split at deadline <;> try contradiction
  have later := Option.some.inj deadline
  refine getKeyIff.mpr ⟨addedSelf keys record,?_⟩
  rw [← later]
  exact Nat.lt_add_of_pos_right (Nat.mul_pos positive (by decide))

theorem pairUsable {plan : GeneratePlan} {seed : Bytes} {kemKey : PublicKey} {kem binding : KeyRecord} (positive : 0 < plan.lifespan.toNat)
    (pair : Pair u s plan seed kemKey kem binding) (th : Thread) :
    Usable u ((s.keyed kem binding).joined th) kem.id binding.id kem binding := by
  obtain ⟨_,kemCreated⟩ := pair.kemCreated
  obtain ⟨_,pubKey,bindingCreated,kemSpec,bindingSpec⟩ := pair.bindingCreated
  refine ⟨?_,createdVisible s.kps positive kemCreated,createdVisible s.ws positive bindingCreated,
    ⟨plan.algo,kemKey,pubKey,kemSpec,bindingSpec⟩,?_⟩
  · exact (Table.lookupInsert s.kemToBindingMap kem.id binding.id kem.id).trans (if_pos rfl)
  · rw [Made,bindingSpec]
    exact ⟨bindingCreated.suite,_,bindingCreated.pair⟩

theorem eraseInsert {V : Type} {t : Table Uuid V} {k : Uuid} (missing : t.lookup k = none) (v : V) (id : Uuid) :
    ((t.insert k v).erase k).lookup id = t.lookup id := by
  rw [Table.lookupErase,Table.lookupInsert]
  split
  · rename_i same
    rw [same,missing]
  · rfl

theorem kemUnstored (owned : Owned u s) {id : Uuid} (fresh : id ∉ s.kems.map (fun birth => birth.record.id)) :
    s.kps.lookup id = none ∧ s.kemToBindingMap.lookup id = none := by
  constructor
  · cases here : s.kps.lookup id with
    | none => rfl
    | some record =>
      obtain ⟨same,kem,mem,rfl⟩ := owned.kps id record here
      exact absurd (List.mem_map.mpr ⟨kem,mem,same⟩) fresh
  · cases here : s.kemToBindingMap.lookup id with
    | none => rfl
    | some b =>
      obtain ⟨kem,mem,_,_,same,_⟩ := owned.map id b here
      exact absurd (List.mem_map.mpr ⟨kem,mem,same⟩) fresh

def Label.unaided (n : Nat) : Label → Prop
  | .arrive _ => True
  | .advance i _ => n ≤ i
  | .serve i _ => n ≤ i
  | .receive i => n ≤ i
  | .beat pulse => pulse = .destroysAll ∨ pulse = .resets
  | _ => False

theorem ownUnaided {l : Label} {n i : Nat} (own : l.own i = true) (late : n ≤ i) : l.unaided n := by
  cases l with
  | advance j entropy => exact (beq_iff_eq.mp own) ▸ late
  | serve j entropy => exact (beq_iff_eq.mp own) ▸ late
  | receive j => exact (beq_iff_eq.mp own) ▸ late
  | _ => contradiction

theorem usableJoined {h b : Uuid} {kem binding : KeyRecord} (usable : Usable u s h b kem binding) (th : Thread) :
    Usable u (s.joined th) h b kem binding :=
  ⟨usable.mapped,usable.kemLive,usable.bindingLive,usable.bound,usable.made⟩

theorem unaidedEarlier {l : Label} {m n : Nat} (early : m ≤ n) (unaided : l.unaided n) : l.unaided m := by
  cases l with
  | arrive request => trivial
  | advance i entropy => exact early.trans unaided
  | serve i entropy => exact early.trans unaided
  | receive i => exact early.trans unaided
  | beat pulse => exact unaided
  | _ => exact unaided

theorem arrives (u : Setup) (s : System) (request : Request) :
    step u s (.arrive request) = some (s.joined ⟨request,.start,none⟩) := rfl

theorem usedAndDestroyed {h b : Uuid} {kem binding : KeyRecord} {pkR : PublicKey} {skE seed : Bytes} (laws : u.x.Lawful)
    (usable : Usable u s h b kem binding) (free : s.beat.locked = false)
    (pair : Crypto.generateKeypair u.x.bssl .dhkemX25519HkdfSha256 seed = .ok (pkR,kem.privateKey)) (size : skE.length = 32)
    (defined : (u.x.bssl.computeSharedKey skE pkR.bytes).isSome) :
    ∃ secret ls t used destroyed,
      (∀ seed, Crypto.encapInternal u.x.bssl pkR (some skE) seed = .ok (secret,u.x.bssl.toPublic skE)) ∧
      Steps (step u) s ls t ∧ ls.length = 13 ∧ (∀ l ∈ ls, l.unaided s.threads.length) ∧
      t.threads = s.threads ++ [used,destroyed] ∧
      used.request = .decaps (.ok ⟨some (uuidString h),some ⟨kemX25519,u.x.bssl.toPublic skE⟩⟩) ∧
      used.task = .answered (.http 200 (.secret kemX25519 secret)) ∧
      destroyed.request = .destroy (.ok ⟨some (uuidString h)⟩) ∧ destroyed.task = .answered (.http 204 .empty) ∧
      t.kps = s.kps.erase h ∧ t.ws = s.ws.erase b ∧ t.kemToBindingMap = s.kemToBindingMap.erase h := by
  obtain ⟨owns,keySize⟩ := Crypto.generatedKeypair laws.bssl pair
  obtain ⟨secret,encapped,decapsed,secretSize⟩ := Crypto.decapsInvertsEncap laws.bssl keySize size owns defined []
  have given : u.x.bssl.toPublic skE ≠ [] := List.ne_nil_of_length_pos (by rw [laws.bssl.publicSize skE size]; decide)
  obtain ⟨ds,answer,opening,five,ownUsed⟩ := decapsPlain laws usable free (decapsAccepts (laws.parses h) given) decapsed
    secretSize
  have parsed : destroyParse u.x (.ok ⟨some (uuidString h)⟩) = .ok h := by
    simp [destroyParse,readRequest,DestroyRequest.violations,requiredField,laws.parses]
  let used : Thread := ⟨.decaps (.ok ⟨some (uuidString h),some ⟨kemX25519,u.x.bssl.toPublic skE⟩⟩),
    .answered (.http 200 (.secret kemX25519 secret)),answer⟩
  obtain ⟨es,gone,destroying,six,ownGone⟩ := destroyPlain (s := s.joined used) (usableJoined usable used) free parsed
  let destroyed : Thread := ⟨.destroy (.ok ⟨some (uuidString h)⟩),.answered (.http 204 .empty),gone⟩
  refine ⟨secret,.arrive used.request :: (ds ++ .arrive destroyed.request :: es),_,used,destroyed,fun _ => encapped,
    .cons trivial (arrives _ _ _) (alongAppend opening (.cons trivial (arrives _ _ _) destroying)),?_,?_,?_,rfl,rfl,rfl,rfl,rfl,
    rfl,rfl⟩
  · simp only [List.length_cons,List.length_append,five,six]
  · intro l mem
    rcases List.mem_cons.mp mem with rfl | later
    · trivial
    rcases List.mem_append.mp later with mine | last
    · exact ownUnaided (ownUsed l mine) (Nat.le_refl _)
    rcases List.mem_cons.mp last with rfl | mine
    · trivial
    · exact ownUnaided (ownGone l mine) (by simp [System.joined])
  · simp [System.joined,destroyed]

/- From every state that is reached, with no help and without any time passing, and whatever
randomness the two custody cores draw: a request makes a key of any kind that is advertised,
and for every secret that a client encapsulates to that key a second request gets it back
and a third one destroys the key. No request that was there before has moved, and every
store finds what it found before, up to what a cleanup under way threw out. -/
theorem serviceStaysUsable {details : AlgorithmDetails} {lifespan : UInt64} (bindingSeed kemSeed : Bytes)
    (laws : u.x.Lawful) (reach : Reachable u s) (advertised : details ∈ handleGetCapabilities) (positive : 0 < lifespan.toNat)
    (bounded : lifespan.toNat ≤ 9223372036854775807) (kpsTime : (checkedAdd s.kpsNow lifespan).isSome)
    (wsTime : (checkedAdd s.wsNow lifespan).isSome) (room : s.kems.length + s.bindings.length + 2 ≤ 2 ^ 128) :
    ∃ ls t h pkR skR made, Crypto.generateKeypair u.x.bssl .dhkemX25519HkdfSha256 kemSeed = .ok (pkR,skR) ∧
      Steps (step u) s ls t ∧ ls.length ≤ 8 ∧ (∀ l ∈ ls, l.unaided s.threads.length) ∧
      t.threads = s.threads ++ [made] ∧ made.request = .generateKey (.ok ⟨some details,lifespan⟩) ∧
      made.task = .answered (.http 200 (.key ⟨uuidString h,kemX25519,pkR.bytes,u.mechanism.string⟩)) ∧
      ∀ skE, skE.length = 32 → (u.x.bssl.computeSharedKey skE pkR.bytes).isSome →
        ∃ secret ms v used destroyed,
          (∀ seed, Crypto.encapInternal u.x.bssl pkR (some skE) seed = .ok (secret,u.x.bssl.toPublic skE)) ∧
          Steps (step u) t ms v ∧ ms.length = 13 ∧ (∀ l ∈ ms, l.unaided s.threads.length) ∧
          v.threads = s.threads ++ [made,used,destroyed] ∧
          used.request = .decaps (.ok ⟨some (uuidString h),some ⟨kemX25519,u.x.bssl.toPublic skE⟩⟩) ∧
          used.task = .answered (.http 200 (.secret kemX25519 secret)) ∧
          destroyed.request = .destroy (.ok ⟨some (uuidString h)⟩) ∧ destroyed.task = .answered (.http 204 .empty) ∧
          (∀ id, v.kps.lookup id = s.kps.lookup id) ∧
          (s.beat.locked = false →
            ∀ id, v.ws.lookup id = s.ws.lookup id ∧ v.kemToBindingMap.lookup id = s.kemToBindingMap.lookup id) := by
  obtain ⟨ks,m,cleanup,pulses,short,free,spared,idle⟩ := cleanupEnds u s
  have reach' : Reachable u m := by
    obtain ⟨kpsNow,wsNow,token,given,before⟩ := reach
    exact ⟨kpsNow,wsNow,token,given,reachableAlong before cleanup⟩
  have owned := ownedReachable reach'
  obtain ⟨plan,planned⟩ := (capabilitiesExact u.x ⟨some details,lifespan⟩).mpr ⟨⟨details,advertised,rfl⟩,positive,bounded⟩
  obtain ⟨_,same,_,named,lasts,_⟩ := generatePlanned planned
  cases Except.ok.inj same
  obtain ⟨ls,kem,binding,pkR,rpc,pair,making,five,own⟩ := generatePlain (s := m) bindingSeed kemSeed laws planned free
    (lasts ▸ spared.kpsNow ▸ kpsTime) (lasts ▸ spared.wsNow ▸ wsTime) (by rw [spared.kems,spared.bindings]; exact room)
  obtain ⟨_,created⟩ := pair.kemCreated
  let made : Thread := ⟨.generateKey (.ok ⟨some details,lifespan⟩),.answered (generateAnswer u plan kem.id pkR.bytes),rpc⟩
  let t := (m.keyed kem binding).joined made
  have after : t.threads = s.threads ++ [made] := congrArg (· ++ [made]) spared.threads
  have late : s.threads.length ≤ t.threads.length := by rw [after,List.length_append]; omega
  refine ⟨ks ++ .arrive made.request :: ls,t,kem.id,pkR,kem.privateKey,made,created.pair,
    alongAppend cleanup (.cons trivial (arrives u m _) making),?_,?_,after,rfl,?_,?_⟩
  · rw [List.length_append,List.length_cons,five]
    omega
  · intro l mem
    rcases List.mem_append.mp mem with before | later
    · rcases pulses l before with rfl | rfl
      · exact .inl rfl
      · exact .inr rfl
    · rcases List.mem_cons.mp later with rfl | mine
      · trivial
      · exact ownUnaided (own l mine) (Nat.le_of_eq (congrArg List.length spared.threads).symm)
  · simp only [made,generateAnswer,named,Option.getD_some]
    rfl
  · intro skE size defined
    have usable : Usable u t kem.id binding.id kem binding := pairUsable (lasts ▸ positive) pair made
    obtain ⟨secret,ms,v,used,destroyed,encapped,living,count,unaided,threads,asked,told,asked',told',kps,ws,map⟩ :=
      usedAndDestroyed laws usable free created.pair size defined
    refine ⟨secret,ms,v,used,destroyed,encapped,living,count,fun l mem => unaidedEarlier late (unaided l mem),?_,asked,told,
      asked',told',fun id => ?_,fun quiet id => ?_⟩
    · rw [threads,after,List.append_assoc]
      rfl
    · rw [kps,← spared.kps]
      exact eraseInsert (kemUnstored owned pair.kemFresh).1 kem id
    · rw [ws,map]
      cases idle quiet
      exact ⟨eraseInsert (freshMissing owned pair.bindingFresh) binding id,
        eraseInsert (kemUnstored owned pair.kemFresh).2 binding.id id⟩

end

theorem serviceStaysUsablePurging :
    let s := Standin.after purgeAmidRequests
    s.beat.locked = true ∧ s.threads.length = 3 ∧ ∃ ls v h secret made used destroyed, Steps (step Standin.setup) s ls v ∧
      v.threads = s.threads ++ [made,used,destroyed] ∧
      made.task = .answered (.http 200 (.key ⟨uuidString h,1,Standin.pad32 [2],"KEY_PROTECTION_VM_EMULATED"⟩)) ∧
      Crypto.encapInternal Standin.bssl ⟨Standin.pad32 [2],Standin.padSize _⟩ (some (Standin.pad32 [9])) [] =
        .ok (secret,Standin.pad32 [9]) ∧
      used.task = .answered (.http 200 (.secret 1 secret)) ∧ destroyed.task = .answered (.http 204 .empty) := by
  intro s
  have reach : Reachable Standin.setup s := Standin.afterReachable _ (by decide +kernel)
  have advertised : (⟨"kem",some 1⟩ : AlgorithmDetails) ∈ handleGetCapabilities := by decide
  obtain ⟨ls,t,h,pkR,skR,made,drawn,making,_,_,_,_,told,lives⟩ := serviceStaysUsable [1] [2] Standin.lawful reach
    advertised (show 0 < (3600 : UInt64).toNat by decide) (by decide) (by decide +kernel) (by decide +kernel)
    (by decide +kernel)
  have key : Crypto.generateKeypair Standin.bssl .dhkemX25519HkdfSha256 [2] =
      .ok (⟨Standin.pad32 [2],Standin.padSize _⟩,Standin.pad32 [2]) := by decide +kernel
  cases Except.ok.inj (drawn.symm.trans key)
  obtain ⟨secret,ms,v,used,destroyed,encapped,onward,_,_,threads,_,opened,_,gone,_,_⟩ :=
    lives (Standin.pad32 [9]) (Standin.padSize _) (by decide +kernel)
  exact ⟨by decide +kernel,by decide +kernel,ls ++ ms,v,h,secret,made,used,destroyed,alongAppend making onward,threads,told,
    encapped [],opened,gone⟩

end KeyProtection
