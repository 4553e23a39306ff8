import KeyProtection.Ownership
import KeyProtection.Standin

/-! A decapsulation from the client's encapsulation to the secret in the answer, through
the map, the two custody cores and the message between them, while other requests run.
The request takes five steps of its own. As long as its mapping and both of its keys are in
place the next one is enabled, and the fifth is the answer. -/
namespace KeyProtection
open Lib Lib.Run KeyRegistry

def kemX25519 : Int32 := 1

def InPlace (s : System) (h : Uuid) : Prop :=
  ∃ b, s.kemToBindingMap.lookup h = some b ∧ (getKey s.kps s.kpsNow h).isSome ∧ (getKey s.ws s.wsNow b).isSome

def Label.own (i : Nat) : Label → Bool
  | .advance j _ => j == i
  | .serve j _ => j == i
  | .receive j => j == i
  | _ => false

/- The call to the KPS fails, or is given the answer to another one. -/
def Label.harms (i : Nat) : Label → Bool
  | .fail j _ => j == i
  | .replay j _ => j == i
  | _ => false

def Unharmed (i : Nat) (h : Uuid) (s : System) (l : Label) : Prop := InPlace s h ∧ l.harms i = false

instance (s : System) (h : Uuid) : Decidable (InPlace s h) :=
  decidable_of_iff ((s.kemToBindingMap.lookup h).any
    (fun b => (getKey s.kps s.kpsNow h).isSome && (getKey s.ws s.wsNow b).isSome) = true) (by
      simp only [InPlace,Option.any_eq_true,Bool.and_eq_true])

instance (i : Nat) (h : Uuid) (s : System) (l : Label) : Decidable (Unharmed i h s l) :=
  inferInstanceAs (Decidable (InPlace s h ∧ l.harms i = false))

def Opens (u : Setup) (s : System) (b : Uuid) (aad sealEnc sealedCT secret : Bytes) : Prop :=
  sealEnc ≠ [] ∧ sealedCT ≠ [] ∧ ∃ binding ∈ s.bindings, binding.record.id = b ∧ ∃ suite key,
    binding.record.metadata.spec = .binding suite key ∧
    Crypto.hpkeOpenInternal u.x.bssl binding.record.privateKey sealEnc sealedCT aad suite = .ok secret

inductive DecapsStage (u : Setup) (s : System) (call : DecapsCall) (secret : Bytes) : Nat → Task → Option Rpc → Prop where
  | arrived : DecapsStage u s call secret 0 .start none
  | sent {b} (settled : Settled s call.kemUUID b) : DecapsStage u s call secret 1 (.decapsCalling call b)
      (some ⟨.decapAndSeal call.kemUUID call.encapsulatedKey call.aad,none⟩)
  | served {b sealEnc sealedCT} (opens : Opens u s b call.aad sealEnc sealedCT secret) :
      DecapsStage u s call secret 2 (.decapsCalling call b)
        (some ⟨.decapAndSeal call.kemUUID call.encapsulatedKey call.aad,some (.ok (.sealed sealEnc sealedCT))⟩)
  | opening {b sealEnc sealedCT sent reply} (opens : Opens u s b call.aad sealEnc sealedCT secret) :
      DecapsStage u s call secret 3 (.decapsOpening call b sealEnc sealedCT) (some ⟨sent,some reply⟩)
  | responding {sent reply} :
      DecapsStage u s call secret 4 (.responding (.http 200 (.secret call.algorithm secret))) (some ⟨sent,some reply⟩)
  | answered {sent reply} :
      DecapsStage u s call secret 5 (.answered (.http 200 (.secret call.algorithm secret))) (some ⟨sent,some reply⟩)

structure DecapsRun (u : Setup) (i : Nat) (body : Body DecapsRequest) (call : DecapsCall) (secret : Bytes) (n : Nat)
    (s : System) : Prop where
  owned : Owned u s
  parsed : decapsParse u.x body = .ok call
  size : secret.length = 32
  kem : ∃ kem ∈ s.kems, kem.record.id = call.kemUUID ∧
    Crypto.decapsInternal u.x.bssl kem.record.privateKey call.encapsulatedKey = .ok secret
  thread : ∃ th, s.threads[i]? = some th ∧ th.request = .decaps body ∧ DecapsStage u s call secret n th.task th.rpc

section
variable {u : Setup} {s t : System} {l : Label} {i : Nat} {th : Thread} {body : Body DecapsRequest} {call : DecapsCall}
  {secret : Bytes} {n : Nat}

theorem opensGrows {b aad sealEnc sealedCT} (grows : Grows s t) (opens : Opens u s b aad sealEnc sealedCT secret) :
    Opens u t b aad sealEnc sealedCT secret := by
  obtain ⟨encGiven,ctGiven,binding,mem,rest⟩ := opens
  exact ⟨encGiven,ctGiven,binding,grows.bindings binding mem,rest⟩

theorem decapsStageGrows {task rpc} (grows : Grows s t) (stage : DecapsStage u s call secret n task rpc) :
    DecapsStage u t call secret n task rpc := by
  cases stage with
  | arrived => exact .arrived
  | sent settled => exact .sent (settledGrows grows settled)
  | served opens => exact .served (opensGrows grows opens)
  | opening opens => exact .opening (opensGrows grows opens)
  | responding => exact .responding
  | answered => exact .answered

theorem pairSealsOpens (laws : u.x.bssl.Lawful) {kem binding : KeyRecord} (bound : Bound kem binding)
    (made : Made u.x.bssl binding) (plaintext aad seed : Bytes) :
    ∃ suite kemKey bindingKey sealEnc sealedCT, kem.metadata.spec = .kemWithBindingPub suite kemKey bindingKey ∧
      binding.metadata.spec = .binding suite bindingKey ∧
      Crypto.hpkeSealInternal u.x.bssl bindingKey plaintext aad suite seed = .ok (sealEnc,sealedCT) ∧
      sealEnc.length = 32 ∧ sealedCT.length = plaintext.length + 16 ∧
      Crypto.hpkeOpenInternal u.x.bssl binding.privateKey sealEnc sealedCT aad suite = .ok plaintext := by
  obtain ⟨suite,kemKey,bindingKey,kemSpec,bindingSpec⟩ := bound
  obtain ⟨supported,seed',pair⟩ := made
  rw [bindingSpec] at supported pair
  obtain ⟨owns,size⟩ := Crypto.generatedKeypair laws pair
  obtain ⟨sealEnc,sealedCT,sealing,encSize,ctSize,opened⟩ :=
    Crypto.sealThenOpen laws size owns supported plaintext aad seed
  exact ⟨suite,kemKey,bindingKey,sealEnc,sealedCT,kemSpec,bindingSpec,sealing,encSize,ctSize,opened⟩

/-! The five steps. -/

theorem decapsSends {entropy : Entropy} (owned : Owned u s) (found : s.threads[i]? = some th)
    (request : th.request = .decaps body) (parsed : decapsParse u.x body = .ok call) (place : InPlace s call.kemUUID)
    (fresh : th.task = .start) (taken : step u s (.advance i entropy) = some t) :
    ∃ th', t.threads[i]? = some th' ∧ th'.request = .decaps body ∧ DecapsStage u s call secret 1 th'.task th'.rpc := by
  obtain ⟨b,mapped,_,_⟩ := place
  simp only [step,found,Option.bind_some,advance,fresh,start,request,startDecaps,parsed,mapped] at taken
  split at taken <;> try contradiction
  cases Option.some.inj taken
  exact ⟨_,(getPut found i).trans (if_pos rfl),request,.sent (owned.map _ _ mapped)⟩

theorem decapsServed {entropy : Entropy} {b : Uuid} (laws : u.x.Lawful) (run : DecapsRun u i body call secret n s)
    (found : s.threads[i]? = some th) (request : th.request = .decaps body) (place : InPlace s call.kemUUID)
    (settled : Settled s call.kemUUID b) (task : th.task = .decapsCalling call b)
    (sent : th.rpc = some ⟨.decapAndSeal call.kemUUID call.encapsulatedKey call.aad,none⟩)
    (taken : step u s (.serve i entropy) = some t) :
    ∃ th', t.threads[i]? = some th' ∧ th'.request = .decaps body ∧ DecapsStage u s call secret 2 th'.task th'.rpc := by
  have owned := run.owned
  obtain ⟨kem,kemMem,kemId,decapsed⟩ := run.kem
  obtain ⟨_,_,kemLive,_⟩ := place
  obtain ⟨record,live⟩ := Option.isSome_iff_exists.mp kemLive
  obtain ⟨recordId,kem',kemMem',same⟩ := owned.kps _ _ (getKeyLookup live)
  subst same
  cases kemSame owned kemMem kemMem' (kemId.trans recordId.symm)
  obtain ⟨_,_,binding,bindingMem,_,bindingId,_⟩ := id settled
  have bound := settledBound owned settled kemMem kemId bindingMem bindingId
  obtain ⟨suite,kemKey,bindingKey,sealEnc,sealedCT,kemSpec,bindingSpec,sealing,encSize,ctSize,opened⟩ :=
    pairSealsOpens laws.bssl bound (owned.bindings binding bindingMem).made secret call.aad entropy.seed
  obtain ⟨req,_,accepted⟩ := decapsParsed run.parsed
  have sealedSize : sealedCT.length = 48 := by rw [ctSize,run.size]
  have out := KpsCore.decapsAndSeals live kemSpec accepted.given decapsed sealing encSize sealedSize
  simp only [step,found,Option.bind_some,serve,sent,KpsCall.creates,Bool.false_eq_true,false_and,if_false,serveCall,
    out,Except.map] at taken
  cases Option.some.inj taken
  refine ⟨_,(getPut found i).trans (if_pos rfl),request,?_⟩
  rw [task]
  refine .served ⟨?_,?_,binding,bindingMem,bindingId,suite,bindingKey,bindingSpec,opened⟩
  · exact List.ne_nil_of_length_pos (by omega)
  · exact List.ne_nil_of_length_pos (by omega)

theorem opensVisible {b : Uuid} {aad sealEnc sealedCT : Bytes} (owned : Owned u s) (size : secret.length = 32)
    (opens : Opens u s b aad sealEnc sealedCT secret) (now : Nat) :
    WsCore.openSecret u.x s.ws now b sealEnc sealedCT aad =
      if (getKey s.ws now b).isSome then .ok secret else failed (.ffi .notFound) := by
  obtain ⟨encGiven,ctGiven,binding,mem,id,suite,key,spec,opened⟩ := opens
  cases here : getKey s.ws now b with
  | none => exact WsCore.openMissing aad here encGiven ctGiven
  | some record =>
    obtain ⟨recordId,binding',mem',same⟩ := owned.ws _ _ (getKeyLookup here)
    subst same
    cases bindingSame owned mem mem' (id.trans recordId.symm)
    exact WsCore.opensSecret here spec encGiven ctGiven size opened

theorem decapsOpens {b : Uuid} {sealEnc sealedCT : Bytes} (run : DecapsRun u i body call secret n s)
    (place : InPlace s call.kemUUID) (settled : Settled s call.kemUUID b)
    (opens : Opens u s b call.aad sealEnc sealedCT secret) :
    WsCore.openSecret u.x s.ws s.wsNow b sealEnc sealedCT call.aad = .ok secret := by
  obtain ⟨b',mapped,_,live⟩ := place
  cases settledBinding run.owned settled (run.owned.map _ _ mapped)
  rw [opensVisible run.owned run.size opens,if_pos live]

theorem decapsAdvances (laws : u.x.Lawful) (run : DecapsRun u i body call secret n s) (place : InPlace s call.kemUUID)
    (own : l.own i = true) (taken : step u s l = some t) :
    ∃ th', t.threads[i]? = some th' ∧ th'.request = .decaps body ∧
      DecapsStage u s call secret (n + 1) th'.task th'.rpc := by
  obtain ⟨th,found,request,stage⟩ := run.thread
  have before := (run.owned.threads i th found).task
  generalize task : th.task = task' at stage before
  generalize sent : th.rpc = rpc at stage
  cases l with
  | advance j entropy =>
    cases beq_iff_eq.mp own
    cases stage with
    | arrived => exact decapsSends run.owned found request run.parsed place task taken
    | sent settled => simp [step,found,advance,task] at taken
    | served opens => simp [step,found,advance,task] at taken
    | opening opens =>
      have opened := decapsOpens run place before.1 opens
      simp only [step,found,Option.bind_some,advance,task,opened,decapsAnswer] at taken
      cases Option.some.inj taken
      refine ⟨_,(getPut found i).trans (if_pos rfl),request,?_⟩
      simp only [Thread.respond,Thread.goto,sent]
      exact .responding
    | responding =>
      simp only [step,found,Option.bind_some,advance,task] at taken
      cases Option.some.inj taken
      refine ⟨_,(getPut found i).trans (if_pos rfl),request,?_⟩
      simp only [Thread.goto,sent]
      exact .answered
    | answered => simp [step,found,advance,task] at taken
  | serve j entropy =>
    cases beq_iff_eq.mp own
    cases stage with
    | arrived => simp [step,found,serve,sent] at taken
    | sent settled => exact decapsServed laws run found request place settled task sent taken
    | served opens => simp [step,found,serve,sent] at taken
    | opening opens => simp [step,found,serve,sent] at taken
    | responding => simp [step,found,serve,sent] at taken
    | answered => simp [step,found,serve,sent] at taken
  | receive j =>
    cases beq_iff_eq.mp own
    cases stage with
    | arrived => simp [step,found,receive,sent] at taken
    | sent settled => simp [step,found,receive,sent] at taken
    | served opens =>
      simp only [step,found,Option.bind_some,receive,sent,task,adapt,resume,Option.map_some] at taken
      cases Option.some.inj taken
      refine ⟨_,(getPut found i).trans (if_pos rfl),request,?_⟩
      simp only [Thread.goto,sent]
      exact .opening opens
    | opening opens => simp [step,found,receive,sent,task,resume] at taken
    | responding => simp [step,found,receive,sent,task,resume] at taken
    | answered => simp [step,found,receive,sent,task,resume] at taken
  | _ => contradiction

theorem moverOwn (mover : l.mover = some i) (unharmed : l.harms i = false) : l.own i = true := by
  cases l with
  | advance j entropy => exact beq_iff_eq.mpr (Option.some.inj mover)
  | serve j entropy => exact beq_iff_eq.mpr (Option.some.inj mover)
  | receive j => exact beq_iff_eq.mpr (Option.some.inj mover)
  | replay j k => exact absurd (Option.some.inj mover) (beq_eq_false_iff_ne.mp unharmed)
  | fail j err => exact absurd (Option.some.inj mover) (beq_eq_false_iff_ne.mp unharmed)
  | _ => contradiction

theorem decapsRunStep (laws : u.x.Lawful) (run : DecapsRun u i body call secret n s)
    (allowed : Unharmed i call.kemUUID s l) (taken : step u s l = some t) :
    DecapsRun u i body call secret (n + if l.own i then 1 else 0) t := by
  have move := stepMove taken
  have grows := ownedGrows run.owned move
  obtain ⟨kem,kemMem,rest⟩ := run.kem
  refine ⟨ownedStep run.owned move,run.parsed,run.size,⟨kem,grows.kems kem kemMem,rest⟩,?_⟩
  by_cases own : l.own i = true
  · obtain ⟨th',there,request,stage⟩ := decapsAdvances laws run allowed.1 own taken
    rw [if_pos own]
    exact ⟨th',there,request,decapsStageGrows grows stage⟩
  · obtain ⟨th,found,request,stage⟩ := run.thread
    have other : l.mover ≠ some i := fun mover => own (moverOwn mover allowed.2)
    rw [if_neg own]
    exact ⟨th,threadKept move found other,request,decapsStageGrows grows stage⟩

theorem decapsRunAlong {ls : List Label} (laws : u.x.Lawful) (start : DecapsRun u i body call secret n s)
    (run : Along (step u) (Unharmed i call.kemUUID) s ls t) :
    DecapsRun u i body call secret (n + ls.countP (Label.own i)) t := by
  induction run generalizing n with
  | nil => simpa using start
  | @cons s l m ls t allowed taken rest ih =>
    have next := ih (decapsRunStep laws start allowed taken)
    rw [List.countP_cons,Nat.add_comm (ls.countP _),← Nat.add_assoc]
    exact next

theorem decapsEnabled (run : DecapsRun u i body call secret n s) (place : InPlace s call.kemUUID)
    (free : s.beat.locked = false) (early : n < 5) : ∃ l, l.own i = true ∧ (step u s l).isSome := by
  obtain ⟨th,found,request,stage⟩ := run.thread
  obtain ⟨b,mapped,_,_⟩ := place
  have own : ∀ entropy, (Label.advance i entropy).own i = true := fun _ => beq_iff_eq.mpr rfl
  generalize task : th.task = task' at stage
  generalize sent : th.rpc = rpc at stage
  cases stage with
  | arrived =>
    refine ⟨.advance i ⟨0,[],true⟩,own _,?_⟩
    simp [step,found,advance,task,start,request,startDecaps,run.parsed,free,mapped]
  | sent settled =>
    refine ⟨.serve i ⟨0,[],true⟩,beq_iff_eq.mpr rfl,?_⟩
    simp [step,found,serve,sent,KpsCall.creates]
  | served opens =>
    refine ⟨.receive i,beq_iff_eq.mpr rfl,?_⟩
    simp [step,found,receive,sent,task,adapt,resume]
  | opening opens =>
    refine ⟨.advance i ⟨0,[],true⟩,own _,?_⟩
    simp [step,found,advance,task]
  | responding =>
    refine ⟨.advance i ⟨0,[],true⟩,own _,?_⟩
    simp [step,found,advance,task]
  | answered => omega

theorem decapsAccepts {x : Externals} {handle : String} {h : Uuid} {ciphertext : Bytes} (parsed : x.parse handle = .ok h)
    (given : ciphertext ≠ []) : decapsParse x (.ok ⟨some handle,some ⟨kemX25519,ciphertext⟩⟩) =
      .ok ⟨kemX25519,h,ciphertext,decapsAADContext h kemX25519⟩ := by
  have length : ¬ ciphertext.length = 0 := by simpa using given
  have supported : isSupportedKemAlgorithm kemX25519 = true := supportedKem.mpr rfl
  simp [decapsParse,readRequest,DecapsRequest.violations,requiredField,supported,parsed,length]

theorem decapsEndToEnd {v : System} {g : Nat} {gen : Thread} {info : KeyInfo} {h : Uuid} {skE : Bytes} (pkR : PublicKey)
    (laws : u.x.Lawful) (reach : Reachable u s) (made : s.threads[g]? = some gen)
    (told : gen.task = .answered (.http 200 (.key info))) (handle : info.handle = uuidString h)
    (pub : pkR.bytes = info.publicKey) (size : skE.length = 32)
    (defined : (u.x.bssl.computeSharedKey skE pkR.bytes).isSome)
    (arrives : step u s (.arrive (.decaps (.ok ⟨some info.handle,some ⟨kemX25519,u.x.bssl.toPublic skE⟩⟩))) = some v) :
    ∃ secret, (∀ seed, Crypto.encapInternal u.x.bssl pkR (some skE) seed = .ok (secret,u.x.bssl.toPublic skE)) ∧
      ∀ ls t, Along (step u) (Unharmed s.threads.length h) v ls t → ∃ th, t.threads[s.threads.length]? = some th ∧
        ((ls.countP (Label.own s.threads.length) = 5 ∧ th.task = .answered (.http 200 (.secret kemX25519 secret))) ∨
          (ls.countP (Label.own s.threads.length) < 5 ∧ (∀ a, th.task ≠ .answered a) ∧
            (InPlace t h → t.beat.locked = false → ∃ l, l.own s.threads.length = true ∧ (step u t l).isSome))) := by
  have owned := ownedReachable reach
  have answer := (owned.threads g gen made).task
  rw [told] at answer
  obtain ⟨kem,kemMem,_,named,quoted⟩ := answer
  have kemId : kem.record.id = h := by
    have same := laws.parses kem.record.id
    rw [← named,handle,laws.parses h] at same
    exact (Except.ok.inj same).symm
  obtain ⟨_,seed,pair⟩ := (owned.kems kem kemMem).made
  obtain ⟨owns,keySize⟩ := Crypto.generatedKeypair laws.bssl pair
  obtain ⟨secret,encapped,decapsed,secretSize⟩ := Crypto.decapsInvertsEncap laws.bssl keySize size
    ((pub.trans quoted).trans owns) defined []
  have given : u.x.bssl.toPublic skE ≠ [] := List.ne_nil_of_length_pos (by rw [laws.bssl.publicSize skE size]; decide)
  have parsed := decapsAccepts (show u.x.parse info.handle = .ok h by rw [handle]; exact laws.parses h) given
  have move := stepMove arrives
  have grows := ownedGrows owned move
  cases Option.some.inj arrives
  refine ⟨secret,fun _ => encapped,fun ls t run => ?_⟩
  have arrived : DecapsRun u s.threads.length _ _ secret 0 _ :=
    ⟨ownedStep owned move,parsed,secretSize,⟨kem,kemMem,kemId,decapsed⟩,_,List.getElem?_concat_length,rfl,.arrived⟩
  have final := decapsRunAlong laws arrived run
  rw [Nat.zero_add] at final
  obtain ⟨th,found,_,stage⟩ := final.thread
  refine ⟨th,found,?_⟩
  have enabled := fun place free early => decapsEnabled final place free early
  generalize ls.countP (Label.own s.threads.length) = n at stage enabled
  generalize th.task = task at stage
  generalize th.rpc = rpc at stage
  cases stage with
  | answered => exact .inl ⟨rfl,rfl⟩
  | _ => exact .inr ⟨by omega,by simp,fun place free => enabled place free (by omega)⟩

end

def decapsBesideGenerate : List Label :=
  [.advance 1 (Standin.entropy 0),.arrive Standin.generateRequest,.advance 2 (Standin.entropy 3),
    .serve 1 (Standin.entropy 7),.serve 2 (Standin.entropy 4),.receive 2,.receive 1,.tick 5 5,.reapWs 5,
    .advance 2 (Standin.entropy 0),.advance 1 (Standin.entropy 0),.advance 1 (Standin.entropy 0)]

theorem decapsEndToEndBeside :
    let skE := Standin.pad32 [9]
    let s := Standin.after (Standin.generating 0 1 2)
    let v := Standin.onward s [.arrive (Standin.decapsRequest 2 skE)]
    let t := Standin.onward v decapsBesideGenerate
    ∃ secret th, Crypto.encapInternal Standin.bssl ⟨Standin.pad32 [2],Standin.padSize _⟩ (some skE) [] = .ok (secret,skE) ∧
      t.threads[1]? = some th ∧ th.task = .answered (.http 200 (.secret kemX25519 secret)) := by
  intro skE s v t
  have reach : Reachable Standin.setup s := Standin.afterReachable _ (by decide +kernel)
  have told : s.threads[0]?.map Thread.task =
      some (.answered (.http 200 (.key ⟨uuidString 2,1,Standin.pad32 [2],"KEY_PROTECTION_VM_EMULATED"⟩))) := by
    decide +kernel
  obtain ⟨gen,made,task⟩ := Option.map_eq_some_iff.mp told
  have length : s.threads.length = 1 := by decide +kernel
  have arrives : step Standin.setup s (.arrive (Standin.decapsRequest 2 skE)) = some v :=
    Standin.onwardStep (by decide +kernel)
  have run : Along (step Standin.setup) (Unharmed s.threads.length 2) v decapsBesideGenerate t :=
    alongGetD (by decide +kernel)
  obtain ⟨secret,encapped,ends⟩ := decapsEndToEnd ⟨Standin.pad32 [2],Standin.padSize _⟩ Standin.lawful reach made
    task rfl rfl (Standin.padSize [9]) (by decide +kernel) arrives
  obtain ⟨th,found,⟨_,answered⟩ | ⟨early,_⟩⟩ := ends _ _ run
  · exact ⟨secret,th,encapped [],length ▸ found,answered⟩
  · rw [length] at early
    exact absurd early (by decide)

end KeyProtection
