import KeyProtection.Cleanup
import KeyProtection.DestroyRace
import KeyProtection.Generate
import KeyProtection.Listing

/-! GET /v1/keys reads the registry of the KPS, while destroy and decap requests look the
handle up in kemToBindingMap. The two may part in three ways: a cleanup replaces the map and
leaves the KPS alone, a destroy request removes the mapping although its DestroyKEMKey call
failed, and a generate request that gave up on its GenerateKEMKeypair call never stores the
key that the KPS made. Apart from these a listed handle has its mapping. -/
namespace KeyProtection
open Lib Lib.Run KeyRegistry

/- No cleanup takes this mapping away. -/
def Spares (k : Uuid) (s : System) : Label → Prop
  | .beat .resets => s.kemToBindingMap.lookup k = none
  | _ => True

instance (k : Uuid) (s : System) (l : Label) : Decidable (Spares k s l) := by
  unfold Spares
  split <;> infer_instance

def System.Idle (s : System) : Prop := ∀ th ∈ s.threads, th.task = .start ∨ ∃ a, th.task = .answered a

def Returned (s : System) (k : Uuid) : Prop :=
  ∃ th ∈ s.threads, ∃ info, th.task = .answered (.http 200 (.key info)) ∧ info.handle = uuidString k

/- The KPS has not carried out the DestroyKEMKey call of a request. -/
def Undelivered (s : System) (k : Uuid) : Prop := ∃ th ∈ s.threads, th.rpc = some ⟨.destroy k,none⟩

def LeftBehind (u : Setup) (s : System) (k : Uuid) : Prop :=
  ∃ th ∈ s.threads, Destroys u k th.request ∧ (∃ a, th.task = .answered a) ∧ th.rpc = some ⟨.destroy k,none⟩

def Listed (u : Setup) (s : System) (adapter : Adapter) (readings : Nat → Nat) (k : Uuid) : Prop :=
  ∃ infos, handleEnumerateKeys u adapter s.kps s.kpsNow readings = .http 200 (.keys infos) ∧
    ∃ info ∈ infos, info.handle = uuidString k

def Manages (u : Setup) (k : Uuid) (request : Request) : Prop :=
  Destroys u k request ∨ ∃ call, Decapsulating u call request ∧ call.kemUUID = k

def Task.removes : Task → Option Uuid
  | .destroyCalling kemUUID _ => some kemUUID
  | .destroyBinding kemUUID _ _ => some kemUUID
  | .destroyUnmapping kemUUID _ _ _ => some kemUUID
  | _ => none

def Task.tells : Task → Bool
  | .responding a => a.tellsKey
  | .answered a => a.tellsKey
  | _ => false

def Telling (s : System) (k : Uuid) : Prop :=
  ∃ kem ∈ s.kems, kem.record.id = k ∧ ∃ th, s.threads[kem.owner]? = some th ∧ th.task.tells = true

structure Delivered (u : Setup) (s : System) : Prop where
  owned : Owned u s
  sent : ∀ (j : Nat) (th : Thread) (k : Uuid), s.threads[j]? = some th → th.task.removes = some k →
    ∃ reply, th.rpc = some ⟨.destroy k,reply⟩
  born : ∀ (j : Nat) (th : Thread) k reply, s.threads[j]? = some th → th.rpc = some ⟨.destroy k,reply⟩ → BornKem s k
  gone : ∀ (j : Nat) (th : Thread) k reply, s.threads[j]? = some th → th.rpc = some ⟨.destroy k,some reply⟩ →
    s.kps.lookup k = none

structure Managed (u : Setup) (k : Uuid) (s : System) : Prop where
  delivered : Delivered u s
  mapped : Telling s k → (s.kps.lookup k).isSome → (s.kemToBindingMap.lookup k).isSome ∨ Undelivered s k

section
variable {u : Setup} {s t : System} {l : Label} {j : Nat} {th th' : Thread} {k : Uuid}

theorem kemGoneForever (move : Move u s l t) (born : BornKem s k) (gone : s.kps.lookup k = none) :
    t.kps.lookup k = none := by
  cases move with
  | kemMade found sent unused bound decoded created spec =>
    obtain ⟨kem,mem,id⟩ := born
    simp only [addKey,Table.lookupInsert]
    split
    · rename_i same
      exact absurd (List.mem_map.mpr ⟨kem,mem,id.trans same⟩) unused.1
    · exact gone
  | kemDestroyed found sent =>
    simp only [Table.lookupErase]
    split
    · rfl
    · exact gone
  | reapedKps past => simp only [reap,Table.lookupRetain,gone,Option.filter_none]
  | restarted given unused => exact AList.lookup_empty k
  | _ => exact gone

theorem bornKemGrows (grows : Grows s t) (born : BornKem s k) : BornKem t k := by
  obtain ⟨kem,mem,id⟩ := born
  exact ⟨kem,grows.kems kem mem,id⟩

theorem rpcMoves (moved : Moved u s l t j th th') :
    th'.rpc = th.rpc ∨ (th.task = .start ∧ ∀ k reply, th'.rpc = some ⟨.destroy k,reply⟩ →
      reply = none ∧ (s.kemToBindingMap.lookup k).isSome) ∨
    ∃ call reply, th.rpc = some ⟨call,none⟩ ∧ th'.rpc = some ⟨call,some reply⟩ ∧
      ∀ k, call = .destroy k → t.kps = s.kps.erase k := by
  cases moved with
  | quiet taken same =>
    cases taken with
    | @destroyFound entropy body kemUUID bindingUUID fresh request parsed free mapped =>
      refine .inr (.inl ⟨fresh,fun k reply sent => ?_⟩)
      cases sent
      exact ⟨rfl,by rw [mapped]; rfl⟩
    | decapsFound fresh request parsed free mapped | claimsSent fresh request planned | enumerating fresh request =>
      refine .inr (.inl ⟨fresh,fun k reply sent => ?_⟩)
      cases sent
    | _ => exact .inl rfl
  | making label fresh request born ws =>
    refine .inr (.inl ⟨fresh,fun k reply sent => ?_⟩)
    cases sent
  | replied label sent reads destroys =>
    exact .inr (.inr ⟨_,_,sent,rfl,fun k same => (destroys k same).1⟩)
  | storing label stage map => exact .inl rfl
  | unbinding label stage ws log => exact .inl rfl
  | unmapping label stage map => exact .inl rfl

theorem sentMoves (before : Delivered u s) (found : s.threads[j]? = some th) (moved : Moved u s l t j th th')
    (removes : th'.task.removes = some k) : ∃ reply, th'.rpc = some ⟨.destroy k,reply⟩ := by
  cases moved with
  | quiet taken same =>
    cases taken with
    | destroyFound fresh request parsed free mapped =>
      cases removes
      exact ⟨none,rfl⟩
    | resumed origin next =>
      have sent := before.sent j th k found
      have resumes := resumption next
      generalize th.task = task at resumes sent
      cases resumes with
      | destroyed => exact sent removes
      | undestroyed => exact sent removes
      | _ => contradiction
    | _ => contradiction
  | making label fresh request born ws => contradiction
  | @replied entropy call reply label sent reads destroys =>
    obtain ⟨old,mine⟩ := before.sent j th k found removes
    cases Option.some.inj (mine.symm.trans sent)
    exact ⟨some reply,rfl⟩
  | storing label stage map => contradiction
  | unbinding label stage ws log =>
    cases removes
    exact before.sent j th k found (by rw [stage]; rfl)
  | unmapping label stage map => contradiction

theorem deliveredStep (before : Delivered u s) (move : Move u s l t) : Delivered u t := by
  have owned := before.owned
  have grows := ownedGrows owned move
  refine ⟨ownedStep owned move,fun j th' k here removes => ?_,fun j th' k reply here sent => ?_,
    fun j th' k reply here served => ?_⟩
  · rcases threadBefore move here with ⟨request,_,new⟩ | old | ⟨th,found,moved⟩
    · rw [new] at removes
      contradiction
    · exact before.sent j th' k old removes
    · exact sentMoves before found moved removes
  · rcases threadBefore move here with ⟨request,_,new⟩ | old | ⟨th,found,moved⟩
    · rw [new] at sent
      contradiction
    · exact bornKemGrows grows (before.born j th' k reply old sent)
    · rcases rpcMoves moved with same | ⟨_,calls⟩ | ⟨call,answer,waiting,replied,_⟩
      · exact bornKemGrows grows (before.born j th k reply found (same ▸ sent))
      · obtain ⟨b,mapped⟩ := Option.isSome_iff_exists.mp (calls k reply sent).2
        exact bornKemGrows grows (settledBornKem (owned.map k b mapped))
      · cases Option.some.inj (replied.symm.trans sent)
        exact bornKemGrows grows (before.born j th k none found waiting)
  · rcases threadBefore move here with ⟨request,_,new⟩ | old | ⟨th,found,moved⟩
    · rw [new] at served
      contradiction
    · exact kemGoneForever move (before.born j th' k _ old served) (before.gone j th' k reply old served)
    · rcases rpcMoves moved with same | ⟨_,calls⟩ | ⟨call,answer,waiting,replied,erased⟩
      · rw [same] at served
        exact kemGoneForever move (before.born j th k _ found served) (before.gone j th k reply found served)
      · exact nomatch (calls k _ served).1
      · cases Option.some.inj (replied.symm.trans served)
        rw [erased k rfl]
        exact AList.lookup_erase k s.kps

theorem deliveredInitial (u : Setup) (kpsNow wsNow : Nat) (token : String) :
    Delivered u (System.initial kpsNow wsNow token) :=
  ⟨ownedInitial u kpsNow wsNow token,fun _ _ _ found => by simp [System.initial] at found,
    fun _ _ _ _ found => by simp [System.initial] at found,fun _ _ _ _ found => by simp [System.initial] at found⟩

theorem undeliveredMoves (owned : Owned u s) (move : Move u s l t) (undelivered : Undelivered s k) :
    Undelivered t k ∨ t.kps.lookup k = none := by
  obtain ⟨th,mem,waiting⟩ := undelivered
  obtain ⟨j,found⟩ := List.mem_iff_getElem?.mp mem
  rcases threadAfter move found with same | ⟨th',here,moved⟩
  · exact .inl ⟨th,List.mem_iff_getElem?.mpr ⟨j,same⟩,waiting⟩
  · rcases rpcMoves moved with same | ⟨fresh,_⟩ | ⟨call,reply,sent,_,erased⟩
    · exact .inl ⟨th',List.mem_iff_getElem?.mpr ⟨j,here⟩,same.trans waiting⟩
    · have silent := (owned.threads j th found).silent fresh
      rw [waiting] at silent
      contradiction
    · cases Option.some.inj (sent.symm.trans waiting)
      right
      rw [erased k rfl]
      exact AList.lookup_erase k s.kps

theorem tellsOwn (owned : Owned u s) (found : s.threads[j]? = some th) (tells : th.task.tells = true) :
    j ∈ s.kems.map KemBirth.owner := by
  have told : ∀ a : Answer, a.tellsKey = true → Told u s j th.request a → j ∈ s.kems.map KemBirth.owner := by
    intro a key told
    unfold Answer.tellsKey at key
    split at key <;> try contradiction
    obtain ⟨kem,mem,owner,_⟩ := told
    exact List.mem_map.mpr ⟨kem,mem,owner⟩
  have task := (owned.threads j th found).task
  cases stage : th.task with
  | responding a =>
    rw [stage] at task tells
    exact told a tells task
  | answered a =>
    rw [stage] at task tells
    exact told a tells task
  | _ =>
    rw [stage] at tells
    contradiction

theorem kemsBefore {kem : KemBirth} (move : Move u s l t) (mem : kem ∈ t.kems) :
    kem ∈ s.kems ∨ ∃ th call reply, s.threads[kem.owner]? = some th ∧ th.rpc = some ⟨call,none⟩ ∧
      t.threads[kem.owner]? = some {th with rpc := reply} := by
  cases move with
  | @kemMade i th entropy algo bindingPubKey lifespanSecs suite pubKey bindingKey record found sent =>
    rcases List.mem_cons.mp mem with new | old
    · subst new
      exact .inr ⟨th,_,_,found,sent,(getPut found i).trans (if_pos rfl)⟩
    · exact .inl old
  | _ => exact .inl mem

theorem storingMoves {plan bindingUUID kemUUID kemPubKey} (moved : Moved u s l t j th th')
    (stage : th.task = .generateStoring plan bindingUUID kemUUID kemPubKey) :
    th'.task = th.task ∨ t.kemToBindingMap = s.kemToBindingMap.insert kemUUID bindingUUID := by
  cases moved with
  | quiet taken same =>
    cases taken with
    | resumed origin next =>
      rw [stage] at next
      simp [resume] at next
    | _ => simp_all
  | making label fresh request born ws =>
    rw [stage] at fresh
    contradiction
  | replied label sent reads destroys => exact .inl rfl
  | storing label here map =>
    cases stage.symm.trans here
    exact .inr map
  | unbinding label here ws log =>
    rw [stage] at here
    contradiction
  | unmapping label here map =>
    rw [stage] at here
    contradiction

theorem tellsBefore (moved : Moved u s l t j th th') (tells : th'.task.tells = true) :
    th.task.tells = true ∨ ∃ plan bindingUUID kemUUID kemPubKey,
      th.task = .generateStoring plan bindingUUID kemUUID kemPubKey := by
  cases stage : th'.task with
  | responding a =>
    rw [stage] at tells
    rcases tellsFrom moved stage tells with same | ⟨_,plan,bindingUUID,kemUUID,kemPubKey,_,storing⟩
    · exact .inl (by rw [same]; exact tells)
    · exact .inr ⟨plan,bindingUUID,kemUUID,kemPubKey,storing⟩
  | answered a =>
    rw [stage] at tells
    rcases answeredFrom moved stage with same | same <;> exact .inl (by rw [same]; exact tells)
  | _ =>
    rw [stage] at tells
    contradiction

theorem tellingBefore (owned : Owned u s) (move : Move u s l t) (telling : Telling t k) :
    Telling s k ∨ (t.kemToBindingMap.lookup k).isSome := by
  obtain ⟨kem,mem,id,th',here,tells⟩ := telling
  rcases kemsBefore move mem with old | ⟨th,call,reply,found,sent,after⟩
  · rcases threadBefore move here with ⟨request,_,new⟩ | same | ⟨th,found,moved⟩
    · rw [new] at tells
      contradiction
    · exact .inl ⟨kem,old,id,th',same,tells⟩
    · rcases tellsBefore moved tells with told | ⟨plan,bindingUUID,kemUUID,kemPubKey,storing⟩
      · exact .inl ⟨kem,old,id,th,found,told⟩
      · rcases storingMoves moved storing with same | stored
        · rw [same,storing] at tells
          contradiction
        · have task := (owned.threads kem.owner th found).task
          rw [storing] at task
          obtain ⟨_,kem',mem',owner',id',_⟩ := task
          cases kemOwnerSame owned mem' old owner'
          right
          rw [stored,← id,id',Table.lookupInsert,if_pos rfl]
          rfl
  · -- The KPS makes the key only now, so its request cannot have it to tell.
    rw [after] at here
    cases Option.some.inj here
    exact absurd (tellsOwn owned found tells) (kemUnborn owned found sent)

theorem mappedMoves (move : Move u s l t) (allowed : Spares k s l) (mapped : (s.kemToBindingMap.lookup k).isSome) :
    (t.kemToBindingMap.lookup k).isSome ∨ ∃ (j : Nat) (th : Thread) (entropy : Entropy), l = .advance j entropy ∧
      s.threads[j]? = some th ∧ th.task.removes = some k := by
  cases move with
  | stored found stage free =>
    left
    simp only [Table.lookupInsert]
    split
    · rfl
    · exact mapped
  | @unmapped i th entropy kemUUID bindingUUID errKps errWs found stage free =>
    by_cases same : k = kemUUID
    · subst same
      exact .inr ⟨i,th,entropy,rfl,found,by rw [stage]; rfl⟩
    · left
      simp only [Table.lookupErase,if_neg same]
      exact mapped
  | reset stage =>
    have gone : s.kemToBindingMap.lookup k = none := allowed
    rw [gone] at mapped
    contradiction
  | _ => exact .inl mapped

theorem managedStep (before : Managed u k s) (allowed : Spares k s l) (move : Move u s l t) : Managed u k t := by
  have owned := before.delivered.owned
  refine ⟨deliveredStep before.delivered move,fun telling present => ?_⟩
  rcases tellingBefore owned move telling with told | stored
  · have born : BornKem s k := by
      obtain ⟨kem,mem,id,_⟩ := told
      exact ⟨kem,mem,id⟩
    have lives : s.kps.lookup k ≠ none := by
      intro gone
      rw [kemGoneForever move born gone] at present
      contradiction
    have waits : Undelivered s k → Undelivered t k := by
      intro undelivered
      rcases undeliveredMoves owned move undelivered with still | gone
      · exact still
      · rw [gone] at present
        contradiction
    rcases before.mapped told (Option.isSome_iff_ne_none.mpr lives) with mapped | undelivered
    · rcases mappedMoves move allowed mapped with kept | ⟨j,th,_,_,found,removes⟩
      · exact .inl kept
      · -- The mapping goes while the key is there: the destroy call was not carried out.
        obtain ⟨reply,sent⟩ := before.delivered.sent j th k found removes
        cases reply with
        | none => exact .inr (waits ⟨th,List.mem_iff_getElem?.mpr ⟨j,found⟩,sent⟩)
        | some reply => exact absurd (before.delivered.gone j th k reply found sent) lives
    · exact .inr (waits undelivered)
  · exact .inl stored

theorem managedInitial (u : Setup) (k : Uuid) (kpsNow wsNow : Nat) (token : String) :
    Managed u k (System.initial kpsNow wsNow token) := by
  refine ⟨deliveredInitial u kpsNow wsNow token,fun _ present => ?_⟩
  simp [System.initial] at present

theorem kpsKinds (laws : u.x.Lawful) (owned : Owned u s) : Homogeneous KemRecord s.kps := by
  refine ⟨fun id record stored => (owned.kps id record stored).1,fun id record stored => ?_⟩
  obtain ⟨_,kem,mem,same⟩ := owned.kps id record stored
  subst same
  have ok := owned.kems kem mem
  obtain ⟨supported,seed,pair⟩ := ok.made
  obtain ⟨binding,_,_,suite,kemKey,bindingKey,spec,_⟩ := ok.bound
  have size := (Crypto.generatedKeypair laws.bssl pair).2
  rw [spec] at supported
  exact ⟨kemKey,bindingKey,supportedSuite.mp supported ▸ spec,kemKey.size,bindingKey.size,size⟩

theorem listedPresent (laws : u.x.Lawful) (owned : Owned u s) {adapter : Adapter} {readings : Nat → Nat}
    (listed : Listed u s adapter readings k) : (s.kps.lookup k).isSome := by
  have kinds := kpsKinds laws owned
  obtain ⟨infos,answer,info,mem,handle⟩ := listed
  rw [answersFirstPage laws kinds adapter s.kpsNow readings] at answer
  cases answer
  obtain ⟨record,inPage,same⟩ := List.mem_map.mp mem
  subst same
  have live := (RegistryTtl.memSortedLive kinds.keyed).mp (List.mem_of_mem_take inPage)
  rw [uuidStringInjective laws handle] at live
  rw [(getKeyIff.mp live).1]
  rfl

theorem returnedTelling (laws : u.x.Lawful) (owned : Owned u s) (returned : Returned s k) : Telling s k := by
  obtain ⟨th,mem,info,stage,handle⟩ := returned
  obtain ⟨j,found⟩ := List.mem_iff_getElem?.mp mem
  have task := (owned.threads j th found).task
  rw [stage] at task
  obtain ⟨kem,old,owner,same,_⟩ := task
  exact ⟨kem,old,uuidStringInjective laws (same.symm.trans handle),th,owner ▸ found,by rw [stage]; rfl⟩

theorem lookupFinds {entropy : Entropy} (found : s.threads[j]? = some th) (fresh : th.task = .start)
    (manages : Manages u k th.request) (mapped : (s.kemToBindingMap.lookup k).isSome)
    (taken : step u s (.advance j entropy) = some t) (here : t.threads[j]? = some th') :
    th'.task ≠ .responding (handleNotFound k) := by
  obtain ⟨b,stored⟩ := Option.isSome_iff_exists.mp mapped
  rcases manages with ⟨body,request,parsed⟩ | ⟨call,⟨body,request,parsed⟩,same⟩
  · simp only [step,found,Option.bind_some,advance,fresh,start,request,startDestroy,parsed,stored] at taken
    split at taken <;> try contradiction
    cases Option.some.inj taken
    rw [System.put,getPut found,if_pos rfl] at here
    cases Option.some.inj here
    simp [Thread.call]
  · subst same
    simp only [step,found,Option.bind_some,advance,fresh,start,request,startDecaps,parsed,stored] at taken
    split at taken <;> try contradiction
    cases Option.some.inj taken
    rw [System.put,getPut found,if_pos rfl] at here
    cases Option.some.inj here
    simp [Thread.call]

theorem idleLeft (owned : Owned u s) (idle : s.Idle) (undelivered : Undelivered s k) : LeftBehind u s k := by
  obtain ⟨th,mem,waiting⟩ := undelivered
  obtain ⟨j,found⟩ := List.mem_iff_getElem?.mp mem
  have ok := owned.threads j th found
  rcases idle th mem with fresh | answered
  · rw [ok.silent fresh] at waiting
    contradiction
  · exact ⟨th,mem,ok.destroys k none waiting,answered,waiting⟩

theorem listedManageable (laws : u.x.Lawful) {kpsNow wsNow : Nat} {token : String} {ls : List Label}
    (run : Along (step u) (Spares k) (System.initial kpsNow wsNow token) ls s) (idle : s.Idle) {adapter : Adapter}
    {readings : Nat → Nat} (listed : Listed u s adapter readings k) (returned : Returned s k)
    (carried : ¬ LeftBehind u s k) :
    (s.kemToBindingMap.lookup k).isSome ∧
    ∀ (j : Nat) (th th' : Thread) entropy t, s.threads[j]? = some th → th.task = .start → Manages u k th.request →
      step u s (.advance j entropy) = some t → t.threads[j]? = some th' → th'.task ≠ .responding (handleNotFound k) := by
  have managed : Managed u k s :=
    alongInvariant (fun _ _ _ before allowed taken => managedStep before allowed (stepMove taken)) run
      (managedInitial u k kpsNow wsNow token)
  have owned := managed.delivered.owned
  have mapped : (s.kemToBindingMap.lookup k).isSome := by
    rcases managed.mapped (returnedTelling laws owned returned) (listedPresent laws owned listed) with mapped | undelivered
    · exact mapped
    · exact absurd (idleLeft owned idle undelivered) carried
  exact ⟨mapped,fun j th th' entropy t found fresh manages taken here =>
    lookupFinds found fresh manages mapped taken here⟩

theorem listsLive (laws : u.x.Lawful) (owned : Owned u s) (adapter : Adapter) (readings : Nat → Nat)
    (few : s.kps.entries.length ≤ 10000) {record : KeyRecord} (live : getKey s.kps s.kpsNow k = some record) :
    Listed u s adapter readings k := by
  have kinds := kpsKinds laws owned
  have size : (sortedLive s.kps s.kpsNow).length ≤ 10000 := by
    rw [sortedLive,List.length_mergeSort]
    refine (List.length_filter_le _ _).trans ?_
    rw [Table.values,List.length_map]
    exact few
  obtain ⟨info,mem,described⟩ := ((pageListsAll laws kinds.keyed s.kpsNow 10000).mpr size).complete k record live
  have id : record.id = k := (owned.kps k record (getKeyIff.mp live).1).1
  exact ⟨_,answersFirstPage laws kinds adapter s.kpsNow readings,info,mem,described.1.trans (by rw [id])⟩

end

def destroyArrives : List Label := Standin.generating 0 1 2 ++ [.arrive (Standin.destroyRequest 2)]

theorem listedManageableDestroy :
    let s := Standin.after destroyArrives
    Listed Standin.setup s .inProcess (fun _ => 0) 2 ∧ (s.kemToBindingMap.lookup 2).isSome ∧
    ∀ (th' : Thread) entropy t, step Standin.setup s (.advance 1 entropy) = some t → t.threads[1]? = some th' →
      th'.task ≠ .responding (handleNotFound 2) := by
  intro s
  have run : Along (step Standin.setup) (Spares 2) Standin.start destroyArrives s := alongGetD (by decide +kernel)
  have owned : Owned Standin.setup s := ownedReachable (Standin.afterReachable destroyArrives (by decide +kernel))
  have live : (getKey s.kps s.kpsNow 2).isSome := by decide +kernel
  obtain ⟨record,here⟩ := Option.isSome_iff_exists.mp live
  have listed : Listed Standin.setup s .inProcess (fun _ => 0) 2 :=
    listsLive Standin.lawful owned .inProcess (fun _ => 0) (by decide +kernel) here
  have tasks : s.threads.map Thread.task = [.answered (toldKey 2 (Standin.pad32 [2])),.start] := by decide +kernel
  have idle : s.Idle := by
    intro th mem
    have stage : th.task ∈ s.threads.map Thread.task := List.mem_map_of_mem mem
    rw [tasks] at stage
    rcases List.mem_cons.mp stage with same | rest
    · exact .inr ⟨_,same⟩
    · exact .inl (List.mem_singleton.mp rest)
  have returned : Returned s 2 := by
    have stage : Task.answered (toldKey 2 (Standin.pad32 [2])) ∈ s.threads.map Thread.task := by
      rw [tasks]
      exact List.mem_cons_self
    obtain ⟨th,mem,same⟩ := List.mem_map.mp stage
    exact ⟨th,mem,_,same,rfl⟩
  have carried : ¬ LeftBehind Standin.setup s 2 := by
    intro left
    obtain ⟨th,mem,_,_,waiting⟩ := left
    have calls : ∀ th ∈ s.threads, th.rpc ≠ some ⟨.destroy 2,none⟩ := by decide +kernel
    exact calls th mem waiting
  have waiting : s.threads[1]? = some ⟨Standin.destroyRequest 2,.start,none⟩ := by decide +kernel
  obtain ⟨mapped,finds⟩ := listedManageable Standin.lawful run idle listed returned carried
  have manages : Manages Standin.setup 2 (Standin.destroyRequest 2) := .inl ⟨_,rfl,by decide +kernel⟩
  exact ⟨listed,mapped,fun th' entropy t taken after =>
    finds 1 _ th' entropy t waiting rfl manages taken after⟩

def heartbeatExhausted : List Label :=
  [.beat .begins] ++ (List.replicate 7 [Label.beat .fails,.beat .timerFires]).flatten ++
    [.beat .locks,.beat .destroysAll,.beat .resets]

def destroyTimedOut : List Label :=
  Standin.generating 0 1 2 ++ [.arrive (Standin.destroyRequest 2),.advance 1 (Standin.entropy 0),.fail 1 timedOut,
    .advance 1 (Standin.entropy 0),.advance 1 (Standin.entropy 0),.advance 1 (Standin.entropy 0)]

def generateTimedOut : List Label := kemCallTimesOut ++ [.serve 0 (Standin.entropy 2)]

def ListedUnmapped (s : System) : Prop :=
  Reachable Standin.setup s ∧ s.Quiescent ∧ Listed Standin.setup s .inProcess (fun _ => 0) 2 ∧
    s.kemToBindingMap.lookup 2 = none ∧
    (Standin.onward s [.arrive (Standin.destroyRequest 2),.advance s.threads.length (Standin.entropy 0)]).threads.getLast?.map
      Thread.task = some (.responding (handleNotFound 2))

theorem listedUnmapped {ls : List Label} (answers : List Answer) (runs : (exec (step Standin.setup) Standin.start ls).isSome)
    (ends : let s := Standin.after ls
      s.threads.map Thread.task = answers.map Task.answered ∧ s.beat = .idle none ∧
      (getKey s.kps s.kpsNow 2).isSome = true ∧ s.kps.entries.length ≤ 10000 ∧ s.kemToBindingMap.lookup 2 = none ∧
      (Standin.onward s [.arrive (Standin.destroyRequest 2),.advance s.threads.length (Standin.entropy 0)]).threads.getLast?.map
        Thread.task = some (.responding (handleNotFound 2))) : ListedUnmapped (Standin.after ls) := by
  obtain ⟨tasks,idle,live,few,missing,answer⟩ := ends
  have reach := Standin.afterReachable ls runs
  obtain ⟨record,here⟩ := Option.isSome_iff_exists.mp live
  have listed := listsLive Standin.lawful (ownedReachable reach) .inProcess (fun _ => 0) few here
  exact ⟨reach,quiescentIdle tasks idle,listed,missing,answer⟩

theorem listedNotFound :
    ListedUnmapped (Standin.after (Standin.generating 0 1 2 ++ heartbeatExhausted)) ∧
    ListedUnmapped (Standin.after destroyTimedOut) ∧ ListedUnmapped (Standin.after generateTimedOut) :=
  ⟨listedUnmapped [toldKey 2 (Standin.pad32 [2])] (by decide +kernel) (by decide +kernel),
    listedUnmapped [toldKey 2 (Standin.pad32 [2]),destroyAnswer (some timedOut) none] (by decide +kernel)
      (by decide +kernel),
    listedUnmapped [writeFault "failed to generate KEM keypair: " (.error timedOut)] (by decide +kernel)
      (by decide +kernel)⟩

end KeyProtection
