import KeyProtection.Destroy

/-! Any number of destroy requests for one handle at once. Each makes two removals in two
registries, one after the other and without a lock, and joins the two errors. Each key is
removed by one request, but not always by the same one. -/
namespace KeyProtection
open Lib Lib.Run KeyRegistry

/- The KPS can be reached, neither key expires, and nothing else removes them. -/
def Calm (u : Setup) (h b : Uuid) (s : System) : Label → Prop
  | .restart _ => False
  | .beat .destroysAll => False
  | .beat .resets => False
  | .reapKps now => ∀ record, s.kps.lookup h = some record → now < record.deleteAfter
  | .reapWs now => ∀ record, s.ws.lookup b = some record → now < record.deleteAfter
  | .fail i _ => ∀ th : Thread, s.threads[i]? = some th → ¬ Destroys u h th.request
  | _ => True

def errorOf (removed : Bool) : Option GoError := if removed then none else some (.ffi .notFound)

def KemReply (h : Uuid) (removed : Bool) (th : Thread) : Prop :=
  th.rpc = some ⟨.destroy h,some (if removed then .ok .destroyed else failed (.ffi .notFound))⟩

def RemovedKem (s : System) (h : Uuid) (i : Nat) : Prop := ∃ th, s.threads[i]? = some th ∧ KemReply h true th

def RemovedBinding (s : System) (b : Uuid) (i : Nat) : Prop := (i,b) ∈ s.unbound

theorem kpsErrorNotFound (mode : Mode) (call : KpsCall) : kpsError mode call (.ffi .notFound) = .ffi .notFound := by
  unfold kpsError
  split <;> rfl

theorem destroyAnswerStatus (kem binding : Bool) :
    (destroyAnswer (errorOf kem) (errorOf binding)).status = if kem = true ∧ binding = true then 204 else 404 := by
  cases kem <;> cases binding <;> rfl

section
variable {u : Setup} {s t : System} {l : Label} {h b : Uuid} {i j : Nat} {th th' : Thread}

def BornKem (s : System) (k : Uuid) : Prop := ∃ kem ∈ s.kems, kem.record.id = k

theorem settledBornKem (settled : Settled s h b) : BornKem s h := by
  obtain ⟨kem,mem,_,_,id,_⟩ := settled
  exact ⟨kem,mem,id⟩

theorem calmKps (move : Move u s l t) (calm : Calm u h b s l) (born : BornKem s h) :
    t.kps.lookup h = s.kps.lookup h ∨
      (t.kps.lookup h = none ∧ ((s.kps.lookup h).isSome → ∃ i, RemovedKem t h i)) := by
  cases move with
  | kemMade found sent unused bound decoded created spec =>
    obtain ⟨kem,mem,id⟩ := born
    left
    simp only [addKey,Table.lookupInsert]
    split
    · rename_i same
      exact absurd (List.mem_map.mpr ⟨kem,mem,id.trans same⟩) unused.1
    · rfl
  | @kemDestroyed i th entropy kemUUID found sent =>
    simp only [Table.lookupErase]
    split
    · rename_i same
      subst same
      refine .inr ⟨rfl,fun present => ⟨i,_,(getPut found i).trans (if_pos rfl),?_⟩⟩
      simp only [KemReply,present]
    · exact .inl rfl
  | reapedKps past =>
    left
    cases here : s.kps.lookup h with
    | none => simp only [reap,Table.lookupRetain,here,Option.filter_none]
    | some record => exact reapKeeps here (calm record here)
  | restarted given unused => exact calm.elim
  | _ => exact .inl rfl

theorem calmWs (move : Move u s l t) (calm : Calm u h b s l) (born : Born s b) :
    (t.ws.lookup b = s.ws.lookup b ∧ ∀ i, (i,b) ∈ t.unbound ↔ (i,b) ∈ s.unbound) ∨
    ∃ i entropy th k errKps, l = .advance i entropy ∧ s.threads[i]? = some th ∧
      th.task = .destroyBinding k b errKps ∧
      t.threads[i]? = some (th.goto (.destroyUnmapping k b errKps
        (if (s.ws.lookup b).isSome then none else some (.ffi .notFound)))) ∧ t.ws.lookup b = none ∧
      t.unbound = (if (s.ws.lookup b).isSome then [(i,b)] else []) ++ s.unbound := by
  cases move with
  | bindingMade found fresh request planned unused decoded created spec =>
    obtain ⟨binding,mem,id⟩ := born
    refine .inl ⟨?_,fun _ => Iff.rfl⟩
    simp only [addKey,Table.lookupInsert]
    split
    · rename_i same
      exact absurd (List.mem_map.mpr ⟨binding,mem,id.trans same⟩) unused.2
    · rfl
  | @bindingDestroyed i th entropy kemUUID bindingUUID errKps found stage =>
    by_cases same : b = bindingUUID
    · subst same
      exact .inr ⟨i,entropy,th,kemUUID,errKps,rfl,found,stage,(getPut found i).trans (if_pos rfl),
        AList.lookup_erase b s.ws,rfl⟩
    · refine .inl ⟨AList.lookup_erase_ne same,fun j => ?_⟩
      simp only [List.mem_append]
      refine ⟨fun mem => ?_,.inr⟩
      rcases mem with new | old
      · split at new
        · cases List.mem_singleton.mp new
          contradiction
        · contradiction
      · exact old
  | reapedWs past =>
    refine .inl ⟨?_,fun _ => Iff.rfl⟩
    cases here : s.ws.lookup b with
    | none => simp only [reap,Table.lookupRetain,here,Option.filter_none]
    | some record => exact reapKeeps here (calm record here)
  | purged stage => exact calm.elim
  | _ => exact .inl ⟨rfl,fun _ => Iff.rfl⟩

theorem removedKemBefore (move : Move u s l t) (removed : RemovedKem t h i) :
    RemovedKem s h i ∨ (t.kps = s.kps.erase h ∧ (s.kps.lookup h).isSome ∧ ∃ entropy, l = .serve i entropy) := by
  obtain ⟨th',here,replied⟩ := removed
  rcases threadBefore move here with ⟨request,_,new⟩ | old | ⟨th,found,moved⟩
  · rw [new] at replied
    contradiction
  · exact .inl ⟨th',old,replied⟩
  · cases moved with
    | quiet taken same =>
      have kept : th'.rpc = th.rpc ∨ ∃ call, th'.rpc = some ⟨call,none⟩ := by
        cases taken <;> first | exact .inl rfl | exact .inr ⟨_,rfl⟩
      rcases kept with kept | ⟨call,kept⟩
      · exact .inl ⟨th,found,kept.symm.trans replied⟩
      · simp [KemReply,kept] at replied
    | making label fresh request born ws => simp [KemReply,Thread.call] at replied
    | replied label sent reads destroys =>
      rename_i entropy call reply
      have same := Option.some.inj replied
      obtain ⟨kps,outcome⟩ := destroys h (congrArg Rpc.call same)
      have won : some reply = some (.ok .destroyed) := congrArg Rpc.reply same
      rw [outcome] at won
      split at won <;> try contradiction
      rename_i present
      exact .inr ⟨kps,present,entropy,label⟩
    | storing label at_ map => exact .inl ⟨th,found,replied⟩
    | unbinding label at_ ws log => exact .inl ⟨th,found,replied⟩
    | unmapping label at_ map => exact .inl ⟨th,found,replied⟩

instance (h : Uuid) (removed : Bool) (th : Thread) : Decidable (KemReply h removed th) := by
  unfold KemReply; infer_instance

def RaceStage (s : System) (h b : Uuid) (j : Nat) (th : Thread) : Task → Prop
  | .start => th.rpc = none ∧ (j,b) ∉ s.unbound
  | .destroyCalling k c => k = h ∧ c = b ∧ (j,b) ∉ s.unbound ∧
      (th.rpc = some ⟨.destroy h,none⟩ ∨ ∃ removed, KemReply h removed th ∧ s.kps.lookup h = none)
  | .destroyBinding k c errKps => k = h ∧ c = b ∧ (j,b) ∉ s.unbound ∧ s.kps.lookup h = none ∧
      ∃ removed, KemReply h removed th ∧ errKps = errorOf removed
  | .destroyUnmapping k c errKps errWs => k = h ∧ c = b ∧ s.kps.lookup h = none ∧ s.ws.lookup b = none ∧
      ∃ removed, KemReply h removed th ∧ errKps = errorOf removed ∧ errWs = errorOf (decide ((j,b) ∈ s.unbound))
  | .responding a => s.kps.lookup h = none ∧ s.ws.lookup b = none ∧ (th.rpc = none ∨ ∃ removed, KemReply h removed th) ∧
      a.status = if KemReply h true th ∧ (j,b) ∈ s.unbound then 204 else 404
  | .answered a => s.kps.lookup h = none ∧ s.ws.lookup b = none ∧ (th.rpc = none ∨ ∃ removed, KemReply h removed th) ∧
      a.status = if KemReply h true th ∧ (j,b) ∈ s.unbound then 204 else 404
  | _ => False

structure KemRace (h : Uuid) (s : System) : Prop where
  held : (s.kps.lookup h).isSome → ∀ i, ¬ RemovedKem s h i
  gone : s.kps.lookup h = none → ∃ i, RemovedKem s h i
  once : ∀ i j, RemovedKem s h i → RemovedKem s h j → i = j

structure BindingRace (u : Setup) (h b : Uuid) (s : System) : Prop where
  held : (s.ws.lookup b).isSome → ∀ i, ¬ RemovedBinding s b i
  gone : s.ws.lookup b = none → ∃ i, RemovedBinding s b i
  once : ∀ i j, RemovedBinding s b i → RemovedBinding s b j → i = j
  removers : ∀ i, RemovedBinding s b i → ∃ th, s.threads[i]? = some th ∧ Destroys u h th.request

structure Racing (u : Setup) (h b : Uuid) (s : System) : Prop where
  owned : Owned u s
  settled : Settled s h b
  kem : KemRace h s
  binding : BindingRace u h b s
  mapped : s.kemToBindingMap.lookup h = none → s.kps.lookup h = none ∧ s.ws.lookup b = none
  racers : ∀ (j : Nat) (th : Thread), s.threads[j]? = some th → Destroys u h th.request → RaceStage s h b j th th.task

theorem raceStageKeeps {task : Task} (kps : s.kps.lookup h = none → t.kps.lookup h = none)
    (ws : s.ws.lookup b = none → t.ws.lookup b = none) (log : (j,b) ∈ t.unbound ↔ (j,b) ∈ s.unbound)
    (stage : RaceStage s h b j th task) : RaceStage t h b j th task := by
  cases task with
  | start => exact ⟨stage.1,log.not.mpr stage.2⟩
  | destroyCalling k c =>
    obtain ⟨handle,binding,unlogged,rest⟩ := stage
    refine ⟨handle,binding,log.not.mpr unlogged,?_⟩
    rcases rest with waiting | ⟨removed,reply,gone⟩
    · exact .inl waiting
    · exact .inr ⟨removed,reply,kps gone⟩
  | destroyBinding k c errKps =>
    obtain ⟨handle,binding,unlogged,gone,rest⟩ := stage
    exact ⟨handle,binding,log.not.mpr unlogged,kps gone,rest⟩
  | destroyUnmapping k c errKps errWs =>
    obtain ⟨handle,binding,kemGone,bindingGone,rest⟩ := stage
    refine ⟨handle,binding,kps kemGone,ws bindingGone,?_⟩
    simpa only [log] using rest
  | responding a =>
    obtain ⟨kemGone,bindingGone,rest⟩ := stage
    refine ⟨kps kemGone,ws bindingGone,?_⟩
    simpa only [log] using rest
  | answered a =>
    obtain ⟨kemGone,bindingGone,rest⟩ := stage
    refine ⟨kps kemGone,ws bindingGone,?_⟩
    simpa only [log] using rest
  | _ => exact stage.elim

theorem mappedBefore (move : Move u s l t) (calm : Calm u h b s l) (gone : t.kemToBindingMap.lookup h = none) :
    s.kemToBindingMap.lookup h = none ∨ ∃ (i : Nat) (th : Thread) (c : Uuid) (errKps errWs : Option GoError),
      s.threads[i]? = some th ∧ th.task = .destroyUnmapping h c errKps errWs := by
  cases move with
  | stored found stage free =>
    simp only [Table.lookupInsert] at gone
    split at gone <;> try contradiction
    exact .inl gone
  | unmapped found stage free =>
    simp only [Table.lookupErase] at gone
    split at gone
    · rename_i same
      subst same
      exact .inr ⟨_,_,_,_,_,found,stage⟩
    · exact .inl gone
  | reset stage => exact calm.elim
  | _ => exact .inl gone

theorem raceOutcome {result} (racing : Racing u h b s) (found : s.threads[j]? = some th)
    (destroys : Destroys u h th.request) (calm : Calm u h b s l) (origin : Outcome u s j th l result)
    {k c : Uuid} (stage : th.task = .destroyCalling k c) :
    ∃ removed, KemReply h removed th ∧ s.kps.lookup h = none ∧
      result = if removed then .ok .destroyed else failed (.ffi .notFound) := by
  have before := racing.racers j th found destroys
  rw [stage] at before
  obtain ⟨_,_,_,rest⟩ := before
  cases origin with
  | received own =>
    rcases rest with waiting | ⟨removed,reply,gone⟩
    · rw [waiting] at own
      simp at own
    · refine ⟨removed,reply,gone,?_⟩
      rw [KemReply] at reply
      cases Option.some.inj (reply.symm.trans own)
      cases removed with
      | true => rfl
      | false => exact congrArg (fun err => Except.error (GoFault.error err)) (kpsErrorNotFound u.mode _)
  | replayed _ _ _ waiting =>
    rw [stage] at waiting
    contradiction
  | timedOut err => exact absurd destroys (calm th found)

theorem raceStageQuiet (racing : Racing u h b s) (found : s.threads[j]? = some th)
    (destroys : Destroys u h th.request) (calm : Calm u h b s l) (taken : Quiet u s j th l th') :
    RaceStage s h b j th' th'.task := by
  have before := racing.racers j th found destroys
  obtain ⟨body,request,parsed⟩ := destroys
  cases taken with
  | refused fresh why =>
    rw [request] at why
    cases why with
    | destroy bad => exact (nomatch parsed.symm.trans bad)
  | destroyFound fresh request' parsed' free mapped =>
    cases Request.destroy.inj (request.symm.trans request')
    cases Except.ok.inj (parsed.symm.trans parsed')
    rw [fresh] at before
    have binding := settledBinding racing.owned (racing.owned.map _ _ mapped) racing.settled
    exact ⟨rfl,binding,before.2,.inl rfl⟩
  | destroyMissing fresh request' parsed' free missing =>
    cases Request.destroy.inj (request.symm.trans request')
    cases Except.ok.inj (parsed.symm.trans parsed')
    rw [fresh] at before
    have gone := racing.mapped missing
    have unlogged : ¬ (KemReply h true (th.respond (handleNotFound h)) ∧ (j,b) ∈ s.unbound) :=
      fun both => before.2 both.2
    exact ⟨gone.1,gone.2,.inl before.1,by rw [if_neg unlogged]; rfl⟩
  | answered stage =>
    rw [stage] at before
    exact before
  | resumed origin next =>
    have resumes := resumption next
    generalize stage : th.task = task at before resumes
    cases resumes with
    | destroyed =>
      obtain ⟨removed,reply,gone,same⟩ := raceOutcome racing found ⟨body,request,parsed⟩ calm origin stage
      cases removed with
      | true => exact ⟨before.1,before.2.1,before.2.2.1,gone,true,reply,rfl⟩
      | false => exact (nomatch same)
    | undestroyed =>
      obtain ⟨removed,reply,gone,same⟩ := raceOutcome racing found ⟨body,request,parsed⟩ calm origin stage
      cases removed with
      | true => exact (nomatch same)
      | false =>
        cases same
        exact ⟨before.1,before.2.1,before.2.2.1,gone,false,reply,rfl⟩
    | faulted ends failure => cases task <;> contradiction
    | _ => exact before.elim
  | opened stage =>
    rw [stage] at before
    exact before.elim
  | claimed stage =>
    rw [stage] at before
    exact before.elim
  | notMade _ request' _ => exact (nomatch request.symm.trans request')
  | decapsFound _ request' _ _ _ => exact (nomatch request.symm.trans request')
  | decapsMissing _ request' _ _ _ => exact (nomatch request.symm.trans request')
  | enumerating _ request' => exact (nomatch request.symm.trans request')
  | claimsSent _ request' _ => exact (nomatch request.symm.trans request')
  | claimsFound _ request' _ _ _ => exact (nomatch request.symm.trans request')
  | claimsMissing _ request' _ => exact (nomatch request.symm.trans request')
  | kpsClaims _ request' => exact (nomatch request.symm.trans request')

theorem raceStageReplied {call reply} (racing : Racing u h b s) (found : s.threads[j]? = some th)
    (destroys : Destroys u h th.request) (sent : th.rpc = some ⟨call,none⟩)
    (outcome : ∀ k, call = .destroy k → t.kps = s.kps.erase k ∧
      reply = if (s.kps.lookup k).isSome then .ok .destroyed else failed (.ffi .notFound))
    (log : (j,b) ∈ t.unbound ↔ (j,b) ∈ s.unbound) :
    RaceStage t h b j {th with rpc := some ⟨call,some reply⟩} th.task := by
  have before := racing.racers j th found destroys
  have unserved : ∀ removed, ¬ KemReply h removed th := by
    intro removed same
    simp [KemReply,sent] at same
  generalize th.task = task at before
  cases task with
  | start => exact (nomatch sent.symm.trans before.1)
  | destroyCalling k c =>
    obtain ⟨handle,binding,unlogged,rest⟩ := before
    refine ⟨handle,binding,log.not.mpr unlogged,.inr ?_⟩
    rcases rest with waiting | ⟨removed,same,_⟩
    · cases Option.some.inj (sent.symm.trans waiting)
      obtain ⟨kps,told⟩ := outcome h rfl
      refine ⟨(s.kps.lookup h).isSome,?_,by rw [kps,Table.lookupErase,if_pos rfl]⟩
      rw [KemReply,told]
    · exact absurd same (unserved removed)
  | destroyBinding k c errKps =>
    obtain ⟨_,_,_,_,removed,same,_⟩ := before
    exact absurd same (unserved removed)
  | destroyUnmapping k c errKps errWs =>
    obtain ⟨_,_,_,_,removed,same,_⟩ := before
    exact absurd same (unserved removed)
  | responding a =>
    obtain ⟨_,_,silent | ⟨removed,same⟩,_⟩ := before
    · exact (nomatch sent.symm.trans silent)
    · exact absurd same (unserved removed)
  | answered a =>
    obtain ⟨_,_,silent | ⟨removed,same⟩,_⟩ := before
    · exact (nomatch sent.symm.trans silent)
    · exact absurd same (unserved removed)
  | _ => exact before.elim

theorem kemRaceStep (race : KemRace h s) (grows : Grows s t) (calm : Calm u h b s l) (born : BornKem s h)
    (move : Move u s l t) : KemRace h t := by
  have kem := calmKps move calm born
  refine ⟨fun held i removed => ?_,fun gone => ?_,fun i j left right => ?_⟩
  · rcases kem with same | ⟨none,_⟩
    · rw [same] at held
      rcases removedKemBefore move removed with old | ⟨erased,_,_⟩
      · exact race.held held i old
      · rw [erased,Table.lookupErase,if_pos rfl] at same
        rw [← same] at held
        contradiction
    · rw [none] at held
      contradiction
  · cases here : s.kps.lookup h with
    | none =>
      obtain ⟨i,th,found,reply⟩ := race.gone here
      obtain ⟨th',there,follows⟩ := grows.threads i th found
      exact ⟨i,th',there,follows.replied _ _ reply⟩
    | some record =>
      rcases kem with same | ⟨_,remover⟩
      · rw [gone,here] at same
        contradiction
      · exact remover (by rw [here]; rfl)
  · rcases removedKemBefore move left with old | ⟨_,held,entropy,label⟩
    · rcases removedKemBefore move right with old' | ⟨_,held,_,_⟩
      · exact race.once i j old old'
      · exact absurd old (race.held held i)
    · rcases removedKemBefore move right with old' | ⟨_,_,entropy',label'⟩
      · exact absurd old' (race.held held j)
      · rw [label] at label'
        exact (Label.serve.inj label').1

theorem bindingDestroyer {k errKps} (owned : Owned u s) (settled : Settled s h b) (found : s.threads[i]? = some th)
    (stage : th.task = .destroyBinding k b errKps) : Destroys u h th.request := by
  have task := (owned.threads i th found).task
  rw [stage] at task
  exact settledKem owned task.1 settled ▸ task.2

theorem bindingRaceStep (race : BindingRace u h b s) (owned : Owned u s) (settled : Settled s h b)
    (grows : Grows s t) (calm : Calm u h b s l) (move : Move u s l t) : BindingRace u h b t := by
  have kept : ∀ i : Nat, (∃ th : Thread, s.threads[i]? = some th ∧ Destroys u h th.request) →
      ∃ th : Thread, t.threads[i]? = some th ∧ Destroys u h th.request := by
    intro i there
    obtain ⟨th,found,destroys⟩ := there
    obtain ⟨th',found',follows⟩ := grows.threads i th found
    exact ⟨th',found',follows.request ▸ destroys⟩
  rcases calmWs move calm (settledBorn settled) with ⟨same,log⟩ | ⟨i,_,th,k,errKps,_,found,stage,_,gone,log⟩
  · exact ⟨fun held i removed => race.held (same ▸ held) i ((log i).mp removed),
      fun gone => (race.gone (same ▸ gone)).imp (fun i removed => (log i).mpr removed),
      fun i j left right => race.once i j ((log i).mp left) ((log j).mp right),
      fun i removed => kept i (race.removers i ((log i).mp removed))⟩
  · have mover := kept i ⟨th,found,bindingDestroyer owned settled found stage⟩
    cases here : s.ws.lookup b with
    | none =>
      have same : t.unbound = s.unbound := by simpa [here] using log
      refine ⟨fun held => by simp [gone] at held,fun _ => ?_,?_,?_⟩
      · simpa only [RemovedBinding,same] using race.gone here
      · simpa only [RemovedBinding,same] using race.once
      · intro j removed
        rw [RemovedBinding,same] at removed
        exact kept j (race.removers j removed)
    | some record =>
      have same : t.unbound = (i,b) :: s.unbound := by simpa [here] using log
      have only : ∀ j, RemovedBinding t b j → j = i := by
        intro j removed
        rw [RemovedBinding,same] at removed
        rcases List.mem_cons.mp removed with new | old
        · exact congrArg Prod.fst new
        · exact absurd old (race.held (by rw [here]; rfl) j)
      refine ⟨fun held => by simp [gone] at held,fun _ => ⟨i,?_⟩,fun j m left right => ?_,fun j removed => ?_⟩
      · rw [RemovedBinding,same]
        exact List.mem_cons_self
      · rw [only j left,only m right]
      · rw [only j removed]
        exact mover

theorem logKept (calm : Calm u h b s l) (born : Born s b) (move : Move u s l t) (old : s.threads[j]? = some th)
    (idle : (∀ k errKps, th.task ≠ .destroyBinding k b errKps) ∨ t.threads[j]? = some th) :
    (j,b) ∈ t.unbound ↔ (j,b) ∈ s.unbound := by
  rcases calmWs move calm born with ⟨_,log⟩ | ⟨i,_,mover,k,errKps,_,found,stage,there,_,log⟩
  · exact log j
  · have other : j ≠ i := by
      intro same
      subst same
      cases Option.some.inj (old.symm.trans found)
      rcases idle with elsewhere | new
      · exact elsewhere k errKps stage
      · have task := congrArg Thread.task (Option.some.inj (new.symm.trans there))
        rw [stage] at task
        contradiction
    rw [log,List.mem_append]
    refine ⟨fun mem => ?_,.inr⟩
    rcases mem with added | kept
    · split at added
      · exact absurd (congrArg Prod.fst (List.mem_singleton.mp added)) other
      · contradiction
    · exact kept

theorem kemReplyOnce {left right : Bool} (first : KemReply h left th) (second : KemReply h right th) :
    left = right := by
  have same := congrArg Rpc.reply (Option.some.inj (first.symm.trans second))
  cases left <;> cases right <;> simp [failed] at same ⊢

theorem raceStageMoved (racing : Racing u h b s) (calm : Calm u h b s l) (move : Move u s l t)
    (kpsNone : s.kps.lookup h = none → t.kps.lookup h = none) (wsNone : s.ws.lookup b = none → t.ws.lookup b = none)
    (found : s.threads[j]? = some th) (destroys : Destroys u h th.request) (moved : Moved u s l t j th th') :
    RaceStage t h b j th' th'.task := by
  have before := racing.racers j th found destroys
  have log := logKept calm (settledBorn racing.settled) move found
  cases moved with
  | quiet taken same =>
    have unlogged : (j,b) ∈ t.unbound ↔ (j,b) ∈ s.unbound := same ▸ Iff.rfl
    exact raceStageKeeps kpsNone wsNone unlogged (raceStageQuiet racing found destroys calm taken)
  | making label fresh request born ws =>
    obtain ⟨body,request',_⟩ := destroys
    exact (nomatch request.symm.trans request')
  | replied label sent reads outcome =>
    refine raceStageReplied racing found destroys sent outcome (log (.inl (fun k errKps stage => ?_)))
    rw [stage] at before
    obtain ⟨_,_,_,_,removed,reply,_⟩ := before
    simp [KemReply,sent] at reply
  | storing label stage map =>
    rw [stage] at before
    exact before.elim
  | unbinding label stage ws added =>
    rw [stage] at before
    obtain ⟨handle,binding,unlogged,gone,removed,reply,err⟩ := before
    subst binding
    rename_i bindingUUID _
    have mine : decide ((j,bindingUUID) ∈ t.unbound) = (s.ws.lookup bindingUUID).isSome := by
      rw [added]
      cases (s.ws.lookup bindingUUID).isSome <;> simp [unlogged]
    refine ⟨handle,rfl,kpsNone gone,by rw [ws,Table.lookupErase,if_pos rfl],removed,reply,err,?_⟩
    rw [mine]
    rfl
  | unmapping label stage map =>
    rw [stage] at before
    obtain ⟨handle,binding,kemGone,bindingGone,removed,reply,errKps,errWs⟩ := before
    have same := log (.inl (fun k errKps other => by rw [stage] at other; contradiction))
    refine ⟨kpsNone kemGone,wsNone bindingGone,.inr ⟨removed,reply⟩,?_⟩
    rw [errKps,errWs,destroyAnswerStatus]
    have won : KemReply h true (th.respond (destroyAnswer (errorOf removed)
        (errorOf (decide ((j,b) ∈ s.unbound))))) ↔ removed = true :=
      ⟨fun told => kemReplyOnce reply told,fun same => same ▸ reply⟩
    simp only [won,same,decide_eq_true_eq]

theorem raceStep (racing : Racing u h b s) (calm : Calm u h b s l) (move : Move u s l t) : Racing u h b t := by
  have grows := ownedGrows racing.owned move
  have kpsNone : s.kps.lookup h = none → t.kps.lookup h = none := by
    intro gone
    rcases calmKps move calm (settledBornKem racing.settled) with same | ⟨none,_⟩
    · exact same.trans gone
    · exact none
  have wsNone := goneForever move (settledBorn racing.settled)
  refine ⟨ownedStep racing.owned move,settledGrows grows racing.settled,
    kemRaceStep racing.kem grows calm (settledBornKem racing.settled) move,
    bindingRaceStep racing.binding racing.owned racing.settled grows calm move,fun gone => ?_,
    fun j th' here destroys => ?_⟩
  · rcases mappedBefore move calm gone with old | ⟨i,th,c,errKps,errWs,found,stage⟩
    · have both := racing.mapped old
      exact ⟨kpsNone both.1,wsNone both.2⟩
    · have task := (racing.owned.threads i th found).task
      rw [stage] at task
      have before := racing.racers i th found task.2
      rw [stage] at before
      exact ⟨kpsNone before.2.2.1,wsNone before.2.2.2.1⟩
  · rcases threadBefore move here with ⟨request,last,new⟩ | old | ⟨th,found,moved⟩
    · have outside : ∀ th, s.threads[j]? ≠ some th := by
        intro th there
        have bound := (List.getElem?_eq_some_iff.mp there).1
        omega
      subst new
      refine ⟨rfl,fun logged => ?_⟩
      rcases calmWs move calm (settledBorn racing.settled) with ⟨_,log⟩ | ⟨i,_,mover,_,_,_,found,_,_,_,log⟩
      · obtain ⟨th,there,_⟩ := racing.binding.removers j ((log j).mp logged)
        exact outside th there
      · rw [log,List.mem_append] at logged
        rcases logged with added | kept
        · split at added
          · cases List.mem_singleton.mp added
            exact outside mover found
          · contradiction
        · obtain ⟨th,there,_⟩ := racing.binding.removers j kept
          exact outside th there
    · exact raceStageKeeps kpsNone wsNone (logKept calm (settledBorn racing.settled) move old (.inr here))
        (racing.racers j th' old destroys)
    · exact raceStageMoved racing calm move kpsNone wsNone found (movedRequest moved ▸ destroys) moved

def Removals (u : Setup) (s : System) : Prop :=
  Owned u s ∧ ∀ i b, (i,b) ∈ s.unbound → Born s b ∧ s.ws.lookup b = none

theorem removalsStep (before : Removals u s) (move : Move u s l t) : Removals u t := by
  obtain ⟨owned,gone⟩ := before
  have grows := ownedGrows owned move
  have kept : ∀ b, Born s b ∧ s.ws.lookup b = none → Born t b ∧ t.ws.lookup b = none := by
    intro b old
    obtain ⟨⟨birth,mem,id⟩,none⟩ := old
    exact ⟨⟨birth,grows.bindings birth mem,id⟩,goneForever move ⟨birth,mem,id⟩ none⟩
  refine ⟨ownedStep owned move,fun i b logged => ?_⟩
  cases move with
  | @bindingDestroyed j th entropy kemUUID bindingUUID errKps found stage =>
    simp only [List.mem_append] at logged
    rcases logged with added | old
    · split at added
      · have task := (owned.threads j th found).task
        rw [stage] at task
        rw [(Prod.mk.inj (List.mem_singleton.mp added)).2]
        obtain ⟨birth,mem,id⟩ := settledBorn task.1
        exact ⟨⟨birth,mem,id⟩,AList.lookup_erase bindingUUID s.ws⟩
      · contradiction
    · exact kept b (gone i b old)
  | _ => exact kept b (gone i b logged)

theorem removalsReachable (reach : Reachable u s) : Removals u s := by
  obtain ⟨kpsNow,wsNow,token,_,run⟩ := reach
  have start : Removals u (System.initial kpsNow wsNow token) :=
    ⟨ownedInitial u kpsNow wsNow token,fun i b logged => (List.not_mem_nil logged).elim⟩
  exact reachableInvariant start (fun _ _ _ before taken => removalsStep before (stepMove taken)) run

theorem raceStart (reach : Reachable u s) (mapped : s.kemToBindingMap.lookup h = some b)
    (kem : (s.kps.lookup h).isSome) (binding : (s.ws.lookup b).isSome)
    (alone : ∀ (j : Nat) (th : Thread), s.threads[j]? = some th → ¬ Destroys u h th.request) : Racing u h b s := by
  have owned := ownedReachable reach
  have unlogged : ∀ i, (i,b) ∉ s.unbound := by
    intro i logged
    rw [((removalsReachable reach).2 i b logged).2] at binding
    contradiction
  have nobody : ∀ i, ¬ RemovedKem s h i := by
    intro i removed
    obtain ⟨th,found,reply⟩ := removed
    exact alone i th found ((owned.threads i th found).destroys h _ reply)
  refine ⟨owned,owned.map h b mapped,⟨fun _ => nobody,fun gone => ?_,fun i _ left _ => absurd left (nobody i)⟩,
    ⟨fun _ => unlogged,fun gone => ?_,fun i _ left _ => absurd left (unlogged i),
      fun i removed => absurd removed (unlogged i)⟩,fun gone => ?_,fun j th found destroys => ?_⟩
  · rw [gone] at kem
    contradiction
  · rw [gone] at binding
    contradiction
  · rw [gone] at mapped
    contradiction
  · exact absurd destroys (alone j th found)

/- Any number of requests: the threads of the last state that destroy h. The first lookup
fails for a request that comes after another has removed the mapping; that is a 404 too. -/
theorem destroyRace {ls : List Label} (reach : Reachable u s) (mapped : s.kemToBindingMap.lookup h = some b)
    (kem : (s.kps.lookup h).isSome) (binding : (s.ws.lookup b).isSome)
    (alone : ∀ (j : Nat) (th : Thread), s.threads[j]? = some th → ¬ Destroys u h th.request)
    (run : Along (step u) (Calm u h b) s ls t)
    (asked : ∃ (j : Nat) (th : Thread), t.threads[j]? = some th ∧ Destroys u h th.request)
    (all : ∀ (j : Nat) (th : Thread), t.threads[j]? = some th → Destroys u h th.request → ∃ a, th.task = .answered a) :
    ∃ i j, (∃ th, t.threads[i]? = some th ∧ Destroys u h th.request ∧ KemReply h true th) ∧
      (∀ (m : Nat) (th : Thread), t.threads[m]? = some th → KemReply h true th → m = i) ∧
      (∃ th, t.threads[j]? = some th ∧ Destroys u h th.request ∧ (j,b) ∈ t.unbound) ∧
      (∀ m, (m,b) ∈ t.unbound → m = j) ∧
      ∀ (m : Nat) (th : Thread) (a : Answer), t.threads[m]? = some th → Destroys u h th.request →
        th.task = .answered a → a.status = if m = i ∧ m = j then 204 else 404 := by
  have racing := alongInvariant (fun _ _ _ before calm taken => raceStep before calm (stepMove taken)) run
    (raceStart reach mapped kem binding alone)
  have ended : ∀ (m : Nat) (th : Thread) (a : Answer), t.threads[m]? = some th → Destroys u h th.request →
      th.task = .answered a → RaceStage t h b m th (.answered a) := by
    intro m th a here destroys task
    have stage := racing.racers m th here destroys
    rw [task] at stage
    exact stage
  obtain ⟨m,th,here,destroys⟩ := asked
  obtain ⟨a,task⟩ := all m th here destroys
  obtain ⟨kemGone,bindingGone,_,_⟩ := ended m th a here destroys task
  obtain ⟨i,first,there,reply⟩ := racing.kem.gone kemGone
  obtain ⟨j,removed⟩ := racing.binding.gone bindingGone
  obtain ⟨second,there',destroys'⟩ := racing.binding.removers j removed
  have onlyKem : ∀ (m : Nat) (th : Thread), t.threads[m]? = some th → KemReply h true th → m = i :=
    fun m th here told => racing.kem.once m i ⟨th,here,told⟩ ⟨first,there,reply⟩
  have onlyBinding : ∀ m, (m,b) ∈ t.unbound → m = j := fun m logged => racing.binding.once m j logged removed
  refine ⟨i,j,⟨first,there,(racing.owned.threads i first there).destroys h _ reply,reply⟩,onlyKem,
    ⟨second,there',destroys',removed⟩,onlyBinding,fun m th a here destroys task => ?_⟩
  obtain ⟨_,_,_,status⟩ := ended m th a here destroys task
  have won : (KemReply h true th ∧ (m,b) ∈ t.unbound) ↔ (m = i ∧ m = j) := by
    refine ⟨fun both => ⟨onlyKem m th here both.1,onlyBinding m both.2⟩,fun both => ?_⟩
    obtain ⟨left,right⟩ := both
    subst left
    cases Option.some.inj (here.symm.trans there)
    exact ⟨reply,right ▸ removed⟩
  rw [status]
  simp only [won]

end

def Label.handles : Label → Bool
  | .arrive _ => true
  | .advance _ _ => true
  | .serve _ _ => true
  | .receive _ => true
  | _ => false

theorem calmHandles {u h b} {ls : List Label} (handles : ls.all Label.handles = true) :
    ∀ l ∈ ls, ∀ s, Calm u h b s l := by
  intro l mem s
  have kind := List.all_eq_true.mp handles l mem
  cases l <;> trivial

def Thread.status (th : Thread) : Option Nat :=
  match th.task with
  | .answered a => some a.status
  | _ => none

theorem statusAnswered {th : Thread} {code : Nat} (status : th.status = some code) :
    ∃ a, th.task = .answered a ∧ a.status = code := by
  unfold Thread.status at status
  split at status <;> try contradiction
  rename_i a task
  exact ⟨a,task,Option.some.inj status⟩

theorem generatesOnly {s : System} {h : Uuid} (requests : s.threads.map Thread.request = [Standin.generateRequest]) :
    ∀ (j : Nat) (th : Thread), s.threads[j]? = some th → ¬ Destroys Standin.setup h th.request := by
  intro j th found destroys
  have mem : th.request ∈ s.threads.map Thread.request :=
    List.mem_map.mpr ⟨th,List.mem_of_getElem? found,rfl⟩
  rw [requests] at mem
  obtain ⟨body,request,_⟩ := destroys
  exact (nomatch (List.mem_singleton.mp mem).symm.trans request)

def destroysInTurn : List Label :=
  [.arrive (Standin.destroyRequest 2),.arrive (Standin.destroyRequest 2),.advance 1 (Standin.entropy 0),
    .serve 1 (Standin.entropy 0),.receive 1,.advance 1 (Standin.entropy 0),.advance 1 (Standin.entropy 0),
    .advance 1 (Standin.entropy 0),.advance 2 (Standin.entropy 0),.advance 2 (Standin.entropy 0)]

/- The KPS serves the first one first, and the second one is first at the binding key. -/
def destroysCrossing : List Label :=
  [.arrive (Standin.destroyRequest 2),.arrive (Standin.destroyRequest 2),.advance 1 (Standin.entropy 0),
    .advance 2 (Standin.entropy 0),.serve 1 (Standin.entropy 0),.serve 2 (Standin.entropy 0),.receive 1,.receive 2,
    .advance 2 (Standin.entropy 0),.advance 1 (Standin.entropy 0),.advance 1 (Standin.entropy 0),
    .advance 2 (Standin.entropy 0),.advance 1 (Standin.entropy 0),.advance 2 (Standin.entropy 0)]

theorem destroyRaceInTurn :
    let s := Standin.after (Standin.generating 0 1 2)
    let t := Standin.onward s destroysInTurn
    t.threads.map Thread.status = [some 200,some 204,some 404] ∧
    ∃ i j, (∃ th, t.threads[i]? = some th ∧ Destroys Standin.setup 2 th.request ∧ KemReply 2 true th) ∧
      (∀ (m : Nat) (th : Thread), t.threads[m]? = some th → KemReply 2 true th → m = i) ∧
      (∃ th, t.threads[j]? = some th ∧ Destroys Standin.setup 2 th.request ∧ (j,1) ∈ t.unbound) ∧
      (∀ m, (m,1) ∈ t.unbound → m = j) ∧
      ∀ (m : Nat) (th : Thread) (a : Answer), t.threads[m]? = some th → Destroys Standin.setup 2 th.request →
        th.task = .answered a → a.status = if m = i ∧ m = j then 204 else 404 := by
  intro s t
  have statuses : t.threads.map Thread.status = [some 200,some 204,some 404] := by decide +kernel
  have second : t.threads[1]?.map Thread.request = some (Standin.destroyRequest 2) := by decide +kernel
  have asked : ∃ (j : Nat) (th : Thread), t.threads[j]? = some th ∧ Destroys Standin.setup 2 th.request := by
    obtain ⟨th,found,request⟩ := Option.map_eq_some_iff.mp second
    exact ⟨1,th,found,_,request,by decide +kernel⟩
  have all : ∀ (j : Nat) (th : Thread), t.threads[j]? = some th → Destroys Standin.setup 2 th.request →
      ∃ a, th.task = .answered a := by
    intro j th found _
    have mem : th.status ∈ t.threads.map Thread.status := List.mem_map.mpr ⟨th,List.mem_of_getElem? found,rfl⟩
    rw [statuses] at mem
    simp only [List.mem_cons,List.not_mem_nil,or_false] at mem
    rcases mem with code | code | code <;> exact (statusAnswered code).imp (fun _ h => h.1)
  exact ⟨statuses,destroyRace (Standin.afterReachable _ (by decide +kernel)) (by decide +kernel) (by decide +kernel)
    (by decide +kernel) (generatesOnly (by decide +kernel))
    (alongAlways (Standin.onwardSteps (by decide +kernel)) (calmHandles (by decide +kernel))) asked all⟩

theorem destroyRaceNoWinner :
    let s := Standin.after (Standin.generating 0 1 2)
    let t := Standin.onward s destroysCrossing
    Reachable Standin.setup s ∧ s.kemToBindingMap.lookup 2 = some 1 ∧ (s.kps.lookup 2).isSome ∧ (s.ws.lookup 1).isSome ∧
    (∀ (j : Nat) (th : Thread), s.threads[j]? = some th → ¬ Destroys Standin.setup 2 th.request) ∧
    Along (step Standin.setup) (Calm Standin.setup 2 1) s destroysCrossing t ∧
    t.threads.map Thread.request =
      [Standin.generateRequest,Standin.destroyRequest 2,Standin.destroyRequest 2] ∧
    t.threads.map Thread.status = [some 200,some 404,some 404] ∧
    ¬ ∃ (m : Nat) (th : Thread), t.threads[m]? = some th ∧ Destroys Standin.setup 2 th.request ∧
      th.status = some 204 := by
  intro s t
  have statuses : t.threads.map Thread.status = [some 200,some 404,some 404] := by decide +kernel
  refine ⟨Standin.afterReachable _ (by decide +kernel),by decide +kernel,by decide +kernel,by decide +kernel,
    generatesOnly (by decide +kernel),
    alongAlways (Standin.onwardSteps (by decide +kernel)) (calmHandles (by decide +kernel)),by decide +kernel,
    statuses,fun winner => ?_⟩
  obtain ⟨m,th,found,_,status⟩ := winner
  have mem : th.status ∈ t.threads.map Thread.status := List.mem_map.mpr ⟨th,List.mem_of_getElem? found,rfl⟩
  rw [statuses,status] at mem
  simp at mem

end KeyProtection
