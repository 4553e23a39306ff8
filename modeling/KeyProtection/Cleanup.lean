import KeyProtection.Ownership
import KeyProtection.Standin

/-! What a cleanup does to generate requests that are under way. It destroys every binding
key and replaces the map under the mutex, but a generate request makes its binding key
long before it takes the mutex, so a mapping may be stored for a key that is gone. As long
as no such mapping is stored, cleanups leave no dangling mapping behind. -/
namespace KeyProtection
open Lib Lib.Run KeyRegistry

def Task.binds : Task → Option Uuid
  | .generateCalling _ bindingUUID => some bindingUUID
  | .generateStoring _ bindingUUID _ _ => some bindingUUID
  | _ => none

def Answer.tellsKey : Answer → Bool
  | .http _ (.key _) => true
  | _ => false

def Task.untold : Task → Bool
  | .responding a => a.tellsKey
  | _ => false

/- No cleanup has destroyed the binding keys since the one of this store was made. -/
def StoresUnpurged (s : System) : Label → Prop
  | .advance i _ => ∀ th ∈ s.threads[i]?, ∀ stored ∈ th.task.storing, stored.bindingUUID ∉ s.purged
  | _ => True

/- Nor does one between a map store and the answer to its request. -/
def TellsUnpurged (s : System) : Label → Prop
  | .beat .destroysAll => ∀ th ∈ s.threads, th.task.untold = false
  | l => StoresUnpurged s l

instance (s : System) : (l : Label) → Decidable (StoresUnpurged s l)
  | .advance i _ => inferInstanceAs (Decidable (∀ th ∈ s.threads[i]?, ∀ stored ∈ th.task.storing, stored.bindingUUID ∉ s.purged))
  | .beat _ | .arrive _ | .serve _ _ | .receive _ | .replay _ _ | .fail _ _ | .tick _ _ | .reapKps _ | .reapWs _
  | .restart _ => .isTrue trivial

instance (s : System) : (l : Label) → Decidable (TellsUnpurged s l)
  | .beat .destroysAll => inferInstanceAs (Decidable (∀ th ∈ s.threads, th.task.untold = false))
  | .beat .begins | .beat .kpsAnswers | .beat .receives | .beat .fails | .beat .timerFires | .beat .cancelled
  | .beat .locks | .beat .resets | .beat .returns | .beat .stops | .arrive _ | .serve _ _ | .receive _ | .replay _ _
  | .fail _ _ | .tick _ _ | .reapKps _ | .reapWs _ | .restart _ => .isTrue trivial
  | .advance i entropy => inferInstanceAs (Decidable (StoresUnpurged s (.advance i entropy)))

def System.Quiescent (s : System) : Prop :=
  (∀ th ∈ s.threads, ∃ a, th.task = .answered a) ∧ ∀ received,
    s.beat ≠ .locking received ∧ s.beat ≠ .destroying received ∧ s.beat ≠ .resetting received

def Kept (s : System) (b : Uuid) : Prop :=
  (s.ws.lookup b).isSome ∨ ∃ binding ∈ s.bindings, binding.record.id = b ∧ binding.record.deleteAfter ≤ s.wsNow

def Leaving (s : System) (k b : Uuid) : Prop :=
  ∃ (j : Nat) (th : Thread) (errKps errWs : Option GoError),
    s.threads[j]? = some th ∧ th.task = .destroyUnmapping k b errKps errWs

def Beat.clearing : Beat → Bool
  | .resetting _ => true
  | _ => false

structure Backed (u : Setup) (s : System) : Prop where
  owned : Owned u s
  pending : ∀ (j : Nat) (th : Thread) (b : Uuid), s.threads[j]? = some th → th.task.binds = some b →
    Kept s b ∨ b ∈ s.purged
  map : ∀ k b, s.kemToBindingMap.lookup k = some b → s.beat.clearing = true ∨ Leaving s k b ∨ Kept s b

section
variable {u : Setup} {s t : System} {l : Label} {j : Nat} {th th' : Thread} {k b : Uuid}

theorem bindsUnsettled (owned : Owned u s) (found : s.threads[j]? = some th) (binds : th.task.binds = some b) :
    ¬ Settled s k b := by
  intro settled
  have made : MadeBinding s j b := by
    have task := (owned.threads j th found).task
    cases stage : th.task <;> rw [stage] at task binds <;> try contradiction
    · cases Option.some.inj binds
      exact task
    · cases Option.some.inj binds
      exact task.1
  obtain ⟨binding,mem,owner,id⟩ := made
  obtain ⟨kem,_,binding',mem',_,id',owner',other,there,done⟩ := settled
  cases bindingSame owned mem mem' (id.trans id'.symm)
  rw [owner',owner,found] at there
  cases Option.some.inj there
  rcases done with ⟨a,same⟩ | ⟨a,same⟩ <;> rw [same] at binds <;> contradiction

theorem keptMoves (owned : Owned u s) (move : Move u s l t) (kept : Kept s b) :
    Kept t b ∨ (t.beat.clearing = true ∧ b ∈ t.purged) ∨ ∃ k, Settled s k b ∧ Leaving t k b := by
  cases move with
  | bindingMade found fresh request planned unused decoded created spec =>
    refine .inl ?_
    rcases kept with here | ⟨binding,mem,rest⟩
    · refine .inl ?_
      simp only [addKey,Table.lookupInsert]
      split
      · rfl
      · exact here
    · exact .inr ⟨binding,List.mem_cons_of_mem _ mem,rest⟩
  | @bindingDestroyed i th entropy kemUUID bindingUUID errKps found stage =>
    have task := (owned.threads i th found).task
    rw [stage] at task
    by_cases same : b = bindingUUID
    · subst same
      exact .inr (.inr ⟨kemUUID,task.1,i,_,errKps,_,(getPut found i).trans (if_pos rfl),rfl⟩)
    · refine .inl (kept.imp (fun here => ?_) id)
      simp only [Table.lookupErase,if_neg same]
      exact here
  | @reapedWs now past =>
    refine .inl ?_
    rcases kept with here | expired
    · obtain ⟨record,stored⟩ := Option.isSome_iff_exists.mp here
      by_cases alive : now < record.deleteAfter
      · exact .inl (by rw [reapKeeps stored alive]; rfl)
      · obtain ⟨id,binding,mem,same⟩ := owned.ws b record stored
        subst same
        exact .inr ⟨binding,mem,id,(Nat.le_of_not_lt alive).trans past⟩
    · exact .inr expired
  | ticked kps ws =>
    refine .inl (kept.imp id (fun expired => ?_))
    obtain ⟨binding,mem,id,past⟩ := expired
    exact ⟨binding,mem,id,past.trans (Nat.le_add_right _ _)⟩
  | purged stage =>
    rcases kept with here | expired
    · exact .inr (.inl ⟨rfl,List.mem_append_left _ (AList.lookup_isSome.mp here)⟩)
    · exact .inl (.inr expired)
  | _ => exact .inl kept

theorem purgedMoves (move : Move u s l t) (gone : b ∈ s.purged) : b ∈ t.purged := by
  cases move with
  | purged stage => exact List.mem_append_right _ gone
  | _ => exact gone

theorem leavingMoves (move : Move u s l t) (leaving : Leaving s k b) :
    Leaving t k b ∨ t.kemToBindingMap.lookup k = none := by
  obtain ⟨i,th,errKps,errWs,found,stage⟩ := leaving
  rcases threadAfter move found with same | ⟨th',there,moved⟩
  · exact .inl ⟨i,th,errKps,errWs,same,stage⟩
  cases moved with
  | quiet taken same =>
    cases taken with
    | opened at_ => exact (nomatch stage.symm.trans at_)
    | claimed at_ => exact (nomatch stage.symm.trans at_)
    | answered at_ => exact (nomatch stage.symm.trans at_)
    | resumed origin next =>
      rw [stage] at next
      contradiction
    | _ =>
      have fresh : th.task = .start := by assumption
      exact (nomatch stage.symm.trans fresh)
  | making label fresh request born ws => exact (nomatch stage.symm.trans fresh)
  | replied label sent reads destroys => exact .inl ⟨i,_,errKps,errWs,there,stage⟩
  | storing label at_ map => exact (nomatch stage.symm.trans at_)
  | unbinding label at_ ws log => exact (nomatch stage.symm.trans at_)
  | unmapping label at_ map =>
    cases stage.symm.trans at_
    exact .inr (by rw [map,Table.lookupErase,if_pos rfl])

theorem clearingMoves (move : Move u s l t) (clearing : s.beat.clearing = true) :
    t.beat.clearing = true ∨ t.kemToBindingMap.lookup k = none := by
  cases move with
  | @beaten pulse out keeps unreset unheard taken =>
    have next := beaten keeps unreset unheard taken
    obtain ⟨beat,cached⟩ := out
    generalize s.beat = before at next clearing
    cases next <;> contradiction
  | heard stage =>
    rw [stage] at clearing
    contradiction
  | purged stage => exact .inl rfl
  | reset stage => exact .inr (AList.lookup_empty k)
  | _ => exact .inl clearing

theorem mapBefore (move : Move u s l t) (mapped : t.kemToBindingMap.lookup k = some b) :
    s.kemToBindingMap.lookup k = some b ∨ ∃ (i : Nat) (th : Thread) (entropy : Entropy) (plan : GeneratePlan)
      (kemPubKey : Bytes), l = .advance i entropy ∧ s.threads[i]? = some th ∧
      th.task = .generateStoring plan b k kemPubKey := by
  cases move with
  | stored found stage free =>
    simp only [Table.lookupInsert] at mapped
    split at mapped
    · rename_i same
      subst same
      cases Option.some.inj mapped
      exact .inr ⟨_,_,_,_,_,rfl,found,stage⟩
    · exact .inl mapped
  | unmapped found stage free =>
    simp only [Table.lookupErase] at mapped
    split at mapped <;> try contradiction
    exact .inl mapped
  | reset stage => simp at mapped
  | _ => exact .inl mapped

theorem bindsBefore (moved : Moved u s l t j th th') (binds : th'.task.binds = some b) :
    th.task.binds = some b ∨ (th.task = .start ∧ (t.ws.lookup b).isSome) := by
  cases moved with
  | quiet taken same =>
    cases taken with
    | resumed origin next =>
      have resumes := resumption next
      generalize th.task = task at resumes
      cases resumes <;> first | contradiction | exact .inl binds
    | _ => contradiction
  | @making entropy plan record pubKey body label fresh request born ws =>
    cases Option.some.inj binds
    have stored : (addKey s.ws record).lookup record.id = some record := AList.lookup_insert s.ws
    rw [ws,stored]
    exact .inr ⟨fresh,rfl⟩
  | replied label sent reads destroys => exact .inl binds
  | _ => contradiction

theorem backedStep (backed : Backed u s) (allowed : StoresUnpurged s l) (move : Move u s l t) : Backed u t := by
  have owned := backed.owned
  -- A request under way keeps its key but for a cleanup: no destroy request knows the key.
  have pendingMoves : ∀ (j : Nat) (th : Thread) (b : Uuid), s.threads[j]? = some th → th.task.binds = some b →
      Kept t b ∨ b ∈ t.purged := by
    intro j th b found binds
    rcases backed.pending j th b found binds with kept | gone
    · rcases keptMoves owned move kept with kept | ⟨_,gone⟩ | ⟨k,settled,_⟩
      · exact .inl kept
      · exact .inr gone
      · exact absurd settled (bindsUnsettled owned found binds)
    · exact .inr (purgedMoves move gone)
  have mapMoves : ∀ k b, Kept s b → (∀ k', Settled s k' b → k' = k) → t.beat.clearing = true ∨ Leaving t k b ∨ Kept t b := by
    intro k b kept one
    rcases keptMoves owned move kept with still | ⟨clearing,_⟩ | ⟨k',settled,leaving⟩
    · exact .inr (.inr still)
    · exact .inl clearing
    · cases one k' settled
      exact .inr (.inl leaving)
  refine ⟨ownedStep owned move,fun j th' b here binds => ?_,fun k b mapped => ?_⟩
  · rcases threadBefore move here with ⟨request,_,new⟩ | old | ⟨th,found,moved⟩
    · subst new
      contradiction
    · exact pendingMoves j th' b old binds
    · rcases bindsBefore moved binds with held | ⟨_,made⟩
      · exact pendingMoves j th b found held
      · exact .inl (.inl made)
  · rcases mapBefore move mapped with old | ⟨i,th,entropy,plan,kemPubKey,label,found,stage⟩
    · rcases backed.map k b old with clearing | leaving | kept
      · rcases clearingMoves move clearing with still | gone
        · exact .inl still
        · exact (nomatch gone.symm.trans mapped)
      · rcases leavingMoves move leaving with still | gone
        · exact .inr (.inl still)
        · exact (nomatch gone.symm.trans mapped)
      · exact mapMoves k b kept (fun k' settled => settledKem owned settled (owned.map k b old))
    · have binds : th.task.binds = some b := by rw [stage]; rfl
      subst label
      have unpurged := allowed th found ⟨k,b⟩ (congrArg Task.storing stage)
      rcases backed.pending i th b found binds with kept | gone
      · exact mapMoves k b kept (fun k' settled => absurd settled (bindsUnsettled owned found binds))
      · exact absurd gone unpurged

theorem backedInitial (u : Setup) (kpsNow wsNow : Nat) (token : String) :
    Backed u (System.initial kpsNow wsNow token) := by
  refine ⟨ownedInitial u kpsNow wsNow token,?_,?_⟩ <;> simp [System.initial]

/-! The answers of generate requests. -/

structure Unpurged (u : Setup) (s : System) : Prop where
  owned : Owned u s
  born : ∀ b ∈ s.purged, Born s b
  untold : ∀ (j : Nat) (th : Thread), s.threads[j]? = some th → th.task.untold = true →
    ∀ binding ∈ s.bindings, binding.owner = j → binding.record.id ∉ s.purged

theorem bindingsBefore {binding : BindingBirth} (move : Move u s l t) (mem : binding ∈ t.bindings) :
    binding ∈ s.bindings ∨ s.Fresh binding.record.id := by
  cases move with
  | bindingMade found fresh request planned unused decoded created spec =>
    rcases List.mem_cons.mp mem with same | old
    · subst same
      exact .inr unused
    · exact .inl old
  | _ => exact .inl mem

theorem purgedBefore (move : Move u s l t) (gone : b ∈ t.purged) :
    b ∈ s.purged ∨ (l = .beat .destroysAll ∧ t.threads = s.threads ∧ (s.ws.lookup b).isSome) := by
  cases move with
  | purged stage =>
    rcases List.mem_append.mp gone with now | before
    · exact .inr ⟨rfl,rfl,AList.lookup_isSome.mpr now⟩
    · exact .inl before
  | _ => exact .inl gone

theorem failureTellsNone {a : Answer} (failure : a.Failure) : a.tellsKey = false := by
  cases failure <;> rfl

theorem tellsFrom {a : Answer} (moved : Moved u s l t j th th') (stage : th'.task = .responding a)
    (tells : a.tellsKey = true) :
    th.task = .responding a ∨ ∃ entropy plan bindingUUID kemUUID kemPubKey, l = .advance j entropy ∧
      th.task = .generateStoring plan bindingUUID kemUUID kemPubKey := by
  cases responded moved stage with
  | kept same => exact .inl same
  | failed failure => exact (nomatch (failureTellsNone failure).symm.trans tells)
  | generated entropy label storing => exact .inr ⟨entropy,_,_,_,_,label,storing⟩
  | opened entropy label opening ok => contradiction
  | destroyed =>
    simp only [destroyAnswer] at tells
    split at tells <;> contradiction
  | listed => contradiction
  | claimed claims => contradiction

theorem untoldBefore (moved : Moved u s l t j th th') (untold : th'.task.untold = true) :
    th.task.untold = true ∨ ∃ entropy plan bindingUUID kemUUID kemPubKey, l = .advance j entropy ∧
      th.task = .generateStoring plan bindingUUID kemUUID kemPubKey := by
  cases stage : th'.task with
  | responding a =>
    rw [stage] at untold
    rcases tellsFrom moved stage untold with same | storing
    · exact .inl (by rw [same]; exact untold)
    · exact .inr storing
  | _ =>
    rw [stage] at untold
    contradiction

theorem storesUnpurged {entropy : Entropy} {plan : GeneratePlan} {kemPubKey : Bytes} (allowed : TellsUnpurged s l)
    (label : l = .advance j entropy) (found : s.threads[j]? = some th)
    (stage : th.task = .generateStoring plan b k kemPubKey) : b ∉ s.purged := by
  subst label
  exact allowed th found ⟨k,b⟩ (congrArg Task.storing stage)

theorem unpurgedStep (before : Unpurged u s) (allowed : TellsUnpurged s l) (move : Move u s l t) : Unpurged u t := by
  have owned := before.owned
  have grows := ownedGrows owned move
  refine ⟨ownedStep owned move,fun b gone => ?_,fun j th' here untold binding mem owner gone => ?_⟩
  · rcases purgedBefore move gone with old | ⟨_,_,present⟩
    · obtain ⟨binding,mem,id⟩ := before.born b old
      exact ⟨binding,grows.bindings binding mem,id⟩
    · obtain ⟨record,stored⟩ := Option.isSome_iff_exists.mp present
      obtain ⟨id,binding,mem,same⟩ := owned.ws b record stored
      exact ⟨binding,grows.bindings binding mem,same ▸ id⟩
  · rcases purgedBefore move gone with old | ⟨label,threads,_⟩
    · rcases bindingsBefore move mem with known | fresh
      · rcases threadBefore move here with ⟨request,_,new⟩ | same | ⟨th,found,moved⟩
        · subst new
          contradiction
        · exact before.untold j th' same untold binding known owner old
        · rcases untoldBefore moved untold with open_ | ⟨entropy,plan,b,k,kemPubKey,label,stage⟩
          · exact before.untold j th found open_ binding known owner old
          · -- The key of the store is the only one that this request has made.
            have task := (owned.threads j th found).task
            rw [stage] at task
            obtain ⟨made,madeMem,madeOwner,id⟩ := task.1
            cases bindingOwnerSame owned known madeMem (owner.trans madeOwner.symm)
            exact storesUnpurged allowed label found stage (id ▸ old)
      · obtain ⟨other,known,id⟩ := before.born _ old
        exact fresh.2 (List.mem_map.mpr ⟨other,known,id⟩)
    · subst label
      rw [threads] at here
      exact (nomatch (allowed th' (List.mem_of_getElem? here)).symm.trans untold)

theorem unpurgedInitial (u : Setup) (kpsNow wsNow : Nat) (token : String) :
    Unpurged u (System.initial kpsNow wsNow token) := by
  refine ⟨ownedInitial u kpsNow wsNow token,?_,?_⟩ <;> simp [System.initial]

theorem backedQuiescent (backed : Backed u s) (quiescent : s.Quiescent)
    (mapped : s.kemToBindingMap.lookup k = some b) : Kept s b := by
  rcases backed.map k b mapped with clearing | ⟨j,th,errKps,errWs,found,stage⟩ | kept
  · generalize stage : s.beat = beat at clearing
    cases beat <;> try contradiction
    exact absurd stage (quiescent.2 _).2.2
  · obtain ⟨a,answered⟩ := quiescent.1 th (List.mem_of_getElem? found)
    exact (nomatch stage.symm.trans answered)
  · exact kept

theorem unpurgedAnswer {entropy : Entropy} {info : KeyInfo} (before : Unpurged u s) (found : s.threads[j]? = some th)
    (stage : th.task = .responding (.http 200 (.key info))) (taken : step u s (.advance j entropy) = some t) :
    ∃ k b, info.handle = uuidString k ∧ Settled t k b ∧ b ∉ t.purged := by
  have owned := before.owned
  have told := (owned.threads j th found).task
  rw [stage] at told
  obtain ⟨kem,kemMem,kemOwner,handle,_⟩ := told
  obtain ⟨binding,mem,owner,_⟩ := (owned.kems kem kemMem).bound
  have unpurged := before.untold j th found (by rw [stage]; rfl) binding mem (owner.trans kemOwner)
  have settled : Settled s kem.record.id binding.record.id :=
    ⟨kem,kemMem,binding,mem,rfl,rfl,owner.symm,th,kemOwner ▸ found,.inl ⟨_,stage⟩⟩
  refine ⟨_,_,handle,settledGrows (ownedGrows owned (stepMove taken)) settled,fun gone => ?_⟩
  rcases purgedBefore (stepMove taken) gone with old | ⟨label,_⟩
  · exact unpurged old
  · contradiction

theorem cleanupLeavesNoDangling {kpsNow wsNow : Nat} {token : String} {ls : List Label} :
    (Along (step u) StoresUnpurged (System.initial kpsNow wsNow token) ls s → s.Quiescent →
      ∀ k b, s.kemToBindingMap.lookup k = some b → (s.ws.lookup b).isSome ∨
        ∃ binding ∈ s.bindings, binding.record.id = b ∧ binding.record.deleteAfter ≤ s.wsNow) ∧
    (Along (step u) TellsUnpurged (System.initial kpsNow wsNow token) ls s →
      ∀ (i : Nat) (th : Thread) entropy info t, s.threads[i]? = some th →
        th.task = .responding (.http 200 (.key info)) → step u s (.advance i entropy) = some t →
        ∃ k b, info.handle = uuidString k ∧ Settled t k b ∧ b ∉ t.purged) := by
  refine ⟨fun run quiescent k b mapped => ?_,fun run i th entropy info t found stage taken => ?_⟩
  · have backed : Backed u s :=
      alongInvariant (fun _ _ _ before allowed taken => backedStep before allowed (stepMove taken)) run
        (backedInitial u kpsNow wsNow token)
    exact backedQuiescent backed quiescent mapped
  · have unpurged : Unpurged u s :=
      alongInvariant (fun _ _ _ before allowed taken => unpurgedStep before allowed (stepMove taken)) run
        (unpurgedInitial u kpsNow wsNow token)
    exact unpurgedAnswer unpurged found stage taken

theorem quiescentIdle {answers : List Answer} {last : Option Receipt}
    (tasks : s.threads.map Thread.task = answers.map Task.answered) (idle : s.beat = .idle last) : s.Quiescent := by
  refine ⟨fun th mem => ?_,fun received => by simp [idle]⟩
  have listed : th.task ∈ answers.map Task.answered := tasks ▸ List.mem_map_of_mem mem
  obtain ⟨a,_,same⟩ := List.mem_map.mp listed
  exact ⟨a,same.symm⟩

end

def toldKey (k : Uuid) (publicKey : Bytes) : Answer :=
  .http 200 (.key ⟨uuidString k,1,publicKey,"KEY_PROTECTION_VM_EMULATED"⟩)

def cleanupBetween : List Label :=
  Standin.heartbeat ++ Standin.generating 0 1 2 ++ [.restart "boot-1"] ++ Standin.heartbeatPurging ++
    [.beat .returns] ++ (Standin.generating 1 3 4).dropLast

theorem cleanupBetweenLeavesNoDangling :
    let s := Standin.after cleanupBetween
    let t := Standin.after (cleanupBetween ++ [.advance 1 (Standin.entropy 0)])
    ((t.ws.lookup 3).isSome ∨ ∃ binding ∈ t.bindings, binding.record.id = 3 ∧ binding.record.deleteAfter ≤ t.wsNow) ∧
    ∃ k b, uuidString 4 = uuidString k ∧ Settled (Standin.onward s [.advance 1 (Standin.entropy 0)]) k b ∧
      b ∉ (Standin.onward s [.advance 1 (Standin.entropy 0)]).purged := by
  intro s t
  have tasks : t.threads.map Thread.task =
      [toldKey 2 (Standin.pad32 [2]),toldKey 4 (Standin.pad32 [4])].map Task.answered := by decide +kernel
  have idle : t.beat = .idle (some ⟨1,"boot-1"⟩) := by decide +kernel
  have stage : s.threads[1]?.map Thread.task = some (.responding (toldKey 4 (Standin.pad32 [4]))) := by decide +kernel
  obtain ⟨th,found,responding⟩ := Option.map_eq_some_iff.mp stage
  have taken : step Standin.setup s (.advance 1 (Standin.entropy 0)) =
      some (Standin.onward s [.advance 1 (Standin.entropy 0)]) := Standin.onwardStep (by decide +kernel)
  exact ⟨cleanupLeavesNoDangling.1 (alongGetD (by decide +kernel)) (quiescentIdle tasks idle) 4 3 (by decide +kernel),
    cleanupLeavesNoDangling.2 (alongGetD (by decide +kernel)) 1 th _ _ _ found responding taken⟩

def cleanupWithin : List Label :=
  Standin.heartbeat ++ [.arrive Standin.generateRequest,.advance 0 (Standin.entropy 1),.restart "boot-1"] ++
    Standin.heartbeatPurging ++ [.beat .returns,.serve 0 (Standin.entropy 2),.receive 0,.advance 0 (Standin.entropy 0)]

theorem cleanupWithinDangles :
    let s := Standin.after cleanupWithin
    let t := Standin.onward s [.advance 0 (Standin.entropy 0)]
    Reachable Standin.setup s ∧ Reachable Standin.setup t ∧ t.Quiescent ∧
    t.kemToBindingMap.lookup 2 = some 1 ∧ t.ws.lookup 1 = none ∧
    (∀ binding ∈ t.bindings, binding.record.id = 1 → t.wsNow < binding.record.deleteAfter) ∧
    1 ∈ s.purged ∧ s.threads.map Thread.task = [.responding (toldKey 2 (Standin.pad32 [2]))] ∧
    t.threads.map Thread.task = [.answered (toldKey 2 (Standin.pad32 [2]))] := by
  intro s t
  have tasks : t.threads.map Thread.task = [toldKey 2 (Standin.pad32 [2])].map Task.answered := by decide +kernel
  have idle : t.beat = .idle (some ⟨1,"boot-1"⟩) := by decide +kernel
  have reach := Standin.afterReachable cleanupWithin (by decide +kernel)
  have later : Reachable Standin.setup t := Standin.onwardReachable reach (by decide +kernel)
  exact ⟨reach,later,quiescentIdle tasks idle,by decide +kernel,by decide +kernel,by decide +kernel,
    by decide +kernel,by decide +kernel,tasks⟩

end KeyProtection
