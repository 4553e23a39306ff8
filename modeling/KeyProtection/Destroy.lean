import KeyProtection.Ownership
import KeyProtection.Standin

/-! What a destroy request leaves behind. A binding key that has left the registry cannot
come back, because ids are not reused; a handle that has lost its mapping cannot be mapped
again, because only the request that made it stores it, and that request is over. -/
namespace KeyProtection
open Lib Lib.Run KeyRegistry

section
variable {u : Setup} {s t : System} {l : Label} {k h b : Uuid}

theorem goneForever (move : Move u s l t) (born : Born s b) (gone : s.ws.lookup b = none) :
    t.ws.lookup b = none := by
  cases move with
  | bindingMade found fresh request planned unused decoded created spec =>
    obtain ⟨binding,mem,id⟩ := born
    simp only [addKey,Table.lookupInsert]
    split
    · rename_i same
      exact absurd (List.mem_map.mpr ⟨binding,mem,id.trans same⟩) unused.2
    · exact gone
  | bindingDestroyed found stage =>
    simp only [Table.lookupErase]
    split
    · rfl
    · exact gone
  | reapedWs past => simp only [reap,Table.lookupRetain,gone,Option.filter_none]
  | purged stage => exact AList.lookup_empty b
  | _ => exact gone

theorem storingUnsettled {i : Nat} {th : Thread} {plan bindingUUID kemPubKey} (owned : Owned u s)
    (found : s.threads[i]? = some th) (stage : th.task = .generateStoring plan bindingUUID k kemPubKey) :
    ¬ Settled s k b := by
  intro settled
  have task := (owned.threads i th found).task
  rw [stage] at task
  obtain ⟨_,kem,mem,owner,id,_⟩ := task
  obtain ⟨kem',mem',_,_,id',_,_,th',found',done⟩ := settled
  cases kemSame owned mem mem' (id.trans id'.symm)
  rw [owner,found] at found'
  cases Option.some.inj found'
  rcases done with ⟨a,same⟩ | ⟨a,same⟩ <;> rw [stage] at same <;> contradiction

theorem unmappedForever (owned : Owned u s) (move : Move u s l t) (settled : Settled s k b)
    (gone : s.kemToBindingMap.lookup k = none) : t.kemToBindingMap.lookup k = none := by
  cases move with
  | stored found stage free =>
    simp only [Table.lookupInsert]
    split
    · rename_i same
      subst same
      exact absurd settled (storingUnsettled owned found stage)
    · exact gone
  | unmapped found stage free =>
    simp only [Table.lookupErase]
    split
    · rfl
    · exact gone
  | reset stage => exact AList.lookup_empty k
  | _ => exact gone

def DestroyStage (s : System) (h b : Uuid) : Task → Prop
  | .destroyCalling k c => k = h ∧ c = b
  | .destroyBinding k c _ => k = h ∧ c = b
  | .destroyUnmapping k c _ _ => k = h ∧ c = b ∧ s.ws.lookup b = none
  | .responding _ => s.ws.lookup b = none ∧ s.kemToBindingMap.lookup h = none
  | .answered _ => s.ws.lookup b = none ∧ s.kemToBindingMap.lookup h = none
  | _ => False

theorem destroyStageKeeps {task : Task} (owned : Owned u s) (move : Move u s l t) (settled : Settled s h b)
    (stage : DestroyStage s h b task) : DestroyStage t h b task := by
  cases task with
  | destroyUnmapping k c errKps errWs =>
    exact ⟨stage.1,stage.2.1,goneForever move (settledBorn settled) stage.2.2⟩
  | responding a => exact ⟨goneForever move (settledBorn settled) stage.1,unmappedForever owned move settled stage.2⟩
  | answered a => exact ⟨goneForever move (settledBorn settled) stage.1,unmappedForever owned move settled stage.2⟩
  | _ => exact stage

theorem destroyStageMoves {i : Nat} {th th' : Thread} (owned : Owned u s) (move : Move u s l t)
    (settled : Settled s h b) (stage : DestroyStage s h b th.task) (moved : Moved u s l t i th th') :
    DestroyStage t h b th'.task := by
  have keeps := destroyStageKeeps owned move settled stage
  cases moved with
  | quiet taken same =>
    cases taken with
    | opened at_ =>
      rw [at_] at stage
      exact stage.elim
    | claimed at_ =>
      rw [at_] at stage
      exact stage.elim
    | answered at_ =>
      rw [at_] at keeps
      exact keeps
    | resumed origin next =>
      have resumes := resumption next
      generalize th.task = task at stage resumes
      cases resumes with
      | destroyed => exact stage
      | undestroyed => exact stage
      | faulted ends failure => cases task <;> contradiction
      | _ => exact stage.elim
    | _ =>
      have fresh : th.task = .start := by assumption
      rw [fresh] at stage
      exact stage.elim
  | making label fresh request born ws =>
    rw [fresh] at stage
    exact stage.elim
  | replied label sent reads destroys => exact keeps
  | storing label at_ map =>
    rw [at_] at stage
    exact stage.elim
  | unbinding label at_ ws log =>
    rw [at_] at stage
    refine ⟨stage.1,stage.2,?_⟩
    rw [ws,Table.lookupErase,if_pos stage.2.symm]
  | unmapping label at_ map =>
    rw [at_] at keeps
    refine ⟨keeps.2.2,?_⟩
    rw [map,Table.lookupErase,if_pos keeps.1.symm]

def Decapsulates (u : Setup) (h : Uuid) (request : Request) : Prop :=
  (∃ body, request = .decaps body) ∧ request.handle u.x = some h

def Rejected (task : Task) : Prop :=
  task = .start ∨ ∃ a, (task = .responding a ∨ task = .answered a) ∧ a.status ≠ 200

structure Destroyed (u : Setup) (n : Nat) (h b : Uuid) (s : System) : Prop where
  owned : Owned u s
  settled : Settled s h b
  unkeyed : s.ws.lookup b = none
  unmapped : s.kemToBindingMap.lookup h = none
  rejects : ∀ (j : Nat) (th : Thread), n ≤ j → s.threads[j]? = some th → Decapsulates u h th.request → Rejected th.task

theorem rejectedFailure {th : Thread} {a} (failure : a.Failure) : Rejected (th.respond a).task :=
  .inr ⟨a,.inl rfl,failureStatus failure⟩

theorem rejectedMoves {j : Nat} {th th' : Thread} (gone : s.kemToBindingMap.lookup h = none)
    (names : Decapsulates u h th.request) (before : Rejected th.task) (moved : Moved u s l t j th th') :
    Rejected th'.task := by
  obtain ⟨⟨body,request⟩,handle⟩ := names
  have stuck : th.task ≠ .start → (∀ a, th.task ≠ .responding a ∧ th.task ≠ .answered a) → False := by
    intro begun waits
    rcases before with fresh | ⟨a,stage | stage,_⟩
    · exact begun fresh
    · exact (waits a).1 stage
    · exact (waits a).2 stage
  cases moved with
  | quiet taken same =>
    cases taken with
    | refused fresh why => exact rejectedFailure (refusedFails why)
    | decapsFound fresh request' parsed free mapped =>
      rw [request',decapsHandle parsed] at handle
      rw [Option.some.inj handle,gone] at mapped
      contradiction
    | decapsMissing fresh request' parsed free missing => exact rejectedFailure (notFoundFails _)
    | opened at_ => exact (stuck (by simp [at_]) (by simp [at_])).elim
    | claimed at_ => exact (stuck (by simp [at_]) (by simp [at_])).elim
    | @answered _ a at_ =>
      rcases before with fresh | ⟨a',stage | stage,status⟩
      · rw [fresh] at at_
        contradiction
      · cases stage.symm.trans at_
        exact .inr ⟨a,.inr rfl,status⟩
      · rw [stage] at at_
        contradiction
    | resumed origin next => exact (stuck (resumedWaits next).1 (resumedWaits next).2).elim
    | notMade _ request' _ => exact (nomatch request.symm.trans request')
    | destroyFound _ request' _ _ _ => exact (nomatch request.symm.trans request')
    | destroyMissing _ request' _ _ _ => exact (nomatch request.symm.trans request')
    | enumerating _ request' => exact (nomatch request.symm.trans request')
    | claimsSent _ request' _ => exact (nomatch request.symm.trans request')
    | claimsFound _ request' _ _ _ => exact (nomatch request.symm.trans request')
    | claimsMissing _ request' _ => exact (nomatch request.symm.trans request')
    | kpsClaims _ request' => exact (nomatch request.symm.trans request')
  | making label fresh request' born ws => exact (nomatch request.symm.trans request')
  | replied label sent reads destroys => exact before
  | storing label at_ map => exact (stuck (by simp [at_]) (by simp [at_])).elim
  | unbinding label at_ ws log => exact (stuck (by simp [at_]) (by simp [at_])).elim
  | unmapping label at_ map => exact (stuck (by simp [at_]) (by simp [at_])).elim

theorem destroyedStep {n : Nat} (before : Destroyed u n h b s) (move : Move u s l t) : Destroyed u n h b t where
  owned := ownedStep before.owned move
  settled := settledGrows (ownedGrows before.owned move) before.settled
  unkeyed := goneForever move (settledBorn before.settled) before.unkeyed
  unmapped := unmappedForever before.owned move before.settled before.unmapped
  rejects := by
    intro j th' later here names
    rcases threadBefore move here with ⟨request,_,new⟩ | old | ⟨th,found,moved⟩
    · exact .inl (by rw [new])
    · exact before.rejects j th' later old names
    · rw [movedRequest moved] at names
      exact rejectedMoves before.unmapped names (before.rejects j th later found names) moved

theorem rejectedEnabled {j : Nat} {th : Thread} {body} (found : s.threads[j]? = some th)
    (request : th.request = .decaps body) (rejected : Rejected th.task) (unanswered : ∀ a, th.task ≠ .answered a)
    (free : s.beat.locked = false) (entropy : Entropy) : (step u s (.advance j entropy)).isSome := by
  simp only [step,found,Option.bind_some]
  rcases rejected with fresh | ⟨a,stage | stage,_⟩
  · simp only [advance,fresh,start,request,startDecaps,free]
    split
    · rfl
    · simp only [Bool.false_eq_true,if_false]
      split <;> rfl
  · simp [advance,stage]
  · exact absurd stage (unanswered a)

theorem destroyStageRun {i : Nat} {th : Thread} {ls : List Label} (owned : Owned u s) (found : s.threads[i]? = some th)
    (settled : Settled s h b) (stage : DestroyStage s h b th.task) (run : Steps (step u) s ls t) :
    Owned u t ∧ Settled t h b ∧ ∃ th', t.threads[i]? = some th' ∧ DestroyStage t h b th'.task := by
  induction run generalizing th with
  | nil => exact ⟨owned,settled,th,found,stage⟩
  | cons _ taken _ ih =>
    have move := stepMove taken
    have grows := ownedGrows owned move
    rcases threadAfter move found with same | ⟨th',there,moved⟩
    · exact ih (ownedStep owned move) same (settledGrows grows settled) (destroyStageKeeps owned move settled stage)
    · exact ih (ownedStep owned move) there (settledGrows grows settled)
        (destroyStageMoves owned move settled stage moved)

theorem destroyIsFinal {i : Nat} {th th' : Thread} {a : Answer} {ls : List Label} (reach : Reachable u s)
    (found : s.threads[i]? = some th) (mapped : th.task = .destroyCalling h b) (run : Steps (step u) s ls t)
    (here : t.threads[i]? = some th') (sent : th'.task = .answered a) :
    ∀ ls' v, Steps (step u) t ls' v → v.ws.lookup b = none ∧
      ∀ (j : Nat) (later : Thread), t.threads.length ≤ j → v.threads[j]? = some later →
        Decapsulates u h later.request →
        (∀ a', later.task = .answered a' → a'.status ≠ 200) ∧
        ((∀ a', later.task ≠ .answered a') → v.beat.locked = false →
          ∀ entropy, (step u v (.advance j entropy)).isSome) := by
  have owned := ownedReachable reach
  have settled : Settled s h b := by
    have task := (owned.threads i th found).task
    rw [mapped] at task
    exact task.1
  have stage : DestroyStage s h b th.task := by
    rw [mapped]
    exact ⟨rfl,rfl⟩
  obtain ⟨owned',settled',again,there,done⟩ := destroyStageRun owned found settled stage run
  cases Option.some.inj (there.symm.trans here)
  rw [sent] at done
  have destroyed : Destroyed u t.threads.length h b t := by
    refine ⟨owned',settled',done.1,done.2,fun j later new old _ => ?_⟩
    have bound : j < t.threads.length := (List.getElem?_eq_some_iff.mp old).1
    omega
  intro ls' v run'
  have final := alongInvariant (fun s l t before _ taken => destroyedStep before (stepMove taken)) run' destroyed
  refine ⟨final.unkeyed,fun j later new there' names => ?_⟩
  have rejected := final.rejects j later new there' names
  refine ⟨fun a' answered => ?_,fun unanswered free entropy => ?_⟩
  · rcases rejected with fresh | ⟨a'',stage | stage,status⟩
    · rw [fresh] at answered
      contradiction
    · rw [stage] at answered
      contradiction
    · cases stage.symm.trans answered
      exact status
  · obtain ⟨body,request⟩ := names.1
    exact rejectedEnabled there' request rejected unanswered free entropy

end

def destroyLooksUp : List Label :=
  Standin.generating 0 1 2 ++ [.arrive (Standin.destroyRequest 2),.advance 1 (Standin.entropy 0)]

def destroyTimesOut : List Label :=
  [.fail 1 (.grpc .deadlineExceeded "context deadline exceeded"),.advance 1 (Standin.entropy 0),
    .advance 1 (Standin.entropy 0),.advance 1 (Standin.entropy 0)]

def decapsAfterwards : List Label :=
  [.arrive (Standin.decapsRequest 2 [9]),.advance 2 (Standin.entropy 0),.advance 2 (Standin.entropy 0)]

theorem destroyIsFinalTimedOut :
    let s := Standin.after destroyLooksUp
    let t := Standin.onward s destroyTimesOut
    let v := Standin.onward t decapsAfterwards
    (s.ws.lookup 1).isSome ∧ (t.kps.lookup 2).isSome ∧ v.ws.lookup 1 = none ∧
      ∃ th a, v.threads[2]? = some th ∧ th.task = .answered a ∧ a.status ≠ 200 := by
  intro s t v
  have reach : Reachable Standin.setup s := Standin.afterReachable destroyLooksUp (by decide +kernel)
  have ends : (s.ws.lookup 1).isSome = true ∧ (t.kps.lookup 2).isSome = true ∧
      s.threads[1]?.map Thread.task = some (.destroyCalling 2 1) ∧
      t.threads[1]?.map Thread.task = some (.answered (destroyAnswer
        (some (.grpc .deadlineExceeded "context deadline exceeded")) none)) ∧
      v.threads[2]?.map (fun th => (th.request,th.task)) =
        some (Standin.decapsRequest 2 [9],.answered (handleNotFound 2)) := by decide +kernel
  obtain ⟨stored,survives,looked,sent,told⟩ := ends
  obtain ⟨th,found,mapped⟩ := Option.map_eq_some_iff.mp looked
  obtain ⟨th',here,answered⟩ := Option.map_eq_some_iff.mp sent
  obtain ⟨later,there,both⟩ := Option.map_eq_some_iff.mp told
  obtain ⟨request,task⟩ := Prod.mk.inj both
  have final := destroyIsFinal reach found mapped (Standin.onwardSteps (by decide +kernel)) here answered
    decapsAfterwards v (Standin.onwardSteps (by decide +kernel))
  have names : Decapsulates Standin.setup 2 later.request := by
    rw [request]
    exact ⟨⟨_,rfl⟩,by decide +kernel⟩
  exact ⟨stored,survives,final.1,later,_,there,task,
    (final.2 2 later (by decide +kernel) there names).1 _ task⟩

end KeyProtection
