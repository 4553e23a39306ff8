import KeyProtection.Progress
import KeyProtection.Shutdown

/-! What Shutdown does with the requests. GracefulStop and http.Server.Shutdown wait for the
requests that have come in and let no others in, so a Shutdown that returns no error leaves
none of them without an answer, and from then on the map and the binding keys can only be
taken away. Nothing a handler waits for can keep Shutdown from getting there: not the mutex,
not a call to the KPS, not the other handlers. -/
namespace KeyProtection
open Lib Lib.Run KeyRegistry

/- The requests of the two servers that Shutdown stops; the claims RPC of the KPS is another
process's. -/
def Request.served (request : Request) : Bool := request.overGrpc || request.overHttp

def System.pending (s : System) : Nat := s.threads.countP (fun th => th.request.served && !th.task.finished)

def Thread.due (th : Thread) : Nat := if th.request.served then th.left else 0

def System.due (s : System) : Nat := (s.threads.map Thread.due).sum

def Stage.errors : Stage → List GoError
  | .stoppingHttp errs => errs
  | .closing errs => errs
  | .returned errs => errs
  | _ => []

def Stage.rest : Stage → List ServiceLabel
  | .serving => [.shutdown,.grpcStops none,.httpStops none,.closes none]
  | .stoppingGrpc => [.grpcStops none,.httpStops none,.closes none]
  | .stoppingHttp _ => [.httpStops none,.closes none]
  | .closing _ => [.closes none]
  | .returned _ => []

def ServiceLabel.winds : ServiceLabel → Bool
  | .system (.advance _ _) => true
  | .system (.serve _ _) => true
  | .system (.receive _) => true
  | .system (.beat .destroysAll) => true
  | .system (.beat .resets) => true
  | .system _ => false
  | _ => true

section
variable {u : Setup} {env : Launch} {s t : System} {i : Nat} {th th' : Thread}

/-! The requests come to an end. -/

structure Draining (u : Setup) (s : System) : Prop where
  owned : Owned u s
  awaiting : Awaiting s
  free : s.beat.locked = false
  room : s.kems.length + s.bindings.length + s.due ≤ 2 ^ 128

theorem dueSet (found : s.threads[i]? = some th) (threads : t.threads = s.threads.set i th') :
    t.due + th.due = s.due + th'.due := by
  unfold System.due
  rw [threads]
  exact sumSet Thread.due found th'

theorem dueOf (mem : th ∈ s.threads) : th.due ≤ s.due := by
  obtain ⟨before,after,split⟩ := List.append_of_mem mem
  simp only [System.due,split,List.map_append,List.map_cons,List.sum_append,List.sum_cons]
  omega

theorem finishedLeft (finished : th.task.finished = true) : th.left = 0 := by
  cases stage : th.task with
  | answered a => rw [leftAt (by rw [stage]; exact Task.noConfusion) (by rw [stage]; rfl),stage]; rfl
  | _ =>
    rw [stage] at finished
    contradiction

theorem dueBound (s : System) : s.due ≤ 6 * s.pending := by
  refine sumCounted s.threads (fun th => ?_)
  unfold Thread.due
  cases served : th.request.served with
  | false => simp
  | true =>
    cases finished : th.task.finished with
    | true => simp [finishedLeft finished]
    | false => simpa using leftAtMost th

theorem dueNone (none : s.due = 0) (mem : th ∈ s.threads) (served : th.request.served = true) :
    th.task.finished = true := by
  have zero : th.due = 0 := Nat.le_zero.mp (none ▸ dueOf mem)
  simp only [Thread.due,if_pos served] at zero
  obtain ⟨a,answered⟩ := leftNone (Nat.le_zero.mp (zero ▸ threadLeft th))
  rw [answered]
  rfl

theorem drainLowers (draining : Draining u s) (more : 0 < s.due) :
    ∃ l t, (ServiceLabel.system l).winds = true ∧ step u s l = some t ∧ Draining u t ∧ t.due < s.due := by
  have unanswered : ∃ th ∈ s.threads, 0 < th.due := by
    obtain ⟨n,mem,positive⟩ := List.sum_pos_iff_exists_pos_nat.mp more
    obtain ⟨th,here,rfl⟩ := List.mem_map.mp mem
    exact ⟨th,here,positive⟩
  obtain ⟨th,mem,positive⟩ := unanswered
  obtain ⟨i,found⟩ := List.getElem?_of_mem mem
  have served : th.request.served = true := by
    by_contra aside
    simp [Thread.due,aside] at positive
  have left : th.due = th.left := by simp [Thread.due,served]
  have within := dueOf mem
  have room := draining.room
  obtain ⟨l,t,th',own,taken,onward⟩ := handlerSteps draining.owned draining.awaiting draining.free found (left ▸ positive)
    (by omega)
  have winds : (ServiceLabel.system l).winds = true := by cases l <;> first | rfl | contradiction
  have left' : th'.due = th'.left := by simp [Thread.due,onward.request,served]
  have sums := dueSet found onward.threads
  have less := onward.less
  have births := onward.births
  refine ⟨l,t,winds,taken,⟨ownedStep draining.owned (stepMove taken),awaitingStep draining.awaiting taken,
    onward.beat ▸ draining.free,?_⟩,?_⟩
  · omega
  · omega

theorem drains (reach : Reachable u s) (room : s.kems.length + s.bindings.length + 6 * s.pending ≤ 2 ^ 128) :
    ∃ ls t, Steps (step u) s ls t ∧ ls.length ≤ 6 * s.pending + 2 ∧ (∀ l ∈ ls, (ServiceLabel.system l).winds = true) ∧
      ∀ th ∈ t.threads, th.request.served = true → th.task.finished = true := by
  obtain ⟨ks,m,cleanup,pulses,short,free,spared,_⟩ := cleanupEnds u s
  have reach' : Reachable u m := by
    obtain ⟨kpsNow,wsNow,token,given,before⟩ := reach
    exact ⟨kpsNow,wsNow,token,given,reachableAlong before cleanup⟩
  have same : m.due = s.due := by rw [System.due,spared.threads,System.due]
  have bound := dueBound s
  have draining : Draining u m := by
    refine ⟨ownedReachable reach',awaitingReachable reach',free,?_⟩
    rw [spared.kems,spared.bindings,same]
    omega
  obtain ⟨ls,t,run,winds,length,_,none⟩ := runsDown (fun _ => drainLowers) m draining
  refine ⟨ks ++ ls,t,alongAppend cleanup run,?_,fun l mem => ?_,fun th mem served => dueNone none mem served⟩
  · rw [List.length_append]
    omega
  · rcases List.mem_append.mp mem with first | last
    · rcases pulses l first with rfl | rfl <;> rfl
    · exact winds l last

/-! Shutdown with them. -/

theorem windsAdmitted {v : Service} {k : Label} (winds : (ServiceLabel.system k).winds = true) : v.admits k = true := by
  cases k with
  | beat pulse => cases pulse <;> first | rfl | contradiction
  | _ => first | rfl | contradiction

theorem serviceRuns {v : Service} {ls : List Label} (run : Steps (step u) v.system ls t)
    (winds : ∀ l ∈ ls, (ServiceLabel.system l).winds = true) :
    Steps (serviceStep u) v (ls.map .system) {v with system := t} := by
  obtain ⟨system,shutdown,heartbeatDone⟩ := v
  simp only at run ⊢
  induction run with
  | nil s => exact .nil _
  | @cons s l m ls t _ taken _ ih =>
    have admitted := windsAdmitted (v := ⟨s,shutdown,heartbeatDone⟩) (winds l List.mem_cons_self)
    have first : serviceStep u ⟨s,shutdown,heartbeatDone⟩ (.system l) = some ⟨m,shutdown,heartbeatDone⟩ := by
      simp [serviceStep,admitted,taken]
    exact .cons trivial first (ih (fun l mem => winds l (List.mem_cons_of_mem _ mem)))

theorem drainedAll {kind : Request → Bool} (done : ∀ th ∈ s.threads, th.request.served = true → th.task.finished = true)
    (within : ∀ request, kind request = true → request.served = true) : s.drained kind = true := by
  refine List.all_eq_true.mpr (fun th mem => ?_)
  cases own : kind th.request with
  | false => rfl
  | true => simpa using done th mem (within _ own)

theorem shutsDown (u : Setup) {v : Service}
    (done : ∀ th ∈ v.system.threads, th.request.served = true → th.task.finished = true) :
    Steps (serviceStep u) v v.shutdown.rest {v with shutdown := .returned v.shutdown.errors} := by
  have grpc : v.system.drained Request.overGrpc = true := drainedAll done (fun _ own => by simp [Request.served,own])
  have http : v.system.drained Request.overHttp = true := drainedAll done (fun _ own => by simp [Request.served,own])
  obtain ⟨system,shutdown,heartbeatDone⟩ := v
  have closing (errs : List GoError) : Steps (serviceStep u) ⟨system,.closing errs,heartbeatDone⟩ [.closes none]
      ⟨system,.returned errs,heartbeatDone⟩ :=
    .cons trivial (by simp [serviceStep,collect]) (.nil _)
  have stoppingHttp (errs : List GoError) : Steps (serviceStep u) ⟨system,.stoppingHttp errs,heartbeatDone⟩
      [.httpStops none,.closes none] ⟨system,.returned errs,heartbeatDone⟩ :=
    .cons trivial (by simp [serviceStep,collect,http]) (closing errs)
  have stoppingGrpc : Steps (serviceStep u) ⟨system,.stoppingGrpc,heartbeatDone⟩
      [.grpcStops none,.httpStops none,.closes none] ⟨system,.returned [],heartbeatDone⟩ :=
    .cons trivial (by simp [serviceStep,grpc]) (stoppingHttp [])
  cases shutdown with
  | serving => exact .cons trivial rfl stoppingGrpc
  | stoppingGrpc => exact stoppingGrpc
  | stoppingHttp errs => exact stoppingHttp errs
  | closing errs => exact closing errs
  | returned errs => exact .nil _

theorem restWinds (stage : Stage) : ∀ l ∈ stage.rest, l.winds = true := by
  cases stage <;> simp [Stage.rest,ServiceLabel.winds]

/-! What a Shutdown without an error says. -/

def Aside (s : System) : Prop :=
  ∀ (i : Nat) (th : Thread), s.threads[i]? = some th → th.request.served = false → th.task = .start ∨ th.done

theorem asideRequest {request : Request} (aside : request.served = false) : ∃ req, request = .kpsGetKeyClaims req := by
  cases request with
  | kpsGetKeyClaims req => exact ⟨req,rfl⟩
  | _ => contradiction

theorem aheadOrDone {task : Task} (ready : th.task = .start ∨ th.done) (stage : th.task = task)
    (begun : task ≠ .start) (open' : ∀ a, task ≠ .responding a ∧ task ≠ .answered a) : False := by
  rcases ready with fresh | ⟨a,responding⟩ | ⟨a,answered⟩
  · exact begun (stage.symm.trans fresh)
  · exact (open' a).1 (stage.symm.trans responding)
  · exact (open' a).2 (stage.symm.trans answered)

theorem asideStep {k : Label} (before : Aside s) (taken : step u s k = some t) : Aside t := by
  intro i th' here aside
  rcases threadBefore (stepMove taken) here with ⟨request,_,rfl⟩ | old | ⟨th,found,moved⟩
  · exact .inl rfl
  · exact before i th' old aside
  · rw [movedRequest moved] at aside
    have ready := before i th found aside
    obtain ⟨req,own⟩ := asideRequest aside
    cases moved with
    | quiet taken same =>
      cases taken with
      | refused fresh why => exact .inr (.inl ⟨_,rfl⟩)
      | kpsClaims fresh request => exact .inr (.inl ⟨_,rfl⟩)
      | answered stage => exact .inr (.inr ⟨_,rfl⟩)
      | opened stage => exact (aheadOrDone ready stage (by simp) (by simp)).elim
      | claimed stage => exact (aheadOrDone ready stage (by simp) (by simp)).elim
      | resumed origin next =>
        have waits := resumedWaits next
        exact (aheadOrDone ready rfl waits.1 waits.2).elim
      | notMade _ request => exact absurd (own.symm.trans request) (by simp)
      | decapsFound _ request => exact absurd (own.symm.trans request) (by simp)
      | decapsMissing _ request => exact absurd (own.symm.trans request) (by simp)
      | destroyFound _ request => exact absurd (own.symm.trans request) (by simp)
      | destroyMissing _ request => exact absurd (own.symm.trans request) (by simp)
      | enumerating _ request => exact absurd (own.symm.trans request) (by simp)
      | claimsSent _ request => exact absurd (own.symm.trans request) (by simp)
      | claimsFound _ request => exact absurd (own.symm.trans request) (by simp)
      | claimsMissing _ request => exact absurd (own.symm.trans request) (by simp)
    | making label fresh request born ws => exact absurd (own.symm.trans request) (by simp)
    | replied label sent reads destroys => exact ready
    | storing label stage map => exact (aheadOrDone ready stage (by simp) (by simp)).elim
    | unbinding label stage ws log => exact (aheadOrDone ready stage (by simp) (by simp)).elim
    | unmapping label stage map => exact (aheadOrDone ready stage (by simp) (by simp)).elim

theorem asideReachable (reach : Reachable u s) : Aside s := by
  obtain ⟨kpsNow,wsNow,token,_,reached⟩ := reach
  refine reachableInvariant ?_ (fun s l m before taken => asideStep before taken) reached
  intro i th found
  simp [System.initial] at found

def Service.Waited (v : Service) : Prop :=
  match v.shutdown with
  | .serving => True
  | .stoppingGrpc => True
  | .stoppingHttp errs => errs = [] → v.system.drained Request.overGrpc = true
  | .closing errs => errs = [] → v.system.drained Request.served = true
  | .returned errs => errs = [] → v.system.drained Request.served = true

theorem finishedKept {k : Label} (moved : Moved u s k t i th th') (finished : th.task.finished = true) : th'.task = th.task := by
  cases stage : th.task with
  | answered a =>
    rcases movedLeft moved with less | ⟨same,_⟩
    · rw [stage] at less
      exact absurd less (Nat.not_lt_zero _)
    · exact same.trans stage
  | _ =>
    rw [stage] at finished
    contradiction

theorem drainedStep {kind : Request → Bool} {k : Label} (drained : s.drained kind = true) (taken : step u s k = some t)
    (shut : ∀ request, k = .arrive request → kind request = false) : t.drained kind = true := by
  have each (th : Thread) (mem : th ∈ s.threads) : (!kind th.request || th.task.finished) = true :=
    List.all_eq_true.mp drained th mem
  refine List.all_eq_true.mpr (fun th' mem => ?_)
  obtain ⟨i,here⟩ := List.getElem?_of_mem mem
  rcases moveThreads (stepMove taken) with ⟨request,label,threads⟩ | same | ⟨j,th,next,found,threads,moved⟩
  · rw [threads] at here
    rcases getArrived here with old | ⟨_,rfl⟩
    · exact each th' (List.mem_of_getElem? old)
    · simp [shut request label]
  · exact each th' (List.mem_of_getElem? (same ▸ here))
  · rw [threads,getPut found] at here
    split at here
    · cases Option.some.inj here
      have before := each th (List.mem_of_getElem? found)
      rw [movedRequest moved]
      cases own : kind th.request with
      | false => rfl
      | true =>
        have finished : th.task.finished = true := by simpa [own] using before
        simpa [finishedKept moved finished] using finished
    · exact each th' (List.mem_of_getElem? here)

theorem collectNone {errs : List GoError} {before : String} {err : Option GoError} (empty : collect errs before err = []) :
    errs = [] ∧ err = none := by
  obtain ⟨noneBefore,here⟩ := List.append_eq_nil_iff.mp empty
  cases err with
  | none => exact ⟨noneBefore,rfl⟩
  | some err => contradiction

theorem drainedServed (grpc : s.drained Request.overGrpc = true) (http : s.drained Request.overHttp = true) :
    s.drained Request.served = true := by
  refine List.all_eq_true.mpr (fun th mem => ?_)
  have first := List.all_eq_true.mp grpc th mem
  have second := List.all_eq_true.mp http th mem
  cases finished : th.task.finished with
  | true => simp
  | false => simpa [finished,Request.served] using And.intro first second

theorem waitedStep {v w : Service} {l : ServiceLabel} (before : v.Waited) (taken : serviceStep u v l = some w) : w.Waited := by
  obtain ⟨system,shutdown,heartbeatDone⟩ := v
  rcases serviceStepCases taken with ⟨k,next,rfl,admitted,moved,rfl⟩ | ⟨other,_,_⟩
  · cases shutdown with
    | serving | stoppingGrpc => trivial
    | stoppingHttp errs =>
      refine fun none => drainedStep (before none) moved (fun request label => ?_)
      subst label
      have turnedAway : request.overGrpc = false ∧ request.overHttp = false := by simpa [Service.admits] using admitted
      exact turnedAway.1
    | closing errs | returned errs =>
      refine fun none => drainedStep (before none) moved (fun request label => ?_)
      subst label
      simpa [Service.admits,Request.served] using admitted
  · cases l with
    | system k => exact absurd rfl (other k)
    | shutdown =>
      cases shutdown <;> first | contradiction | skip
      cases Option.some.inj taken
      trivial
    | grpcStops err =>
      cases shutdown <;> first | contradiction | skip
      simp only [serviceStep] at taken
      split at taken <;> try contradiction
      rename_i ends
      cases Option.some.inj taken
      intro none
      cases err with
      | some err => contradiction
      | none => simpa using ends
    | httpStops err =>
      cases shutdown <;> first | contradiction | skip
      simp only [serviceStep] at taken
      split at taken <;> try contradiction
      rename_i errs ends
      cases Option.some.inj taken
      intro none
      obtain ⟨noneBefore,rfl⟩ := collectNone none
      exact drainedServed (before noneBefore) (by simpa using ends)
    | closes err =>
      cases shutdown <;> first | contradiction | skip
      simp only [serviceStep] at taken
      split at taken <;> try contradiction
      cases Option.some.inj taken
      exact fun none => before (collectNone none).1

theorem waitedReachable {v : Service} (reach : ServiceReachable u env v) : v.Waited := by
  obtain ⟨kpsNow,wsNow,token,_,run⟩ := reach
  have start : (newServer env kpsNow wsNow token).Waited := trivial
  exact reachableInvariant start (fun _ _ _ before taken => waitedStep before taken) run

theorem storesShrink {k : Label} (aside : Aside s) (done : s.drained Request.served = true) (taken : step u s k = some t) :
    (∀ h b, t.kemToBindingMap.lookup h = some b → s.kemToBindingMap.lookup h = some b) ∧
      ∀ id record, t.ws.lookup id = some record → s.ws.lookup id = some record := by
  have none {i : Nat} {th : Thread} {task : Task} (found : s.threads[i]? = some th) (stage : th.task = task)
      (begun : task ≠ .start) (open' : ∀ a, task ≠ .responding a ∧ task ≠ .answered a) : False := by
    have here := List.all_eq_true.mp done th (List.mem_of_getElem? found)
    cases served : th.request.served with
    | false => exact aheadOrDone (aside i th found served) stage begun open'
    | true =>
      have finished : th.task.finished = true := by simpa [served] using here
      cases task with
      | answered a => exact (open' a).2 rfl
      | _ =>
        rw [stage] at finished
        contradiction
  cases stepMove taken with
  | bindingMade found fresh request =>
    have here := List.all_eq_true.mp done _ (List.mem_of_getElem? found)
    rw [request,fresh] at here
    contradiction
  | stored found stage => exact (none found stage (by simp) (by simp)).elim
  | bindingDestroyed found stage => exact (none found stage (by simp) (by simp)).elim
  | unmapped found stage => exact (none found stage (by simp) (by simp)).elim
  | reapedWs past =>
    refine ⟨fun _ _ h => h,fun id record stored => ?_⟩
    rw [reap,Table.lookupRetain,Option.filter_eq_some_iff] at stored
    exact stored.1
  | purged stage => exact ⟨fun _ _ h => h,fun id record stored => absurd stored (by simp)⟩
  | reset stage => exact ⟨fun h b mapped => absurd mapped (by simp),fun _ _ h => h⟩
  | _ => exact ⟨fun _ _ h => h,fun _ _ h => h⟩

structure Frozen (v w : Service) : Prop where
  returned : w.shutdown = v.shutdown
  answered : ∀ (i : Nat) (th : Thread), w.system.threads[i]? = some th → th.request.served = true →
    th.task.finished = true ∧ ∃ before, v.system.threads[i]? = some before ∧ before.request = th.request ∧
      before.task = th.task
  map : ∀ h b, w.system.kemToBindingMap.lookup h = some b → v.system.kemToBindingMap.lookup h = some b
  ws : ∀ id record, w.system.ws.lookup id = some record → v.system.ws.lookup id = some record

theorem frozenStep {v w w' : Service} {l : ServiceLabel} {errs : List GoError} (ended : v.shutdown = .returned errs)
    (aside : Aside w.system) (frozen : Frozen v w) (taken : serviceStep u w l = some w') : Frozen v w' := by
  have ended' := frozen.returned.trans ended
  have done : w.system.drained Request.served = true := by
    refine List.all_eq_true.mpr (fun th mem => ?_)
    obtain ⟨i,found⟩ := List.getElem?_of_mem mem
    cases served : th.request.served with
    | false => rfl
    | true => simpa using (frozen.answered i th found served).1
  rcases serviceStepCases taken with ⟨k,next,rfl,admitted,moved,rfl⟩ | ⟨other,_,_⟩
  · obtain ⟨map,ws⟩ := storesShrink aside done moved
    refine ⟨frozen.returned,fun i th here served => ?_,fun h b mapped => frozen.map h b (map h b mapped),
      fun id record stored => frozen.ws id record (ws id record stored)⟩
    rcases moveThreads (stepMove moved) with ⟨request,label,threads⟩ | same | ⟨j,th₀,next',found,threads,moved'⟩
    · subst label
      simp only [threads] at here
      rcases getArrived here with old | ⟨_,rfl⟩
      · exact frozen.answered i th old served
      · have turnedAway : request.overGrpc = false ∧ request.overHttp = false := by
          simpa [Service.admits,ended'] using admitted
        simp [Request.served,turnedAway] at served
    · exact frozen.answered i th (same ▸ here) served
    · simp only [threads] at here
      rw [getPut found] at here
      split at here
      · rename_i mover
        subst mover
        cases Option.some.inj here
        rw [movedRequest moved'] at served ⊢
        obtain ⟨finished,before,there,request,task⟩ := frozen.answered i th₀ found served
        have same := finishedKept moved' finished
        exact ⟨same ▸ finished,before,there,request,task.trans same.symm⟩
      · exact frozen.answered i th here served
  · cases l with
    | system k => exact absurd rfl (other k)
    | _ =>
      simp only [serviceStep,ended'] at taken
      contradiction

theorem frozenNow {v : Service} (reach : ServiceReachable u env v) (ended : v.shutdown = .returned []) : Frozen v v := by
  have waited := waitedReachable reach
  simp only [Service.Waited,ended] at waited
  refine ⟨rfl,fun i th found served => ?_,fun _ _ h => h,fun _ _ h => h⟩
  have finished := List.all_eq_true.mp (waited trivial) th (List.mem_of_getElem? found)
  exact ⟨by simpa [served] using finished,th,found,rfl,rfl⟩

/- Shutdown can always return, with no more errors than it has, by steps of the requests that
have come in, of a cleanup that holds the mutex and of its own. And once it has returned
without an error nothing is left over: every request that ever came in has its answer, no
other follows, and the map and the binding keys can only lose entries. -/
theorem shutdownLosesNothing {v : Service} (reach : ServiceReachable u env v) :
    (v.system.kems.length + v.system.bindings.length + 6 * v.system.pending ≤ 2 ^ 128 →
      ∃ ls w, Steps (serviceStep u) v ls w ∧ ls.length ≤ 6 * v.system.pending + 6 ∧ (∀ l ∈ ls, l.winds = true) ∧
        w.shutdown = .returned v.shutdown.errors) ∧
    (v.shutdown = .returned [] → ∀ ls w, Steps (serviceStep u) v ls w → Frozen v w) := by
  refine ⟨fun room => ?_,fun ended ls w run => ?_⟩
  · obtain ⟨ls,t,run,length,winds,done⟩ := drains (serviceSystem reach) room
    have last := shutsDown u (v := {v with system := t}) done
    refine ⟨ls.map .system ++ v.shutdown.rest,_,alongAppend (serviceRuns run winds) last,?_,fun l mem => ?_,rfl⟩
    · have short : v.shutdown.rest.length ≤ 4 := by cases v.shutdown <;> simp [Stage.rest]
      rw [List.length_append,List.length_map]
      omega
    · rcases List.mem_append.mp mem with first | rest
      · obtain ⟨k,own,rfl⟩ := List.mem_map.mp first
        exact winds k own
      · exact restWinds v.shutdown l rest
  · have after := @alongInvariant _ _ _ _ (fun w => ServiceReachable u env w ∧ Frozen v w) v ls w ?_ run
      ⟨reach,frozenNow reach ended⟩
    · exact after.2
    · rintro w l w' ⟨⟨kpsNow,wsNow,token,given,before⟩,frozen⟩ _ taken
      have one : Steps (serviceStep u) w [l] w' := .cons trivial taken (.nil w')
      exact ⟨⟨kpsNow,wsNow,token,given,reachableAlong before one⟩,
        frozenStep ended (asideReachable (serviceSystem ⟨kpsNow,wsNow,token,given,before⟩)) frozen taken⟩

end

def shutdownAmidRequests : List ServiceLabel := purgeAmidRequests.map .system ++ [.shutdown]

theorem shutdownLosesNothingInFlight :
    let v := Standin.serviceAfter (Standin.launch "10.0.0.2") shutdownAmidRequests
    v.shutdown = .stoppingGrpc ∧ v.system.pending = 2 ∧ v.system.beat.locked = true ∧
      ∃ ls w, Steps (serviceStep Standin.setup) v ls w ∧ w.shutdown = .returned [] ∧
        ∀ more x, Steps (serviceStep Standin.setup) w more x → Frozen w x := by
  intro v
  have reach : ServiceReachable Standin.setup (Standin.launch "10.0.0.2") v := Standin.serviceAfterReachable (by decide +kernel)
  have stage : v.shutdown = .stoppingGrpc := by decide +kernel
  obtain ⟨ls,w,run,_,_,ended⟩ := (shutdownLosesNothing reach).1 (by decide +kernel)
  rw [stage] at ended
  obtain ⟨kpsNow,wsNow,token,given,before⟩ := reach
  have later : ServiceReachable Standin.setup (Standin.launch "10.0.0.2") w :=
    ⟨kpsNow,wsNow,token,given,reachableAlong before run⟩
  exact ⟨stage,by decide +kernel,by decide +kernel,ls,w,run,ended,(shutdownLosesNothing later).2 ended⟩

end KeyProtection
