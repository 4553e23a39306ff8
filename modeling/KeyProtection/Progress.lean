import KeyProtection.Lib.Rank
import KeyProtection.Ownership
import KeyProtection.Standin
import KeyProtection.Decaps

/-! No request is stuck. A handler waits for its own RPC, for the mutex or for nothing, what
the KPS replies always fits the call it was asked, and the cleanup that holds the mutex
needs nobody else to let go of it. So from every state that is reached a request can be
answered by its own steps alone, without a timeout, and no order of steps gives a handler
more than five of them. -/
namespace KeyProtection
open Lib Lib.Run KeyRegistry

def Task.waits : Task → Bool
  | .generateCalling _ _ => true
  | .decapsCalling _ _ => true
  | .destroyCalling _ _ => true
  | .enumerateCalling => true
  | .claimsCalling _ => true
  | _ => false

def Task.expects : Task → KpsCall → Bool
  | .generateCalling _ _, .generate _ _ _ => true
  | .decapsCalling _ _, .decapAndSeal _ _ _ => true
  | .destroyCalling _ _, .destroy _ => true
  | .enumerateCalling, .enumerate _ _ => true
  | .claimsCalling _, .getKEMKey _ => true
  | _, _ => false

def KpsCall.fits : KpsCall → Go KpsReply → Bool
  | .generate _ _ _, .ok (.generated _ _) => true
  | .decapAndSeal _ _ _, .ok (.sealed _ _) => true
  | .destroy _, .ok .destroyed => true
  | .getKEMKey _, .ok (.kem _) => true
  | .enumerate _ _, .ok (.keys _ _) => true
  | _, .ok _ => false
  | .destroy _, .error .panic => false
  | _, .error _ => true

def Task.left : Task → Nat
  | .start => 5
  | .generateStoring _ _ _ _ => 3
  | .decapsOpening _ _ _ _ => 3
  | .destroyBinding _ _ _ => 3
  | .destroyUnmapping _ _ _ _ => 2
  | .claimsBinding _ _ => 2
  | .responding _ => 1
  | .answered _ => 0
  | _ => 4

def Thread.left (th : Thread) : Nat :=
  match th.rpc with
  | some ⟨_,some _⟩ => th.task.left
  | _ => if th.task = .start ∨ th.task.waits then th.task.left + 1 else th.task.left

def Label.codeOf (i : Nat) : Label → Bool
  | .serve _ _ => false
  | l => l.mover == some i

def Awaiting (s : System) : Prop :=
  ∀ (i : Nat) (th : Thread), s.threads[i]? = some th → th.task.waits = true →
    ∃ call reply, th.rpc = some ⟨call,reply⟩ ∧ th.task.expects call = true ∧ ∀ r, reply = some r → call.fits r = true

theorem serveFits (x : Externals) (keys : KeyRegistry) (now : Nat) (entropy : Entropy) (call : KpsCall) :
    call.fits (serveCall x keys now entropy call).1 = true := by
  cases call with
  | generate algo bindingPubKey lifespanSecs =>
    simp only [serveCall]
    cases (KpsCore.generateKEMKeypair x keys now entropy algo bindingPubKey lifespanSecs).1 <;> rfl
  | decapAndSeal kemUUID encapsulatedKey aad =>
    simp only [serveCall]
    cases KpsCore.decapAndSeal x keys now entropy.seed kemUUID encapsulatedKey aad <;> rfl
  | destroy kemUUID =>
    simp only [serveCall]
    split <;> rfl
  | getKEMKey id =>
    simp only [serveCall]
    cases KpsCore.getKEMKey x keys now now id <;> rfl
  | enumerate limit offset =>
    simp only [serveCall]
    cases KpsCore.enumerateKEMKeys x keys now (fun _ => now) limit offset <;> rfl

theorem resumesFit (u : Setup) {task : Task} {call : KpsCall} {reply : Go KpsReply} (expects : task.expects call = true)
    (fits : call.fits reply = true) : ∃ next, resume u task (adapt u.mode call reply) = some next := by
  cases reply with
  | ok reply =>
    cases task <;> cases call <;> first | contradiction | skip
    all_goals cases reply <;> first | contradiction | exact ⟨_,rfl⟩
  | error fault =>
    cases task <;> cases call <;> first | contradiction | skip
    all_goals cases fault <;> first | contradiction | exact ⟨_,rfl⟩

section
variable {u : Setup} {s t : System} {l : Label} {i : Nat} {th th' : Thread}

/-! The calls in flight. -/

theorem resumedReady {task task' : Task} {result : Go KpsReply} (resumes : Resumption u task result task') :
    task'.waits = false := by
  cases resumes <;> rfl

theorem waitsBefore (moved : Moved u s l t i th th') (waits : th'.task.waits = true) :
    (th.task = .start ∧ ∃ call, th'.rpc = some ⟨call,none⟩ ∧ th'.task.expects call = true) ∨
      (th'.task = th.task ∧ ∃ entropy call reply, l = .serve i entropy ∧ th.rpc = some ⟨call,none⟩ ∧
        th'.rpc = some ⟨call,some reply⟩) := by
  cases moved with
  | quiet taken same =>
    cases taken with
    | resumed origin next =>
      have ready := resumedReady (resumption next)
      exact absurd waits (by simp [Thread.goto,ready])
    | decapsFound fresh => exact .inl ⟨fresh,_,rfl,rfl⟩
    | destroyFound fresh => exact .inl ⟨fresh,_,rfl,rfl⟩
    | enumerating fresh => exact .inl ⟨fresh,_,rfl,rfl⟩
    | claimsSent fresh => exact .inl ⟨fresh,_,rfl,rfl⟩
    | _ => contradiction
  | making label fresh request born ws => exact .inl ⟨fresh,_,rfl,rfl⟩
  | replied label sent reads destroys => exact .inr ⟨rfl,_,_,_,label,sent,rfl⟩
  | _ => contradiction

theorem servedBy {entropy : Entropy} (found : s.threads[i]? = some th) (taken : step u s (.serve i entropy) = some t) :
    ∃ call, th.rpc = some ⟨call,none⟩ ∧ t.beat = s.beat ∧
      t.threads[i]? = some {th with rpc := some ⟨call,some (serveCall u.x s.kps s.kpsNow entropy call).1⟩} := by
  obtain ⟨th',found',next⟩ := Option.bind_eq_some_iff.mp taken
  cases Option.some.inj (found.symm.trans found')
  unfold serve at next
  split at next <;> try contradiction
  rename_i call sent
  split at next <;> try contradiction
  cases Option.some.inj next
  refine ⟨call,sent,rfl,?_⟩
  simp only [System.put]
  rw [getPut found,if_pos rfl]

theorem awaitingStep (before : Awaiting s) (taken : step u s l = some t) : Awaiting t := by
  intro j th' here waits
  rcases threadBefore (stepMove taken) here with ⟨request,_,rfl⟩ | old | ⟨th,found,moved⟩
  · contradiction
  · exact before j th' old waits
  · rcases waitsBefore moved waits with ⟨_,call,sent,expects⟩ | ⟨same,entropy,call,reply,label,sent,replied⟩
    · exact ⟨call,none,sent,expects,by simp⟩
    · subst label
      obtain ⟨call',sent',_,after⟩ := servedBy found taken
      cases Option.some.inj (sent.symm.trans sent')
      cases Option.some.inj (here.symm.trans after)
      obtain ⟨asked,reply',sent'',expects,_⟩ := before j th found waits
      cases Option.some.inj (sent.symm.trans sent'')
      refine ⟨call,_,rfl,expects,fun r known => ?_⟩
      cases Option.some.inj known
      exact serveFits u.x s.kps s.kpsNow entropy call

theorem awaitingReachable (reach : Reachable u s) : Awaiting s := by
  obtain ⟨kpsNow,wsNow,token,_,reached⟩ := reach
  refine reachableInvariant ?_ (fun s l m before taken => awaitingStep before taken) reached
  intro i th found
  simp [System.initial] at found

/-! Every step of a handler brings it closer to its answer. -/

theorem resumedLeft {task task' : Task} {result : Go KpsReply} (resumes : Resumption u task result task') :
    task'.left < task.left := by
  cases resumes with
  | faulted ends failure => cases task <;> first | contradiction | simp [Task.left]
  | _ => simp [Task.left]

theorem quietLeft (taken : Quiet u s i th l th') : th'.task.left < th.task.left := by
  cases taken with
  | resumed origin next => exact resumedLeft (resumption next)
  | opened stage => simp [Thread.respond,Thread.goto,stage,Task.left]
  | claimed stage => simp [Thread.respond,Thread.goto,stage,Task.left]
  | answered stage => simp [Thread.goto,stage,Task.left]
  | refused fresh => simp [Thread.respond,Thread.goto,fresh,Task.left]
  | notMade fresh => simp [Thread.respond,Thread.goto,fresh,Task.left]
  | decapsFound fresh => simp [Thread.call,fresh,Task.left]
  | decapsMissing fresh => simp [Thread.respond,Thread.goto,fresh,Task.left]
  | destroyFound fresh => simp [Thread.call,fresh,Task.left]
  | destroyMissing fresh => simp [Thread.respond,Thread.goto,fresh,Task.left]
  | enumerating fresh => simp [Thread.call,fresh,Task.left]
  | claimsSent fresh => simp [Thread.call,fresh,Task.left]
  | claimsFound fresh => simp [Thread.goto,fresh,Task.left]
  | claimsMissing fresh => simp [Thread.respond,Thread.goto,fresh,Task.left]
  | kpsClaims fresh => simp [Thread.respond,Thread.goto,fresh,Task.left]

theorem movedLeft (moved : Moved u s l t i th th') :
    th'.task.left < th.task.left ∨ (th'.task = th.task ∧ ∃ entropy, l = .serve i entropy) := by
  cases moved with
  | quiet taken same => exact .inl (quietLeft taken)
  | making label fresh request born ws => exact .inl (by simp [Thread.call,fresh,Task.left])
  | replied label sent reads destroys => exact .inr ⟨rfl,_,label⟩
  | storing label stage map => exact .inl (by simp [Thread.respond,Thread.goto,stage,Task.left])
  | unbinding label stage ws log => exact .inl (by simp [Thread.goto,stage,Task.left])
  | unmapping label stage map => exact .inl (by simp [Thread.respond,Thread.goto,stage,Task.left])

theorem leftBound (task : Task) : task.left ≤ 5 := by
  cases task <;> simp [Task.left]

theorem leftAtMost (th : Thread) : th.left ≤ 6 := by
  have := leftBound th.task
  unfold Thread.left
  split
  · omega
  · split <;> omega

theorem leftNone {task : Task} (none : task.left = 0) : ∃ a, task = .answered a := by
  cases task <;> first | contradiction | exact ⟨_,rfl⟩

theorem threadLeft (th : Thread) : th.task.left ≤ th.left := by
  unfold Thread.left
  split
  · exact Nat.le_refl _
  · split
    · exact Nat.le_succ _
    · exact Nat.le_refl _

theorem leftAt (begun : th.task ≠ .start) (ready : th.task.waits = false) : th.left = th.task.left := by
  unfold Thread.left
  split
  · rfl
  · rw [if_neg (by simp [begun,ready])]

theorem handledLowers (silent : th.task = .start → th.rpc = none) (moved : Moved u s l t i th th')
    (handles : l.codeOf i = true) : th'.left < th.left := by
  rcases movedLeft moved with less | ⟨_,entropy,rfl⟩
  · cases waits : th'.task.waits with
    | true =>
      rcases waitsBefore moved waits with ⟨fresh,call,sent,expects⟩ | ⟨_,entropy,_,_,rfl,_⟩
      · have before : th.left = 6 := by simp [Thread.left,silent fresh,fresh,Task.left]
        have after : th'.left = th'.task.left + 1 := by simp [Thread.left,sent,waits]
        have top : th.task.left = 5 := by rw [fresh]; rfl
        omega
      · contradiction
    | false =>
      have begun : th'.task ≠ .start := by
        intro fresh
        rw [fresh] at less
        exact absurd less (Nat.not_lt.mpr (leftBound th.task))
      rw [leftAt begun waits]
      exact Nat.lt_of_lt_of_le less (threadLeft th)
  · contradiction

theorem handlesMover (handles : l.codeOf i = true) : l.mover = some i := by
  cases l <;> first | contradiction | exact beq_iff_eq.mp handles

theorem moverSets (move : Move u s l t) (mover : l.mover = some i) (found : s.threads[i]? = some th) :
    ∃ th', t.threads = s.threads.set i th' ∧ Moved u s l t i th th' := by
  have moves : ∃ j th₀ th', s.threads[j]? = some th₀ ∧ t.threads = s.threads.set j th' ∧ Moved u s l t j th₀ th' := by
    rcases moveThreads move with ⟨request,rfl,_⟩ | same | moves
    · contradiction
    · cases move with
      | quiet found next => exact ⟨_,_,_,found,rfl,.quiet next rfl⟩
      | bindingMade found fresh request planned unused decoded created spec =>
        exact ⟨_,_,_,found,rfl,.making rfl fresh request rfl rfl⟩
      | kemMade found sent unused bound decoded created spec =>
        exact ⟨_,_,_,found,rfl,.replied rfl sent (by simp [KpsCall.creates]) (by simp)⟩
      | kemDestroyed found sent =>
        refine ⟨_,_,_,found,rfl,.replied rfl sent (by simp) (fun kemUUID same => ?_)⟩
        cases same
        exact ⟨rfl,rfl⟩
      | served found sent reads nothing keeps =>
        exact ⟨_,_,_,found,rfl,.replied rfl sent (fun _ _ => reads) (fun kemUUID same => absurd same (keeps kemUUID))⟩
      | stored found stage free => exact ⟨_,_,_,found,rfl,.storing rfl stage rfl⟩
      | bindingDestroyed found stage => exact ⟨_,_,_,found,rfl,.unbinding rfl stage rfl rfl⟩
      | unmapped found stage free => exact ⟨_,_,_,found,rfl,.unmapping rfl stage rfl⟩
      | _ => contradiction
    · exact moves
  obtain ⟨j,th₀,th',there,threads,moved⟩ := moves
  cases Option.some.inj ((movedMover moved).symm.trans mover)
  cases Option.some.inj (there.symm.trans found)
  exact ⟨th',threads,moved⟩

theorem moverMoves (move : Move u s l t) (mover : l.mover = some i) (found : s.threads[i]? = some th) :
    ∃ th', t.threads[i]? = some th' ∧ Moved u s l t i th th' := by
  obtain ⟨th',threads,moved⟩ := moverSets move mover found
  exact ⟨th',by rw [threads,getPut found,if_pos rfl],moved⟩

theorem servedLowers {entropy : Entropy} (waits : th.task.waits = true) (found : s.threads[i]? = some th)
    (taken : step u s (.serve i entropy) = some t) : ∃ th', t.threads[i]? = some th' ∧ th'.left < th.left := by
  obtain ⟨call,sent,_,after⟩ := servedBy found taken
  exact ⟨_,after,by simp [Thread.left,sent,waits]⟩

/-! A request that is not answered has a step to take. -/

theorem freshId (room : s.kems.length + s.bindings.length < 2 ^ 128) : ∃ id, s.Fresh id := by
  by_contra none
  have taken : ∀ id : Uuid, id ∈ s.kems.map (fun birth => birth.record.id) ++ s.bindings.map (fun birth => birth.record.id) := by
    intro id
    by_contra unused
    rw [List.mem_append,not_or] at unused
    exact none ⟨id,unused⟩
  let count := s.kems.length + s.bindings.length + 1
  have distinct : ((List.range count).map (fun n => (BitVec.ofNat 128 n : Uuid))).Nodup := by
    refine (List.nodup_range).map_on (fun a inA b inB same => ?_)
    have boundA := List.mem_range.mp inA
    have boundB := List.mem_range.mp inB
    have values := congrArg BitVec.toNat same
    rw [BitVec.toNat_ofNat,BitVec.toNat_ofNat,Nat.mod_eq_of_lt (by omega),Nat.mod_eq_of_lt (by omega)] at values
    exact values
  have few := (List.subperm_of_subset distinct (fun id _ => taken id)).length_le
  simp only [List.length_map,List.length_range,List.length_append] at few
  omega

theorem startEnabled {id : Uuid} (free : s.beat.locked = false) (fresh : s.Fresh id) :
    (start u s i th ⟨id,[],true⟩).isSome := by
  unfold start
  split
  · unfold startGenerate
    split
    · rfl
    · rw [if_neg (not_not.mpr fresh)]
      simp only
      split <;> rfl
  · unfold startDecaps
    split
    · rfl
    · simp only [free,Bool.false_eq_true,if_false]
      split <;> rfl
  · unfold startDestroy
    split
    · rfl
    · simp only [free,Bool.false_eq_true,if_false]
      split <;> rfl
  · rfl
  · unfold startClaims
    split
    · rfl
    · rfl
    · simp only [free,Bool.false_eq_true,if_false]
      split <;> rfl
  · rfl

theorem ownEnabled (u : Setup) {id : Uuid} (awaiting : Awaiting s) (free : s.beat.locked = false) (fresh : s.Fresh id)
    (found : s.threads[i]? = some th) (undone : ∀ a, th.task ≠ .answered a) :
    ∃ l, l.own i = true ∧ (step u s l).isSome ∧
      (l.codeOf i = true ∨ (th.task.waits = true ∧ ∃ entropy, l = .serve i entropy)) := by
  have own : (Label.advance i ⟨id,[],true⟩).own i = true := beq_iff_eq.mpr rfl
  have handles : (Label.advance i ⟨id,[],true⟩).codeOf i = true := beq_iff_eq.mpr rfl
  cases waits : th.task.waits with
  | true =>
    obtain ⟨call,reply,sent,expects,fits⟩ := awaiting i th found waits
    cases reply with
    | none =>
      refine ⟨.serve i ⟨id,[],true⟩,beq_iff_eq.mpr rfl,?_,.inr ⟨rfl,_,rfl⟩⟩
      simp [step,found,serve,sent,fresh]
    | some reply =>
      obtain ⟨next,resumes⟩ := resumesFit u expects (fits reply rfl)
      refine ⟨.receive i,beq_iff_eq.mpr rfl,?_,.inl (beq_iff_eq.mpr rfl)⟩
      simp [step,found,receive,sent,resumes]
  | false =>
    refine ⟨.advance i ⟨id,[],true⟩,own,?_,.inl handles⟩
    cases stage : th.task with
    | start => simpa [step,found,advance,stage] using startEnabled free fresh
    | answered a => exact absurd stage (undone a)
    | generateStoring plan b k kemPubKey => simp [step,found,advance,stage,free]
    | decapsOpening call b sealEnc sealedCT => simp [step,found,advance,stage]
    | destroyBinding k b errKps => simp [step,found,advance,stage]
    | destroyUnmapping k b errKps errWs => simp [step,found,advance,stage,free]
    | claimsBinding k b => simp [step,found,advance,stage]
    | responding a => simp [step,found,advance,stage]
    | _ =>
      rw [stage] at waits
      contradiction

theorem ownBeat (own : l.own i = true) (taken : step u s l = some t) : t.beat = s.beat := by
  cases stepMove taken <;> first | rfl | contradiction

theorem birthsStep (taken : step u s l = some t) :
    t.kems.length + t.bindings.length ≤ s.kems.length + s.bindings.length + 1 := by
  cases stepMove taken <;> simp [System.put] <;> omega

def Beat.holds : Beat → Nat
  | .destroying _ => 2
  | .resetting _ => 1
  | _ => 0

theorem holdsLocked {beat : Beat} : beat.holds = 0 ↔ beat.locked = false := by
  cases beat <;> simp [Beat.holds,Beat.locked]

structure Spared (s t : System) : Prop where
  threads : t.threads = s.threads
  kems : t.kems = s.kems
  bindings : t.bindings = s.bindings
  kps : t.kps = s.kps
  kpsNow : t.kpsNow = s.kpsNow
  wsNow : t.wsNow = s.wsNow

theorem cleanupEnds (u : Setup) (s : System) : ∃ ls t, Steps (step u) s ls t ∧
    (∀ l ∈ ls, l = .beat .destroysAll ∨ l = .beat .resets) ∧ ls.length ≤ 2 ∧ t.beat.locked = false ∧ Spared s t ∧
    (s.beat.locked = false → t = s) := by
  have lowers : ∀ t : System, Spared s t → 0 < t.beat.holds →
      ∃ l t', (l = Label.beat .destroysAll ∨ l = Label.beat .resets) ∧ step u t l = some t' ∧ Spared s t' ∧
        t'.beat.holds < t.beat.holds := by
    intro t same holds
    cases stage : t.beat with
    | destroying received =>
      have taken : step u t (.beat .destroysAll) = some {t with
          beat := .resetting received, ws := (WsCore.destroyAllKeys t.ws).2, purged := t.ws.keys ++ t.purged} := by
        simp [step,beat,stage,Beat.step]
      exact ⟨_,_,.inl rfl,taken,⟨same.1,same.2,same.3,same.4,same.5,same.6⟩,by simp [Beat.holds]⟩
    | resetting received =>
      have taken : step u t (.beat .resets) = some {t with
          beat := Beat.afterCleanup received, kemToBindingMap := ∅} := by
        simp [step,beat,stage,Beat.step]
      exact ⟨_,_,.inr rfl,taken,⟨same.1,same.2,same.3,same.4,same.5,same.6⟩,
        by cases received <;> simp [Beat.holds,Beat.afterCleanup]⟩
    | _ =>
      rw [stage] at holds
      contradiction
  obtain ⟨ls,t,run,pulses,short,same,free⟩ := runsDown lowers s ⟨rfl,rfl,rfl,rfl,rfl,rfl⟩
  have bound : s.beat.holds ≤ 2 := by cases s.beat <;> simp [Beat.holds]
  refine ⟨ls,t,run,pulses,short.trans bound,holdsLocked.mp free,same,fun idle => ?_⟩
  rw [holdsLocked.mpr idle] at short
  cases List.eq_nil_of_length_eq_zero (Nat.le_zero.mp short)
  cases run
  rfl

structure Onward (s t : System) (i : Nat) (th th' : Thread) : Prop where
  threads : t.threads = s.threads.set i th'
  request : th'.request = th.request
  less : th'.left < th.left
  beat : t.beat = s.beat
  births : t.kems.length + t.bindings.length ≤ s.kems.length + s.bindings.length + 1

theorem handlerSteps (owned : Owned u s) (awaiting : Awaiting s) (free : s.beat.locked = false)
    (found : s.threads[i]? = some th) (more : 0 < th.left)
    (room : s.kems.length + s.bindings.length + th.left ≤ 2 ^ 128) :
    ∃ l t th', l.own i = true ∧ step u s l = some t ∧ Onward s t i th th' := by
  have undone : ∀ a, th.task ≠ .answered a := by
    intro a done
    have none : th.left = 0 := by
      rw [leftAt (by rw [done]; exact Task.noConfusion) (by rw [done]; rfl),done]
      rfl
    omega
  obtain ⟨id,fresh⟩ := freshId (Nat.lt_of_lt_of_le (Nat.lt_add_of_pos_right more) room)
  obtain ⟨l,own,enabled,kind⟩ := ownEnabled u awaiting free fresh found undone
  obtain ⟨t,taken⟩ := Option.isSome_iff_exists.mp enabled
  have mover : l.mover = some i := by
    rcases kind with handles | ⟨_,entropy,rfl⟩
    · exact handlesMover handles
    · rfl
  obtain ⟨th',threads,moved⟩ := moverSets (stepMove taken) mover found
  have less : th'.left < th.left := by
    rcases kind with handles | ⟨waits,entropy,rfl⟩
    · exact handledLowers (owned.threads i th found).silent moved handles
    · obtain ⟨th₁,here,lower⟩ := servedLowers waits found taken
      rw [threads,getPut found,if_pos rfl] at here
      exact Option.some.inj here ▸ lower
  exact ⟨l,t,th',own,taken,threads,movedRequest moved,less,ownBeat own taken,birthsStep taken⟩

structure Clear (u : Setup) (i : Nat) (s : System) : Prop where
  owned : Owned u s
  awaiting : Awaiting s
  free : s.beat.locked = false
  here : ∃ th, s.threads[i]? = some th ∧ s.kems.length + s.bindings.length + th.left ≤ 2 ^ 128

def System.left (i : Nat) (s : System) : Nat := (s.threads[i]?.map Thread.left).getD 0

theorem clearLowers (clear : Clear u i s) (more : 0 < s.left i) :
    ∃ l t, l.own i = true ∧ step u s l = some t ∧ Clear u i t ∧ t.left i < s.left i := by
  obtain ⟨th,found,room⟩ := clear.here
  have count : s.left i = th.left := by simp [System.left,found]
  obtain ⟨l,t,th',own,taken,onward⟩ := handlerSteps clear.owned clear.awaiting clear.free found (count ▸ more) room
  have here : t.threads[i]? = some th' := by rw [onward.threads,getPut found,if_pos rfl]
  have births := onward.births
  have less := onward.less
  refine ⟨l,t,own,taken,⟨ownedStep clear.owned (stepMove taken),awaitingStep clear.awaiting taken,
    onward.beat ▸ clear.free,th',here,?_⟩,?_⟩
  · omega
  · simp only [System.left,here,found,Option.map_some,Option.getD_some]
    exact less

theorem handledBounds (taken : step u s l = some t) (found : s.threads[i]? = some th) :
    ∃ th', t.threads[i]? = some th' ∧ th'.task.left ≤ th.task.left ∧
      (l.codeOf i = true → th'.task.left < th.task.left) := by
  have move := stepMove taken
  cases handles : l.codeOf i with
  | true =>
    obtain ⟨th',here,moved⟩ := moverMoves move (handlesMover handles) found
    rcases movedLeft moved with less | ⟨_,entropy,rfl⟩
    · exact ⟨th',here,Nat.le_of_lt less,fun _ => less⟩
    · contradiction
  | false =>
    rcases threadAfter move found with same | ⟨th',here,moved⟩
    · exact ⟨th,same,Nat.le_refl _,by simp⟩
    · refine ⟨th',here,?_,by simp⟩
      rcases movedLeft moved with less | ⟨same,_⟩
      · exact Nat.le_of_lt less
      · exact Nat.le_of_eq (congrArg Task.left same)

/- Every request can be answered from every state: when a cleanup holds the mutex it ends by
itself, and then the request's own steps lead to its answer. And however the steps of all
parties are ordered, no handler takes more than five. -/
theorem requestsFinish (reach : Reachable u s) (found : s.threads[i]? = some th)
    (room : s.kems.length + s.bindings.length + 6 ≤ 2 ^ 128) :
    (∃ ls t th' a, Steps (step u) s ls t ∧ ls.length ≤ 8 ∧
      (∀ l ∈ ls, l.own i = true ∨ l = .beat .destroysAll ∨ l = .beat .resets) ∧
      t.threads[i]? = some th' ∧ th'.task = .answered a) ∧
    ∀ ls t, Steps (step u) s ls t → ls.countP (Label.codeOf i) ≤ 5 := by
  refine ⟨?_,fun ls t run => ?_⟩
  · obtain ⟨ks,m,cleanup,pulses,short,free,spared,_⟩ := cleanupEnds u s
    have reach' : Reachable u m := by
      obtain ⟨kpsNow,wsNow,token,given,before⟩ := reach
      exact ⟨kpsNow,wsNow,token,given,reachableAlong before cleanup⟩
    have few := leftAtMost th
    have clear : Clear u i m := by
      refine ⟨ownedReachable reach',awaitingReachable reach',free,th,spared.threads ▸ found,?_⟩
      rw [spared.kems,spared.bindings]
      exact (Nat.add_le_add_left few _).trans room
    obtain ⟨ls,t,run,own,length,done,zero⟩ := runsDown (fun s => clearLowers) m clear
    obtain ⟨th',here,_⟩ := done.here
    have none : th'.task.left = 0 := by
      have same : t.left i = th'.left := by simp [System.left,here]
      have := threadLeft th'
      omega
    obtain ⟨a,answered⟩ := leftNone none
    refine ⟨ks ++ ls,t,th',a,alongAppend cleanup run,?_,fun l mem => ?_,here,answered⟩
    · have same : m.left i = th.left := by simp [System.left,spared.threads,found]
      rw [List.length_append]
      omega
    · rcases List.mem_append.mp mem with first | last
      · exact .inr (pulses l first)
      · exact .inl (own l last)
  · let rank (s : System) : Nat := (s.threads[i]?.map (fun th => th.task.left)).getD 0
    have keeps : ∀ s l t, (∃ th, s.threads[i]? = some th) → True → step u s l = some t →
        (∃ th, t.threads[i]? = some th) ∧ rank t ≤ rank s ∧ (l.codeOf i = true → rank t < rank s) := by
      rintro s l t ⟨th,found⟩ _ taken
      obtain ⟨th',here,lower,less⟩ := handledBounds taken found
      refine ⟨⟨th',here⟩,?_⟩
      simp only [rank,found,here,Option.map_some,Option.getD_some]
      exact ⟨lower,less⟩
    have bounded := runsBounded keeps run ⟨th,found⟩
    have most : rank s ≤ 5 := by
      simp only [rank,found,Option.map_some,Option.getD_some]
      exact leftBound th.task
    omega

end

def purgeAmidRequests : List Label :=
  Standin.generating 0 1 2 ++ [.arrive (Standin.decapsRequest 2 (Standin.pad32 [9])),.arrive Standin.generateRequest] ++
    Standin.heartbeat ++ [.restart "boot-1",.beat .begins,.beat .kpsAnswers,.beat .receives,.beat .locks]

theorem requestsFinishPurging :
    let s := Standin.after purgeAmidRequests
    s.beat.locked = true ∧ s.threads.map Thread.task = [.answered (.http 200 (.key ⟨uuidString 2,1,Standin.pad32 [2],
      "KEY_PROTECTION_VM_EMULATED"⟩)),.start,.start] ∧
    ∃ ls t th a, Steps (step Standin.setup) s ls t ∧ ls.length ≤ 8 ∧ t.threads[1]? = some th ∧ th.task = .answered a := by
  intro s
  have reach : Reachable Standin.setup s := Standin.afterReachable _ (by decide +kernel)
  have tasks : s.threads.map Thread.task = [.answered (.http 200 (.key ⟨uuidString 2,1,Standin.pad32 [2],
      "KEY_PROTECTION_VM_EMULATED"⟩)),.start,.start] := by decide +kernel
  have waiting : (s.threads[1]?).isSome := by decide +kernel
  obtain ⟨th,found⟩ := Option.isSome_iff_exists.mp waiting
  obtain ⟨⟨ls,t,th',a,run,short,_,here,answered⟩,_⟩ := requestsFinish reach found (by decide +kernel)
  exact ⟨by decide +kernel,tasks,ls,t,th',a,run,short,here,answered⟩

end KeyProtection
