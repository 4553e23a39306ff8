import KeyProtection.Moves
import KeyProtection.Standin

/-! A workload service from NewServer to the return of Shutdown, in workload_service/server.go.
Shutdown stops the gRPC server, stops the HTTP server and closes the connection to the KPS.
NewServer keeps the cancel function of the heartbeat's context in heartbeatCancel and nothing
ever calls it: the heartbeat goroutine, with a connection of its own, goes on as before. -/
namespace KeyProtection
open Lib.Run

/- What startHeartbeat finds: the variable KPS_IP, and the error of grpc.NewClient. -/
structure Launch where
  kpsIP : String
  newClient : String → Option GoError

def defaultKpsPort : Nat := 50050

def kpsAddr (kpsIP : String) : String :=
  if kpsIP.toList.contains ':' then kpsIP else kpsIP ++ ":" ++ toString defaultKpsPort

def startHeartbeat (env : Launch) : Beat :=
  if env.kpsIP = "" then .stopped
  else match env.newClient (kpsAddr env.kpsIP) with
    | some _ => .stopped
    | none => .idle none

inductive Stage where
  | serving
  | stoppingGrpc
  | stoppingHttp (errs : List GoError)
  | closing (errs : List GoError)
  | returned (errs : List GoError)
  deriving DecidableEq, Repr

structure Service where
  system : System
  shutdown : Stage
  heartbeatDone : Bool

def newServer (env : Launch) (kpsNow wsNow : Nat) (token : String) : Service :=
  ⟨{System.initial kpsNow wsNow token with beat := startHeartbeat env},.serving,false⟩

inductive ServiceLabel where
  | system (l : Label)
  | shutdown
  -- What ended the wait: GracefulStop, or the error of the context given to Shutdown.
  | grpcStops (err : Option GoError)
  | httpStops (err : Option GoError)
  | closes (err : Option GoError)
  deriving DecidableEq

def Request.overGrpc : Request → Bool
  | .getKeyClaims _ => true
  | _ => false

def Request.overHttp : Request → Bool
  | .getKeyClaims _ => false
  | .kpsGetKeyClaims _ => false
  | _ => true

def Task.finished : Task → Bool
  | .answered _ => true
  | _ => false

def System.drained (s : System) (kind : Request → Bool) : Bool :=
  s.threads.all (fun th => !kind th.request || th.task.finished)

/- A stopped server takes no new requests. The two select statements of the heartbeat leave
by ctx.Done only after a cancellation. -/
def Service.admits (s : Service) : Label → Bool
  | .arrive request =>
      match s.shutdown with
      | .serving => true
      | .stoppingGrpc => !request.overGrpc
      | _ => !request.overGrpc && !request.overHttp
  | .beat .stops => s.heartbeatDone
  | .beat .cancelled => s.heartbeatDone
  | _ => true

/- errs = append(errs,fmt.Errorf(..)) where there is an error. -/
def collect (errs : List GoError) (before : String) (err : Option GoError) : List GoError :=
  errs ++ (err.map (GoError.wrap before)).toList

def serviceStep (u : Setup) (s : Service) : ServiceLabel → Option Service
  | .system l => if s.admits l then (step u s.system l).map (fun t => {s with system := t}) else none
  | .shutdown =>
      match s.shutdown with
      | .serving => some {s with shutdown := .stoppingGrpc}
      | _ => none
  | .grpcStops err =>
      match s.shutdown with
      | .stoppingGrpc =>
        if err.isSome ∨ s.system.drained Request.overGrpc then
          some {s with shutdown := .stoppingHttp err.toList}
        else none
      | _ => none
  | .httpStops err =>
      match s.shutdown with
      | .stoppingHttp errs =>
        if err.isSome ∨ s.system.drained Request.overHttp then
          some {s with shutdown := .closing (collect errs "HTTP server shutdown error: " err)}
        else none
      | _ => none
  | .closes err =>
      match s.shutdown with
      -- Only a service in VM mode has a connection to close.
      | .closing errs =>
        if err.isSome ∧ u.mode ≠ .vm then none
        else some {s with shutdown := .returned (collect errs "gRPC connection close error: " err)}
      | _ => none

def ServiceReachable (u : Setup) (env : Launch) (s : Service) : Prop :=
  ∃ kpsNow wsNow token, token ≠ "" ∧ Lib.Run.Reachable (serviceStep u) (newServer env kpsNow wsNow token) s

def Beat.inFlight : Beat → Bool
  | .calling _ => true
  | .answered _ _ => true
  | _ => false

/- A step of the heartbeat goroutine that sends a Heartbeat RPC (the goroutine waits for the
KPS only right after it), destroys the binding keys or replaces the map. -/
def Intrudes (t : Service) : ServiceLabel → Prop
  | .system (.beat pulse) => (∃ backoff, t.system.beat = .calling backoff) ∨ pulse = .destroysAll ∨ pulse = .resets
  | _ => False

def Silent (u : Setup) (s : Service) : Prop :=
  ∀ ls m l t, Steps (serviceStep u) s ls m → serviceStep u m l = some t → ¬ Intrudes t l

section
variable {u : Setup} {env : Launch} {s t : Service} {l : ServiceLabel}

theorem serviceStepCases (taken : serviceStep u s l = some t) :
    (∃ k next, l = .system k ∧ s.admits k = true ∧ step u s.system k = some next ∧ t = {s with system := next}) ∨
    ((∀ k, l ≠ .system k) ∧ t.system = s.system ∧ t.heartbeatDone = s.heartbeatDone) := by
  cases l with
  | system k =>
    simp only [serviceStep] at taken
    split at taken <;> try contradiction
    rename_i admitted
    obtain ⟨next,moved,same⟩ := Option.map_eq_some_iff.mp taken
    exact .inl ⟨k,next,rfl,admitted,moved,same.symm⟩
  | shutdown =>
    refine .inr ⟨by simp,?_⟩
    simp only [serviceStep] at taken
    split at taken <;> try contradiction
    cases Option.some.inj taken
    exact ⟨rfl,rfl⟩
  | grpcStops err | httpStops err =>
    refine .inr ⟨by simp,?_⟩
    simp only [serviceStep] at taken
    split at taken <;> try contradiction
    split at taken <;> try contradiction
    cases Option.some.inj taken
    exact ⟨rfl,rfl⟩
  | closes err =>
    refine .inr ⟨by simp,?_⟩
    simp only [serviceStep] at taken
    split at taken <;> try contradiction
    split at taken <;> try contradiction
    cases Option.some.inj taken
    exact ⟨rfl,rfl⟩

theorem beatKept {s t : System} {l : Label} (move : Move u s l t) (other : ∀ pulse, l ≠ .beat pulse) :
    t.beat = s.beat := by
  cases move with
  | beaten | heard | purged | reset => exact absurd rfl (other _)
  | _ => rfl

theorem beatStopped {s t : System} {l : Label} (move : Move u s l t) (running : l ≠ .beat .stops) :
    t.beat = .stopped ↔ s.beat = .stopped := by
  by_cases own : ∃ pulse, l = .beat pulse
  · obtain ⟨pulse,label⟩ := own
    subst label
    cases move with
    | quiet found next =>
      cases next with
      | resumed origin _ => cases origin
    | @beaten pulse out keeps unreset unheard taken =>
      have next := beaten keeps unreset unheard taken
      obtain ⟨beat,cached⟩ := out
      generalize s.beat = before at next
      cases next with
      | stops => contradiction
      | _ => simp
    | heard stage =>
      rw [stage]
      dsimp only
      split <;> simp
    | purged stage =>
      rw [stage]
      simp
    | @reset received stage =>
      rw [stage]
      cases received <;> simp [Beat.afterCleanup]
  · rw [beatKept move (fun pulse label => own ⟨pulse,label⟩)]

/- No step cancels the heartbeat's context, so a goroutine that started never ends. -/
theorem heartbeatKept (reach : ServiceReachable u env s) :
    s.heartbeatDone = false ∧ (s.system.beat = .stopped ↔ startHeartbeat env = .stopped) := by
  obtain ⟨kpsNow,wsNow,token,_,run⟩ := reach
  refine @reachableInvariant _ _ _ (fun s => s.heartbeatDone = false ∧
    (s.system.beat = .stopped ↔ startHeartbeat env = .stopped)) _ _ ⟨rfl,.rfl⟩ ?_ run
  intro s l t before taken
  rcases serviceStepCases taken with ⟨k,next,_,admitted,moved,same⟩ | ⟨_,system,done⟩
  · subst same
    have running : k ≠ .beat .stops := by
      intro label
      subst label
      exact Bool.false_ne_true (before.1.symm.trans admitted)
    exact ⟨before.1,(beatStopped (stepMove moved) running).trans before.2⟩
  · rw [system,done]
    exact before

theorem serviceSystem (reach : ServiceReachable u env s) : Reachable u s.system := by
  obtain ⟨kpsNow,wsNow,token,given,run⟩ := reach
  refine ⟨kpsNow,wsNow,token,given,?_⟩
  refine @reachableInvariant _ _ _ (fun s => Lib.Run.Reachable (step u) (System.initial kpsNow wsNow token) s.system)
    _ _ ?_ ?_ run
  · -- A goroutine that ends before its first heartbeat is one that stops at once.
    have ends : startHeartbeat env = .stopped ∨ startHeartbeat env = .idle none := by
      unfold startHeartbeat
      split
      · exact .inl rfl
      split
      · exact .inl rfl
      · exact .inr rfl
    unfold newServer
    rcases ends with same | same <;> rw [same]
    · exact ⟨[.beat .stops],.cons trivial rfl (.nil _)⟩
    · exact ⟨[],.nil _⟩
  · intro s l t before taken
    rcases serviceStepCases taken with ⟨k,next,_,_,moved,same⟩ | ⟨_,system,_⟩
    · subst same
      have one : Steps (step u) s.system [k] next := .cons trivial moved (.nil next)
      exact reachableAlong before one
    · rw [system]
      exact before

theorem beatsOn (pulse : Pulse) {out} (ready : s.system.beat.step u s.system.cachedToken
      ⟨s.system.boot,s.system.token⟩ pulse = some out) (own : pulse ≠ .stops ∧ pulse ≠ .cancelled) :
    ∃ t, serviceStep u s (.system (.beat pulse)) = some t ∧ t.system.beat = out.1 := by
  have admitted : s.admits (.beat pulse) = true := by
    cases pulse <;> first | rfl | simp at own
  simp only [serviceStep,admitted,if_true,step,beat,ready,Option.map_some]
  refine ⟨_,rfl,?_⟩
  cases pulse <;> rfl

theorem loudNow (taken : serviceStep u s l = some t) (intrudes : Intrudes t l) : ¬ Silent u s :=
  fun silent => silent [] s l t (.nil s) taken intrudes

theorem loudLater (taken : serviceStep u s l = some t) (loud : ¬ Silent u t) : ¬ Silent u s :=
  fun silent => loud (fun ls m k next run => silent (l::ls) m k next (.cons trivial taken run))

theorem idleLoud {last} (stage : s.system.beat = .idle last) : ¬ Silent u s := by
  obtain ⟨t,taken,calling⟩ := beatsOn .begins (by rw [stage]; rfl) (by decide)
  exact loudNow taken (.inl ⟨_,calling⟩)

theorem destroyingLoud {received} (stage : s.system.beat = .destroying received) : ¬ Silent u s := by
  obtain ⟨t,taken,_⟩ := beatsOn .destroysAll (by rw [stage]; rfl) (by decide)
  exact loudNow taken (.inr (.inl rfl))

theorem lockingLoud {received} (stage : s.system.beat = .locking received) : ¬ Silent u s := by
  obtain ⟨t,taken,destroying⟩ := beatsOn .locks (by rw [stage]; rfl) (by decide)
  exact loudLater taken (destroyingLoud destroying)

theorem backingOffLoud {backoff} (stage : s.system.beat = .backingOff backoff) : ¬ Silent u s := by
  by_cases last : backoff ≥ u.maxBackoff
  · obtain ⟨t,taken,locking⟩ := beatsOn .timerFires (by rw [stage]; exact if_pos last) (by decide)
    exact loudLater taken (lockingLoud locking)
  · obtain ⟨t,taken,calling⟩ := beatsOn .timerFires (by rw [stage]; exact if_neg last) (by decide)
    exact loudNow taken (.inl ⟨_,calling⟩)

theorem runningLoud (running : s.system.beat ≠ .stopped) (landed : s.system.beat.inFlight = false) : ¬ Silent u s := by
  cases stage : s.system.beat with
  | idle last => exact idleLoud stage
  | calling backoff | answered backoff receipt =>
    rw [stage] at landed
    contradiction
  | backingOff backoff => exact backingOffLoud stage
  | locking received => exact lockingLoud stage
  | destroying received => exact destroyingLoud stage
  | resetting received =>
    obtain ⟨t,taken,_⟩ := beatsOn .resets (by rw [stage]; rfl) (by decide)
    exact loudNow taken (.inr (.inr rfl))
  | returning receipt =>
    obtain ⟨t,taken,idle⟩ := beatsOn .returns (by rw [stage]; rfl) (by decide)
    exact loudLater taken (idleLoud idle)
  | stopped => exact absurd stage running

theorem stoppedSilent (reach : ServiceReachable u env s) (ends : startHeartbeat env = .stopped) : Silent u s := by
  intro ls m l t run taken
  obtain ⟨kpsNow,wsNow,token,given,before⟩ := reach
  have later : ServiceReachable u env m := ⟨kpsNow,wsNow,token,given,reachableAlong before run⟩
  have stopped : m.system.beat = .stopped := (heartbeatKept later).2.mpr ends
  rcases serviceStepCases taken with ⟨k,next,label,_,moved,_⟩ | ⟨other,_⟩
  · subst label
    cases k with
    | beat pulse =>
      obtain ⟨out,ready,_⟩ := Option.map_eq_some_iff.mp moved
      rw [stopped] at ready
      cases pulse <;> contradiction
    | _ => exact id
  · cases l with
    | system k => exact absurd rfl (other k)
    | _ => exact id

theorem neverStarts (env : Launch) :
    startHeartbeat env = .stopped ↔ env.kpsIP = "" ∨ (env.newClient (kpsAddr env.kpsIP)).isSome = true := by
  unfold startHeartbeat
  by_cases unset : env.kpsIP = ""
  · simp [unset]
  · rw [if_neg unset]
    cases env.newClient (kpsAddr env.kpsIP) <;> simp [unset]

def Service.Ended (s : Service) : Prop := (∃ errs, s.shutdown = .returned errs) ∧ s.system.beat.inFlight = false

theorem shutdownSilences (reach : ServiceReachable u env s) (ended : s.Ended) :
    Silent u s ↔ env.kpsIP = "" ∨ (env.newClient (kpsAddr env.kpsIP)).isSome = true := by
  rw [← neverStarts]
  constructor
  · intro silent
    by_contra starts
    have running : s.system.beat ≠ .stopped := fun same => starts ((heartbeatKept reach).2.mp same)
    exact runningLoud running ended.2 silent
  · exact stoppedSilent reach

end

namespace Standin

def serviceAfter (env : Launch) (ls : List ServiceLabel) : Service :=
  (exec (serviceStep setup) (newServer env 0 0 "boot-0") ls).getD (newServer env 0 0 "boot-0")

theorem serviceAfterReachable {env : Launch} {ls : List ServiceLabel}
    (enabled : (exec (serviceStep setup) (newServer env 0 0 "boot-0") ls).isSome) :
    ServiceReachable setup env (serviceAfter env ls) := ⟨0,0,"boot-0",by decide,ls,stepsGetD enabled⟩

def launch (kpsIP : String) : Launch := ⟨kpsIP,fun _ => none⟩

def shuttingDown : List ServiceLabel := [.shutdown,.grpcStops none,.httpStops none,.closes none]

end Standin

theorem shutdownSilencesUnset :
    let s := Standin.serviceAfter (Standin.launch "") ((Standin.generating 0 1 2).map .system ++ Standin.shuttingDown)
    (s.system.ws.lookup 1).isSome = true ∧ Silent Standin.setup s := by
  intro s
  have reach : ServiceReachable Standin.setup (Standin.launch "") s := Standin.serviceAfterReachable (by decide +kernel)
  have ends : s.shutdown = .returned [] ∧ s.system.beat.inFlight = false ∧ (s.system.ws.lookup 1).isSome = true := by
    decide +kernel
  obtain ⟨returned,landed,stored⟩ := ends
  have ended : s.Ended := ⟨⟨[],returned⟩,landed⟩
  exact ⟨stored,(shutdownSilences reach ended).mpr (.inl rfl)⟩

theorem shutdownLeavesHeartbeat :
    let env := Standin.launch "10.0.0.2"
    let s := Standin.serviceAfter env
      ((Standin.generating 0 1 2 ++ Standin.heartbeat).map .system ++ Standin.shuttingDown)
    let later := (Label.restart "boot-1"::Standin.heartbeatPurging).map ServiceLabel.system
    let t := (exec (serviceStep Standin.setup) s later).getD s
    ServiceReachable Standin.setup env s ∧ s.Ended ∧ ¬ Silent Standin.setup s ∧
      Steps (serviceStep Standin.setup) s later t ∧
      (s.system.ws.lookup 1).isSome = true ∧ (s.system.kemToBindingMap.lookup 2).isSome = true ∧
      t.system.ws.lookup 1 = none ∧ t.system.kemToBindingMap.lookup 2 = none := by
  intro env s later t
  have reach : ServiceReachable Standin.setup env s := Standin.serviceAfterReachable (by decide +kernel)
  have runs : Steps (serviceStep Standin.setup) s later t := stepsGetD (by decide +kernel)
  have ends : s.system.beat = .idle (some ⟨0,"boot-0"⟩) ∧ s.shutdown = .returned [] ∧
      (s.system.ws.lookup 1).isSome = true ∧ (s.system.kemToBindingMap.lookup 2).isSome = true ∧
      t.system.ws.lookup 1 = none ∧ t.system.kemToBindingMap.lookup 2 = none := by decide +kernel
  obtain ⟨idle,returned,stores⟩ := ends
  have ended : s.Ended := ⟨⟨[],returned⟩,by rw [idle]; rfl⟩
  exact ⟨reach,ended,idleLoud idle,runs,stores⟩

end KeyProtection
