import KeyProtection.Lib.Refine
import KeyProtection.Lib.Cells
import KeyProtection.Ffi

/-! What a process with custody cores in it writes: km_common/src/telemetry.rs and the two
wrappers of lib.rs that every entry point runs in. A panic is reported by the panic hook
first and then, when it has been caught, by the wrapper; an error by the wrapper only. Calls
run on any number of threads, and the hook is the process's own. -/
namespace KeyProtection
open Lib Lib.Run Lib.Refine Lib.Cells

inductive KccOperation where
  | generateKemKeypair | destroyKemKey | enumerateKemKeys | decapAndSeal | getKemKey
  | generateBindingKeypair | destroyBindingKey | destroyAllBindingKeys | open | enumerateBindingKeys | getBindingKey
  deriving DecidableEq, Repr

def KccOperation.asStr : KccOperation → String
  | .generateKemKeypair => "generate_kem_keypair"
  | .destroyKemKey => "destroy_kem_key"
  | .enumerateKemKeys => "enumerate_kem_keys"
  | .decapAndSeal => "decap_and_seal"
  | .getKemKey => "get_kem_key"
  | .generateBindingKeypair => "generate_binding_keypair"
  | .destroyBindingKey => "destroy_binding_key"
  | .destroyAllBindingKeys => "destroy_all_binding_keys"
  | .open => "open"
  | .enumerateBindingKeys => "enumerate_binding_keys"
  | .getBindingKey => "get_binding_key"

inductive FailureKind where
  | error | panic
  deriving DecidableEq, Repr

def FailureKind.asStr : FailureKind → String
  | .error => "error"
  | .panic => "panic"

structure Failure where
  operation : KccOperation
  status : Status
  kind : FailureKind
  deriving DecidableEq, Repr

/- What the closure of an entry point comes to. The payload of a panic is whatever text the
code that panics has put together. ffi_call has no use for the value. -/
inductive Ran where
  | ok (val : Int32)
  | err (status : Status)
  | panicked (payload : String)
  deriving DecidableEq, Repr

def Ran.result : Ran → Rust Unit
  | .ok _ => .ok ()
  | .err status => .error (.err status)
  | .panicked _ => .error .panic

def ffiCallWithReporter (operation : KccOperation) : Ran → Status × Option Failure
  | .ok _ => (.success,none)
  | .err status => (status,some ⟨operation,status,.error⟩)
  | .panicked _ => (.internalError,some ⟨operation,.internalError,.panic⟩)

def ffiCallI32WithReporter (operation : KccOperation) : Ran → Int32 × Option Failure
  | .ok val => (val,none)
  | .err status => (-(Int32.ofNat status.code),some ⟨operation,status,.error⟩)
  | .panicked _ => (-(Int32.ofNat Status.internalError.code),some ⟨operation,.internalError,.panic⟩)

/- A line of the output: an event in JSON with the text it is named by here, or what Rust's
own panic hook prints. Times and levels are left out. -/
inductive Line where
  | fatalPanicOccurred (failureKind serviceName : String)
  | kccOperationFailed (operation status failureKind serviceName : String)
  | panickedAt (payload : String)
  deriving DecidableEq, Repr

def Line.serviceName : Line → Option String
  | .fatalPanicOccurred _ serviceName => some serviceName
  | .kccOperationFailed _ _ _ serviceName => some serviceName
  | .panickedAt _ => none

def defaultServiceName : String := "key_protection_service"

def serviceNameOf : Option Bytes → String
  | none => defaultServiceName
  | some slice =>
    if slice.length = 0 then defaultServiceName
    else (String.fromUTF8? (ByteArray.mk slice.toArray)).getD defaultServiceName

/-! The process. -/

/- key_manager_init_telemetry after each of its three statements. -/
inductive InitStage where
  | named | subscribed | done
  deriving DecidableEq, Repr

inductive FfiStage where
  | running
  -- Before the hook has run.
  | unwinding (payload : String)
  | caught (ran : Ran)
  | returned (ran : Ran)
  deriving DecidableEq, Repr

structure FfiCall where
  operation : KccOperation
  -- By ffi_call_i32.
  counts : Bool
  stage : FfiStage
  deriving DecidableEq, Repr

structure Process where
  serviceName : Option String
  subscriber : Bool
  hook : Bool
  inits : List InitStage
  calls : List FfiCall
  lines : List Line
  -- The panics of other threads so far. No code reads the number.
  crashed : Nat
  deriving DecidableEq, Repr

def fatalLine (serviceName : String) : Line := .fatalPanicOccurred FailureKind.panic.asStr serviceName

def failedLine (serviceName : String) (failure : Failure) : Line :=
  .kccOperationFailed failure.operation.asStr failure.status.asStrName failure.kind.asStr serviceName

def Process.fresh : Process := ⟨none,false,false,[],[],[],0⟩

inductive Act where
  | initTelemetry (serviceName : Option Bytes)
  | initAdvances (i : Nat)
  | enter (operation : KccOperation) (counts : Bool)
  | ends (i : Nat) (ran : Ran)
  | unwinds (i : Nat)
  | reports (i : Nat)
  | threadPanics (payload : String)
  deriving DecidableEq, Repr

def FfiCall.failure (call : FfiCall) (ran : Ran) : Option Failure :=
  if call.counts then (ffiCallI32WithReporter call.operation ran).2 else (ffiCallWithReporter call.operation ran).2

namespace Process

def getServiceName (p : Process) : String := p.serviceName.getD defaultServiceName

def put (p : Process) (i : Nat) (call : FfiCall) : Process := {p with calls := p.calls.set i call}

/- Without a subscriber an event is dropped. -/
def emit (p : Process) (line : Line) : Process := if p.subscriber then {p with lines := p.lines ++ [line]} else p

def panicHook (p : Process) (payload : String) : Process :=
  if p.hook then p.emit (fatalLine p.getServiceName)
  else {p with lines := p.lines ++ [.panickedAt payload]}

def reportFailure (p : Process) (failure : Failure) : Process := p.emit (failedLine p.getServiceName failure)

def step (p : Process) : Act → Option Process
  | .initTelemetry serviceName => some {p with
      serviceName := p.serviceName.or (some (serviceNameOf serviceName)), inits := p.inits ++ [.named]}
  | .initAdvances i =>
      match p.inits[i]? with
      | some .named => some {p with subscriber := true, inits := p.inits.set i .subscribed}
      | some .subscribed => some {p with hook := true, inits := p.inits.set i .done}
      | _ => none
  | .enter operation counts => some {p with calls := p.calls ++ [⟨operation,counts,.running⟩]}
  | .ends i ran =>
      match p.calls[i]? with
      | some ⟨operation,counts,.running⟩ =>
        match ran with
        | .panicked payload => some (p.put i ⟨operation,counts,.unwinding payload⟩)
        | ran => some (p.put i ⟨operation,counts,.caught ran⟩)
      | _ => none
  | .unwinds i =>
      match p.calls[i]? with
      | some ⟨operation,counts,.unwinding payload⟩ =>
        some ((p.panicHook payload).put i ⟨operation,counts,.caught (.panicked payload)⟩)
      | _ => none
  | .reports i =>
      match p.calls[i]? with
      | some ⟨operation,counts,.caught ran⟩ =>
        let reported := match FfiCall.failure ⟨operation,counts,.caught ran⟩ ran with
          | some failure => p.reportFailure failure
          | none => p
        some (reported.put i ⟨operation,counts,.returned ran⟩)
      | _ => none
  | .threadPanics payload => some {p.panicHook payload with crashed := p.crashed + 1}

end Process

/- The two wrappers differ in what they return and not in what they report, and the status
is the one that the entry points are modelled with. -/
theorem ffiCallReports (operation : KccOperation) (ran : Ran) :
    ffiCallWithReporter operation ran = (ffiCall ran.result,(ffiCallI32WithReporter operation ran).2) := by
  cases ran <;> rfl

def Ran.hooked (serviceName : String) : Ran → List Line
  | .panicked _ => [fatalLine serviceName]
  | _ => []

def FfiCall.written (serviceName : String) (call : FfiCall) : List Line :=
  match call.stage with
  | .caught ran => ran.hooked serviceName
  | .returned ran => ran.hooked serviceName ++ ((call.failure ran).map (failedLine serviceName)).toList
  | _ => []

structure Initialised (serviceName : String) (p : Process) : Prop where
  named : p.serviceName = some serviceName
  subscriber : p.subscriber = true
  hook : p.hook = true

structure Sanitized (serviceName : String) (p : Process) : Prop extends Initialised serviceName p where
  signed : ∀ line ∈ p.lines, line.serviceName = some serviceName
  accounted : p.lines.Perm
    (List.replicate p.crashed (fatalLine serviceName) ++ p.calls.flatMap (FfiCall.written serviceName))

section
variable {serviceName : String} {p q : Process} {a : Act} {i : Nat} {old : FfiCall}

theorem emits (ready : Initialised serviceName p) (line : Line) : p.emit line = {p with lines := p.lines ++ [line]} := by
  simp [Process.emit,ready.subscriber]

theorem hooks (ready : Initialised serviceName p) (payload : String) :
    p.panicHook payload = {p with lines := p.lines ++ [fatalLine serviceName]} := by
  simp [Process.panicHook,ready.hook,emits ready,Process.getServiceName,ready.named]

theorem reportsFailure (ready : Initialised serviceName p) (failure : Failure) :
    p.reportFailure failure = {p with lines := p.lines ++ [failedLine serviceName failure]} := by
  simp [Process.reportFailure,emits ready,Process.getServiceName,ready.named]

theorem sanitizedPut (new : FfiCall) (es : List Line) (sanitized : Sanitized serviceName p) (here : p.calls[i]? = some old)
    (writes : new.written serviceName = old.written serviceName ++ es)
    (signed : ∀ line ∈ es, line.serviceName = some serviceName) :
    Sanitized serviceName ({p with lines := p.lines ++ es}.put i new) := by
  obtain ⟨rest,before,after⟩ := @holdersPut _ _ (FfiCall.written serviceName) _ _ _ here
  refine ⟨⟨sanitized.named,sanitized.subscriber,sanitized.hook⟩,fun line mem => ?_,?_⟩
  · rcases List.mem_append.mp mem with mem | mem
    · exact sanitized.signed line mem
    · exact signed line mem
  · have grown : (List.replicate p.crashed (fatalLine serviceName) ++ (old.written serviceName ++ rest) ++ es).Perm
        (List.replicate p.crashed (fatalLine serviceName) ++ (new.written serviceName ++ rest)) := by
      rw [writes,List.append_assoc,List.append_assoc,List.append_assoc]
      exact (List.perm_append_comm.append_left _).append_left _
    exact ((sanitized.accounted.trans (before.append_left _)).append_right es).trans
      (grown.trans ((after new).symm.append_left _))

theorem sanitizedStep (sanitized : Sanitized serviceName p) (taken : p.step a = some q) : Sanitized serviceName q := by
  cases a with
  | initTelemetry given =>
    cases Option.some.inj taken
    exact ⟨⟨by simp [sanitized.named],sanitized.subscriber,sanitized.hook⟩,sanitized.signed,sanitized.accounted⟩
  | initAdvances i =>
    simp only [Process.step] at taken
    split at taken <;> try contradiction
    · cases Option.some.inj taken
      exact ⟨⟨sanitized.named,rfl,sanitized.hook⟩,sanitized.signed,sanitized.accounted⟩
    · cases Option.some.inj taken
      exact ⟨⟨sanitized.named,sanitized.subscriber,rfl⟩,sanitized.signed,sanitized.accounted⟩
  | enter operation counts =>
    cases Option.some.inj taken
    refine ⟨⟨sanitized.named,sanitized.subscriber,sanitized.hook⟩,sanitized.signed,?_⟩
    simpa [FfiCall.written] using sanitized.accounted
  | ends i ran =>
    simp only [Process.step] at taken
    split at taken <;> try contradiction
    rename_i operation counts here
    cases ran with
    | panicked payload =>
      cases Option.some.inj taken
      simpa [Process.put] using sanitizedPut ⟨operation,counts,.unwinding payload⟩ [] sanitized here rfl (by simp)
    | ok val =>
      cases Option.some.inj taken
      simpa [Process.put] using sanitizedPut ⟨operation,counts,.caught (.ok val)⟩ [] sanitized here rfl (by simp)
    | err status =>
      cases Option.some.inj taken
      simpa [Process.put] using sanitizedPut ⟨operation,counts,.caught (.err status)⟩ [] sanitized here rfl (by simp)
  | unwinds i =>
    simp only [Process.step] at taken
    split at taken <;> try contradiction
    rename_i operation counts payload here
    cases Option.some.inj taken
    rw [hooks sanitized.toInitialised]
    exact sanitizedPut ⟨operation,counts,.caught (.panicked payload)⟩ _ sanitized here rfl
      (by simp [fatalLine,Line.serviceName])
  | reports i =>
    simp only [Process.step] at taken
    split at taken <;> try contradiction
    rename_i operation counts ran here
    cases Option.some.inj taken
    have writes : FfiCall.written serviceName ⟨operation,counts,.returned ran⟩ =
        FfiCall.written serviceName ⟨operation,counts,.caught ran⟩ ++
          ((FfiCall.failure ⟨operation,counts,.caught ran⟩ ran).map (failedLine serviceName)).toList := rfl
    have put := sanitizedPut _ _ sanitized here writes (by
      intro line mem
      obtain ⟨failure,_,rfl⟩ := Option.map_eq_some_iff.mp (Option.mem_toList.mp mem)
      rfl)
    cases failed : FfiCall.failure ⟨operation,counts,.caught ran⟩ ran with
    | none => simpa [failed,Process.put] using put
    | some failure =>
      simpa [failed,reportsFailure sanitized.toInitialised] using put
  | threadPanics payload =>
    cases Option.some.inj taken
    rw [hooks sanitized.toInitialised]
    refine ⟨⟨sanitized.named,sanitized.subscriber,sanitized.hook⟩,fun line mem => ?_,?_⟩
    · rcases List.mem_append.mp mem with mem | mem
      · exact sanitized.signed line mem
      · cases List.mem_singleton.mp mem
        rfl
    · rw [List.replicate_succ,List.cons_append]
      exact List.perm_append_comm.trans (sanitized.accounted.cons _)

end

/-! The same without what panics say and what calls give back. -/

def Ran.blank : Ran → Ran
  | .ok _ => .ok 0
  | .err status => .err status
  | .panicked _ => .panicked ""

def FfiStage.blank : FfiStage → FfiStage
  | .running => .running
  | .unwinding _ => .unwinding ""
  | .caught ran => .caught ran.blank
  | .returned ran => .returned ran.blank

def FfiCall.blank (call : FfiCall) : FfiCall := {call with stage := call.stage.blank}

def Process.blank (p : Process) : Process := {p with calls := p.calls.map FfiCall.blank}

def Act.blank : Act → Act
  | .ends i ran => .ends i ran.blank
  | .threadPanics _ => .threadPanics ""
  | a => a

section
variable {serviceName : String} {p q : Process} {a : Act} {i : Nat}

theorem failureBlank (operation : KccOperation) (counts : Bool) (stage stage' : FfiStage) (ran : Ran) :
    FfiCall.failure ⟨operation,counts,stage⟩ ran.blank = FfiCall.failure ⟨operation,counts,stage'⟩ ran := by
  cases ran <;> rfl

theorem blankHere {call : FfiCall} (here : p.calls[i]? = some call) : p.blank.calls[i]? = some call.blank := by
  simp [Process.blank,here]

theorem blankPut (call : FfiCall) : (p.put i call).blank = p.blank.put i call.blank := by
  simp [Process.blank,Process.put,List.map_set]

theorem blankStep (ready : Initialised serviceName p) (taken : p.step a = some q) : p.blank.step a.blank = some q.blank := by
  have same : Initialised serviceName p.blank := ⟨ready.named,ready.subscriber,ready.hook⟩
  cases a with
  | initTelemetry given =>
    cases Option.some.inj taken
    rfl
  | initAdvances i =>
    simp only [Process.step] at taken
    split at taken <;> try contradiction
    all_goals
      rename_i here
      cases Option.some.inj taken
      simp [Act.blank,Process.step,Process.blank,here]
  | enter operation counts =>
    cases Option.some.inj taken
    simp [Act.blank,Process.step,Process.blank,FfiCall.blank,FfiStage.blank]
  | ends i ran =>
    simp only [Process.step] at taken
    split at taken <;> try contradiction
    rename_i operation counts here
    have seen := blankHere here
    cases ran <;> cases Option.some.inj taken <;>
      simp [Act.blank,Ran.blank,Process.step,seen,FfiCall.blank,FfiStage.blank,blankPut]
  | unwinds i =>
    simp only [Process.step] at taken
    split at taken <;> try contradiction
    rename_i operation counts payload here
    have seen := blankHere here
    cases Option.some.inj taken
    rw [blankPut,hooks ready]
    simp only [Act.blank,Process.step,seen,FfiCall.blank,FfiStage.blank,hooks same]
    rfl
  | reports i =>
    simp only [Process.step] at taken
    split at taken <;> try contradiction
    rename_i operation counts ran here
    have seen := blankHere here
    cases Option.some.inj taken
    simp only [Act.blank,Process.step,seen,FfiCall.blank,FfiStage.blank,blankPut,
      failureBlank operation counts (.caught ran.blank) (.caught ran) ran]
    cases FfiCall.failure ⟨operation,counts,.caught ran⟩ ran with
    | none => rfl
    | some failure =>
      simp only [reportsFailure ready,reportsFailure same]
      rfl
  | threadPanics payload =>
    cases Option.some.inj taken
    simp only [Act.blank,Process.step,hooks ready,hooks same]
    rfl

def initialising (given : Option Bytes) : List Act := [.initTelemetry given,.initAdvances 0,.initAdvances 0]

theorem initialised {given : Option Bytes} {as : List Act} (run : Steps Process.step Process.fresh (initialising given ++ as) p) :
    Steps Process.step ⟨some (serviceNameOf given),true,true,[.done],[],[],0⟩ as p := by
  cases run with
  | cons _ named rest =>
    cases Option.some.inj named
    cases rest with
    | cons _ subscribed rest =>
      cases Option.some.inj subscribed
      cases rest with
      | cons _ hooked rest =>
        cases Option.some.inj hooked
        exact rest

/- In a process that begins by initialising its telemetry, whatever its threads then do and
however they interleave: every line is an event under the name that was given first; there
is one event for each failure and one more for each panic, and none for a success; and two
runs that differ in nothing but what panics say and what calls give back write the same
lines in the same order. -/
theorem telemetryTellsOutcomes {given : Option Bytes} {as bs : List Act}
    (run : Steps Process.step Process.fresh (initialising given ++ as) p)
    (other : Steps Process.step Process.fresh (initialising given ++ bs) q) (alike : as.map Act.blank = bs.map Act.blank) :
    (∀ line ∈ p.lines, line.serviceName = some (serviceNameOf given)) ∧
      p.lines.Perm (List.replicate p.crashed (fatalLine (serviceNameOf given)) ++
        p.calls.flatMap (FfiCall.written (serviceNameOf given))) ∧
      p.lines = q.lines := by
  have start : Sanitized (serviceNameOf given) ⟨some (serviceNameOf given),true,true,[.done],[],[],0⟩ :=
    ⟨⟨rfl,rfl,rfl⟩,by simp,by simp⟩
  have each : ∀ p a q, Sanitized (serviceNameOf given) p → Process.step p a = some q →
      Sanitized (serviceNameOf given) q ∧ Process.step p.blank a.blank = some q.blank :=
    fun _ _ _ sanitized taken => ⟨sanitizedStep sanitized taken,blankStep sanitized.toInitialised taken⟩
  have final := alongInvariant (fun p a q sanitized _ taken => (each p a q sanitized taken).1) (initialised run) start
  have seen := execViewed each (initialised run) start
  rw [alike,execViewed each (initialised other) start] at seen
  exact ⟨final.signed,final.accounted,(congrArg Process.lines (Option.some.inj seen)).symm⟩

end

def panickingProcess (payload : String) : List Act :=
  [.enter .open false,.enter .enumerateKemKeys true,.ends 0 (.panicked payload),.ends 1 (.err .notFound),.reports 1,
    .threadPanics payload,.initTelemetry none,.unwinds 0,.reports 0]

theorem telemetryTellsOutcomesPanics :
    let lines := fun payload => ((exec Process.step Process.fresh (initialising (some [119,115]) ++ panickingProcess payload)).getD
      Process.fresh).lines
    lines "shared secret: 7a4f1d" = lines "shared secret: 0" ∧
      lines "shared secret: 0" = [.kccOperationFailed "enumerate_kem_keys" "STATUS_NOT_FOUND" "error" "ws",
        .fatalPanicOccurred "panic" "ws",.fatalPanicOccurred "panic" "ws",
        .kccOperationFailed "open" "STATUS_INTERNAL_ERROR" "panic" "ws"] := by
  intro lines
  have run := fun payload => @stepsGetD _ _ Process.step Process.fresh
    (initialising (some [119,115]) ++ panickingProcess payload) rfl
  exact ⟨(telemetryTellsOutcomes (run _) (run _) rfl).2.2,by decide +kernel⟩

end KeyProtection
