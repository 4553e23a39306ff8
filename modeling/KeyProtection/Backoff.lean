import Mathlib.Data.Nat.Find
import KeyProtection.Standin

/-! performHeartbeat of workload_service/server.go as one function from what the KPS and the
context do to what the call does, in the order in which it does it, and startHeartbeat as
the calls in turn over one cached token. -/
namespace KeyProtection
open Lib.Run

/- One turn of the loop as the world answers it: a token, or an error and then the wait for
the timer, which either fires or is cut short by the context. -/
inductive HeartbeatAttempt where
  | answered (token : String)
  | timedOut
  | cancelled
  deriving DecidableEq, Repr

inductive HeartbeatExit where
  | received (token : String)
  | cancelled
  | exhausted
  deriving DecidableEq, Repr

def HeartbeatExit.token : HeartbeatExit → Option String
  | .received token => some token
  | _ => none

inductive HeartbeatEvent where
  | attempt
  | wait (backoff : Int64)
  | cleanup
  deriving DecidableEq, Repr

structure HeartbeatCall where
  exit : HeartbeatExit
  events : List HeartbeatEvent
  cachedToken : String
  deriving DecidableEq, Repr

def HeartbeatCall.after (before : List HeartbeatEvent) (call : HeartbeatCall) : HeartbeatCall :=
  {call with events := before ++ call.events}

def mismatchCleanup (cachedToken token : String) : List HeartbeatEvent :=
  if cachedToken ≠ "" ∧ cachedToken ≠ token then [.cleanup] else []

/- The loop from a given backoff; `none` while the call has not returned. -/
def heartbeatLoop (maxBackoff : Int64) (cachedToken : String) (backoff : Int64) :
    List HeartbeatAttempt → Option HeartbeatCall
  | [] => none
  | .answered token :: _ => some ⟨.received token,.attempt :: mismatchCleanup cachedToken token,token⟩
  | .cancelled :: _ => some ⟨.cancelled,[.attempt,.wait backoff],cachedToken⟩
  | .timedOut :: rest =>
    if backoff ≥ maxBackoff then some ⟨.exhausted,[.attempt,.wait backoff,.cleanup],cachedToken⟩
    else (heartbeatLoop maxBackoff cachedToken (nextBackoff backoff maxBackoff) rest).map
      (HeartbeatCall.after [.attempt,.wait backoff])

def performHeartbeat (u : Setup) (cachedToken : String) (attempts : List HeartbeatAttempt) : Option HeartbeatCall :=
  heartbeatLoop u.maxBackoff cachedToken u.initialBackoff attempts

def heartbeats (u : Setup) (cachedToken : String) : List (List HeartbeatAttempt) → Option (List HeartbeatCall)
  | [] => some []
  | attempts :: rest => do
    let call ← performHeartbeat u cachedToken attempts
    let later ← heartbeats u call.cachedToken rest
    some (call :: later)

/-! The token machine. -/

def lastToken (calls : List HeartbeatCall) : Option String := (calls.filterMap (fun call => call.exit.token)).getLast?

def cleanups (call : HeartbeatCall) : Nat := call.events.count .cleanup

def NonEmptyTokens (attempts : List HeartbeatAttempt) : Prop := ∀ token, .answered token ∈ attempts → token ≠ ""

structure HeartbeatSpec (cachedToken : String) (call : HeartbeatCall) : Prop where
  received : ∀ token, call.exit = .received token → call.cachedToken = token
  kept : call.exit.token = none → call.cachedToken = cachedToken
  once : cleanups call ≤ 1
  cleaned : cleanups call = 1 ↔ call.exit = .exhausted ∨
    ∃ token, call.exit = .received token ∧ cachedToken ≠ "" ∧ cachedToken ≠ token

section
variable {u : Setup} {cachedToken : String} {maxBackoff backoff : Int64} {attempts : List HeartbeatAttempt}
  {call : HeartbeatCall}

theorem heartbeatLoopSpec (done : heartbeatLoop maxBackoff cachedToken backoff attempts = some call) :
    HeartbeatSpec cachedToken call := by
  induction attempts generalizing backoff call with
  | nil => contradiction
  | cons attempt rest ih =>
    cases attempt with
    | answered token =>
      cases Option.some.inj done
      refine ⟨fun other same => HeartbeatExit.received.inj same,(fun none => by cases none),?_,?_⟩
      · simp only [cleanups,mismatchCleanup]
        split <;> simp
      · simp only [cleanups,mismatchCleanup]
        split
        · rename_i differs
          exact ⟨fun _ => .inr ⟨token,rfl,differs⟩,fun _ => by simp⟩
        · rename_i agrees
          refine ⟨fun counted => by simp at counted,fun why => ?_⟩
          rcases why with exhausted | ⟨other,same,differs⟩
          · cases exhausted
          · cases same
            exact absurd differs agrees
    | cancelled =>
      cases Option.some.inj done
      refine ⟨(fun token same => by cases same),fun _ => rfl,by simp [cleanups],?_⟩
      simp [cleanups]
    | timedOut =>
      simp only [heartbeatLoop] at done
      split at done
      · cases Option.some.inj done
        refine ⟨(fun token same => by cases same),fun _ => rfl,by simp [cleanups],?_⟩
        simp [cleanups]
      · obtain ⟨later,rest',same⟩ := Option.map_eq_some_iff.mp done
        subst same
        have spec := ih rest'
        have counted : cleanups (later.after [.attempt,.wait backoff]) = cleanups later := by
          simp [cleanups,HeartbeatCall.after]
        exact ⟨spec.received,spec.kept,counted ▸ spec.once,counted ▸ spec.cleaned⟩

theorem heartbeatLoopHeard {token : String} (done : heartbeatLoop maxBackoff cachedToken backoff attempts = some call)
    (received : call.exit = .received token) : .answered token ∈ attempts := by
  induction attempts generalizing backoff call with
  | nil => contradiction
  | cons attempt rest ih =>
    cases attempt with
    | answered other =>
      cases Option.some.inj done
      cases received
      exact List.mem_cons_self
    | cancelled =>
      cases Option.some.inj done
      cases received
    | timedOut =>
      simp only [heartbeatLoop] at done
      split at done
      · cases Option.some.inj done
        cases received
      · obtain ⟨later,rest',same⟩ := Option.map_eq_some_iff.mp done
        subst same
        exact List.mem_cons_of_mem _ (ih rest' received)

theorem lastTokenSnoc (past : List HeartbeatCall) (call : HeartbeatCall) :
    lastToken (past ++ [call]) = call.exit.token.or (lastToken past) := by
  unfold lastToken
  rw [List.filterMap_append]
  cases heard : call.exit.token with
  | none => simp [heard]
  | some token => simp [heard]

theorem lastTokenKept {past : List HeartbeatCall} (spec : HeartbeatSpec cachedToken call)
    (before : cachedToken = (lastToken past).getD "") : call.cachedToken = (lastToken (past ++ [call])).getD "" := by
  rw [lastTokenSnoc]
  cases exit : call.exit with
  | received token => exact spec.received token exit
  | cancelled =>
    rw [spec.kept (by rw [exit]; rfl)]
    exact before
  | exhausted =>
    rw [spec.kept (by rw [exit]; rfl)]
    exact before

theorem heartbeatsSpec {scripts : List (List HeartbeatAttempt)} {past calls : List HeartbeatCall}
    (done : heartbeats u cachedToken scripts = some calls) (before : cachedToken = (lastToken past).getD "")
    {i : Nat} (here : calls[i]? = some call) :
    HeartbeatSpec ((lastToken (past ++ calls.take i)).getD "") call := by
  induction scripts generalizing cachedToken past calls i with
  | nil =>
    cases Option.some.inj done
    simp at here
  | cons attempts rest ih =>
    simp only [heartbeats,bind,Option.bind_eq_some_iff] at done
    obtain ⟨first,performed,later,onward,same⟩ := done
    cases Option.some.inj same
    have spec := heartbeatLoopSpec performed
    cases i with
    | zero =>
      cases Option.some.inj here
      simpa only [List.take_zero,List.append_nil,← before] using spec
    | succ i =>
      have after := ih onward (lastTokenKept spec before) (by simpa using here)
      simpa using after

theorem heartbeatsPerformed {scripts : List (List HeartbeatAttempt)} {calls : List HeartbeatCall}
    (done : heartbeats u cachedToken scripts = some calls) (mem : call ∈ calls) :
    ∃ attempts ∈ scripts, ∃ cached, performHeartbeat u cached attempts = some call := by
  induction scripts generalizing cachedToken calls with
  | nil =>
    cases Option.some.inj done
    cases mem
  | cons attempts rest ih =>
    simp only [heartbeats,bind,Option.bind_eq_some_iff] at done
    obtain ⟨first,performed,later,onward,same⟩ := done
    cases Option.some.inj same
    rcases List.mem_cons.mp mem with new | old
    · subst new
      exact ⟨attempts,List.mem_cons_self,cachedToken,performed⟩
    · obtain ⟨other,there,cached,again⟩ := ih onward old
      exact ⟨other,List.mem_cons_of_mem _ there,cached,again⟩

def cachedBefore (calls : List HeartbeatCall) (i : Nat) : String :=
  ((calls.take i).getLast?.map HeartbeatCall.cachedToken).getD ""

theorem cachedBeforeLast {scripts : List (List HeartbeatAttempt)} {calls : List HeartbeatCall}
    (done : heartbeats u "" scripts = some calls) {i : Nat} (here : calls[i]? = some call) :
    cachedBefore calls i = (lastToken (calls.take i)).getD "" := by
  cases i with
  | zero => rfl
  | succ i =>
    have bound : i < calls.length := by
      have later := (List.getElem?_eq_some_iff.mp here).1
      omega
    have there : calls[i]? = some calls[i] := List.getElem?_eq_getElem bound
    have spec : HeartbeatSpec ((lastToken ([] ++ calls.take i)).getD "") calls[i] := heartbeatsSpec done rfl there
    rw [cachedBefore,List.take_succ_eq_append_getElem bound,List.getLast?_concat]
    exact lastTokenKept spec rfl

theorem lastTokenGiven {scripts : List (List HeartbeatAttempt)} {calls : List HeartbeatCall} {last : String} {i : Nat}
    (given : ∀ attempts ∈ scripts, NonEmptyTokens attempts) (done : heartbeats u "" scripts = some calls)
    (heard : lastToken (calls.take i) = some last) : last ≠ "" := by
  obtain ⟨call,mem,token⟩ := List.mem_filterMap.mp (List.mem_of_getLast? heard)
  obtain ⟨attempts,there,cached,performed⟩ := heartbeatsPerformed done (List.mem_of_mem_take mem)
  have received : call.exit = .received last := by
    cases exit : call.exit with
    | received other =>
      rw [exit] at token
      exact congrArg HeartbeatExit.received (Option.some.inj token)
    | cancelled =>
      rw [exit] at token
      contradiction
    | exhausted =>
      rw [exit] at token
      contradiction
  exact given attempts there last (heartbeatLoopHeard performed received)

theorem heartbeatTokenMachine {scripts : List (List HeartbeatAttempt)} {calls : List HeartbeatCall}
    (given : ∀ attempts ∈ scripts, NonEmptyTokens attempts) (done : heartbeats u "" scripts = some calls)
    {i : Nat} (here : calls[i]? = some call) :
    (∀ token, call.exit = .received token → call.cachedToken = token) ∧
    (call.exit = .cancelled ∨ call.exit = .exhausted → call.cachedToken = cachedBefore calls i) ∧
    cleanups call ≤ 1 ∧
    (cleanups call = 1 ↔ call.exit = .exhausted ∨
      ∃ token last, call.exit = .received token ∧ lastToken (calls.take i) = some last ∧ token ≠ last) := by
  have spec : HeartbeatSpec ((lastToken ([] ++ calls.take i)).getD "") call := heartbeatsSpec done rfl here
  rw [List.nil_append] at spec
  refine ⟨spec.received,fun unheard => ?_,spec.once,spec.cleaned.trans ?_⟩
  · rw [cachedBeforeLast done here]
    refine spec.kept ?_
    rcases unheard with exit | exit <;> rw [exit] <;> rfl
  · refine or_congr_right ⟨fun changed => ?_,fun changed => ?_⟩
    · obtain ⟨token,exit,cached,differs⟩ := changed
      cases heard : lastToken (calls.take i) with
      | none =>
        rw [heard] at cached
        exact absurd rfl cached
      | some last =>
        rw [heard] at differs
        exact ⟨token,last,exit,rfl,fun same => differs same.symm⟩
    · obtain ⟨token,last,exit,heard,differs⟩ := changed
      rw [heard]
      exact ⟨token,exit,lastTokenGiven given done heard,fun same => differs same.symm⟩

end

def threeCalls : List (List HeartbeatAttempt) :=
  [[.timedOut,.answered "boot-0"],List.replicate 7 .timedOut,[.answered "boot-1"]]

theorem heartbeatTokenMachineThird :
    let calls := (heartbeats Standin.setup "" threeCalls).getD []
    ∃ call, calls[2]? = some call ∧ call.cachedToken = "boot-1" ∧ cleanups call = 1 := by
  intro calls
  have done : heartbeats Standin.setup "" threeCalls = some calls := by decide +kernel
  have third : calls[2]?.map HeartbeatCall.exit = some (.received "boot-1") := by decide +kernel
  obtain ⟨call,here,exit⟩ := Option.map_eq_some_iff.mp third
  have given : ∀ attempts ∈ threeCalls, NonEmptyTokens attempts := by
    intro attempts mem token answered
    simp only [threeCalls,List.mem_cons,List.not_mem_nil,or_false] at mem
    rcases mem with rfl | rfl | rfl
    · simp at answered
      simp [answered]
    · simp at answered
    · simp at answered
      simp [answered]
  obtain ⟨received,_,_,cleaned⟩ := heartbeatTokenMachine given done here
  exact ⟨call,here,received _ exit,cleaned.mpr (.inr ⟨"boot-1","boot-0",exit,by decide +kernel,by decide⟩)⟩

/-! The backoff schedule. -/

def backoffAt (u : Setup) : Nat → Int64
  | 0 => u.initialBackoff
  | i + 1 => nextBackoff (backoffAt u i) u.maxBackoff

def tries (u : Setup) (j : Nat) : List HeartbeatEvent :=
  (List.range j).flatMap (fun i => [.attempt,.wait (backoffAt u i)])

structure Reaches (u : Setup) (n : Nat) : Prop where
  reached : u.maxBackoff.toNatClampNeg ≤ u.initialBackoff.toNatClampNeg * 2^n
  first : ∀ m < n, u.initialBackoff.toNatClampNeg * 2^m < u.maxBackoff.toNatClampNeg

structure Bounded (u : Setup) : Prop where
  positive : 0 < u.initialBackoff
  ordered : u.initialBackoff ≤ u.maxBackoff
  small : u.maxBackoff ≤ 4611686018427387904

section
variable {u : Setup} {cachedToken : String} {n : Nat}

theorem boundedNat (bounded : Bounded u) : u.initialBackoff.toInt = u.initialBackoff.toNatClampNeg ∧
    u.maxBackoff.toInt = u.maxBackoff.toNatClampNeg ∧ 0 < u.initialBackoff.toNatClampNeg ∧
    u.initialBackoff.toNatClampNeg ≤ u.maxBackoff.toNatClampNeg ∧ u.maxBackoff.toNatClampNeg ≤ 2^62 := by
  have positive : 0 < u.initialBackoff.toInt := Int64.lt_iff_toInt_lt.mp bounded.positive
  have ordered := Int64.le_iff_toInt_le.mp bounded.ordered
  have small : u.maxBackoff.toInt ≤ 4611686018427387904 := Int64.le_iff_toInt_le.mp bounded.small
  rw [← Int64.toNat_toInt,← Int64.toNat_toInt]
  omega

theorem reachesSome (bounded : Bounded u) : ∃ n, Reaches u n := by
  obtain ⟨_,_,positive,_,small⟩ := boundedNat bounded
  have enough : ∃ n, u.maxBackoff.toNatClampNeg ≤ u.initialBackoff.toNatClampNeg * 2^n :=
    ⟨62,small.trans (Nat.le_mul_of_pos_left _ positive)⟩
  exact ⟨Nat.find enough,Nat.find_spec enough,fun m less => Nat.lt_of_not_le (Nat.find_min enough less)⟩

theorem doublesExactly {backoff maxBackoff : Int64} (positive : 0 < backoff.toInt) (below : backoff.toInt < maxBackoff.toInt)
    (small : maxBackoff.toInt ≤ 4611686018427387904) : (backoff * 2).toInt = backoff.toInt * 2 := by
  rw [Int64.toInt_mul]
  exact Int.bmod_eq_of_le (by simp; omega) (by simp; omega)

theorem nextBackoffExact {backoff maxBackoff : Int64} (positive : 0 < backoff.toInt)
    (below : backoff.toInt < maxBackoff.toInt) (small : maxBackoff.toInt ≤ 4611686018427387904) :
    (nextBackoff backoff maxBackoff).toNatClampNeg = min (backoff.toNatClampNeg * 2) maxBackoff.toNatClampNeg := by
  have doubled := doublesExactly positive below small
  simp only [nextBackoff,GT.gt,Int64.lt_iff_toInt_lt,doubled,← Int64.toNat_toInt]
  split <;> omega

theorem backoffAtExact (bounded : Bounded u) (reaches : Reaches u n) {i : Nat} (within : i ≤ n) :
    (backoffAt u i).toNatClampNeg = min (u.initialBackoff.toNatClampNeg * 2^i) u.maxBackoff.toNatClampNeg ∧
      (backoffAt u i).toInt = (backoffAt u i).toNatClampNeg := by
  obtain ⟨initial,max,positive,ordered,small⟩ := boundedNat bounded
  induction i with
  | zero =>
    refine ⟨?_,initial⟩
    simp only [backoffAt,pow_zero,Nat.mul_one]
    omega
  | succ i ih =>
    obtain ⟨closed,cast⟩ := ih (by omega)
    have more := reaches.first i (by omega)
    have grown : 0 < u.initialBackoff.toNatClampNeg * 2^i := Nat.mul_pos positive (Nat.two_pow_pos i)
    have next := nextBackoffExact (show 0 < (backoffAt u i).toInt by omega)
      (show (backoffAt u i).toInt < u.maxBackoff.toInt by omega) (by omega)
    have clamp := Int64.toNat_toInt (backoffAt u (i + 1))
    simp only [backoffAt] at clamp ⊢
    rw [Nat.pow_succ,← Nat.mul_assoc]
    omega

theorem backoffBelow (bounded : Bounded u) (reaches : Reaches u n) {i : Nat} (within : i < n) :
    ¬ backoffAt u i ≥ u.maxBackoff := by
  obtain ⟨_,max,_,_,_⟩ := boundedNat bounded
  obtain ⟨closed,cast⟩ := backoffAtExact bounded reaches (Nat.le_of_lt within)
  have more := reaches.first i within
  rw [ge_iff_le,Int64.le_iff_toInt_le]
  omega

theorem backoffReached (bounded : Bounded u) (reaches : Reaches u n) : backoffAt u n ≥ u.maxBackoff := by
  obtain ⟨_,max,_,_,_⟩ := boundedNat bounded
  obtain ⟨closed,cast⟩ := backoffAtExact bounded reaches (Nat.le_refl n)
  have enough := reaches.reached
  rw [ge_iff_le,Int64.le_iff_toInt_le]
  omega

theorem triesSucc (u : Setup) (j : Nat) : tries u (j + 1) = tries u j ++ [.attempt,.wait (backoffAt u j)] := by
  simp [tries,List.range_succ]

theorem oneMoreFailure (j : Nat) (rest : List HeartbeatAttempt) :
    List.replicate (j + 1) .timedOut ++ rest = List.replicate j .timedOut ++ (.timedOut :: rest) := by
  rw [List.replicate_succ',List.append_assoc,List.singleton_append]

theorem afterAfter (first second : List HeartbeatEvent) (call : HeartbeatCall) :
    (call.after second).after first = call.after (first ++ second) := by
  simp [HeartbeatCall.after]

theorem heartbeatProgress (below : ∀ i < n, ¬ backoffAt u i ≥ u.maxBackoff) (rest : List HeartbeatAttempt) {j : Nat}
    (within : j ≤ n) : performHeartbeat u cachedToken (List.replicate j .timedOut ++ rest) =
      (heartbeatLoop u.maxBackoff cachedToken (backoffAt u j) rest).map (HeartbeatCall.after (tries u j)) := by
  induction j generalizing rest with
  | zero =>
    have unchanged : HeartbeatCall.after (tries u 0) = id := by
      funext call
      simp [HeartbeatCall.after,tries]
    rw [unchanged,Option.map_id]
    rfl
  | succ j ih =>
    rw [oneMoreFailure,ih (.timedOut :: rest) (by omega),heartbeatLoop,if_neg (below j (by omega)),Option.map_map,
      triesSucc]
    refine congrArg (fun f => Option.map f _) (funext (fun call => ?_))
    exact afterAfter (tries u j) [.attempt,.wait (backoffAt u j)] call

theorem backoffSchedule (bounded : Bounded u) (cachedToken : String) : ∃ n, Reaches u n ∧
    -- The waits, and that none of the n doublings overflows.
    (∀ i ≤ n, (backoffAt u i).toInt =
      (min (u.initialBackoff.toNatClampNeg * 2^i) u.maxBackoff.toNatClampNeg : Nat)) ∧
    (∀ i < n, (backoffAt u i * 2).toInt = (backoffAt u i).toInt * 2) ∧
    -- Nothing but failures: n + 1 attempts and no fewer, then one cleanup.
    (∀ rest, performHeartbeat u cachedToken (List.replicate (n + 1) .timedOut ++ rest) =
      some ⟨.exhausted,tries u (n + 1) ++ [.cleanup],cachedToken⟩) ∧
    (∀ m ≤ n, performHeartbeat u cachedToken (List.replicate m .timedOut) = none) ∧
    -- A success at attempt j ends the call after j waits.
    (∀ j ≤ n, ∀ token rest, performHeartbeat u cachedToken (List.replicate j .timedOut ++ .answered token :: rest) =
      some ⟨.received token,tries u j ++ .attempt :: mismatchCleanup cachedToken token,token⟩) := by
  obtain ⟨n,reaches⟩ := reachesSome bounded
  have below : ∀ i < n, ¬ backoffAt u i ≥ u.maxBackoff := fun i within => backoffBelow bounded reaches within
  refine ⟨n,reaches,fun i within => ?_,fun i within => ?_,fun rest => ?_,fun m within => ?_,fun j within token rest => ?_⟩
  · obtain ⟨closed,cast⟩ := backoffAtExact bounded reaches within
    rw [cast,closed]
  · obtain ⟨_,max,positive,_,small⟩ := boundedNat bounded
    obtain ⟨closed,cast⟩ := backoffAtExact bounded reaches (Nat.le_of_lt within)
    have more := reaches.first i within
    have grown : 0 < u.initialBackoff.toNatClampNeg * 2^i := Nat.mul_pos positive (Nat.two_pow_pos i)
    exact doublesExactly (by omega) (show (backoffAt u i).toInt < u.maxBackoff.toInt by omega) (by omega)
  · rw [oneMoreFailure,heartbeatProgress below _ (Nat.le_refl n),heartbeatLoop,
      if_pos (backoffReached bounded reaches),triesSucc]
    simp [HeartbeatCall.after]
  · have ended := @heartbeatProgress u cachedToken n below [] m within
    rwa [List.append_nil] at ended
  · rw [heartbeatProgress below _ within]
    rfl

end

theorem backoffScheduleMinute :
    performHeartbeat Standin.setup "boot-0" (List.replicate 7 .timedOut) =
      some ⟨.exhausted,tries Standin.setup 7 ++ [.cleanup],"boot-0"⟩ := by
  obtain ⟨n,reaches,_,_,ends,_⟩ := @backoffSchedule Standin.setup ⟨by decide,by decide,by decide⟩ "boot-0"
  have six : n = 6 := by
    have reached := reaches.reached
    rcases Nat.lt_trichotomy n 6 with less | same | more
    · have small : 2^n ≤ 2^5 := Nat.pow_le_pow_right (by decide) (by omega)
      have initial : Standin.setup.initialBackoff.toNatClampNeg = 1000000000 := by decide +kernel
      have max : Standin.setup.maxBackoff.toNatClampNeg = 60000000000 := by decide +kernel
      rw [initial,max] at reached
      omega
    · exact same
    · exact absurd (reaches.first 6 more) (by decide +kernel)
  subst six
  simpa using ends []

/-! The goroutine of the system model makes these calls, one after the other. -/

def Beat.emits (u : Setup) : Beat → Pulse → List HeartbeatEvent
  | .idle _, .begins => [.attempt]
  | .calling backoff, .fails => [.wait backoff]
  | .answered backoff _, .fails => [.wait backoff]
  | .backingOff backoff, .timerFires => if backoff ≥ u.maxBackoff then [] else [.attempt]
  | .destroying _, .destroysAll => [.cleanup]
  | _,_ => []

structure Beating where
  beat : Beat
  cachedToken : String
  events : List HeartbeatEvent

def Beating.step (u : Setup) (v : Beating) (l : Pulse × Receipt) : Option Beating :=
  (v.beat.step u v.cachedToken l.2 l.1).map (fun out => ⟨out.1,out.2,v.events ++ v.beat.emits u l.1⟩)

def cachedAfter (cachedToken : String) (calls : List HeartbeatCall) : String :=
  (calls.getLast?.map HeartbeatCall.cachedToken).getD cachedToken

inductive CallPhase (u : Setup) (cachedToken : String) : Beat → List HeartbeatEvent → Prop where
  | idle {last} : CallPhase u cachedToken (.idle last) []
  | stopped : CallPhase u cachedToken .stopped []
  | calling {j} (below : ∀ i < j, ¬ backoffAt u i ≥ u.maxBackoff) :
      CallPhase u cachedToken (.calling (backoffAt u j)) (tries u j ++ [.attempt])
  | answered {j receipt} (below : ∀ i < j, ¬ backoffAt u i ≥ u.maxBackoff) :
      CallPhase u cachedToken (.answered (backoffAt u j) receipt) (tries u j ++ [.attempt])
  | backingOff {j} (below : ∀ i < j, ¬ backoffAt u i ≥ u.maxBackoff) :
      CallPhase u cachedToken (.backingOff (backoffAt u j)) (tries u (j + 1))
  | mismatched {beat j receipt} (stage : beat = .locking (some receipt) ∨ beat = .destroying (some receipt))
      (below : ∀ i < j, ¬ backoffAt u i ≥ u.maxBackoff) (differs : cachedToken ≠ "" ∧ cachedToken ≠ receipt.token) :
      CallPhase u cachedToken beat (tries u j ++ [.attempt])
  | exhausted {beat j} (stage : beat = .locking none ∨ beat = .destroying none)
      (below : ∀ i < j, ¬ backoffAt u i ≥ u.maxBackoff) (last : backoffAt u j ≥ u.maxBackoff) :
      CallPhase u cachedToken beat (tries u (j + 1))
  | given {j} (below : ∀ i < j, ¬ backoffAt u i ≥ u.maxBackoff) (last : backoffAt u j ≥ u.maxBackoff) :
      CallPhase u cachedToken (.resetting none) (tries u (j + 1) ++ [.cleanup])
  | returning {beat j receipt} (stage : beat = .returning receipt ∨
        (beat = .resetting (some receipt) ∧ cachedToken ≠ "" ∧ cachedToken ≠ receipt.token))
      (below : ∀ i < j, ¬ backoffAt u i ≥ u.maxBackoff) :
      CallPhase u cachedToken beat (tries u j ++ .attempt :: mismatchCleanup cachedToken receipt.token)

def Performing (u : Setup) (v : Beating) : Prop :=
  ∃ scripts calls now, heartbeats u "" scripts = some calls ∧ cachedAfter "" calls = v.cachedToken ∧
    v.events = calls.flatMap HeartbeatCall.events ++ now ∧ CallPhase u v.cachedToken v.beat now

section
variable {u : Setup} {v w : Beating} {l : Pulse × Receipt}

theorem heartbeatsSnoc {cachedToken : String} {scripts : List (List HeartbeatAttempt)} {calls : List HeartbeatCall}
    {attempts : List HeartbeatAttempt} {call : HeartbeatCall} (done : heartbeats u cachedToken scripts = some calls)
    (next : performHeartbeat u (cachedAfter cachedToken calls) attempts = some call) :
    heartbeats u cachedToken (scripts ++ [attempts]) = some (calls ++ [call]) := by
  induction scripts generalizing cachedToken calls with
  | nil =>
    cases Option.some.inj done
    simp only [cachedAfter,List.getLast?_nil,Option.map_none,Option.getD_none] at next
    simp [heartbeats,next]
  | cons first rest ih =>
    simp only [heartbeats,bind,Option.bind_eq_some_iff] at done
    obtain ⟨performed,here,later,onward,same⟩ := done
    cases Option.some.inj same
    have again : cachedAfter performed.cachedToken later = cachedAfter cachedToken (performed :: later) := by
      cases later with
      | nil => rfl
      | cons second others =>
        rw [cachedAfter,cachedAfter,List.getLast?_cons_cons,List.getLast?_eq_some_getLast (List.cons_ne_nil _ _)]
        rfl
    simp [heartbeats,here,ih onward (again ▸ next)]

inductive PhaseNext (u : Setup) (cachedToken : String) (now : List HeartbeatEvent) : Beat × String → Prop where
  | goesOn {beat} (phase : CallPhase u cachedToken beat now) : PhaseNext u cachedToken now (beat,cachedToken)
  | returns {last attempts call} (performed : performHeartbeat u cachedToken attempts = some call)
      (events : now = call.events) : PhaseNext u cachedToken now (.idle last,call.cachedToken)

section
variable {cachedToken : String} {kps : Receipt} {pulse : Pulse} {out : Beat × String} {j : Nat}

theorem phaseCalling (below : ∀ i < j, ¬ backoffAt u i ≥ u.maxBackoff)
    (next : (Beat.calling (backoffAt u j)).step u cachedToken kps pulse = some out) :
    PhaseNext u cachedToken (tries u j ++ [.attempt] ++ (Beat.calling (backoffAt u j)).emits u pulse) out := by
  cases pulse <;> try contradiction
  · cases Option.some.inj next
    simp only [Beat.emits,List.append_nil]
    exact .goesOn (.answered below)
  · cases Option.some.inj next
    have waits := @CallPhase.backingOff u cachedToken j below
    rw [triesSucc] at waits
    exact .goesOn (by simpa [Beat.emits] using waits)

theorem phaseAnswered {receipt : Receipt} (below : ∀ i < j, ¬ backoffAt u i ≥ u.maxBackoff)
    (next : (Beat.answered (backoffAt u j) receipt).step u cachedToken kps pulse = some out) :
    PhaseNext u cachedToken (tries u j ++ [.attempt] ++ (Beat.answered (backoffAt u j) receipt).emits u pulse) out := by
  cases pulse <;> try contradiction
  · simp only [Beat.step] at next
    split at next
    · rename_i differs
      cases Option.some.inj next
      simp only [Beat.emits,List.append_nil]
      exact .goesOn (.mismatched (.inl rfl) below differs)
    · rename_i agrees
      cases Option.some.inj next
      have returning := @CallPhase.returning u cachedToken _ j receipt (.inl rfl) below
      rw [mismatchCleanup,if_neg agrees] at returning
      simp only [Beat.emits,List.append_nil]
      exact .goesOn returning
  · cases Option.some.inj next
    have waits := @CallPhase.backingOff u cachedToken j below
    rw [triesSucc] at waits
    exact .goesOn (by simpa [Beat.emits] using waits)

theorem phaseBackingOff (below : ∀ i < j, ¬ backoffAt u i ≥ u.maxBackoff)
    (next : (Beat.backingOff (backoffAt u j)).step u cachedToken kps pulse = some out) :
    PhaseNext u cachedToken (tries u (j + 1) ++ (Beat.backingOff (backoffAt u j)).emits u pulse) out := by
  cases pulse <;> try contradiction
  · simp only [Beat.step] at next
    split at next
    · rename_i last
      cases Option.some.inj next
      simp only [Beat.emits,if_pos last,List.append_nil]
      exact .goesOn (.exhausted (.inl rfl) below last)
    · rename_i more
      cases Option.some.inj next
      simp only [Beat.emits,if_neg more]
      refine .goesOn (@CallPhase.calling u cachedToken (j + 1) (fun i within => ?_))
      rcases Nat.lt_succ_iff_lt_or_eq.mp within with earlier | same
      · exact below i earlier
      · exact same ▸ more
  · -- The context is cancelled while the call waits.
    cases Option.some.inj next
    have ended : performHeartbeat u cachedToken (List.replicate j .timedOut ++ [.cancelled]) = some _ :=
      heartbeatProgress below _ (Nat.le_refl j)
    exact .returns ended (by simp [Beat.emits,HeartbeatCall.after,triesSucc])

theorem phaseExhausted {beat : Beat} (stage : beat = .locking none ∨ beat = .destroying none)
    (below : ∀ i < j, ¬ backoffAt u i ≥ u.maxBackoff) (last : backoffAt u j ≥ u.maxBackoff)
    (next : beat.step u cachedToken kps pulse = some out) :
    PhaseNext u cachedToken (tries u (j + 1) ++ beat.emits u pulse) out := by
  rcases stage with rfl | rfl
  · cases pulse <;> try contradiction
    cases Option.some.inj next
    simp only [Beat.emits,List.append_nil]
    exact .goesOn (.exhausted (.inr rfl) below last)
  · cases pulse <;> try contradiction
    cases Option.some.inj next
    exact .goesOn (.given below last)

theorem phaseGiven (below : ∀ i < j, ¬ backoffAt u i ≥ u.maxBackoff) (last : backoffAt u j ≥ u.maxBackoff)
    (next : (Beat.resetting none).step u cachedToken kps pulse = some out) :
    PhaseNext u cachedToken (tries u (j + 1) ++ [.cleanup] ++ (Beat.resetting none).emits u pulse) out := by
  cases pulse <;> try contradiction
  cases Option.some.inj next
  have ended := @heartbeatProgress u cachedToken j below [.timedOut] j (Nat.le_refl j)
  rw [heartbeatLoop,if_pos last,Option.map_some] at ended
  exact .returns ended (by simp [Beat.emits,HeartbeatCall.after,triesSucc])

theorem phaseMismatched {beat : Beat} {receipt : Receipt}
    (stage : beat = .locking (some receipt) ∨ beat = .destroying (some receipt))
    (below : ∀ i < j, ¬ backoffAt u i ≥ u.maxBackoff) (differs : cachedToken ≠ "" ∧ cachedToken ≠ receipt.token)
    (next : beat.step u cachedToken kps pulse = some out) :
    PhaseNext u cachedToken (tries u j ++ [.attempt] ++ beat.emits u pulse) out := by
  rcases stage with rfl | rfl
  · cases pulse <;> try contradiction
    cases Option.some.inj next
    simp only [Beat.emits,List.append_nil]
    exact .goesOn (.mismatched (.inr rfl) below differs)
  · cases pulse <;> try contradiction
    cases Option.some.inj next
    have returning := @CallPhase.returning u cachedToken _ j receipt (.inr ⟨rfl,differs⟩) below
    rw [mismatchCleanup,if_pos differs] at returning
    exact .goesOn (by simpa [Beat.emits] using returning)

theorem phaseReturning {beat : Beat} {receipt : Receipt} (stage : beat = .returning receipt ∨
      (beat = .resetting (some receipt) ∧ cachedToken ≠ "" ∧ cachedToken ≠ receipt.token))
    (below : ∀ i < j, ¬ backoffAt u i ≥ u.maxBackoff) (next : beat.step u cachedToken kps pulse = some out) :
    PhaseNext u cachedToken (tries u j ++ .attempt :: mismatchCleanup cachedToken receipt.token ++ beat.emits u pulse)
      out := by
  rcases stage with rfl | ⟨rfl,differs⟩
  · cases pulse <;> try contradiction
    cases Option.some.inj next
    have ended : performHeartbeat u cachedToken (List.replicate j .timedOut ++ [.answered receipt.token]) = some _ :=
      heartbeatProgress below _ (Nat.le_refl j)
    exact .returns ended (by simp [Beat.emits,HeartbeatCall.after])
  · cases pulse <;> try contradiction
    cases Option.some.inj next
    simp only [Beat.emits,List.append_nil]
    exact .goesOn (.returning (.inl rfl) below)

theorem phaseStep {beat : Beat} {now : List HeartbeatEvent} (phase : CallPhase u cachedToken beat now)
    (next : beat.step u cachedToken kps pulse = some out) :
    PhaseNext u cachedToken (now ++ beat.emits u pulse) out := by
  cases phase with
  | idle =>
    cases pulse <;> try contradiction
    · cases Option.some.inj next
      exact .goesOn (@CallPhase.calling u cachedToken 0 (fun i none => by omega))
    · cases Option.some.inj next
      exact .goesOn .stopped
  | stopped => cases pulse <;> contradiction
  | calling below => exact phaseCalling below next
  | answered below => exact phaseAnswered below next
  | backingOff below => exact phaseBackingOff below next
  | mismatched stage below differs => exact phaseMismatched stage below differs next
  | exhausted stage below last => exact phaseExhausted stage below last next
  | given below last => exact phaseGiven below last next
  | returning stage below => exact phaseReturning stage below next

end

theorem performingStep (before : Performing u v) (taken : v.step u l = some w) : Performing u w := by
  obtain ⟨scripts,calls,now,done,cached,events,phase⟩ := before
  obtain ⟨out,next,same⟩ := Option.map_eq_some_iff.mp taken
  subst same
  have all : v.events ++ v.beat.emits u l.1 = calls.flatMap HeartbeatCall.events ++ (now ++ v.beat.emits u l.1) := by
    rw [events,List.append_assoc]
  cases phaseStep phase next with
  | goesOn phase' => exact ⟨scripts,calls,_,done,cached,all,phase'⟩
  | @returns last attempts call performed ended =>
    refine ⟨scripts ++ [attempts],calls ++ [call],[],heartbeatsSnoc done (cached ▸ performed),?_,?_,.idle⟩
    · rw [cachedAfter,List.getLast?_concat]
      rfl
    · simp [all,ended]

theorem beatsPerform {ls : List (Pulse × Receipt)} {last : Option Receipt} {cachedToken : String}
    {events : List HeartbeatEvent} (run : Steps (Beating.step u) ⟨.idle none,"",[]⟩ ls ⟨.idle last,cachedToken,events⟩) :
    ∃ scripts calls, heartbeats u "" scripts = some calls ∧ cachedToken = cachedAfter "" calls ∧
      events = calls.flatMap HeartbeatCall.events := by
  have start : Performing u ⟨.idle none,"",[]⟩ := ⟨[],[],[],rfl,rfl,rfl,.idle⟩
  have final := alongInvariant (fun _ _ _ before _ taken => performingStep before taken) run start
  obtain ⟨scripts,calls,now,done,cached,same,phase⟩ := final
  simp only at cached same phase
  cases phase with
  | idle => exact ⟨scripts,calls,done,cached.symm,by simpa using same⟩
  | returning stage below => rcases stage with stage | ⟨stage,_⟩ <;> contradiction
  | mismatched stage below differs => rcases stage with stage | stage <;> contradiction
  | exhausted stage below last => rcases stage with stage | stage <;> contradiction

end

end KeyProtection
