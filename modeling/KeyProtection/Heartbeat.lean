import KeyProtection.Server

/-! startHeartbeat and performHeartbeat of workload_service/server.go as a machine of one
goroutine: where it stands between two accesses to something shared (the RPC, the timer,
the mutex, the key registry, the map). The two shared effects of cleanupState are made by
the system the goroutine runs in; here are only its own control and its cached token. -/
namespace KeyProtection

/- A token with the number of the KPS boot that sent it. No code reads the number. -/
structure Receipt where
  boot : Nat
  token : String
  deriving DecidableEq, Repr

inductive Beat where
  -- Waiting for the ticker; what the last performHeartbeat call returned with.
  | idle (last : Option Receipt)
  | calling (backoff : Int64)
  | answered (backoff : Int64) (receipt : Receipt)
  | backingOff (backoff : Int64)
  -- Inside cleanupState: before mu.Lock, before DestroyAllKeys, before the new map.
  | locking (received : Option Receipt)
  | destroying (received : Option Receipt)
  | resetting (received : Option Receipt)
  | returning (receipt : Receipt)
  | stopped
  deriving DecidableEq, Repr

inductive Pulse where
  | begins | kpsAnswers | receives | fails | timerFires | cancelled | locks | destroysAll | resets | returns | stops
  deriving DecidableEq, Repr

def Beat.locked : Beat → Bool
  | .destroying _ => true
  | .resetting _ => true
  | _ => false

def Beat.arriving : Beat → Option Receipt
  | .answered _ receipt => some receipt
  | _ => none

def Beat.afterCleanup : Option Receipt → Beat
  | some receipt => .returning receipt
  | none => .idle none

def nextBackoff (backoff maxBackoff : Int64) : Int64 :=
  let doubled := backoff * 2
  if doubled > maxBackoff then maxBackoff else doubled

/- An RPC may fail before or after the KPS has answered it. -/
def Beat.step (u : Setup) (cachedToken : String) (kps : Receipt) : Beat → Pulse → Option (Beat × String)
  | .idle _, .begins => some (.calling u.initialBackoff,cachedToken)
  | .idle _, .stops => some (.stopped,cachedToken)
  | .calling backoff, .kpsAnswers => some (.answered backoff kps,cachedToken)
  | .calling backoff, .fails => some (.backingOff backoff,cachedToken)
  | .answered backoff _, .fails => some (.backingOff backoff,cachedToken)
  | .answered _ receipt, .receives =>
      if cachedToken ≠ "" ∧ cachedToken ≠ receipt.token then some (.locking (some receipt),cachedToken)
      else some (.returning receipt,cachedToken)
  | .backingOff _, .cancelled => some (.idle none,cachedToken)
  | .backingOff backoff, .timerFires =>
      if backoff ≥ u.maxBackoff then some (.locking none,cachedToken)
      else some (.calling (nextBackoff backoff u.maxBackoff),cachedToken)
  | .locking received, .locks => some (.destroying received,cachedToken)
  | .destroying received, .destroysAll => some (.resetting received,cachedToken)
  | .resetting received, .resets => some (Beat.afterCleanup received,cachedToken)
  | .returning receipt, .returns => some (.idle (some receipt),receipt.token)
  | _,_ => none

/- The goroutine's own control, said once: everything but an arriving token and the two
shared effects of cleanupState. Only a return assigns the cached token. -/
inductive Beaten (u : Setup) (cachedToken : String) (kps : Receipt) : Beat → Pulse → Beat → String → Prop where
  | begins {last} : Beaten u cachedToken kps (.idle last) .begins (.calling u.initialBackoff) cachedToken
  | stops {last} : Beaten u cachedToken kps (.idle last) .stops .stopped cachedToken
  | kpsAnswers {backoff} : Beaten u cachedToken kps (.calling backoff) .kpsAnswers (.answered backoff kps) cachedToken
  | fails {backoff} : Beaten u cachedToken kps (.calling backoff) .fails (.backingOff backoff) cachedToken
  | dropped {backoff receipt} :
      Beaten u cachedToken kps (.answered backoff receipt) .fails (.backingOff backoff) cachedToken
  | cancelled {backoff} : Beaten u cachedToken kps (.backingOff backoff) .cancelled (.idle none) cachedToken
  | exhausted {backoff} (last : backoff ≥ u.maxBackoff) :
      Beaten u cachedToken kps (.backingOff backoff) .timerFires (.locking none) cachedToken
  | retries {backoff} (more : ¬ backoff ≥ u.maxBackoff) : Beaten u cachedToken kps (.backingOff backoff) .timerFires
      (.calling (nextBackoff backoff u.maxBackoff)) cachedToken
  | locks {received} : Beaten u cachedToken kps (.locking received) .locks (.destroying received) cachedToken
  | returns {receipt} : Beaten u cachedToken kps (.returning receipt) .returns (.idle (some receipt)) receipt.token

theorem beaten {u cachedToken kps before pulse out} (keeps : pulse ≠ .destroysAll) (unreset : pulse ≠ .resets)
    (unheard : pulse ≠ .receives) (taken : Beat.step u cachedToken kps before pulse = some out) :
    Beaten u cachedToken kps before pulse out.1 out.2 := by
  unfold Beat.step at taken
  split at taken <;> try contradiction
  · cases Option.some.inj taken
    exact .begins
  · cases Option.some.inj taken
    exact .stops
  · cases Option.some.inj taken
    exact .kpsAnswers
  · cases Option.some.inj taken
    exact .fails
  · cases Option.some.inj taken
    exact .dropped
  · cases Option.some.inj taken
    exact .cancelled
  · split at taken <;> cases Option.some.inj taken
    · exact .exhausted (by assumption)
    · exact .retries (by assumption)
  · cases Option.some.inj taken
    exact .locks
  · cases Option.some.inj taken
    exact .returns

end KeyProtection
