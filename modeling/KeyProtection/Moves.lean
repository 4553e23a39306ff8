import KeyProtection.System

/-! What one step can do, said once. The guards and effects of `step` are read off here
into one relation, and every invariant is proved by cases on that relation. -/
namespace KeyProtection
open KeyRegistry

inductive Refused (u : Setup) : Request → Answer → Prop where
  | generate {body a} (bad : handleGenerateKey u.x body = .error a) : Refused u (.generateKey body) a
  | decaps {body a} (bad : decapsParse u.x body = .error a) : Refused u (.decaps body) a
  | destroy {body a} (bad : destroyParse u.x body = .error a) : Refused u (.destroy body) a
  | claims {req err} (bad : getKeyClaimsPlan u req = .error err) : Refused u (.getKeyClaims req) (.claimsFailed err)

inductive Outcome (u : Setup) (s : System) (i : Nat) (th : Thread) : Label → Go KpsReply → Prop where
  | received {call reply} (own : th.rpc = some ⟨call,some reply⟩) :
      Outcome u s i th (.receive i) (adapt u.mode call reply)
  | replayed {j other sent reply call bindingUUID} (found : s.threads[j]? = some other)
      (served : other.rpc = some ⟨sent,some reply⟩) (decaps : sent.decaps = true)
      (waiting : th.task = .decapsCalling call bindingUUID) :
      Outcome u s i th (.replay i j) (adapt u.mode sent reply)
  | timedOut (err) : Outcome u s i th (.fail i err) (failed err)

/- A step of one handler that changes nothing but the handler itself. -/
inductive Quiet (u : Setup) (s : System) (i : Nat) (th : Thread) : Label → Thread → Prop where
  | refused {entropy a} (fresh : th.task = .start) (why : Refused u th.request a) :
      Quiet u s i th (.advance i entropy) (th.respond a)
  | notMade {entropy body plan fault} (fresh : th.task = .start) (request : th.request = .generateKey body)
      (planned : handleGenerateKey u.x body = .ok plan) :
      Quiet u s i th (.advance i entropy) (th.respond (writeFault "failed to generate binding keypair: " fault))
  | decapsFound {entropy body call bindingUUID} (fresh : th.task = .start) (request : th.request = .decaps body)
      (parsed : decapsParse u.x body = .ok call) (free : s.beat.locked = false)
      (mapped : s.kemToBindingMap.lookup call.kemUUID = some bindingUUID) :
      Quiet u s i th (.advance i entropy) (th.call (.decapsCalling call bindingUUID)
        (.decapAndSeal call.kemUUID call.encapsulatedKey call.aad))
  | decapsMissing {entropy body call} (fresh : th.task = .start) (request : th.request = .decaps body)
      (parsed : decapsParse u.x body = .ok call) (free : s.beat.locked = false)
      (missing : s.kemToBindingMap.lookup call.kemUUID = none) :
      Quiet u s i th (.advance i entropy) (th.respond (handleNotFound call.kemUUID))
  | destroyFound {entropy body kemUUID bindingUUID} (fresh : th.task = .start)
      (request : th.request = .destroy body) (parsed : destroyParse u.x body = .ok kemUUID)
      (free : s.beat.locked = false) (mapped : s.kemToBindingMap.lookup kemUUID = some bindingUUID) :
      Quiet u s i th (.advance i entropy) (th.call (.destroyCalling kemUUID bindingUUID) (.destroy kemUUID))
  | destroyMissing {entropy body kemUUID} (fresh : th.task = .start) (request : th.request = .destroy body)
      (parsed : destroyParse u.x body = .ok kemUUID) (free : s.beat.locked = false)
      (missing : s.kemToBindingMap.lookup kemUUID = none) :
      Quiet u s i th (.advance i entropy) (th.respond (handleNotFound kemUUID))
  | enumerating {entropy} (fresh : th.task = .start) (request : th.request = .enumerateKeys) :
      Quiet u s i th (.advance i entropy) (th.call .enumerateCalling (.enumerate defaultEnumerateLimit 0))
  | claimsSent {entropy req id} (fresh : th.task = .start) (request : th.request = .getKeyClaims req)
      (planned : getKeyClaimsPlan u req = .ok (.kem id)) :
      Quiet u s i th (.advance i entropy) (th.call (.claimsCalling id) (.getKEMKey id))
  | claimsFound {entropy req id bindingID} (fresh : th.task = .start) (request : th.request = .getKeyClaims req)
      (planned : getKeyClaimsPlan u req = .ok (.binding id)) (free : s.beat.locked = false)
      (mapped : s.kemToBindingMap.lookup id = some bindingID) :
      Quiet u s i th (.advance i entropy) (th.goto (.claimsBinding id bindingID))
  | claimsMissing {entropy req id} (fresh : th.task = .start) (request : th.request = .getKeyClaims req)
      (planned : getKeyClaimsPlan u req = .ok (.binding id)) :
      Quiet u s i th (.advance i entropy) (th.respond (.claimsFailed (bindingUnmapped id)))
  | kpsClaims {entropy req} (fresh : th.task = .start) (request : th.request = .kpsGetKeyClaims req) :
      Quiet u s i th (.advance i entropy) (th.respond (kpsGetKeyClaims u s.kps s.kpsNow s.kpsNow req))
  | opened {entropy call bindingUUID sealEnc sealedCT}
      (stage : th.task = .decapsOpening call bindingUUID sealEnc sealedCT) :
      Quiet u s i th (.advance i entropy) (th.respond (decapsAnswer call
        (WsCore.openSecret u.x s.ws s.wsNow bindingUUID sealEnc sealedCT call.aad)))
  | claimed {entropy id bindingID} (stage : th.task = .claimsBinding id bindingID) :
      Quiet u s i th (.advance i entropy)
        (th.respond (bindingClaimsAnswer (WsCore.getBindingKey u.x s.ws s.wsNow bindingID)))
  | answered {entropy a} (stage : th.task = .responding a) :
      Quiet u s i th (.advance i entropy) (th.goto (.answered a))
  | resumed {l result task} (origin : Outcome u s i th l result) (next : resume u th.task result = some task) :
      Quiet u s i th l (th.goto task)

inductive Move (u : Setup) (s : System) : Label → System → Prop where
  | arrived (request) : Move u s (.arrive request) {s with threads := s.threads ++ [⟨request,.start,none⟩]}
  | quiet {i th l th'} (found : s.threads[i]? = some th) (next : Quiet u s i th l th') : Move u s l (s.put i th')
  | bindingMade {i th entropy body plan suite pubKey record} (found : s.threads[i]? = some th)
      (fresh : th.task = .start) (request : th.request = .generateKey body)
      (planned : handleGenerateKey u.x body = .ok plan) (unused : s.Fresh record.id)
      (decoded : u.x.decode (u.x.marshal plan.algo) = .ok suite)
      (created : KeyRecord.Created u.x.bssl suite plan.lifespan entropy s.wsNow pubKey record)
      (spec : record.metadata.spec = .binding suite pubKey) :
      Move u s (.advance i entropy) {s.put i (th.call (.generateCalling plan record.id)
          (.generate plan.algo pubKey.bytes plan.lifespan)) with
        ws := addKey s.ws record, bindings := ⟨i,record⟩ :: s.bindings}
  | kemMade {i th entropy algo bindingPubKey lifespanSecs suite pubKey bindingKey record}
      (found : s.threads[i]? = some th) (sent : th.rpc = some ⟨.generate algo bindingPubKey lifespanSecs,none⟩)
      (unused : s.Fresh record.id) (bound : bindingKey.bytes = bindingPubKey)
      (decoded : u.x.decode (u.x.marshal algo) = .ok suite)
      (created : KeyRecord.Created u.x.bssl suite lifespanSecs entropy s.kpsNow pubKey record)
      (spec : record.metadata.spec = .kemWithBindingPub suite pubKey bindingKey) :
      Move u s (.serve i entropy) {s.put i {th with rpc := some ⟨.generate algo bindingPubKey lifespanSecs,
          some (.ok (.generated record.id pubKey.bytes))⟩} with
        kps := addKey s.kps record, kems := ⟨i,s.boot,record⟩ :: s.kems}
  | kemDestroyed {i th entropy kemUUID} (found : s.threads[i]? = some th)
      (sent : th.rpc = some ⟨.destroy kemUUID,none⟩) :
      Move u s (.serve i entropy) {s.put i {th with rpc := some ⟨.destroy kemUUID,
          some (if (s.kps.lookup kemUUID).isSome then .ok .destroyed else failed (.ffi .notFound))⟩} with
        kps := s.kps.erase kemUUID}
  | served {i th entropy call reply} (found : s.threads[i]? = some th) (sent : th.rpc = some ⟨call,none⟩)
      (reads : serveCall u.x s.kps s.kpsNow entropy call = (reply,s.kps))
      (nothing : ∀ kemUUID kemPubKey, reply ≠ .ok (.generated kemUUID kemPubKey))
      (keeps : ∀ kemUUID, call ≠ .destroy kemUUID) :
      Move u s (.serve i entropy) (s.put i {th with rpc := some ⟨call,some reply⟩})
  | stored {i th entropy plan bindingUUID kemUUID kemPubKey} (found : s.threads[i]? = some th)
      (stage : th.task = .generateStoring plan bindingUUID kemUUID kemPubKey) (free : s.beat.locked = false) :
      Move u s (.advance i entropy) {s.put i (th.respond (generateAnswer u plan kemUUID kemPubKey)) with
        kemToBindingMap := s.kemToBindingMap.insert kemUUID bindingUUID}
  | bindingDestroyed {i th entropy kemUUID bindingUUID errKps} (found : s.threads[i]? = some th)
      (stage : th.task = .destroyBinding kemUUID bindingUUID errKps) :
      Move u s (.advance i entropy) {s.put i (th.goto (.destroyUnmapping kemUUID bindingUUID errKps
          (if (s.ws.lookup bindingUUID).isSome then none else some (.ffi .notFound)))) with
        ws := s.ws.erase bindingUUID,
        unbound := (if (s.ws.lookup bindingUUID).isSome then [(i,bindingUUID)] else []) ++ s.unbound}
  | unmapped {i th entropy kemUUID bindingUUID errKps errWs} (found : s.threads[i]? = some th)
      (stage : th.task = .destroyUnmapping kemUUID bindingUUID errKps errWs) (free : s.beat.locked = false) :
      Move u s (.advance i entropy) {s.put i (th.respond (destroyAnswer errKps errWs)) with
        kemToBindingMap := s.kemToBindingMap.erase kemUUID}
  | ticked (kps ws) : Move u s (.tick kps ws) {s with kpsNow := s.kpsNow + kps, wsNow := s.wsNow + ws}
  | reapedKps {now} (past : now ≤ s.kpsNow) : Move u s (.reapKps now) {s with kps := reap s.kps now}
  | reapedWs {now} (past : now ≤ s.wsNow) : Move u s (.reapWs now) {s with ws := reap s.ws now}
  | restarted {token} (given : token ≠ "") (unused : token ∉ s.tokens.map Receipt.token) :
      Move u s (.restart token) {s with
        kps := ∅, boot := s.boot + 1, token := token, tokens := ⟨s.boot + 1,token⟩ :: s.tokens}
  | beaten {pulse out} (keeps : pulse ≠ .destroysAll) (unreset : pulse ≠ .resets) (unheard : pulse ≠ .receives)
      (taken : s.beat.step u s.cachedToken ⟨s.boot,s.token⟩ pulse = some out) :
      Move u s (.beat pulse) {s with beat := out.1, cachedToken := out.2}
  | heard {backoff receipt} (stage : s.beat = .answered backoff receipt) :
      Move u s (.beat .receives) {s with
        beat := if s.cachedToken ≠ "" ∧ s.cachedToken ≠ receipt.token then .locking (some receipt)
          else .returning receipt,
        seen := some receipt.boot}
  | purged {received} (stage : s.beat = .destroying received) :
      Move u s (.beat .destroysAll) {s with
        beat := .resetting received, ws := ∅, purged := s.ws.keys ++ s.purged}
  | reset {received} (stage : s.beat = .resetting received) :
      Move u s (.beat .resets) {s with beat := Beat.afterCleanup received, kemToBindingMap := ∅}

/- The calls whose failure ends the request. A failed DestroyKEMKey does not. -/
def Task.endsOnFault : Task → Bool
  | .generateCalling _ _ => true
  | .decapsCalling _ _ => true
  | .enumerateCalling => true
  | .claimsCalling _ => true
  | _ => false

inductive Resumption (u : Setup) : Task → Go KpsReply → Task → Prop where
  | generated {plan bindingUUID kemUUID kemPubKey} : Resumption u (.generateCalling plan bindingUUID)
      (.ok (.generated kemUUID kemPubKey)) (.generateStoring plan bindingUUID kemUUID kemPubKey)
  | sealed {call bindingUUID sealEnc sealedCT} : Resumption u (.decapsCalling call bindingUUID)
      (.ok (.sealed sealEnc sealedCT)) (.decapsOpening call bindingUUID sealEnc sealedCT)
  | destroyed {kemUUID bindingUUID} : Resumption u (.destroyCalling kemUUID bindingUUID) (.ok .destroyed)
      (.destroyBinding kemUUID bindingUUID none)
  | undestroyed {kemUUID bindingUUID err} : Resumption u (.destroyCalling kemUUID bindingUUID) (failed err)
      (.destroyBinding kemUUID bindingUUID (some err))
  | claimed {id info} : Resumption u (.claimsCalling id) (.ok (.kem info)) (.responding (.claims (kemClaims info)))
  | listed {keys hasMore} : Resumption u .enumerateCalling (.ok (.keys keys hasMore))
      (.responding (enumerateAnswer u (.ok (keys,hasMore))))
  | faulted {task fault a} (ends : task.endsOnFault = true) (failure : a.Failure) :
      Resumption u task (.error fault) (.responding a)

theorem resumption {u task result task'} (next : resume u task result = some task') :
    Resumption u task result task' := by
  unfold resume at next
  split at next <;> try contradiction
  all_goals cases Option.some.inj next
  · exact .generated
  · exact .faulted rfl (faultFails _ _)
  · exact .sealed
  · exact .faulted rfl (faultFails _ _)
  · exact .destroyed
  · exact .undestroyed
  · exact .listed
  · exact .faulted rfl (faultFails _ _)
  · exact .claimed
  · rename_i fault
    refine .faulted rfl ?_
    cases fault with
    | error err => exact .claims _
    | panic => exact .closed

theorem resumedWaits {u task result task'} (next : resume u task result = some task') :
    task ≠ .start ∧ ∀ a, task ≠ .responding a ∧ task ≠ .answered a := by
  cases resumption next with
  | faulted ends failure => cases task <;> first | contradiction | simp
  | _ => simp

theorem refusedFails {u request a} (why : Refused u request a) : a.Failure := by
  cases why with
  | generate bad => exact generateFails bad
  | decaps bad => exact decapsFails bad
  | destroy bad => exact destroyFails bad
  | claims bad => exact .claims _

section
variable {u : Setup} {s t : System} {i : Nat} {th : Thread} {entropy : Entropy}

theorem generateMove {body} (found : s.threads[i]? = some th) (fresh : th.task = .start)
    (request : th.request = .generateKey body) (taken : startGenerate u s i th entropy body = some t) :
    Move u s (.advance i entropy) t := by
  unfold startGenerate at taken
  split at taken
  · rename_i a bad
    cases Option.some.inj taken
    exact .quiet found (.refused fresh (request ▸ .generate bad))
  rename_i plan planned
  split at taken <;> try contradiction
  rename_i unused
  have spec := WsCore.generatedBinding u.x s.ws s.wsNow entropy plan.algo plan.lifespan
  generalize WsCore.generateBindingKeypair u.x s.ws s.wsNow entropy plan.algo plan.lifespan = out at spec taken
  cases spec with
  | failed fault =>
    cases Option.some.inj taken
    exact .quiet found (.notMade fresh request planned)
  | stored suite pubKey record decoded created spec =>
    have stored : (addKey s.ws record).lookup record.id = some record := AList.lookup_insert s.ws
    simp only [stored] at taken
    cases Option.some.inj taken
    have unused' : s.Fresh record.id := created.id ▸ not_not.mp unused
    exact .bindingMade found fresh request planned unused' decoded created spec

theorem decapsMove {body} (found : s.threads[i]? = some th) (fresh : th.task = .start)
    (request : th.request = .decaps body) (taken : startDecaps u s i th body = some t) :
    Move u s (.advance i entropy) t := by
  unfold startDecaps at taken
  split at taken
  · rename_i a bad
    cases Option.some.inj taken
    exact .quiet found (.refused fresh (request ▸ .decaps bad))
  rename_i call parsed
  split at taken <;> try contradiction
  rename_i free
  split at taken
  · rename_i missing
    cases Option.some.inj taken
    exact .quiet found (.decapsMissing fresh request parsed (Bool.eq_false_iff.mpr free) missing)
  · rename_i bindingUUID mapped
    cases Option.some.inj taken
    exact .quiet found (.decapsFound fresh request parsed (Bool.eq_false_iff.mpr free) mapped)

theorem destroyMove {body} (found : s.threads[i]? = some th) (fresh : th.task = .start)
    (request : th.request = .destroy body) (taken : startDestroy u s i th body = some t) :
    Move u s (.advance i entropy) t := by
  unfold startDestroy at taken
  split at taken
  · rename_i a bad
    cases Option.some.inj taken
    exact .quiet found (.refused fresh (request ▸ .destroy bad))
  rename_i kemUUID parsed
  split at taken <;> try contradiction
  rename_i free
  split at taken
  · rename_i missing
    cases Option.some.inj taken
    exact .quiet found (.destroyMissing fresh request parsed (Bool.eq_false_iff.mpr free) missing)
  · rename_i bindingUUID mapped
    cases Option.some.inj taken
    exact .quiet found (.destroyFound fresh request parsed (Bool.eq_false_iff.mpr free) mapped)

theorem claimsMove {req} (found : s.threads[i]? = some th) (fresh : th.task = .start)
    (request : th.request = .getKeyClaims req) (taken : startClaims u s i th req = some t) :
    Move u s (.advance i entropy) t := by
  unfold startClaims at taken
  split at taken
  · rename_i err bad
    cases Option.some.inj taken
    exact .quiet found (.refused fresh (request ▸ .claims bad))
  · rename_i id planned
    cases Option.some.inj taken
    exact .quiet found (.claimsSent fresh request planned)
  rename_i id planned
  split at taken <;> try contradiction
  rename_i free
  split at taken
  · cases Option.some.inj taken
    exact .quiet found (.claimsMissing fresh request planned)
  · rename_i bindingID mapped
    cases Option.some.inj taken
    exact .quiet found (.claimsFound fresh request planned (Bool.eq_false_iff.mpr free) mapped)

theorem startMove (found : s.threads[i]? = some th) (fresh : th.task = .start)
    (taken : start u s i th entropy = some t) : Move u s (.advance i entropy) t := by
  unfold start at taken
  split at taken <;> rename_i request
  · exact generateMove found fresh request taken
  · exact decapsMove found fresh request taken
  · exact destroyMove found fresh request taken
  · cases Option.some.inj taken
    exact .quiet found (.enumerating fresh request)
  · exact claimsMove found fresh request taken
  · cases Option.some.inj taken
    exact .quiet found (.kpsClaims fresh request)

theorem advanceMove (found : s.threads[i]? = some th) (taken : advance u s i th entropy = some t) :
    Move u s (.advance i entropy) t := by
  unfold advance at taken
  split at taken <;> try contradiction
  · rename_i stage
    exact startMove found stage taken
  · rename_i stage
    split at taken <;> try contradiction
    rename_i free
    cases Option.some.inj taken
    exact .stored found stage (Bool.eq_false_iff.mpr free)
  · rename_i stage
    cases Option.some.inj taken
    exact .quiet found (.opened stage)
  · rename_i kemUUID bindingUUID errKps stage
    rw [WsCore.destroyedBinding] at taken
    have moved : Move u s (.advance i entropy) _ := .bindingDestroyed found stage
    have errors : (if (s.ws.lookup bindingUUID).isSome then none else some (GoError.ffi .notFound)).isNone =
        (s.ws.lookup bindingUUID).isSome := by
      cases (s.ws.lookup bindingUUID).isSome <;> rfl
    simp only [errors] at taken
    cases Option.some.inj taken
    exact moved
  · rename_i stage
    split at taken <;> try contradiction
    rename_i free
    cases Option.some.inj taken
    exact .unmapped found stage (Bool.eq_false_iff.mpr free)
  · rename_i stage
    cases Option.some.inj taken
    exact .quiet found (.claimed stage)
  · rename_i stage
    cases Option.some.inj taken
    exact .quiet found (.answered stage)

theorem servedGenerate {algo bindingPubKey lifespanSecs} (found : s.threads[i]? = some th)
    (sent : th.rpc = some ⟨.generate algo bindingPubKey lifespanSecs,none⟩)
    (taken : serve u s i th entropy = some t) : Move u s (.serve i entropy) t := by
  simp only [serve,sent,KpsCall.creates,true_and] at taken
  split at taken <;> try contradiction
  rename_i unused
  have spec := KpsCore.generatedKem u.x s.kps s.kpsNow entropy algo bindingPubKey lifespanSecs
  have reads : ∀ fault, KpsCore.generateKEMKeypair u.x s.kps s.kpsNow entropy algo bindingPubKey lifespanSecs =
      (.error fault,s.kps) → serveCall u.x s.kps s.kpsNow entropy (.generate algo bindingPubKey lifespanSecs) =
        (.error fault,s.kps) := by
    intro fault same
    simp only [serveCall,same]
    rfl
  simp only [serveCall] at taken
  generalize KpsCore.generateKEMKeypair u.x s.kps s.kpsNow entropy algo bindingPubKey lifespanSecs = out
    at spec taken reads
  cases spec with
  | failed fault =>
    cases Option.some.inj taken
    exact .served found sent (reads fault rfl) (fun _ _ same => nomatch same) (fun _ same => nomatch same)
  | stored suite pubKey bindingKey record bound decoded created spec =>
    have stored : (addKey s.kps record).lookup record.id = some record := AList.lookup_insert s.kps
    simp only [Except.map,stored] at taken
    cases Option.some.inj taken
    have unused' : s.Fresh record.id := created.id ▸ not_not.mp unused
    exact .kemMade found sent unused' bound decoded created spec

theorem servedDestroy {kemUUID} (found : s.threads[i]? = some th)
    (sent : th.rpc = some ⟨.destroy kemUUID,none⟩) (taken : serve u s i th entropy = some t) :
    Move u s (.serve i entropy) t := by
  have moved : Move u s (.serve i entropy) _ := .kemDestroyed found sent
  simp only [serve,sent,KpsCall.creates,Bool.false_eq_true,false_and,if_false,serveCall,KpsCore.destroyedKem]
    at taken
  cases present : (s.kps.lookup kemUUID).isSome
  · simp only [present,Bool.false_eq_true,if_false,failed] at taken moved
    cases Option.some.inj taken
    exact moved
  · simp only [present,if_true] at taken moved
    cases Option.some.inj taken
    exact moved

theorem servedRead {call reply} (found : s.threads[i]? = some th) (sent : th.rpc = some ⟨call,none⟩)
    (reader : call.creates = false) (reads : serveCall u.x s.kps s.kpsNow entropy call = (reply,s.kps))
    (nothing : ∀ kemUUID kemPubKey, reply ≠ .ok (.generated kemUUID kemPubKey))
    (keeps : ∀ kemUUID, call ≠ .destroy kemUUID) (taken : serve u s i th entropy = some t) : Move u s (.serve i entropy) t := by
  simp only [serve,sent,reader,Bool.false_eq_true,false_and,if_false,reads,List.nil_append] at taken
  cases Option.some.inj taken
  exact .served found sent reads nothing keeps

theorem serveMove (found : s.threads[i]? = some th) (taken : serve u s i th entropy = some t) :
    Move u s (.serve i entropy) t := by
  cases sent : th.rpc with
  | none => simp [serve,sent] at taken
  | some rpc =>
    obtain ⟨call,reply⟩ := rpc
    cases reply with
    | some reply => simp [serve,sent] at taken
    | none =>
      cases call with
      | generate algo bindingPubKey lifespanSecs => exact servedGenerate found sent taken
      | destroy kemUUID => exact servedDestroy found sent taken
      | decapAndSeal kemUUID encapsulatedKey aad =>
        refine servedRead found sent rfl rfl (fun kemUUID' kemPubKey => ?_) (fun _ same => nomatch same) taken
        cases KpsCore.decapAndSeal u.x s.kps s.kpsNow entropy.seed kemUUID encapsulatedKey aad <;> simp [Except.map]
      | getKEMKey id =>
        refine servedRead found sent rfl rfl (fun kemUUID' kemPubKey => ?_) (fun _ same => nomatch same) taken
        cases KpsCore.getKEMKey u.x s.kps s.kpsNow s.kpsNow id <;> simp [Except.map]
      | enumerate limit offset =>
        refine servedRead found sent rfl rfl (fun kemUUID' kemPubKey => ?_) (fun _ same => nomatch same) taken
        cases KpsCore.enumerateKEMKeys u.x s.kps s.kpsNow (fun _ => s.kpsNow) limit offset <;> simp [Except.map]

theorem receiveMove (found : s.threads[i]? = some th) (taken : receive u s i th = some t) :
    Move u s (.receive i) t := by
  unfold receive at taken
  split at taken <;> try contradiction
  rename_i call reply own
  obtain ⟨task,next,rfl⟩ := Option.map_eq_some_iff.mp taken
  exact .quiet found (.resumed (.received own) next)

theorem replayMove {j other} (found : s.threads[i]? = some th) (sender : s.threads[j]? = some other)
    (taken : replay u s i th other = some t) : Move u s (.replay i j) t := by
  unfold replay at taken
  split at taken <;> try contradiction
  rename_i call bindingUUID sent reply waiting served
  split at taken <;> try contradiction
  rename_i decaps
  obtain ⟨task,next,rfl⟩ := Option.map_eq_some_iff.mp taken
  rw [← waiting] at next
  exact .quiet found (.resumed (.replayed sender served decaps waiting) next)

theorem beatMove {pulse} (taken : beat u s pulse = some t) : Move u s (.beat pulse) t := by
  unfold beat at taken
  obtain ⟨out,next,rfl⟩ := Option.map_eq_some_iff.mp taken
  cases pulse with
  | destroysAll =>
    cases stage : s.beat with
    | destroying received =>
      rw [stage] at next
      cases Option.some.inj next
      exact .purged stage
    | _ =>
      rw [stage] at next
      contradiction
  | resets =>
    cases stage : s.beat with
    | resetting received =>
      rw [stage] at next
      cases Option.some.inj next
      exact .reset stage
    | _ =>
      rw [stage] at next
      contradiction
  | receives =>
    cases stage : s.beat with
    | answered backoff receipt =>
      have moved : Move u s (.beat .receives) _ := .heard stage
      rw [stage] at next
      simp only [Beat.step] at next
      split at next
      · rename_i differs
        cases Option.some.inj next
        simpa only [if_pos differs,Beat.arriving,Option.map_some] using moved
      · rename_i agrees
        cases Option.some.inj next
        simpa only [if_neg agrees,Beat.arriving,Option.map_some] using moved
    | _ =>
      rw [stage] at next
      contradiction
  | _ => exact .beaten (by decide) (by decide) (by decide) next

theorem stepMove {l} (taken : step u s l = some t) : Move u s l t := by
  cases l with
  | arrive request =>
    cases Option.some.inj taken
    exact .arrived request
  | advance i entropy =>
    obtain ⟨th,found,next⟩ := Option.bind_eq_some_iff.mp taken
    exact advanceMove found next
  | serve i entropy =>
    obtain ⟨th,found,next⟩ := Option.bind_eq_some_iff.mp taken
    exact serveMove found next
  | receive i =>
    obtain ⟨th,found,next⟩ := Option.bind_eq_some_iff.mp taken
    exact receiveMove found next
  | replay i j =>
    obtain ⟨th,found,next⟩ := Option.bind_eq_some_iff.mp taken
    obtain ⟨other,sender,last⟩ := Option.bind_eq_some_iff.mp next
    exact replayMove found sender last
  | fail i err =>
    obtain ⟨th,found,next⟩ := Option.bind_eq_some_iff.mp taken
    obtain ⟨task,resumed,rfl⟩ := Option.map_eq_some_iff.mp next
    exact .quiet found (.resumed (.timedOut err) resumed)
  | tick kps ws =>
    cases Option.some.inj taken
    exact .ticked kps ws
  | reapKps now =>
    simp only [step] at taken
    split at taken <;> try contradiction
    rename_i past
    cases Option.some.inj taken
    exact .reapedKps past
  | reapWs now =>
    simp only [step] at taken
    split at taken <;> try contradiction
    rename_i past
    cases Option.some.inj taken
    exact .reapedWs past
  | restart token =>
    simp only [step] at taken
    split at taken <;> try contradiction
    rename_i guard
    cases Option.some.inj taken
    exact .restarted guard.1 guard.2
  | beat pulse => exact beatMove taken

end

/-! The same step as one handler sees it. -/

section
variable {u : Setup} {s t : System} {i : Nat} {th th' : Thread}

theorem getPut (found : s.threads[i]? = some th) (j : Nat) :
    (s.threads.set i th')[j]? = if j = i then some th' else s.threads[j]? := by
  have bound : i < s.threads.length := (List.getElem?_eq_some_iff.mp found).1
  rw [List.getElem?_set]
  split
  · rename_i same
    subst same
    rw [if_pos rfl]
  · rename_i other
    rw [if_neg (fun same => other same.symm)]

theorem getArrived {request : Request} {j : Nat} {other : Thread}
    (here : (s.threads ++ [⟨request,.start,none⟩])[j]? = some other) :
    s.threads[j]? = some other ∨ (j = s.threads.length ∧ other = ⟨request,.start,none⟩) := by
  rw [List.getElem?_append] at here
  split at here
  · exact .inl here
  · rename_i outside
    obtain ⟨bound,same⟩ := List.getElem?_eq_some_iff.mp here
    simp only [List.length_singleton] at bound
    refine .inr ⟨by omega,?_⟩
    simpa using same.symm

end

/- A handler's own step, with what it did to the stores. -/
inductive Moved (u : Setup) (s : System) (l : Label) (t : System) (i : Nat) (th : Thread) : Thread → Prop where
  | quiet {next} (taken : Quiet u s i th l next) (same : t = s.put i next) : Moved u s l t i th next
  | making {entropy plan record pubKey body} (label : l = .advance i entropy) (fresh : th.task = .start)
      (request : th.request = .generateKey body) (born : t.bindings = ⟨i,record⟩ :: s.bindings)
      (ws : t.ws = addKey s.ws record) :
      Moved u s l t i th (th.call (.generateCalling plan record.id) (.generate plan.algo pubKey plan.lifespan))
  | replied {entropy call reply} (label : l = .serve i entropy) (sent : th.rpc = some ⟨call,none⟩)
      (reads : call.creates = false → (∀ kemUUID, call ≠ .destroy kemUUID) →
        serveCall u.x s.kps s.kpsNow entropy call = (reply,s.kps))
      (destroys : ∀ kemUUID, call = .destroy kemUUID → t.kps = s.kps.erase kemUUID ∧
        reply = if (s.kps.lookup kemUUID).isSome then .ok .destroyed else failed (.ffi .notFound)) :
      Moved u s l t i th {th with rpc := some ⟨call,some reply⟩}
  | storing {entropy plan bindingUUID kemUUID kemPubKey} (label : l = .advance i entropy)
      (stage : th.task = .generateStoring plan bindingUUID kemUUID kemPubKey)
      (map : t.kemToBindingMap = s.kemToBindingMap.insert kemUUID bindingUUID) :
      Moved u s l t i th (th.respond (generateAnswer u plan kemUUID kemPubKey))
  | unbinding {entropy kemUUID bindingUUID errKps} (label : l = .advance i entropy)
      (stage : th.task = .destroyBinding kemUUID bindingUUID errKps) (ws : t.ws = s.ws.erase bindingUUID)
      (log : t.unbound = (if (s.ws.lookup bindingUUID).isSome then [(i,bindingUUID)] else []) ++ s.unbound) :
      Moved u s l t i th (th.goto (.destroyUnmapping kemUUID bindingUUID errKps
        (if (s.ws.lookup bindingUUID).isSome then none else some (.ffi .notFound))))
  | unmapping {entropy kemUUID bindingUUID errKps errWs} (label : l = .advance i entropy)
      (stage : th.task = .destroyUnmapping kemUUID bindingUUID errKps errWs)
      (map : t.kemToBindingMap = s.kemToBindingMap.erase kemUUID) :
      Moved u s l t i th (th.respond (destroyAnswer errKps errWs))

inductive Responded (u : Setup) (s : System) (l : Label) (i : Nat) (th : Thread) : Answer → Prop where
  | kept {a} (stage : th.task = .responding a) : Responded u s l i th a
  | failed {a} (failure : a.Failure) : Responded u s l i th a
  | generated {plan bindingUUID kemUUID kemPubKey} (entropy) (label : l = .advance i entropy)
      (stage : th.task = .generateStoring plan bindingUUID kemUUID kemPubKey) :
      Responded u s l i th (generateAnswer u plan kemUUID kemPubKey)
  | opened {call bindingUUID sealEnc sealedCT secret} (entropy) (label : l = .advance i entropy)
      (stage : th.task = .decapsOpening call bindingUUID sealEnc sealedCT)
      (ok : WsCore.openSecret u.x s.ws s.wsNow bindingUUID sealEnc sealedCT call.aad = .ok secret) :
      Responded u s l i th (.http 200 (.secret call.algorithm secret))
  | destroyed {errKps errWs} : Responded u s l i th (destroyAnswer errKps errWs)
  | listed {keys hasMore} : Responded u s l i th (enumerateAnswer u (.ok (keys,hasMore)))
  | claimed (claims) : Responded u s l i th (.claims claims)

def Label.mover : Label → Option Nat
  | .advance i _ => some i
  | .serve i _ => some i
  | .receive i => some i
  | .replay i _ => some i
  | .fail i _ => some i
  | _ => none

section
variable {u : Setup} {s t : System} {l : Label}

theorem movedMover {i : Nat} {th th' : Thread} (moved : Moved u s l t i th th') : l.mover = some i := by
  cases moved with
  | quiet taken same =>
    cases taken with
    | resumed origin next => cases origin <;> rfl
    | _ => rfl
  | making label fresh request born ws => exact label ▸ rfl
  | replied label sent reads destroys => exact label ▸ rfl
  | storing label stage map => exact label ▸ rfl
  | unbinding label stage ws log => exact label ▸ rfl
  | unmapping label stage map => exact label ▸ rfl

theorem movedRequest {i : Nat} {th th' : Thread} (moved : Moved u s l t i th th') : th'.request = th.request := by
  cases moved with
  | quiet taken same => cases taken <;> rfl
  | _ => rfl

theorem quietResponded {i : Nat} {th th' : Thread} {a : Answer} (taken : Quiet u s i th l th')
    (stage : th'.task = .responding a) : Responded u s l i th a := by
  cases taken with
  | refused fresh why =>
    cases stage
    exact .failed (refusedFails why)
  | notMade fresh request planned =>
    cases stage
    exact .failed (faultFails _ _)
  | decapsMissing fresh request parsed free missing =>
    cases stage
    exact .failed (notFoundFails _)
  | destroyMissing fresh request parsed free missing =>
    cases stage
    exact .failed (notFoundFails _)
  | claimsMissing fresh request planned =>
    cases stage
    exact .failed (.claims _)
  | kpsClaims fresh request =>
    cases stage
    unfold kpsGetKeyClaims
    split
    · exact .failed (.claims _)
    split
    · exact .failed (.claims _)
    split
    · exact .failed (.claims _)
    split
    · exact .claimed _
    · exact .failed (.claims _)
    · exact .failed .closed
  | @opened entropy call bindingUUID sealEnc sealedCT opening =>
    cases stage
    cases ok : WsCore.openSecret u.x s.ws s.wsNow bindingUUID sealEnc sealedCT call.aad with
    | error fault => exact .failed (faultFails _ fault)
    | ok secret => exact .opened entropy rfl opening ok
  | @claimed entropy id bindingID claiming =>
    cases stage
    cases WsCore.getBindingKey u.x s.ws s.wsNow bindingID with
    | ok pair => exact .claimed _
    | error fault =>
      cases fault with
      | error err => exact .failed (.claims _)
      | panic => exact .failed .closed
  | resumed origin next =>
    have resumes := resumption next
    generalize th.task = task at resumes
    cases resumes with
    | claimed =>
      cases stage
      exact .claimed _
    | listed =>
      cases stage
      exact .listed
    | faulted ends failure =>
      cases stage
      exact .failed failure
    | _ => contradiction
  | _ => contradiction

theorem responded {i : Nat} {th th' : Thread} {a : Answer} (moved : Moved u s l t i th th')
    (stage : th'.task = .responding a) : Responded u s l i th a := by
  cases moved with
  | quiet taken same => exact quietResponded taken stage
  | making label fresh request born ws => contradiction
  | replied label sent reads destroys => exact .kept stage
  | storing label storing map =>
    cases stage
    exact .generated _ label storing
  | unbinding label unbinding ws log => contradiction
  | unmapping label unmapping map =>
    cases stage
    exact .destroyed

theorem answeredFrom {i : Nat} {th th' : Thread} {a : Answer} (moved : Moved u s l t i th th')
    (stage : th'.task = .answered a) : th.task = .responding a ∨ th.task = .answered a := by
  cases moved with
  | quiet taken same =>
    cases taken with
    | answered responding =>
      cases stage
      exact .inl responding
    | resumed origin next =>
      have resumes := resumption next
      generalize th.task = task at resumes
      cases resumes <;> contradiction
    | _ => contradiction
  | replied label sent reads destroys => exact .inr stage
  | _ => contradiction

theorem moveThreads (move : Move u s l t) :
    (∃ request, l = .arrive request ∧ t.threads = s.threads ++ [⟨request,.start,none⟩]) ∨ t.threads = s.threads ∨
    ∃ i th th', s.threads[i]? = some th ∧ t.threads = s.threads.set i th' ∧ Moved u s l t i th th' := by
  cases move with
  | arrived request => exact .inl ⟨request,rfl,rfl⟩
  | quiet found next => exact .inr (.inr ⟨_,_,_,found,rfl,.quiet next rfl⟩)
  | bindingMade found fresh request planned unused decoded created spec =>
    exact .inr (.inr ⟨_,_,_,found,rfl,.making rfl fresh request rfl rfl⟩)
  | kemMade found sent unused bound decoded created spec =>
    exact .inr (.inr ⟨_,_,_,found,rfl,.replied rfl sent (by simp [KpsCall.creates]) (by simp)⟩)
  | kemDestroyed found sent =>
    refine .inr (.inr ⟨_,_,_,found,rfl,.replied rfl sent (by simp) (fun kemUUID same => ?_)⟩)
    cases same
    exact ⟨rfl,rfl⟩
  | served found sent reads nothing keeps =>
    exact .inr (.inr ⟨_,_,_,found,rfl,.replied rfl sent (fun _ _ => reads)
      (fun kemUUID same => absurd same (keeps kemUUID))⟩)
  | stored found stage free => exact .inr (.inr ⟨_,_,_,found,rfl,.storing rfl stage rfl⟩)
  | bindingDestroyed found stage => exact .inr (.inr ⟨_,_,_,found,rfl,.unbinding rfl stage rfl rfl⟩)
  | unmapped found stage free => exact .inr (.inr ⟨_,_,_,found,rfl,.unmapping rfl stage rfl⟩)
  | _ => exact .inr (.inl rfl)

theorem threadBefore (move : Move u s l t) {j : Nat} {th' : Thread} (here : t.threads[j]? = some th') :
    (∃ request, j = s.threads.length ∧ th' = ⟨request,.start,none⟩) ∨ s.threads[j]? = some th' ∨
    ∃ th, s.threads[j]? = some th ∧ Moved u s l t j th th' := by
  rcases moveThreads move with ⟨request,_,same⟩ | same | ⟨i,th,next,found,same,moved⟩
  · rw [same] at here
    rcases getArrived here with old | ⟨last,new⟩
    · exact .inr (.inl old)
    · exact .inl ⟨request,last,new⟩
  · exact .inr (.inl (same ▸ here))
  · rw [same,getPut found] at here
    split at here
    · rename_i mover
      subst mover
      cases Option.some.inj here
      exact .inr (.inr ⟨th,found,moved⟩)
    · exact .inr (.inl here)

theorem threadAfter (move : Move u s l t) {j : Nat} {th : Thread} (here : s.threads[j]? = some th) :
    t.threads[j]? = some th ∨ ∃ th', t.threads[j]? = some th' ∧ Moved u s l t j th th' := by
  rcases moveThreads move with ⟨request,_,same⟩ | same | ⟨i,before,next,found,same,moved⟩
  · have bound : j < s.threads.length := (List.getElem?_eq_some_iff.mp here).1
    rw [same,List.getElem?_append_left bound]
    exact .inl here
  · exact .inl (same ▸ here)
  · rw [same,getPut found]
    split
    · rename_i mover
      subst mover
      cases Option.some.inj (found.symm.trans here)
      exact .inr ⟨next,rfl,moved⟩
    · exact .inl here

theorem threadKept (move : Move u s l t) {j : Nat} {th : Thread} (here : s.threads[j]? = some th)
    (other : l.mover ≠ some j) : t.threads[j]? = some th := by
  rcases threadAfter move here with same | ⟨th',_,moved⟩
  · exact same
  · exact absurd (movedMover moved) other

end
end KeyProtection
