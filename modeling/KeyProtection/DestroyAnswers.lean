import KeyProtection.DestroyRace
import KeyProtection.Isolation

/-! What a destroy request answers, for every outcome of its two calls. The two errors are
joined and the first row of the status table that either of them matches decides, so a
NOT_FOUND from the workload service stands for both, whatever the KPS said. -/
namespace KeyProtection
open Lib Lib.Run KeyRegistry

abbrev Destroyer := KeyRegistry → Uuid → Option GoError × KeyRegistry

/- handleDestroy over the two service interfaces, with nothing in between. -/
def handleDestroy (x : Externals) (destroyKEMKey destroyBindingKey : Destroyer) (kps ws : KeyRegistry)
    (map : Table Uuid Uuid) (body : Body DestroyRequest) : Answer × KeyRegistry × KeyRegistry × Table Uuid Uuid :=
  match destroyParse x body with
  | .error a => (a,kps,ws,map)
  | .ok kemUUID =>
    match map.lookup kemUUID with
    | none => (handleNotFound kemUUID,kps,ws,map)
    | some bindingUUID =>
      let errKps := destroyKEMKey kps kemUUID
      let errWs := destroyBindingKey ws bindingUUID
      (destroyAnswer errKps.1 errWs.1,errKps.2,errWs.2,map.erase kemUUID)

def destroyThrough (mode : Mode) : Destroyer := fun keys kemUUID =>
  let out := KpsCore.destroyKEMKey keys kemUUID
  (out.1.map (kpsError mode (.destroy kemUUID)),out.2)

def reportsNotFound : Option GoError → Bool
  | some err => err.is .notFound
  | none => false

structure Truthful (destroy : Destroyer) : Prop where
  removed : ∀ keys id, (destroy keys id).1 = none → (destroy keys id).2.lookup id = none
  missing : ∀ keys id, reportsNotFound (destroy keys id).1 = true → (destroy keys id).2.lookup id = none

theorem destroyedThrough (mode : Mode) (keys : KeyRegistry) (kemUUID : Uuid) :
    destroyThrough mode keys kemUUID =
      (if (keys.lookup kemUUID).isSome then none else some (.ffi .notFound),keys.erase kemUUID) := by
  simp only [destroyThrough,KpsCore.destroyedKem]
  split
  · rfl
  · rw [Option.map_some,kpsErrorNotFound]

theorem truthfulThrough (mode : Mode) : Truthful (destroyThrough mode) where
  removed keys id _ := by
    rw [destroyedThrough,Table.lookupErase,if_pos rfl]
  missing keys id _ := by
    rw [destroyedThrough,Table.lookupErase,if_pos rfl]

/-! The status of the answer. -/

theorem destroyAnswerNoContent {errKps errWs : Option GoError} :
    (destroyAnswer errKps errWs).status = 204 ↔ errKps = none ∧ errWs = none := by
  have failing : ∀ err, (writeError ("failed to destroy keys: " ++ err.text) (httpStatusFromError (some err))).status ≠
      204 := fun err => (httpStatusNotOk err).2
  cases errKps with
  | none =>
    cases errWs with
    | none => exact ⟨fun _ => ⟨rfl,rfl⟩,fun _ => rfl⟩
    | some err => exact ⟨fun told => absurd told (failing err),fun both => by cases both.2⟩
  | some err =>
    cases errWs with
    | none => exact ⟨fun told => absurd told (failing err),fun both => by cases both.1⟩
    | some err' => exact ⟨fun told => absurd told (failing (.join err err')),fun both => by cases both.1⟩

theorem notFoundStatus (err : GoError) : httpStatusFromError (some err) = 404 ↔ err.is .notFound = true := by
  simp only [httpStatusFromError]
  split
  · rename_i told
    exact ⟨fun _ => told,fun _ => rfl⟩
  · rename_i silent
    refine ⟨fun status => ?_,fun told => absurd told silent⟩
    repeat' (split at status; · contradiction)
    contradiction

theorem destroyAnswerNotFound {errKps errWs : Option GoError} :
    (destroyAnswer errKps errWs).status = 404 ↔ reportsNotFound errKps = true ∨ reportsNotFound errWs = true := by
  cases errKps with
  | none =>
    cases errWs with
    | none => simp [destroyAnswer,errorsJoin,Answer.status,reportsNotFound]
    | some err => simpa [destroyAnswer,errorsJoin,reportsNotFound,writeError,Answer.status] using notFoundStatus err
  | some err =>
    cases errWs with
    | none => simpa [destroyAnswer,errorsJoin,reportsNotFound,writeError,Answer.status] using notFoundStatus err
    | some err' =>
      have joined := notFoundStatus (.join err err')
      rw [GoError.is,Bool.or_eq_true] at joined
      exact joined

theorem handledMapped {x : Externals} {destroyKEMKey destroyBindingKey : Destroyer} {kps ws : KeyRegistry}
    {map : Table Uuid Uuid} {body : Body DestroyRequest} {h b : Uuid} (parsed : destroyParse x body = .ok h)
    (mapped : map.lookup h = some b) :
    handleDestroy x destroyKEMKey destroyBindingKey kps ws map body =
      (destroyAnswer (destroyKEMKey kps h).1 (destroyBindingKey ws b).1,(destroyKEMKey kps h).2,
        (destroyBindingKey ws b).2,map.erase h) := by
  simp only [handleDestroy,parsed,mapped]

/- The answer tells the truth about the KEM key except when DestroyKEMKey has left it in
place and the binding key is reported missing. -/
theorem destroyAnswerHonest {x : Externals} {destroyKEMKey destroyBindingKey : Destroyer} {kps ws : KeyRegistry}
    {map : Table Uuid Uuid} {body : Body DestroyRequest} {h b : Uuid} (truthful : Truthful destroyKEMKey)
    (parsed : destroyParse x body = .ok h) (mapped : map.lookup h = some b) :
    let out := handleDestroy x destroyKEMKey destroyBindingKey kps ws map body
    (out.1.status = 204 ∨ out.1.status = 404 → out.2.1.lookup h = none) ↔
      ¬ (((destroyKEMKey kps h).2.lookup h).isSome = true ∧ reportsNotFound (destroyBindingKey ws b).1 = true) := by
  intro out
  have same : out = _ := handledMapped parsed mapped
  rw [same]
  constructor
  · intro honest both
    have gone := honest (.inr (destroyAnswerNotFound.mpr (.inr both.2)))
    rw [gone] at both
    exact Bool.false_ne_true both.1
  · intro unlike told
    rcases told with noContent | notFound
    · exact truthful.removed kps h (destroyAnswerNoContent.mp noContent).1
    · rcases destroyAnswerNotFound.mp notFound with kpsSays | wsSays
      · exact truthful.missing kps h kpsSays
      · exact Option.not_isSome_iff_eq_none.mp (fun survives => unlike ⟨survives,wsSays⟩)

/-! The steps of the system compute this function. -/

/- What came of the call: it was answered, or it failed before or after the KPS took it. -/
inductive Delivery (u : Setup) (kps : KeyRegistry) (failing : Bool) (k : Uuid) :
    Option Rpc → Option GoError → KeyRegistry → Prop where
  | answered {reply} : Delivery u kps failing k (some ⟨.destroy k,some reply⟩)
      (destroyThrough u.mode kps k).1 (destroyThrough u.mode kps k).2
  | unserved (err) (fails : failing = true) : Delivery u kps failing k (some ⟨.destroy k,none⟩) (some err) kps
  | lost {reply} (err) (fails : failing = true) :
      Delivery u kps failing k (some ⟨.destroy k,some reply⟩) (some err) (kps.erase k)

inductive DestroyAlone (u : Setup) (s : System) (failing : Bool) (body : Body DestroyRequest) :
    Task → Option Rpc → KeyRegistry → KeyRegistry → Table Uuid Uuid → Prop where
  | arrived : DestroyAlone u s failing body .start none s.kps s.ws s.kemToBindingMap
  | sent {k b} (parsed : destroyParse u.x body = .ok k) (mapped : s.kemToBindingMap.lookup k = some b) :
      DestroyAlone u s failing body (.destroyCalling k b) (some ⟨.destroy k,none⟩) s.kps s.ws s.kemToBindingMap
  | served {k b} (parsed : destroyParse u.x body = .ok k) (mapped : s.kemToBindingMap.lookup k = some b) :
      DestroyAlone u s failing body (.destroyCalling k b) (some ⟨.destroy k,
        some (if (s.kps.lookup k).isSome then .ok .destroyed else KeyProtection.failed (.ffi .notFound))⟩)
        (s.kps.erase k) s.ws s.kemToBindingMap
  | unbinding {k b rpc errKps kps} (parsed : destroyParse u.x body = .ok k)
      (mapped : s.kemToBindingMap.lookup k = some b) (out : Delivery u s.kps failing k rpc errKps kps) :
      DestroyAlone u s failing body (.destroyBinding k b errKps) rpc kps s.ws s.kemToBindingMap
  | unmapping {k b rpc errKps kps} (parsed : destroyParse u.x body = .ok k)
      (mapped : s.kemToBindingMap.lookup k = some b) (out : Delivery u s.kps failing k rpc errKps kps) :
      DestroyAlone u s failing body (.destroyUnmapping k b errKps (WsCore.destroyBindingKey s.ws b).1) rpc kps
        (WsCore.destroyBindingKey s.ws b).2 s.kemToBindingMap
  | refused {task a} (done : task = .responding a ∨ task = .answered a)
      (same : ∀ destroyKEMKey, handleDestroy u.x destroyKEMKey WsCore.destroyBindingKey s.kps s.ws s.kemToBindingMap body =
        (a,s.kps,s.ws,s.kemToBindingMap)) :
      DestroyAlone u s failing body task none s.kps s.ws s.kemToBindingMap
  | told {task k b rpc errKps kps} (parsed : destroyParse u.x body = .ok k)
      (mapped : s.kemToBindingMap.lookup k = some b) (out : Delivery u s.kps failing k rpc errKps kps)
      (done : task = .responding (destroyAnswer errKps (WsCore.destroyBindingKey s.ws b).1) ∨
        task = .answered (destroyAnswer errKps (WsCore.destroyBindingKey s.ws b).1)) :
      DestroyAlone u s failing body task rpc kps (WsCore.destroyBindingKey s.ws b).2 (s.kemToBindingMap.erase k)

def DestroyingAlone (u : Setup) (s : System) (failing : Bool) (i : Nat) (body : Body DestroyRequest) (v : System) : Prop :=
  ∃ th, v.threads[i]? = some th ∧ th.request = .destroy body ∧
    DestroyAlone u s failing body th.task th.rpc v.kps v.ws v.kemToBindingMap

section
variable {u : Setup} {s v w : System} {failing : Bool} {i : Nat} {th : Thread} {body : Body DestroyRequest} {l : Label}

theorem destroyAlonePut {task : Task} {rpc : Option Rpc} (found : v.threads[i]? = some th)
    (request : th.request = .destroy body) (threads : w.threads = v.threads.set i ⟨th.request,task,rpc⟩)
    (stage : DestroyAlone u s failing body task rpc w.kps w.ws w.kemToBindingMap) :
    DestroyingAlone u s failing i body w := by
  refine ⟨⟨th.request,task,rpc⟩,?_,request,stage⟩
  rw [threads,getPut found,if_pos rfl]

theorem destroyAloneStarts {entropy : Entropy} (found : v.threads[i]? = some th) (request : th.request = .destroy body)
    (fresh : th.task = .start) (silent : th.rpc = none) (kps : v.kps = s.kps) (ws : v.ws = s.ws)
    (map : v.kemToBindingMap = s.kemToBindingMap) (taken : step u v (.advance i entropy) = some w) :
    DestroyingAlone u s failing i body w := by
  simp only [step,found,Option.bind_some,advance,fresh,start,request,startDestroy] at taken
  have refuses : ∀ a, (∀ destroyKEMKey, handleDestroy u.x destroyKEMKey WsCore.destroyBindingKey s.kps s.ws
      s.kemToBindingMap body = (a,s.kps,s.ws,s.kemToBindingMap)) → DestroyingAlone u s failing i body
      (v.put i (th.respond a)) := by
    intro a same
    refine destroyAlonePut found request rfl ?_
    simp only [System.put,kps,ws,map,silent]
    exact .refused (.inl rfl) same
  split at taken
  · rename_i a bad
    cases Option.some.inj taken
    exact refuses a (fun _ => by simp only [handleDestroy,bad])
  rename_i kemUUID parsed
  split at taken <;> try contradiction
  split at taken
  · rename_i missing
    cases Option.some.inj taken
    rw [map] at missing
    exact refuses _ (fun _ => by simp only [handleDestroy,parsed,missing])
  · rename_i bindingUUID mapped
    cases Option.some.inj taken
    rw [map] at mapped
    refine destroyAlonePut found request rfl ?_
    simp only [System.put,kps,ws,map]
    exact .sent parsed mapped

theorem destroyAloneAdvances {entropy : Entropy} (before : DestroyingAlone u s failing i body v)
    (taken : step u v (.advance i entropy) = some w) : DestroyingAlone u s failing i body w := by
  obtain ⟨th,found,request,stage⟩ := before
  generalize at_ : th.task = task at stage
  generalize sent : th.rpc = rpc at stage
  generalize kps : v.kps = kps' at stage
  generalize ws : v.ws = ws' at stage
  generalize map : v.kemToBindingMap = map' at stage
  cases stage with
  | arrived => exact destroyAloneStarts found request at_ sent kps ws map taken
  | sent parsed mapped => simp [step,found,advance,at_] at taken
  | served parsed mapped => simp [step,found,advance,at_] at taken
  | unbinding parsed mapped out =>
    simp only [step,found,Option.bind_some,advance,at_] at taken
    cases Option.some.inj taken
    refine destroyAlonePut found request rfl ?_
    simp only [System.put,kps,ws,map,sent]
    exact .unmapping parsed mapped out
  | unmapping parsed mapped out =>
    simp only [step,found,Option.bind_some,advance,at_] at taken
    split at taken <;> try contradiction
    cases Option.some.inj taken
    refine destroyAlonePut found request rfl ?_
    simp only [System.put,kps,ws,map,sent]
    exact .told parsed mapped out (.inl rfl)
  | refused done same =>
    rcases done with responding | answered
    · simp only [step,found,Option.bind_some,advance,at_,responding] at taken
      cases Option.some.inj taken
      refine destroyAlonePut found request rfl ?_
      simp only [System.put,kps,ws,map,sent]
      exact .refused (.inr rfl) same
    · simp [step,found,advance,at_,answered] at taken
  | told parsed mapped out done =>
    rcases done with responding | answered
    · simp only [step,found,Option.bind_some,advance,at_,responding] at taken
      cases Option.some.inj taken
      refine destroyAlonePut found request rfl ?_
      simp only [System.put,kps,ws,map,sent]
      exact .told parsed mapped out (.inr rfl)
    · simp [step,found,advance,at_,answered] at taken

theorem destroyAloneReply {task : Task} {call : KpsCall} {kps ws : KeyRegistry} {map : Table Uuid Uuid}
    (stage : DestroyAlone u s failing body task (some ⟨call,none⟩) kps ws map) :
    ∃ k, call = .destroy k ∧ DestroyAlone u s failing body task (some ⟨.destroy k,
      some (if (kps.lookup k).isSome then .ok .destroyed else failed (.ffi .notFound))⟩) (kps.erase k) ws map := by
  cases stage with
  | sent parsed mapped => exact ⟨_,rfl,.served parsed mapped⟩
  | unbinding parsed mapped out =>
    cases out with
    | unserved err fails => exact ⟨_,rfl,.unbinding parsed mapped (.lost err fails)⟩
  | unmapping parsed mapped out =>
    cases out with
    | unserved err fails => exact ⟨_,rfl,.unmapping parsed mapped (.lost err fails)⟩
  | told parsed mapped out done =>
    cases out with
    | unserved err fails => exact ⟨_,rfl,.told parsed mapped (.lost err fails) done⟩

theorem destroyAloneServed {entropy : Entropy} (before : DestroyingAlone u s failing i body v)
    (taken : step u v (.serve i entropy) = some w) : DestroyingAlone u s failing i body w := by
  obtain ⟨th,found,request,stage⟩ := before
  obtain ⟨th',found',next⟩ := Option.bind_eq_some_iff.mp taken
  cases Option.some.inj (found'.symm.trans found)
  cases waiting : th.rpc with
  | none => simp [serve,waiting] at next
  | some rpc =>
    obtain ⟨call,reply⟩ := rpc
    cases reply with
    | some reply => simp [serve,waiting] at next
    | none =>
      rw [waiting] at stage
      obtain ⟨k,rfl,replied⟩ := destroyAloneReply stage
      cases servedDestroy found waiting next with
      | quiet _ later =>
        cases later with
        | resumed origin _ => cases origin
      | kemMade there sent _ _ _ _ _ =>
        cases Option.some.inj (there.symm.trans found)
        cases sent.symm.trans waiting
      | kemDestroyed there sent =>
        cases Option.some.inj (there.symm.trans found)
        cases sent.symm.trans waiting
        exact destroyAlonePut found request rfl replied
      | served there sent _ _ keeps =>
        cases Option.some.inj (there.symm.trans found)
        cases sent.symm.trans waiting
        exact absurd rfl (keeps k)

theorem destroyAloneReceives (before : DestroyingAlone u s failing i body v) (taken : step u v (.receive i) = some w) :
    DestroyingAlone u s failing i body w := by
  obtain ⟨th,found,request,stage⟩ := before
  simp only [step,found,Option.bind_some,receive] at taken
  split at taken <;> try contradiction
  rename_i call reply own
  obtain ⟨task,next,rfl⟩ := Option.map_eq_some_iff.mp taken
  refine destroyAlonePut found request rfl ?_
  simp only [System.put]
  rw [own] at stage ⊢
  generalize th.task = before at stage next
  generalize v.kps = kps at stage ⊢
  generalize v.ws = ws at stage ⊢
  generalize v.kemToBindingMap = map at stage ⊢
  cases stage with
  | @served k b parsed mapped =>
    have out : ∀ reply, Delivery u s.kps failing k (some ⟨.destroy k,some reply⟩) (destroyThrough u.mode s.kps k).1
        (destroyThrough u.mode s.kps k).2 := fun reply => .answered
    simp only [destroyedThrough] at out
    cases present : (s.kps.lookup k).isSome with
    | true =>
      simp only [present,if_true] at next out
      cases Option.some.inj next
      exact .unbinding parsed mapped (out _)
    | false =>
      simp only [present,Bool.false_eq_true,if_false] at next out
      simp only [failed,adapt,kpsErrorNotFound] at next
      cases Option.some.inj next
      exact .unbinding parsed mapped (out _)
  | unbinding parsed mapped out => contradiction
  | unmapping parsed mapped out => contradiction
  | told parsed mapped out done => rcases done with rfl | rfl <;> contradiction

theorem destroyAloneFails {err : GoError} (before : DestroyingAlone u s true i body v)
    (taken : step u v (.fail i err) = some w) : DestroyingAlone u s true i body w := by
  obtain ⟨th,found,request,stage⟩ := before
  simp only [step,found,Option.bind_some] at taken
  obtain ⟨task,next,rfl⟩ := Option.map_eq_some_iff.mp taken
  refine destroyAlonePut found request rfl ?_
  simp only [System.put]
  generalize th.task = before at stage next
  generalize th.rpc = rpc at stage ⊢
  generalize v.kps = kps at stage ⊢
  generalize v.ws = ws at stage ⊢
  generalize v.kemToBindingMap = map at stage ⊢
  cases stage with
  | sent parsed mapped =>
    cases Option.some.inj next
    exact .unbinding parsed mapped (.unserved err rfl)
  | served parsed mapped =>
    cases Option.some.inj next
    exact .unbinding parsed mapped (.lost err rfl)
  | arrived => contradiction
  | unbinding parsed mapped out => contradiction
  | unmapping parsed mapped out => contradiction
  | refused done same => rcases done with rfl | rfl <;> contradiction
  | told parsed mapped out done => rcases done with rfl | rfl <;> contradiction

theorem destroyAloneStep (before : DestroyingAlone u s failing i body v)
    (alone : Alone i v l ∧ (failing = false → l.harms i = false)) (taken : step u v l = some w) :
    DestroyingAlone u s failing i body w := by
  obtain ⟨alone,unharmed⟩ := alone
  cases l with
  | advance j entropy =>
    cases alone
    exact destroyAloneAdvances before taken
  | serve j entropy =>
    cases alone
    exact destroyAloneServed before taken
  | receive j =>
    cases alone
    exact destroyAloneReceives before taken
  | fail j err =>
    cases alone
    cases failing with
    | true => exact destroyAloneFails before taken
    | false => exact absurd rfl (beq_eq_false_iff_ne.mp (unharmed rfl))
  | tick kps ws =>
    cases Option.some.inj taken
    exact before
  | _ => exact alone.elim

/- From its arrival to its answer, a request that is alone computes `handleDestroy`: with the
KPS as it is if no call fails, else with one that fails and removes the key or not. -/
theorem destroyRunsAlone {t : System} {ls : List Label} {a : Answer}
    (run : Along (step u) (fun v l => Alone s.threads.length v l ∧ (failing = false → l.harms s.threads.length = false))
      {s with threads := s.threads ++ [⟨.destroy body,.start,none⟩]} ls t)
    (here : t.threads[s.threads.length]? = some th) (answered : th.task = .answered a) :
    ∃ destroyKEMKey, (a,t.kps,t.ws,t.kemToBindingMap) = handleDestroy u.x destroyKEMKey WsCore.destroyBindingKey
        s.kps s.ws s.kemToBindingMap body ∧
      ((destroyKEMKey = destroyThrough u.mode) ∨ (failing = true ∧ ∃ err, ∀ keys id,
        destroyKEMKey keys id = (some err,keys) ∨ destroyKEMKey keys id = (some err,keys.erase id))) := by
  have arrived : DestroyingAlone u s failing s.threads.length body
      {s with threads := s.threads ++ [⟨.destroy body,.start,none⟩]} :=
    ⟨⟨.destroy body,.start,none⟩,List.getElem?_concat_length,rfl,.arrived⟩
  have final := alongInvariant (fun _ _ _ before alone taken => destroyAloneStep before alone taken) run arrived
  obtain ⟨th',there,_,stage⟩ := final
  cases Option.some.inj (there.symm.trans here)
  rw [answered] at stage
  generalize th.rpc = rpc at stage
  generalize t.kps = kps at stage ⊢
  generalize t.ws = ws at stage ⊢
  generalize t.kemToBindingMap = map at stage ⊢
  cases stage with
  | refused done same =>
    rcases done with other | done
    · contradiction
    · cases done
      exact ⟨destroyThrough u.mode,(same _).symm,.inl rfl⟩
  | told parsed mapped out done =>
    rcases done with other | done
    · contradiction
    · cases done
      cases out with
      | answered => exact ⟨destroyThrough u.mode,(handledMapped parsed mapped).symm,.inl rfl⟩
      | unserved err fails =>
        refine ⟨fun keys _ => (some err,keys),?_,.inr ⟨fails,err,fun _ _ => .inl rfl⟩⟩
        rw [handledMapped parsed mapped]
      | lost err fails =>
        refine ⟨fun keys id => (some err,keys.erase id),?_,.inr ⟨fails,err,fun _ _ => .inr rfl⟩⟩
        rw [handledMapped parsed mapped]

end

/-! A remote KPS that cannot be reached while the binding key has been reaped. -/

def remoteSetup : Setup := ⟨Standin.externals,.vm,.vm,1000000000,60000000000⟩

def unavailable : GoError := .grpc .unavailable "connection refused"

def unreachable : Destroyer := fun keys _ => (some unavailable,keys)

theorem truthfulUnreachable : Truthful unreachable where
  removed keys id none := by cases none
  missing keys id told := by cases told

def bindingReaped : List Label :=
  [.arrive Standin.generateRequest,.advance 0 (Standin.entropy 1),.tick 10 10,.serve 0 (Standin.entropy 2),.receive 0,
    .advance 0 (Standin.entropy 0),.advance 0 (Standin.entropy 0),.tick 3599999999995 3599999999995,
    .reapWs 3600000000000]

def destroyUnreachable : List Label :=
  [.arrive (Standin.destroyRequest 2),.advance 1 (Standin.entropy 0),.fail 1 unavailable,.advance 1 (Standin.entropy 0),
    .advance 1 (Standin.entropy 0),.advance 1 (Standin.entropy 0)]

def remotely (s : System) (ls : List Label) : System := (exec (step remoteSetup) s ls).getD s

def destroySecond : Body DestroyRequest := .ok ⟨some (uuidString 2)⟩

theorem destroyAnswerHonestReaped :
    let s := remotely Standin.start bindingReaped
    let honest := fun destroyKEMKey =>
      let out := handleDestroy Standin.externals destroyKEMKey WsCore.destroyBindingKey s.kps s.ws s.kemToBindingMap
        destroySecond
      out.1.status = 204 ∨ out.1.status = 404 → out.2.1.lookup 2 = none
    honest (destroyThrough .vm) ∧ ¬ honest unreachable := by
  intro s honest
  have parsed : destroyParse Standin.externals destroySecond = .ok 2 := by decide +kernel
  have mapped : s.kemToBindingMap.lookup 2 = some 1 := by decide +kernel
  have survives : ((unreachable s.kps 2).2.lookup 2).isSome = true ∧
      reportsNotFound (WsCore.destroyBindingKey s.ws 1).1 = true := by decide +kernel
  refine ⟨(destroyAnswerHonest (truthfulThrough .vm) parsed mapped).mpr (fun both => ?_),fun told =>
    (destroyAnswerHonest truthfulUnreachable parsed mapped).mp told survives⟩
  have gone : ((destroyThrough .vm s.kps 2).2.lookup 2).isSome = false := by
    rw [destroyedThrough,Table.lookupErase,if_pos rfl]
    rfl
  exact Bool.false_ne_true (gone.symm.trans both.1)

theorem unreachableKeyHidden :
    let s := remotely Standin.start bindingReaped
    let out := handleDestroy Standin.externals unreachable WsCore.destroyBindingKey s.kps s.ws s.kemToBindingMap
      destroySecond
    let t := remotely s destroyUnreachable
    Reachable remoteSetup s ∧ Truthful unreachable ∧ s.kemToBindingMap.lookup 2 = some 1 ∧
    ¬ (out.1.status = 204 ∨ out.1.status = 404 → out.2.1.lookup 2 = none) ∧
    Steps (step remoteSetup) s destroyUnreachable t ∧ t.threads[1]?.map Thread.task = some (.answered out.1) ∧
    out.1.status = 404 ∧ (getKey t.kps t.kpsNow 2).isSome := by
  intro s out t
  have ends : s.kemToBindingMap.lookup 2 = some 1 ∧ out.1.status = 404 ∧ (out.2.1.lookup 2).isSome = true ∧
      t.threads[1]?.map Thread.task = some (.answered out.1) ∧ (getKey t.kps t.kpsNow 2).isSome = true := by
    decide +kernel
  obtain ⟨mapped,status,survives,answered,live⟩ := ends
  refine ⟨⟨0,0,"boot-0",by decide,bindingReaped,stepsGetD (by decide +kernel)⟩,truthfulUnreachable,mapped,
    fun honest => ?_,stepsGetD (by decide +kernel),answered,status,live⟩
  rw [honest (.inr status)] at survives
  exact Bool.false_ne_true survives

end KeyProtection
