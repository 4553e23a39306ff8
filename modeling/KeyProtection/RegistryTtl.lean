import KeyProtection.KeyTypes
import KeyProtection.Lib.Run

/-! The registry under any interleaving of its methods, of clock ticks and of reaper
passes. A pass reads the clock first and takes the write lock later, so between the two
any number of other calls may happen; several passes may be under way at once. -/
namespace KeyProtection.RegistryTtl
open Lib Lib.Run Lib.TtlMap KeyRegistry

structure Shared where
  keys : KeyRegistry
  clock : Nat
  passes : List Nat

def initial (clock : Nat) : Shared := ⟨∅,clock,[]⟩

inductive Call where
  | tick (elapsed : Nat)
  | addKey (record : KeyRecord)
  | removeKey (id : Uuid)
  | removeAllKeys
  | getKey (id : Uuid)
  | listAllKeys (offset limit : Nat)
  | passReadsClock
  | passSweeps (pass : Nat)
  deriving DecidableEq, Repr

def step (s : Shared) : Call → Option Shared
  | .tick elapsed => some {s with clock := s.clock + elapsed}
  | .addKey record => some {s with keys := KeyRegistry.addKey s.keys record}
  | .removeKey id => some {s with keys := (KeyRegistry.removeKey s.keys id).2}
  | .removeAllKeys => some {s with keys := KeyRegistry.removeAllKeys s.keys}
  | .getKey _ => some s
  | .listAllKeys _ _ => some s
  | .passReadsClock => some {s with passes := s.clock :: s.passes}
  | .passSweeps pass => s.passes[pass]?.map (fun now =>
      {s with keys := reap s.keys now, passes := s.passes.eraseIdx pass})

inductive Answer where
  | record (found : Option KeyRecord)
  | page (metas : List KeyMetadata) (totalCount : Nat)
  deriving DecidableEq, Repr

def answer (s : Shared) : Call → List Answer
  | .getKey id => [.record (KeyRegistry.getKey s.keys s.clock id)]
  | .listAllKeys offset limit =>
      let out := KeyRegistry.listAllKeys s.keys s.clock offset limit
      [.page out.1 out.2]
  | _ => []

def answers (s : Shared) : List Call → Option (List Answer)
  | [] => some []
  | call::rest => do
      let next ← step s call
      let later ← answers next rest
      some (answer s call ++ later)

def event : Call → List (Event Uuid KeyRecord)
  | .addKey record => [.add record]
  | .removeKey id => [.remove id]
  | .removeAllKeys => [.clear]
  | _ => []

def history (calls : List Call) : List (Event Uuid KeyRecord) := calls.flatMap event

def ofReaper : Call → Bool
  | .passReadsClock => true
  | .passSweeps _ => true
  | _ => false

def Live (calls : List Call) (now : Nat) (record : KeyRecord) : Prop :=
  Present KeyRecord.id (history calls) record ∧ now < record.deleteAfter

structure Sim (s : Shared) (past : List (Event Uuid KeyRecord)) : Prop where
  keyed : Keyed s.keys
  passes : ∀ now ∈ s.passes, now ≤ s.clock
  agrees : Agrees KeyRecord.deleteAfter s.clock s.keys (logical KeyRecord.id past)

theorem simInitial (clock : Nat) : Sim (initial clock) [] :=
  ⟨keyedEmpty,by simp [initial],fun _ _ _ => rfl⟩

theorem simStep {s past call t} (sim : Sim s past) (taken : step s call = some t) :
    Sim t (past ++ event call) := by
  cases call with
  | tick elapsed =>
    cases Option.some.inj taken
    rw [show event (.tick elapsed) = [] from rfl,List.append_nil]
    have order : s.clock ≤ s.clock + elapsed := Nat.le_add_right _ _
    exact ⟨sim.keyed,fun now mem => (sim.passes now mem).trans order,agreesLater sim.agrees order⟩
  | addKey record =>
    cases Option.some.inj taken
    have agrees := agreesAdd KeyRecord.id sim.agrees record
    rw [← logicalAppend] at agrees
    exact ⟨keyedAdd sim.keyed record,sim.passes,agrees⟩
  | removeKey id =>
    cases Option.some.inj taken
    have agrees := agreesRemove KeyRecord.id sim.agrees id
    rw [← logicalAppend] at agrees
    exact ⟨keyedRemove sim.keyed id,sim.passes,agrees⟩
  | removeAllKeys =>
    cases Option.some.inj taken
    have agrees : Agrees KeyRecord.deleteAfter s.clock (∅ : KeyRegistry) _ :=
      agreesClear KeyRecord.id (logical KeyRecord.id past)
    rw [← logicalAppend] at agrees
    exact ⟨keyedEmpty,sim.passes,agrees⟩
  | getKey id =>
    cases Option.some.inj taken
    rw [show event (.getKey id) = [] from rfl,List.append_nil]
    exact sim
  | listAllKeys offset limit =>
    cases Option.some.inj taken
    rw [show event (.listAllKeys offset limit) = [] from rfl,List.append_nil]
    exact sim
  | passReadsClock =>
    cases Option.some.inj taken
    rw [show event (.passReadsClock) = [] from rfl,List.append_nil]
    refine ⟨sim.keyed,fun now mem => ?_,sim.agrees⟩
    rcases List.mem_cons.mp mem with same | older
    · exact same.le
    · exact sim.passes now older
  | passSweeps pass =>
    obtain ⟨now,under,rfl⟩ := Option.map_eq_some_iff.mp taken
    rw [show event (.passSweeps pass) = [] from rfl,List.append_nil]
    have past : now ≤ s.clock := sim.passes now (List.mem_of_getElem? under)
    exact ⟨keyedReap sim.keyed now,fun other mem => sim.passes other (List.mem_of_mem_eraseIdx mem),
      agreesSweep sim.agrees past⟩

theorem simRun {s past calls t} (sim : Sim s past) (run : Steps step s calls t) :
    Sim t (past ++ history calls) := by
  induction run generalizing past with
  | nil => simpa [history] using sim
  | cons _ taken _ ih =>
    have later := ih (simStep sim taken)
    simpa only [history,List.flatMap_cons,List.append_assoc] using later

theorem getKeyVisible (keys : KeyRegistry) (now : Nat) (id : Uuid) :
    KeyRegistry.getKey keys now id = visible KeyRecord.deleteAfter now (keys.lookup id) := by
  ext record
  rw [getKeyIff,visibleSome]

theorem pageOrderTrans (a b c : KeyRecord) (left : pageOrder a b) (right : pageOrder b c) : pageOrder a c := by
  simp only [pageOrder,Bool.or_eq_true,Bool.and_eq_true,decide_eq_true_eq,beq_iff_eq] at *
  rcases left with before | ⟨tie,ids⟩
  · rcases right with before' | ⟨tie',_⟩
    · exact .inl (before.trans before')
    · exact .inl (tie' ▸ before)
  · rcases right with before' | ⟨tie',ids'⟩
    · exact .inl (tie ▸ before')
    · exact .inr ⟨tie.trans tie',BitVec.le_trans ids ids'⟩

theorem pageOrderTotal (a b : KeyRecord) : pageOrder a b || pageOrder b a := by
  simp only [pageOrder,Bool.or_eq_true,Bool.and_eq_true,decide_eq_true_eq,beq_iff_eq]
  rcases lt_trichotomy a.metadata.createdAt b.metadata.createdAt with h | h | h
  · exact .inl (.inl h)
  · rcases BitVec.le_total a.metadata.id b.metadata.id with i | i
    · exact .inl (.inr ⟨h,i⟩)
    · exact .inr (.inr ⟨h.symm,i⟩)
  · exact .inr (.inl h)

theorem pageOrderSameId {a b : KeyRecord} (left : pageOrder a b) (right : pageOrder b a) : a.id = b.id := by
  simp only [pageOrder,Bool.or_eq_true,Bool.and_eq_true,decide_eq_true_eq,beq_iff_eq] at left right
  have tie : a.metadata.createdAt = b.metadata.createdAt := by omega
  rcases left with before | ⟨_,ids⟩
  · omega
  · rcases right with before | ⟨_,ids'⟩
    · omega
    · exact BitVec.le_antisymm ids ids'

theorem memSortedLive {keys : KeyRegistry} (keyed : Keyed keys) {now : Nat} {record : KeyRecord} :
    record ∈ sortedLive keys now ↔ KeyRegistry.getKey keys now record.id = some record := by
  simp only [sortedLive,List.mem_mergeSort,List.mem_filter,decide_eq_true_eq,Table.memValues]
  rw [getKeyIff]
  refine ⟨fun h => ?_,fun h => ⟨⟨record.id,h.1⟩,h.2⟩⟩
  obtain ⟨⟨id,stored⟩,alive⟩ := h
  have same : record.id = id := keyed id record stored
  exact ⟨same ▸ stored,alive⟩

theorem sortedLiveNodup {keys : KeyRegistry} (keyed : Keyed keys) (now : Nat) :
    (sortedLive keys now).Nodup := by
  have distinct := (Table.valuesNodup keys keyed).filter (fun r => decide (r.metadata.deleteAfter > now))
  exact (List.mergeSort_perm _ _).nodup_iff.mpr distinct

theorem sortedLiveDetermined {left right : KeyRegistry} (keyedLeft : Keyed left) (keyedRight : Keyed right)
    {now : Nat} (same : ∀ id, KeyRegistry.getKey left now id = KeyRegistry.getKey right now id) :
    sortedLive left now = sortedLive right now := by
  have members : ∀ record, record ∈ sortedLive left now ↔ record ∈ sortedLive right now := by
    intro record
    rw [memSortedLive keyedLeft,memSortedLive keyedRight,same]
  have perm : List.Perm (sortedLive left now) (sortedLive right now) :=
    (List.perm_ext_iff_of_nodup (sortedLiveNodup keyedLeft now) (sortedLiveNodup keyedRight now)).mpr members
  have sorted (keys : KeyRegistry) : (sortedLive keys now).Pairwise (fun a b => pageOrder a b) :=
    List.pairwise_mergeSort pageOrderTrans pageOrderTotal _
  refine List.Perm.eq_of_pairwise (fun a b inLeft inRight ab ba => ?_) (sorted left) (sorted right) perm
  have first := (memSortedLive keyedLeft).mp inLeft
  have second := (memSortedLive keyedRight).mp inRight
  rw [← same,← pageOrderSameId ab ba] at second
  exact Option.some.inj (first.symm.trans second)

theorem simGet {s past} (sim : Sim s past) (distinct : ((added past).map KeyRecord.id).Nodup)
    (id : Uuid) (record : KeyRecord) :
    KeyRegistry.getKey s.keys s.clock id = some record ↔
      Present KeyRecord.id past record ∧ record.id = id ∧ s.clock < record.deleteAfter := by
  rw [getKeyVisible,sim.agrees id s.clock le_rfl,visibleSome,logicalPresent distinct,and_assoc]

theorem simAnswer {s t past} (left : Sim s past) (right : Sim t past) (clock : s.clock = t.clock) (call : Call) :
    answer s call = answer t call := by
  have gets : ∀ id, KeyRegistry.getKey s.keys s.clock id = KeyRegistry.getKey t.keys s.clock id := by
    intro id
    have onLeft := left.agrees id s.clock le_rfl
    have onRight := right.agrees id s.clock clock.ge
    rw [getKeyVisible,getKeyVisible,onLeft,onRight]
  have lists := sortedLiveDetermined left.keyed right.keyed gets
  cases call with
  | getKey id => simp only [answer,gets id,← clock]
  | listAllKeys offset limit => simp only [answer,KeyRegistry.listAllKeys,lists,← clock]
  | _ => rfl

theorem clientEnabled (t : Shared) {call : Call} (client : ofReaper call = false) :
    ∃ next, step t call = some next := by
  cases call with
  | passReadsClock => contradiction
  | passSweeps pass => contradiction
  | _ => exact ⟨_,rfl⟩

theorem clientClock {s t s' t' call} (client : ofReaper call = false) (clock : s.clock = t.clock)
    (left : step s call = some s') (right : step t call = some t') : s'.clock = t'.clock := by
  cases call with
  | passReadsClock => contradiction
  | passSweeps pass => contradiction
  | tick elapsed =>
    cases Option.some.inj left
    cases Option.some.inj right
    simp only [clock]
  | _ =>
    cases Option.some.inj left
    cases Option.some.inj right
    exact clock

theorem reaperSilent {s call s'} (reaper : ofReaper call = true) (taken : step s call = some s') :
    event call = [] ∧ answer s call = [] ∧ s'.clock = s.clock := by
  cases call with
  | passReadsClock =>
    cases Option.some.inj taken
    exact ⟨rfl,rfl,rfl⟩
  | passSweeps pass =>
    obtain ⟨now,_,rfl⟩ := Option.map_eq_some_iff.mp taken
    exact ⟨rfl,rfl,rfl⟩
  | _ => contradiction

theorem answersWithoutReaper {s t past calls u} (left : Sim s past) (right : Sim t past)
    (clock : s.clock = t.clock) (run : Steps step s calls u) :
    answers t (calls.filter (fun call => !ofReaper call)) = answers s calls := by
  induction run generalizing t past with
  | nil => rfl
  | @cons s call next rest u _ taken tail ih =>
    cases reaper : ofReaper call with
    | true =>
      obtain ⟨silent,unanswered,still⟩ := reaperSilent reaper taken
      have sim := simStep left taken
      rw [silent,List.append_nil] at sim
      have later := ih sim right (still.trans clock)
      simp only [List.filter_cons,reaper,answers,taken,unanswered,bind,Option.bind]
      rw [if_neg (by decide),later]
      cases answers next rest <;> rfl
    | false =>
      obtain ⟨next',taken'⟩ := clientEnabled t reaper
      have later := ih (simStep left taken) (simStep right taken') (clientClock reaper clock taken taken')
      simp only [List.filter_cons,reaper,answers,taken,bind,Option.bind]
      rw [if_pos (by decide)]
      simp only [answers,taken',bind,Option.bind,later,simAnswer left right clock call]

theorem simNeverAgain {s t u first second third} (atFirst : Sim s first) (atSecond : Sim t (first ++ second))
    (atThird : Sim u (first ++ second ++ third))
    (distinct : ((added (first ++ second ++ third)).map KeyRecord.id).Nodup) (order : t.clock ≤ u.clock)
    {id : Uuid} {seen : KeyRecord} (answered : KeyRegistry.getKey s.keys s.clock id = some seen)
    (missed : KeyRegistry.getKey t.keys t.clock id = none) : KeyRegistry.getKey u.keys u.clock id = none := by
  have earlier : ((added (first ++ second)).map KeyRecord.id).Nodup := by
    rw [addedAppend,List.map_append] at distinct
    exact (List.nodup_append.mp distinct).1
  have earliest : ((added first).map KeyRecord.id).Nodup := by
    rw [addedAppend,List.map_append] at earlier
    exact (List.nodup_append.mp earlier).1
  cases again : KeyRegistry.getKey u.keys u.clock id with
  | none => rfl
  | some record =>
    obtain ⟨seenPresent,seenId,_⟩ := (simGet atFirst earliest id seen).mp answered
    obtain ⟨present,recordId,alive⟩ := (simGet atThird distinct id record).mp again
    have seenAdded : seen ∈ added (first ++ second ++ third) := by
      simp [addedAppend,presentAdded seenPresent]
    -- Ids are distinct, so the record answered later is the one answered first.
    have same : record = seen :=
      List.inj_on_of_nodup_map distinct (presentAdded present) seenAdded (recordId.trans seenId.symm)
    subst same
    have inserted : record ∈ added (first ++ second) := by
      simp [addedAppend,presentAdded seenPresent]
    have still := presentEarlier distinct inserted present
    have found := (simGet atSecond earlier id record).mpr ⟨still,recordId,order.trans_lt alive⟩
    rw [missed] at found
    contradiction

theorem clockMono {s calls t} (run : Steps step s calls t) : s.clock ≤ t.clock := by
  induction run with
  | nil => exact le_rfl
  | @cons s call next rest u _ taken tail ih =>
    refine le_trans ?_ ih
    cases call with
    | tick elapsed =>
      cases Option.some.inj taken
      exact Nat.le_add_right _ _
    | passSweeps pass =>
      obtain ⟨now,_,rfl⟩ := Option.map_eq_some_iff.mp taken
      exact le_rfl
    | _ =>
      cases Option.some.inj taken
      exact le_rfl

/-! The registry is a TTL map. A run is any list of calls; a reader that asks after it
is one more call, so the first two parts speak of every read of every run. -/
theorem registryRefinesTtlMap {clock : Nat} {calls : List Call} {s : Shared}
    (run : Steps step (initial clock) calls s)
    (distinct : ((added (history calls)).map KeyRecord.id).Nodup) :
    (∀ id record, KeyRegistry.getKey s.keys s.clock id = some record ↔
      Live calls s.clock record ∧ record.id = id) ∧
    (∃ live : List KeyRecord, live.Nodup ∧ live.Pairwise (fun a b => pageOrder a b) ∧
      (∀ record, record ∈ live ↔ Live calls s.clock record) ∧
      ∀ offset limit, KeyRegistry.listAllKeys s.keys s.clock offset limit =
        (((live.drop offset).take limit).map KeyRecord.metadata,live.length)) ∧
    answers (initial clock) (calls.filter (fun call => !ofReaper call)) = answers (initial clock) calls ∧
    (∀ before between after first second id, calls = before ++ between ++ after →
      Steps step (initial clock) before first → Steps step first between second →
      Steps step second after s → (KeyRegistry.getKey first.keys first.clock id).isSome →
      KeyRegistry.getKey second.keys second.clock id = none →
      KeyRegistry.getKey s.keys s.clock id = none) := by
  have sim := simRun (simInitial clock) run
  rw [List.nil_append] at sim
  have gets : ∀ id record, KeyRegistry.getKey s.keys s.clock id = some record ↔
      Live calls s.clock record ∧ record.id = id := by
    intro id record
    rw [simGet sim distinct id record,Live,and_assoc,and_comm (a := record.id = id)]
  refine ⟨gets,?_,answersWithoutReaper (simInitial clock) (simInitial clock) rfl run,?_⟩
  · refine ⟨sortedLive s.keys s.clock,sortedLiveNodup sim.keyed s.clock,
      List.pairwise_mergeSort pageOrderTrans pageOrderTotal _,?_,fun offset limit => rfl⟩
    intro record
    rw [memSortedLive sim.keyed,gets]
    exact and_iff_left rfl
  · intro before between after first second id split toFirst toSecond toEnd answered missed
    obtain ⟨seen,found⟩ := Option.isSome_iff_exists.mp answered
    have atFirst := simRun (simInitial clock) toFirst
    rw [List.nil_append] at atFirst
    have atSecond := simRun atFirst toSecond
    have atEnd := simRun atSecond toEnd
    have parts : history calls = history before ++ history between ++ history after := by
      simp [split,history]
    rw [parts] at distinct
    exact simNeverAgain atFirst atSecond atEnd distinct (clockMono toEnd) found missed

def sampleRecord (id : Uuid) (deleteAfter : Nat) : KeyRecord :=
  ⟨⟨id,0,deleteAfter,.binding ⟨1,1,1⟩ ⟨List.replicate 32 7,by decide⟩⟩,[]⟩

def sampleCalls : List Call :=
  [.addKey (sampleRecord 1 10),.tick 5,.passReadsClock,.addKey (sampleRecord 2 20),.getKey 1,.tick 7,
    .passSweeps 0,.getKey 1,.listAllKeys 0 10]

theorem registryRefinesTtlMapStalePass :
    ∃ s, Steps step (initial 0) sampleCalls s ∧ s.keys.lookup 1 = some (sampleRecord 1 10) ∧
      (∀ id record, KeyRegistry.getKey s.keys s.clock id = some record ↔
        Live sampleCalls s.clock record ∧ record.id = id) ∧
      answers (initial 0) (sampleCalls.filter (fun call => !ofReaper call)) = answers (initial 0) sampleCalls := by
  have run : Steps step (initial 0) sampleCalls _ := execSteps rfl
  have holds := registryRefinesTtlMap run (by decide)
  exact ⟨_,run,rfl,holds.1,holds.2.2.1⟩

end KeyProtection.RegistryTtl
