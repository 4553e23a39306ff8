import KeyProtection.Paging

/-! The remaining lifespan of a KEM key, from the clock reading at its creation to the
Duration in the attested claims. A query checks that the key is live at one reading of the
clock and takes the difference to the deadline at a later one; the Go services then convert
whole seconds into an int64 number of nanoseconds. -/
namespace KeyProtection
open Lib Lib.Run KeyRegistry

namespace Lifespan

/-! The Duration that the two services compute. -/

def second : Int64 := 1000000000

/- The comparison is between uint64 values. The conversion to time.Duration and the
product after it would both wrap. -/
def clamped (maxDurationSeconds : Int64) (lifespan : UInt64) : Int64 :=
  if lifespan > maxDurationSeconds.toUInt64 then Int64.maxValue else lifespan.toInt64 * second

def wsdRemaining (remainingLifespanSecs : UInt64) : Int64 := clamped (Int64.maxValue / second) remainingLifespanSecs

def kpsRemaining (lifespan : UInt64) : Int64 := clamped (Int64.maxValue / second) lifespan

theorem durationMin (secs : Nat) : remainingDuration secs = min (secs * nanosPerSec) (2^63 - 1) := by
  unfold remainingDuration
  split
  · rename_i past
    simp only [maxDurationSeconds,nanosPerSec] at past ⊢
    omega
  · rename_i within
    simp only [maxDurationSeconds,nanosPerSec] at within ⊢
    omega

theorem clampedExact (lifespan : UInt64) :
    (clamped (Int64.maxValue / second) lifespan).toInt = (remainingDuration lifespan.toNat : Int) := by
  have bound : (Int64.maxValue / second).toUInt64.toNat = maxDurationSeconds := by decide
  have order : lifespan > (Int64.maxValue / second).toUInt64 ↔ maxDurationSeconds < lifespan.toNat := by
    rw [gt_iff_lt,UInt64.lt_iff_toNat_lt,bound]
  unfold clamped remainingDuration
  by_cases past : maxDurationSeconds < lifespan.toNat
  · rw [if_pos (order.mpr past),if_pos past]
    decide
  · rw [if_neg (fun beyond => past (order.mp beyond)),if_neg past]
    have small : lifespan.toNat ≤ 9223372036 := Nat.not_lt.mp past
    have cast : lifespan.toInt64.toInt = (lifespan.toNat : Int) := by
      have fits := @Int64.toInt_ofNat_of_lt lifespan.toNat (by omega)
      rwa [← UInt64.toInt64_ofNat',UInt64.ofNat_toNat] at fits
    have unit : second.toInt = 1000000000 := by decide
    rw [Int64.toInt_mul,cast,unit,Int.bmod_eq_of_le (by omega) (by omega)]
    simp [nanosPerSec]

/-! Queries of one KEM key between other calls of the KPS core. -/

/- The calls that report a lifespan, with the caller's buffers. A delay is the time from the
liveness check to the clock reading that the lifespan is computed from; in an enumeration
every entry has its own. -/
inductive Query where
  | getKemKey (delay : Nat) (outKemPubkey outBindingPubkey outAlgo : Option Bytes)
      (outAlgoLen outRemainingLifespanSecs : Option Nat)
  | enumerateKemKeys (delays : Nat → Nat) (outEntries : Option (List KpsCore.KpsKeyInfo)) (offset : Nat)
      (outHasMore : Option Bool)

structure Report where
  sample : Nat
  secs : Nat
  deriving DecidableEq, Repr

def answer (x : Externals) (id : Uuid) (s : Custody.Core) : Query → List Report
  | .getKemKey delay outKemPubkey outBindingPubkey outAlgo outAlgoLen outRemainingLifespanSecs =>
      let out := KpsCore.keyManagerGetKemKey x s.keys s.now (s.now + delay) (some id) outKemPubkey outBindingPubkey
        outAlgo outAlgoLen outRemainingLifespanSecs
      if out.status = .success then (out.outRemainingLifespanSecs.map (fun secs => ⟨s.now + delay,secs⟩)).toList
      else []
  | .enumerateKemKeys delays outEntries offset outHasMore =>
      let out := KpsCore.keyManagerEnumerateKemKeys x s.keys s.now (fun i => s.now + delays i) outEntries offset
        outHasMore
      -- A negative result is an error; otherwise it counts the entries that were filled.
      let shown := (out.outEntries.getD []).take out.result.toNat
      shown.zipIdx.filterMap (fun entry =>
        if entry.1.uuid = id then some ⟨s.now + delays entry.2,entry.1.remainingLifespanSecs⟩ else none)

inductive Label where
  | call (event : Custody.KpsEvent)
  | query (query : Query)

def step (x : Externals) (s : Custody.Core) : Label → Option Custody.Core
  | .call event => Custody.kpsStep x s event
  | .query _ => some s

def told (x : Externals) (id : Uuid) (s : Custody.Core) : Label → List Report
  | .call _ => []
  | .query query => answer x id s query

def reports (x : Externals) (id : Uuid) (s : Custody.Core) : List Label → List Report
  | [] => []
  | l::ls => told x id s l ++ ((step x s l).map (fun m => reports x id m ls)).getD []

def Label.creates : Label → Option Uuid
  | .call (.generateKemKeypair entropy _ _ _ _ _) => some entropy.uuid
  | _ => none

def Label.destroys : Label → Option Uuid
  | .call (.destroyKemKey uuidBytes) => uuidBytes
  | _ => none

/- No other key is created under the id: v4 UUIDs do not repeat. -/
def Unrepeated (id : Uuid) (_ : Custody.Core) (l : Label) : Prop := l.creates ≠ some id

instance (id : Uuid) (s : Custody.Core) (l : Label) : Decidable (Unrepeated id s l) :=
  inferInstanceAs (Decidable (l.creates ≠ some id))

def Undestroyed (id : Uuid) (_ : Custody.Core) (l : Label) : Prop := l.creates ≠ some id ∧ l.destroys ≠ some id

instance (id : Uuid) (s : Custody.Core) (l : Label) : Decidable (Undestroyed id s l) :=
  inferInstanceAs (Decidable (l.creates ≠ some id ∧ l.destroys ≠ some id))

section
variable {x : Externals} {keys : KeyRegistry} {id : Uuid} {record : KeyRecord}

theorem getKemRemaining {now later : Nat} {algo kemKey bindingKey remaining}
    (ok : KpsCore.getKemKeyInternal keys now later id = .ok (algo,kemKey,bindingKey,remaining)) :
    ∃ record, getKey keys now id = some record ∧ remaining = remainingSecs record.deleteAfter later := by
  obtain ⟨record,found,spec⟩ := KpsCore.getKemInternal ok
  simp only [KpsCore.getKemKeyInternal,found,spec] at ok
  cases Except.ok.inj ok
  exact ⟨record,found,rfl⟩

theorem getKemReported {now later : Nat} {outKemPubkey outBindingPubkey outAlgo : Option Bytes}
    {outAlgoLen outRemaining : Option Nat} {secs : Nat}
    (success : (KpsCore.keyManagerGetKemKey x keys now later (some id) outKemPubkey outBindingPubkey outAlgo outAlgoLen
      outRemaining).status = .success)
    (written : (KpsCore.keyManagerGetKemKey x keys now later (some id) outKemPubkey outBindingPubkey outAlgo outAlgoLen
      outRemaining).outRemainingLifespanSecs = some secs) :
    ∃ record, getKey keys now id = some record ∧ secs = remainingSecs record.deleteAfter later := by
  unfold KpsCore.keyManagerGetKemKey at success written
  simp only at success written
  split at success
  · rename_i asked
    cases Option.some.inj asked
    simp only at written
    split at success
    · contradiction
    rename_i lengths
    rw [if_neg lengths] at written
    cases got : KpsCore.getKemKeyInternal keys now later id with
    | error fault =>
      have honest := KpsCore.getKemHonest keys now later id
      rw [got] at honest success
      exact absurd success (ffiCallFault (fun same => honest (congrArg Except.error same)))
    | ok found =>
      obtain ⟨algo,kemKey,bindingKey,remaining⟩ := found
      simp only [got] at success written
      split at success
      · contradiction
      rename_i fits
      rw [if_neg fits] at written
      cases Option.some.inj written
      exact getKemRemaining got
  · contradiction

theorem enumerationReported (laws : x.Lawful) (kinds : Homogeneous KemRecord keys) {now : Nat} {readings : Nat → Nat}
    {entries : List KpsCore.KpsKeyInfo} {offset : Nat} {outHasMore : Option Bool} {entry : KpsCore.KpsKeyInfo} {i : Nat}
    (shown : (entry,i) ∈ (((KpsCore.keyManagerEnumerateKemKeys x keys now readings (some entries) offset
      outHasMore).outEntries.getD []).take (KpsCore.keyManagerEnumerateKemKeys x keys now readings (some entries) offset
      outHasMore).result.toNat).zipIdx) :
    ∃ record, getKey keys now entry.uuid = some record ∧
      entry.remainingLifespanSecs = remainingSecs record.deleteAfter (readings i) := by
  have called := enumerateCalled readings (KpsCore.fillsPage laws kinds now offset entries.length) rfl outHasMore
  simp only [KpsCore.keyManagerEnumerateKemKeys,called,Option.getD_some] at shown
  have counted : (BitVec.ofNat 32 (pageOf keys now offset entries.length).length).toInt.toNat ≤
      (pageOf keys now offset entries.length).length := by
    rw [BitVec.toInt_eq_toNat_cond,BitVec.toNat_ofNat]
    split <;> omega
  have placed := List.mem_zipIdx_iff_getElem?.mp shown
  simp only at placed
  rw [List.getElem?_take] at placed
  split at placed <;> try contradiction
  rename_i inside
  rw [List.getElem?_append_left (by rw [List.length_mapIdx]; omega),List.getElem?_mapIdx] at placed
  obtain ⟨info,here,same⟩ := Option.map_eq_some_iff.mp placed
  obtain ⟨record,live,named⟩ := List.mem_map.mp (List.mem_of_getElem? here)
  have found := (RegistryTtl.memSortedLive kinds.keyed).mp (List.mem_of_mem_drop (List.mem_of_mem_take live))
  subst same
  subst named
  exact ⟨record,found,rfl⟩

theorem answered (laws : x.Lawful) {s : Custody.Core} (kinds : Homogeneous KemRecord s.keys) {query : Query}
    {report : Report} (said : report ∈ answer x id s query) :
    s.now ≤ report.sample ∧ ∃ record, getKey s.keys s.now id = some record ∧
      report.secs = remainingSecs record.deleteAfter report.sample := by
  cases query with
  | getKemKey delay outKemPubkey outBindingPubkey outAlgo outAlgoLen outRemaining =>
    simp only [answer] at said
    split at said
    · rename_i success
      obtain ⟨secs,written,same⟩ := Option.map_eq_some_iff.mp (Option.mem_toList.mp said)
      subst same
      exact ⟨Nat.le_add_right _ _,getKemReported success written⟩
    · contradiction
  | enumerateKemKeys delays outEntries offset outHasMore =>
    simp only [answer] at said
    obtain ⟨⟨entry,i⟩,shown,picked⟩ := List.mem_filterMap.mp said
    split at picked <;> try contradiction
    rename_i own
    cases Option.some.inj picked
    cases outEntries with
    | none => simp [KpsCore.keyManagerEnumerateKemKeys,keyManagerEnumerate] at shown
    | some entries =>
      refine ⟨Nat.le_add_right _ _,?_⟩
      subst own
      exact @enumerationReported x s.keys laws kinds s.now (fun i => s.now + delays i) entries offset outHasMore entry i
        shown

structure Tracks (id : Uuid) (record : KeyRecord) (s : Custody.Core) : Prop where
  kinds : Homogeneous KemRecord s.keys
  only : ∀ other, s.keys.lookup id = some other → other = record

theorem generatedUnder (x : Externals) (keys : KeyRegistry) (now : Nat) (entropy : Entropy)
    (algoPtr bindingPubkey : Option Bytes) (expirySecs : UInt64) (outUuid : Option Uuid) (outPubkey : Option Bytes) :
    (KpsCore.keyManagerGenerateKemKeypair x keys now entropy algoPtr bindingPubkey expirySecs outUuid outPubkey).keys =
        keys ∨
      ∃ record, record.id = entropy.uuid ∧
        (KpsCore.keyManagerGenerateKemKeypair x keys now entropy algoPtr bindingPubkey expirySecs outUuid
          outPubkey).keys = addKey keys record := by
  have issued := KpsCore.issuedKem x keys now entropy algoPtr bindingPubkey expirySecs outUuid outPubkey
  have drawn : ∀ {record pubKey}, KpsCore.Makes x now entropy expirySecs algoPtr bindingPubkey outUuid outPubkey record
      pubKey → record.id = entropy.uuid := by
    intro record pubKey made
    cases made with
    | mk _ _ created _ =>
      obtain ⟨_,fixed,_⟩ := KeyRecord.createdKem created
      exact fixed.id
  generalize KpsCore.keyManagerGenerateKemKeypair x keys now entropy algoPtr bindingPubkey expirySecs outUuid
    outPubkey = out at issued ⊢
  cases issued with
  | refused failure unmade => exact .inl rfl
  | stored made buffer fits => exact .inr ⟨_,drawn made,rfl⟩
  | stranded made buffer size => exact .inr ⟨_,drawn made,rfl⟩

theorem slotMoves {s t : Custody.Core} {l : Label} (unrepeated : Unrepeated id s l) (taken : step x s l = some t) :
    (t.keys.lookup id = s.keys.lookup id ∧ s.now ≤ t.now) ∨
    (l.destroys = some id ∧ t.keys.lookup id = none ∧ t.now = s.now) ∨
    (∃ now, now ≤ s.now ∧ t.keys = reap s.keys now ∧ t.now = s.now) := by
  cases l with
  | query query =>
    cases Option.some.inj taken
    exact .inl ⟨rfl,le_rfl⟩
  | call event =>
    cases event with
    | generateKemKeypair entropy algoPtr bindingPubkey expirySecs outUuid outPubkey =>
      cases Option.some.inj taken
      refine .inl ⟨?_,le_rfl⟩
      have new : id ≠ entropy.uuid := fun same => unrepeated (congrArg some same.symm)
      rcases generatedUnder x s.keys s.now entropy algoPtr bindingPubkey expirySecs outUuid outPubkey with same |
        ⟨made,drawn,same⟩
      · simp only [same]
      · simp only [same,addKey,Table.lookupInsert]
        exact if_neg (fun here => new (here.trans drawn))
    | destroyKemKey uuidBytes =>
      cases Option.some.inj taken
      cases uuidBytes with
      | none => exact .inl ⟨rfl,le_rfl⟩
      | some uuid =>
        simp only [KpsCore.keyManagerDestroyKemKey,destroyedByUuid,Table.lookupErase]
        by_cases same : id = uuid
        · subst same
          exact .inr (.inl ⟨rfl,if_pos rfl,trivial⟩)
        · exact .inl ⟨if_neg same,le_rfl⟩
    | reads =>
      cases Option.some.inj taken
      exact .inl ⟨rfl,le_rfl⟩
    | reaps now =>
      simp only [step,Custody.kpsStep] at taken
      split at taken <;> try contradiction
      rename_i past
      cases Option.some.inj taken
      exact .inr (.inr ⟨now,past,rfl,rfl⟩)
    | tick elapsed =>
      cases Option.some.inj taken
      exact .inl ⟨rfl,Nat.le_add_right _ _⟩

theorem nowGrows {s t : Custody.Core} {l : Label} (unrepeated : Unrepeated id s l) (taken : step x s l = some t) :
    s.now ≤ t.now := by
  rcases slotMoves unrepeated taken with ⟨_,later⟩ | ⟨_,_,same⟩ | ⟨_,_,_,same⟩
  · exact later
  · exact same.ge
  · exact same.ge

theorem kindsStep (laws : x.Lawful) {s t : Custody.Core} {l : Label} (before : Homogeneous KemRecord s.keys)
    (taken : step x s l = some t) : Homogeneous KemRecord t.keys := by
  cases l with
  | query query =>
    cases Option.some.inj taken
    exact before
  | call event => exact homogeneousKpsStep laws before taken

theorem tracksStep (laws : x.Lawful) {s t : Custody.Core} {l : Label} (before : Tracks id record s)
    (unrepeated : Unrepeated id s l) (taken : step x s l = some t) : Tracks id record t := by
  refine ⟨kindsStep laws before.kinds taken,fun other stored => ?_⟩
  rcases slotMoves unrepeated taken with ⟨same,_⟩ | ⟨_,gone,_⟩ | ⟨now,_,swept,_⟩
  · exact before.only other (same ▸ stored)
  · rw [gone] at stored
    contradiction
  · rw [swept,reap,Table.lookupRetain,Option.filter_eq_some_iff] at stored
    exact before.only other stored.1

def Kept (id : Uuid) (record : KeyRecord) (s : Custody.Core) : Prop :=
  s.keys.lookup id = some record ∨ record.deleteAfter ≤ s.now

theorem keptStep {s t : Custody.Core} {l : Label} (before : Kept id record s) (undestroyed : Undestroyed id s l)
    (taken : step x s l = some t) : Kept id record t := by
  have later := nowGrows undestroyed.1 taken
  rcases before with here | gone
  · rcases slotMoves undestroyed.1 taken with ⟨same,_⟩ | ⟨destroyed,_⟩ | ⟨now,past,swept,_⟩
    · exact .inl (same.trans here)
    · exact absurd destroyed undestroyed.2
    · by_cases alive : now < record.deleteAfter
      · left
        rw [swept]
        exact reapKeeps here alive
      · exact .inr ((Nat.not_lt.mp alive).trans (past.trans later))
  · exact .inr (gone.trans later)

theorem tracksReport (laws : x.Lawful) {s : Custody.Core} (tracks : Tracks id record s) {query : Query} {report : Report}
    (said : report ∈ answer x id s query) :
    s.now ≤ report.sample ∧ getKey s.keys s.now id = some record ∧
      report.secs = remainingSecs record.deleteAfter report.sample := by
  obtain ⟨later,other,found,secs⟩ := answered laws tracks.kinds said
  cases tracks.only other (getKeyIff.mp found).1
  exact ⟨later,found,secs⟩

theorem runReports (laws : x.Lawful) {s t : Custody.Core} {ls : List Label}
    (run : Along (step x) (Unrepeated id) s ls t) (tracks : Tracks id record s) :
    ∀ report ∈ reports x id s ls,
      s.now ≤ report.sample ∧ report.secs = remainingSecs record.deleteAfter report.sample := by
  induction run with
  | nil s =>
    intro report said
    contradiction
  | @cons s l m ls t allowed taken _ ih =>
    intro report said
    simp only [reports,taken,Option.map_some,Option.getD_some,List.mem_append] at said
    rcases said with now | later
    · cases l with
      | call event => contradiction
      | query query =>
        obtain ⟨after,_,secs⟩ := tracksReport laws tracks now
        exact ⟨after,secs⟩
    · obtain ⟨after,secs⟩ := ih (tracksStep laws tracks allowed taken) report later
      exact ⟨(nowGrows allowed taken).trans after,secs⟩

end

structure Exact (deleteAfter : Nat) (report : Report) : Prop where
  below : report.secs * nanosPerSec ≤ deleteAfter - report.sample
  above : deleteAfter - report.sample < (report.secs + 1) * nanosPerSec
  past : deleteAfter ≤ report.sample → report.secs = 0

theorem remainingExact {deleteAfter : Nat} {report : Report}
    (secs : report.secs = remainingSecs deleteAfter report.sample) : Exact deleteAfter report := by
  have split := Nat.div_add_mod (deleteAfter - report.sample) nanosPerSec
  have small : (deleteAfter - report.sample) % nanosPerSec < nanosPerSec := Nat.mod_lt _ (by decide)
  rw [Nat.mul_comm] at split
  unfold remainingSecs at secs
  rw [← secs] at split
  refine ⟨by omega,?_,fun past => ?_⟩
  · rw [Nat.add_mul,Nat.one_mul]
    omega
  · rw [secs,Nat.sub_eq_zero_of_le past,Nat.zero_div]

theorem remainingFalls (deleteAfter : Nat) {sooner later : Nat} (order : sooner ≤ later) :
    remainingSecs deleteAfter later ≤ remainingSecs deleteAfter sooner :=
  Nat.div_le_div_right (Nat.sub_le_sub_left order deleteAfter)

theorem remainingStart (start : Nat) (lifespan : UInt64) {sample : Nat} (later : start ≤ sample) :
    remainingSecs (start + lifespan.toNat * nanosPerSec) sample ≤ lifespan.toNat := by
  have first : remainingSecs (start + lifespan.toNat * nanosPerSec) start = lifespan.toNat := by
    rw [remainingSecs,Nat.add_sub_cancel_left,Nat.mul_div_cancel _ (by decide)]
  exact (remainingFalls _ later).trans first.le

/- What both services put into RemainingLifespan for this many seconds, as the fixed-width
computation gives it and as it stands in the claims of the model. -/
structure Claimed (secs : Nat) : Prop where
  word : (UInt64.ofNat secs).toNat = secs
  wsd : (wsdRemaining (UInt64.ofNat secs)).toInt = ((min (secs * nanosPerSec) (2^63 - 1) : Nat) : Int)
  kps : (kpsRemaining (UInt64.ofNat secs)).toInt = ((min (secs * nanosPerSec) (2^63 - 1) : Nat) : Int)
  within : (wsdRemaining (UInt64.ofNat secs)).toInt ≤ ((secs * nanosPerSec : Nat) : Int)
  wsdClaims : ∀ info : KpsCore.KemInfo, info.remainingLifespanSecs = secs →
    kemClaimsAnswer (.ok info) = .claims (.vmKeyClaims info.algo.kem info.kemPubKey ⟨info.algo,info.bindingPubKey⟩
      (min (secs * nanosPerSec) (2^63 - 1)))
  kpsClaims : ∀ u keys now later req kemUUID info, u.mode = .vm → req.keyType = .vmProtectionKey →
    u.x.parse req.keyHandle = .ok kemUUID → KpsCore.getKEMKey u.x keys now later kemUUID = .ok info →
    info.remainingLifespanSecs = secs →
    kpsGetKeyClaims u keys now later req = .claims (.vmKeyClaims info.algo.kem info.kemPubKey
      ⟨info.algo,info.bindingPubKey⟩ (min (secs * nanosPerSec) (2^63 - 1)))

theorem claimed {secs : Nat} (word : secs < 2^64) : Claimed secs := by
  have same : (UInt64.ofNat secs).toNat = secs := by
    rw [UInt64.toNat_ofNat']
    exact Nat.mod_eq_of_lt word
  have exact := clampedExact (UInt64.ofNat secs)
  rw [same,durationMin] at exact
  refine ⟨same,exact,exact,?_,fun info read => ?_,?_⟩
  · rw [wsdRemaining,exact]
    exact Int.ofNat_le.mpr (Nat.min_le_left _ _)
  · subst read
    simp only [kemClaimsAnswer,kemClaims,durationMin]
  · intro u keys now later req kemUUID info vm kind parsed got read
    subst read
    simp only [kpsGetKeyClaims,vm,kind,parsed,got,kemClaims,durationMin]
    simp

theorem retrieved {x : Externals} (laws : x.Lawful) {keys : KeyRegistry} (kinds : Homogeneous KemRecord keys)
    {now : Nat} {id : Uuid} {record : KeyRecord} (found : getKey keys now id = some record) (delay : Nat) :
    ∃ info, KpsCore.getKEMKey x keys now (now + delay) id = .ok info := by
  obtain ⟨kemKey,bindingKey,kind⟩ := homogeneousFound kinds found
  have got : KpsCore.getKemKeyInternal keys now (now + delay) id =
      .ok (⟨1,1,1⟩,kemKey,bindingKey,remainingSecs record.deleteAfter (now + delay)) := by
    simp only [KpsCore.getKemKeyInternal,found,kind.spec]
    rfl
  exact ⟨_,KpsCore.getsKEMKey laws got⟩

theorem tracksBorn {s : Custody.Core} {id : Uuid} {record : KeyRecord}
    (kinds : Homogeneous KemRecord (addKey s.keys record)) (own : record.id = id) :
    (addKey s.keys record).lookup id = some record ∧ Tracks id record {s with keys := addKey s.keys record} := by
  have here : (addKey s.keys record).lookup id = some record := by
    rw [addKey,Table.lookupInsert,if_pos (show id = record.metadata.id from own.symm)]
  exact ⟨here,kinds,fun other found => (Option.some.inj (here.symm.trans found)).symm⟩

theorem createdRecord {x : Externals} {keys : KeyRegistry} {now : Nat} {entropy : Entropy}
    {algoPtr bindingPubkey : Option Bytes} {lifespan : UInt64} {outUuid : Option Uuid} {outPubkey : Option Bytes}
    {id : Uuid}
    (accepted : (KpsCore.keyManagerGenerateKemKeypair x keys now entropy algoPtr bindingPubkey lifespan outUuid
      outPubkey).status = .success)
    (named : (KpsCore.keyManagerGenerateKemKeypair x keys now entropy algoPtr bindingPubkey lifespan outUuid
      outPubkey).outUuid = some id) :
    ∃ record : KeyRecord, record.id = id ∧ record.metadata.createdAt = now ∧
      record.deleteAfter = now + lifespan.toNat * nanosPerSec ∧
      (KpsCore.keyManagerGenerateKemKeypair x keys now entropy algoPtr bindingPubkey lifespan outUuid
        outPubkey).keys = addKey keys record := by
  have issued := KpsCore.issuedKem x keys now entropy algoPtr bindingPubkey lifespan outUuid outPubkey
  generalize KpsCore.keyManagerGenerateKemKeypair x keys now entropy algoPtr bindingPubkey lifespan outUuid
    outPubkey = out at issued accepted named
  cases issued with
  | refused failure unmade => exact absurd accepted failure
  | stranded made buffer size => contradiction
  | @stored record pubKey slice made buffer fits =>
    cases made with
    | mk _ _ created _ =>
      obtain ⟨_,fixed,_⟩ := KeyRecord.createdKem created
      have deadline := fixed.deadline
      unfold checkedAdd at deadline
      split at deadline <;> try contradiction
      exact ⟨record,Option.some.inj named,fixed.createdAt,(Option.some.inj deadline).symm,rfl⟩

/- Attested lifespans are exact. The first part speaks of every query of the run, the second
of every two of them, the third of any run that follows one: from the reading on, and, unless
the reading was itself too late, also before it. -/
theorem lifespansExact {x : Externals} (laws : x.Lawful) {s : Custody.Core} (reach : Custody.KpsReachable x s)
    {entropy : Entropy} {algoPtr bindingPubkey : Option Bytes} {lifespan : UInt64} {outUuid : Option Uuid}
    {outPubkey : Option Bytes} {id : Uuid} {born : Custody.Core}
    (creates : Custody.kpsStep x s
      (.generateKemKeypair entropy algoPtr bindingPubkey lifespan outUuid outPubkey) = some born)
    (accepted : (KpsCore.keyManagerGenerateKemKeypair x s.keys s.now entropy algoPtr bindingPubkey lifespan outUuid
      outPubkey).status = .success)
    (named : (KpsCore.keyManagerGenerateKemKeypair x s.keys s.now entropy algoPtr bindingPubkey lifespan outUuid
      outPubkey).outUuid = some id)
    {ls : List Label} {t : Custody.Core} (run : Along (step x) (Unrepeated id) born ls t) :
    ∃ record : KeyRecord, born.keys.lookup id = some record ∧ record.metadata.createdAt = s.now ∧
      record.deleteAfter = s.now + lifespan.toNat * nanosPerSec ∧
      (∀ report ∈ reports x id born ls,
        report.secs ≤ lifespan.toNat ∧ Exact record.deleteAfter report ∧ Claimed report.secs) ∧
      (reports x id born ls).Pairwise (fun first second => first.sample ≤ second.sample → second.secs ≤ first.secs) ∧
      ∀ query report, report ∈ answer x id t query → ∀ ks later, Along (step x) (Undestroyed id) t ks later →
        later.now < report.sample + report.secs * nanosPerSec →
        report.sample ≤ later.now ∨ report.sample ≤ record.deleteAfter →
        ∀ delay, ∃ info, KpsCore.getKEMKey x later.keys later.now (later.now + delay) id = .ok info := by
  obtain ⟨record,own,createdAt,deadline,stored⟩ := createdRecord accepted named
  cases Option.some.inj creates
  rw [stored] at run ⊢
  have kinds : Homogeneous KemRecord (addKey s.keys record) := by
    have kept := homogeneousKpsStep laws (kpsHomogeneous laws reach) creates
    rwa [stored] at kept
  obtain ⟨here,tracks⟩ := tracksBorn kinds own
  have tracksLast := alongInvariant (fun _ _ _ before allowed taken => tracksStep laws before allowed taken) run tracks
  have all := runReports laws run tracks
  refine ⟨record,here,createdAt,deadline,fun report said => ?_,?_,?_⟩
  · obtain ⟨later,secs⟩ := all report said
    have start : report.secs ≤ lifespan.toNat := by
      rw [secs,deadline]
      exact remainingStart s.now lifespan later
    exact ⟨start,remainingExact secs,claimed (start.trans_lt lifespan.toNat_lt)⟩
  · refine List.pairwise_of_forall_mem_list (fun first saidFirst second saidSecond order => ?_)
    rw [(all first saidFirst).2,(all second saidSecond).2]
    exact remainingFalls record.deleteAfter order
  · intro query report said ks later onward before since delay
    obtain ⟨_,found,secs⟩ := tracksReport laws tracksLast said
    have exact := remainingExact secs
    have alive : later.now < record.deleteAfter := by
      have below := exact.below
      rcases since with onwards | early <;> omega
    have kept := alongInvariant (fun _ _ _ => keptStep) onward
      (show Kept id record t from .inl (getKeyIff.mp found).1)
    have tracksLater := alongInvariant (fun _ _ _ before allowed taken => tracksStep laws before allowed.1 taken) onward
      tracksLast
    rcases kept with still | gone
    · exact retrieved laws tracksLater.kinds (getKeyIff.mpr ⟨still,alive⟩) delay
    · omega

def longLived : Custody.KpsEvent :=
  .generateKemKeypair (Standin.entropy 2) (some [8,1,16,1,24,1]) (some (Standin.pad32 [1])) 9223372037 (some 0)
    (some (Standin.pad32 []))

def longBorn : Custody.Core :=
  (exec (Custody.kpsStep Standin.externals) (Custody.Core.initial 0) [longLived]).getD (Custody.Core.initial 0)

def listing : Query := .enumerateKemKeys (fun i => i) (some [KpsCore.KpsKeyInfo.zero]) 0 (some false)

def longQueries : List Label :=
  [.query (.getKemKey 0 (some (Standin.pad32 [])) (some (Standin.pad32 [])) (some (Standin.pad32 [])) (some 32)
      (some 0)),
    .call (.tick 1500000000),.query listing]

def longLast : Custody.Core := (exec (step Standin.externals) longBorn longQueries).getD longBorn

def longLater : Custody.Core := (exec (step Standin.externals) longLast [.call (.tick 1000000000)]).getD longLast

theorem lifespansExactClamped :
    reports Standin.externals 2 longBorn longQueries = [⟨0,9223372037⟩,⟨1500000000,9223372035⟩] ∧
    (∀ report ∈ reports Standin.externals 2 longBorn longQueries, report.secs ≤ 9223372037 ∧ Claimed report.secs) ∧
    (reports Standin.externals 2 longBorn longQueries).Pairwise
      (fun first second => first.sample ≤ second.sample → second.secs ≤ first.secs) ∧
    ∀ delay, ∃ info,
      KpsCore.getKEMKey Standin.externals longLater.keys longLater.now (longLater.now + delay) 2 = .ok info := by
  have creates : Custody.kpsStep Standin.externals (Custody.Core.initial 0) longLived = some longBorn := rfl
  have run : Along (step Standin.externals) (Unrepeated 2) longBorn longQueries longLast :=
    alongGetD (by decide +kernel)
  have onward : Along (step Standin.externals) (Undestroyed 2) longLast [.call (.tick 1000000000)] longLater :=
    alongGetD (by decide +kernel)
  obtain ⟨record,_,_,_,all,falling,stays⟩ := lifespansExact Standin.lawful ⟨0,[],.nil _⟩ creates (by decide +kernel)
    (by decide +kernel) run
  have said : (⟨1500000000,9223372035⟩ : Report) ∈ answer Standin.externals 2 longLast listing := by decide +kernel
  exact ⟨by decide +kernel,fun report mem => ⟨(all report mem).1,(all report mem).2.2⟩,falling,
    stays listing _ said _ _ onward (by decide +kernel) (.inl (by decide +kernel))⟩

end Lifespan
end KeyProtection
