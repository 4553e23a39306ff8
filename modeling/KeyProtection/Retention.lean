import KeyProtection.Memory

/-! How long a private key can stay in memory. The reaper sleeps, looks at its stop signal,
reads the clock and only then waits for the write lock, so a pass works with a reading that
may be old by the time it runs; a key may be added between the two, long after its deadline
was fixed. Whatever the order, a key that no call holds is gone one interval after its
deadline, or after it was added, if this is later, plus twice the time by which the thread
is late. -/
namespace KeyProtection
open Lib Lib.Run Lib.Cells

def reaperInterval : Nat := 60 * nanosPerSec

/- start_reaper, cut at everything it shares with other threads. `due` is when the sleep
ends. -/
inductive Reaper where
  | sleeping (due : Nat)
  | awake (due : Nat)
  | looking (due : Nat)
  | sweeping (due now : Nat)
  | exited
  deriving DecidableEq, Repr

def Reaper.due : Reaper → Option Nat
  | .sleeping due => some due
  | .awake due => some due
  | .looking due => some due
  | .sweeping due _ => some due
  | .exited => none

structure Custody where
  memory : Memory
  reaper : Reaper
  stopSignal : Bool
  -- When the key of this id was last added. No code reads it.
  added : Uuid → Nat

inductive Chore where
  | deed (d : Deed)
  | stops
  | wakes
  | loads
  | reads
  | sweeps
  deriving DecidableEq, Repr

def Deed.sweeps : Deed → Bool
  | .reap _ => true
  | _ => false

namespace Custody

/- The registry and its reaper are made together, by the first use of the static. -/
def initial (now : Nat) : Custody := ⟨Memory.initial now,.sleeping (now + reaperInterval),false,fun _ => now⟩

def adds (w : Custody) : Deed → Uuid → Nat
  | .addKey i =>
    match w.memory.calls[i]? with
    | some (.created record) => Function.update w.added record.metadata.id w.memory.now
    | _ => w.added
  | _ => w.added

def step (c : Bssl) (w : Custody) : Chore → Option Custody
  | .deed d =>
      if d.sweeps then none
      else (w.memory.step c d).map (fun m => {w with memory := m, added := w.adds d})
  | .stops => some {w with stopSignal := true}
  | .wakes =>
      match w.reaper with
      | .sleeping due => if due ≤ w.memory.now then some {w with reaper := .awake due} else none
      | _ => none
  | .loads =>
      match w.reaper with
      | .awake due => some {w with reaper := if w.stopSignal then .exited else .looking due}
      | _ => none
  | .reads =>
      match w.reaper with
      | .looking due => some {w with reaper := .sweeping due w.memory.now}
      | _ => none
  | .sweeps =>
      match w.reaper with
      | .sweeping _ now => (w.memory.step c (.reap now)).map (fun m =>
          {w with memory := m, reaper := .sleeping (m.now + reaperInterval)})
      | _ => none

end Custody

/- Time does not pass beyond the point where the reaper is late by more than the slack, and
nobody stops it: both custody cores keep the signal to themselves. -/
def Prompt (slack : Nat) (w : Custody) : Chore → Prop
  | .deed (.tick n) => ∀ due ∈ w.reaper.due, w.memory.now + n ≤ due + slack
  | .stops => False
  | _ => True

def Reaper.Woken (now : Nat) : Reaper → Prop
  | .awake due => due ≤ now
  | .looking due => due ≤ now
  | .sweeping due reading => due ≤ reading
  | _ => True

/- A pass takes every key whose deadline its reading has reached, so what is left after it
was still due at the reading; and no two ends of sleep are further apart than one interval
and the slack. -/
structure Timely (slack : Nat) (w : Custody) (due : Nat) : Prop where
  unstopped : w.stopSignal = false
  runs : w.reaper.due = some due
  late : w.memory.now ≤ due + slack
  soon : due ≤ w.memory.now + reaperInterval
  woken : w.reaper.Woken w.memory.now
  kept : ∀ id record, w.memory.keys.lookup id = some record →
    due ≤ max record.metadata.deleteAfter (w.added id) + reaperInterval + slack

section
variable {c : Bssl} {w w' : Custody} {m m' : Memory} {slack due : Nat}

def Deed.passes : Deed → Nat
  | .tick n => n
  | _ => 0

theorem deedKeys {d : Deed} (taken : m.step c d = some m') (keeps : d.sweeps = false) :
    m'.now = m.now + d.passes ∧ ∀ id record, m'.keys.lookup id = some record →
      m.keys.lookup id = some record ∨ ∃ i, d = .addKey i ∧ m.calls[i]? = some (.created record) ∧ record.metadata.id = id := by
  have same : ∀ {keys : Table Uuid Shared}, m'.keys = keys → keys = m.keys → ∀ id record, m'.keys.lookup id = some record →
      m.keys.lookup id = some record ∨ ∃ i, d = .addKey i ∧ m.calls[i]? = some (.created record) ∧ record.metadata.id = id :=
    fun left right id record here => .inl (right ▸ left ▸ here)
  cases d with
  | reap now => contradiction
  | tick n =>
    cases Option.some.inj taken
    exact ⟨rfl,same rfl rfl⟩
  | addKey i =>
    simp only [Memory.step] at taken
    split at taken <;> try contradiction
    rename_i added here
    cases Option.some.inj taken
    refine ⟨rfl,fun id record stored => ?_⟩
    simp only [Table.lookupInsert] at stored
    split at stored
    · rename_i own
      cases Option.some.inj stored
      exact .inr ⟨i,rfl,here,own.symm⟩
    · exact .inl stored
  | removeKey id =>
    simp only [Memory.step] at taken
    split at taken
    · cases Option.some.inj taken
      exact ⟨rfl,same rfl rfl⟩
    · cases Option.some.inj taken
      refine ⟨rfl,fun id' record stored => .inl ?_⟩
      simp only [Table.lookupErase] at stored
      split at stored <;> try contradiction
      exact stored
  | removeAllKeys =>
    cases Option.some.inj taken
    exact ⟨rfl,fun id record stored => by simp at stored⟩
  | generateKeypair order seed capacity =>
    simp only [Memory.step] at taken
    split at taken
    · cases Option.some.inj taken
      exact ⟨rfl,same rfl rfl⟩
    · split at taken <;> cases Option.some.inj taken <;> exact ⟨rfl,same rfl rfl⟩
  | newVault i mapped =>
    simp only [Memory.step] at taken
    split at taken <;> try contradiction
    split at taken <;> cases Option.some.inj taken <;> exact ⟨rfl,same rfl rfl⟩
  | newRecord i id =>
    simp only [Memory.step] at taken
    split at taken <;> try contradiction
    split at taken <;> cases Option.some.inj taken <;> exact ⟨rfl,same rfl rfl⟩
  | getKey id =>
    simp only [Memory.step] at taken
    split at taken
    · cases Option.some.inj taken
      exact ⟨rfl,same rfl rfl⟩
    · split at taken <;> cases Option.some.inj taken <;> exact ⟨rfl,same rfl rfl⟩
  | getPrivateKey i capacity =>
    simp only [Memory.step] at taken
    split at taken <;> try contradiction
    cases Option.some.inj taken
    exact ⟨rfl,same rfl rfl⟩
  | derive i data capacity =>
    simp only [Memory.step] at taken
    split at taken <;> try contradiction
    cases Option.some.inj taken
    exact ⟨rfl,same rfl rfl⟩
  | returns i =>
    simp only [Memory.step] at taken
    split at taken <;> try contradiction
    all_goals cases Option.some.inj taken
    all_goals exact ⟨rfl,same rfl rfl⟩

theorem addsLookup {d : Deed} {id : Uuid} {record : Shared} {i : Nat} (adds : d = .addKey i)
    (here : w.memory.calls[i]? = some (.created record)) (own : record.metadata.id = id) :
    w.adds d id = w.memory.now := by
  subst adds own
  simp only [Custody.adds,here,Function.update_self]

theorem addsLater (w : Custody) (d : Deed) (id : Uuid) : w.adds d id = w.added id ∨ w.adds d id = w.memory.now := by
  cases d with
  | addKey i =>
    simp only [Custody.adds]
    cases w.memory.calls[i]? with
    | none => exact .inl rfl
    | some stage =>
      cases stage with
      | created record =>
        by_cases own : id = record.metadata.id
        · exact .inr (own ▸ Function.update_self ..)
        · exact .inl (Function.update_of_ne own ..)
      | _ => exact .inl rfl
  | _ => exact .inl rfl

theorem reapKeys {now : Nat} (taken : m.step c (.reap now) = some m') :
    m'.now = m.now ∧ now ≤ m.now ∧ ∀ id record, m'.keys.lookup id = some record →
      m.keys.lookup id = some record ∧ now < record.metadata.deleteAfter := by
  simp only [Memory.step] at taken
  split at taken <;> try contradiction
  rename_i past
  cases Option.some.inj taken
  refine ⟨rfl,past,fun id record stored => ?_⟩
  simp only [Table.lookupRetain] at stored
  obtain ⟨here,kept⟩ := Option.filter_eq_some_iff.mp stored
  exact ⟨here,of_decide_eq_true kept⟩

theorem wokenLater {now later : Nat} {reaper : Reaper} (grows : now ≤ later) (woken : reaper.Woken now) :
    reaper.Woken later := by
  cases reaper with
  | awake due => exact Nat.le_trans woken grows
  | looking due => exact Nat.le_trans woken grows
  | _ => exact woken

theorem deedTimely {d : Deed} (timely : Timely slack w due) (allowed : Prompt slack w (.deed d)) (keeps : d.sweeps = false)
    (taken : w.memory.step c d = some m) : Timely slack {w with memory := m, added := w.adds d} due := by
  obtain ⟨clock,keys⟩ := deedKeys taken keeps
  have later : w.memory.now ≤ m.now := by omega
  have soon := timely.soon
  have late := timely.late
  refine ⟨timely.unstopped,timely.runs,?_,by dsimp only; omega,wokenLater later timely.woken,?_⟩
  · cases d with
    | tick n => exact clock ▸ allowed due timely.runs
    | _ => exact clock ▸ late
  · intro id record stored
    dsimp only
    rcases keys id record stored with old | ⟨i,adds,created,own⟩
    · have kept := timely.kept id record old
      rcases addsLater w d id with same | fresh
      · rw [same]
        exact kept
      · rw [fresh]
        omega
    · rw [addsLookup adds created own]
      omega

theorem phaseTimely {next : Reaper} (timely : Timely slack w due) (same : next.due = w.reaper.due)
    (woken : next.Woken w.memory.now) : Timely slack {w with reaper := next} due :=
  ⟨timely.unstopped,same.trans timely.runs,timely.late,timely.soon,woken,timely.kept⟩

theorem timelyStep {l : Chore} (timely : Timely slack w due) (allowed : Prompt slack w l) (taken : w.step c l = some w') :
    ∃ due, Timely slack w' due := by
  have woken := timely.woken
  cases l with
  | deed d =>
    simp only [Custody.step] at taken
    split at taken <;> try contradiction
    rename_i keeps
    obtain ⟨m,moved,rfl⟩ := Option.map_eq_some_iff.mp taken
    exact ⟨due,deedTimely timely allowed (by simpa using keeps) moved⟩
  | stops => exact absurd allowed id
  | wakes =>
    simp only [Custody.step] at taken
    split at taken <;> try contradiction
    rename_i stage
    split at taken <;> try contradiction
    rename_i slept
    cases Option.some.inj taken
    exact ⟨due,phaseTimely timely (by rw [stage]; rfl) slept⟩
  | loads =>
    simp only [Custody.step] at taken
    split at taken <;> try contradiction
    rename_i stage
    cases Option.some.inj taken
    rw [stage] at woken
    refine ⟨due,phaseTimely timely ?_ ?_⟩
    · rw [timely.unstopped,stage]
      rfl
    · rw [timely.unstopped]
      exact woken
  | reads =>
    simp only [Custody.step] at taken
    split at taken <;> try contradiction
    rename_i stage
    cases Option.some.inj taken
    rw [stage] at woken
    exact ⟨due,phaseTimely timely (by rw [stage]; rfl) woken⟩
  | sweeps =>
    simp only [Custody.step] at taken
    split at taken <;> try contradiction
    rename_i due' now stage
    obtain ⟨m,swept,rfl⟩ := Option.map_eq_some_iff.mp taken
    obtain ⟨clock,past,left⟩ := reapKeys swept
    have runs := timely.runs
    have late := timely.late
    rw [stage] at woken runs
    cases Option.some.inj runs
    -- The next sleep ends at most one interval and the slack after this one, and this one
    -- ended no later than the reading that the keys left have survived.
    refine ⟨m.now + reaperInterval,timely.unstopped,rfl,by dsimp only; omega,Nat.le_refl _,True.intro,?_⟩
    intro id record stored
    obtain ⟨_,alive⟩ := left id record stored
    simp only [Reaper.Woken] at woken
    dsimp only
    omega

theorem timelyInitial (slack now : Nat) : Timely slack (Custody.initial now) (now + reaperInterval) := by
  refine ⟨rfl,rfl,?_,Nat.le_refl _,True.intro,?_⟩
  · simp only [Custody.initial,Memory.initial]
    omega
  · intro id record stored
    simp [Custody.initial,Memory.initial] at stored

theorem custodyHeld {l : Chore} (held : Held c w.memory) (taken : w.step c l = some w') : Held c w'.memory := by
  cases l with
  | deed d =>
    simp only [Custody.step] at taken
    split at taken <;> try contradiction
    obtain ⟨m,moved,rfl⟩ := Option.map_eq_some_iff.mp taken
    exact heldStep held moved
  | sweeps =>
    simp only [Custody.step] at taken
    split at taken <;> try contradiction
    obtain ⟨m,moved,rfl⟩ := Option.map_eq_some_iff.mp taken
    exact heldStep held moved
  | stops =>
    cases Option.some.inj taken
    exact held
  | wakes =>
    simp only [Custody.step] at taken
    split at taken <;> try contradiction
    split at taken <;> try contradiction
    cases Option.some.inj taken
    exact held
  | loads =>
    simp only [Custody.step] at taken
    split at taken <;> try contradiction
    cases Option.some.inj taken
    exact held
  | reads =>
    simp only [Custody.step] at taken
    split at taken <;> try contradiction
    cases Option.some.inj taken
    exact held

/- A vault that is not zero has its private key, and a call in progress holds it, or it is
in the map and not one interval and twice the slack past its deadline, or past the moment
it was added. -/
theorem keysErasedInTime {start : Nat} {ls : List Chore} {v : Nat} {cell : Cell Bytes}
    (run : Along (Custody.step c) (Prompt slack) (Custody.initial start) ls w) (here : w.memory.vaults[v]? = some cell) :
    ∃ key, w.memory.made[v]? = some key ∧ (cell.value = zeroize key ∨ (cell.value = key ∧
      ((∃ stage ∈ w.memory.calls, v ∈ stage.vaults) ∨ ∃ id record, w.memory.keys.lookup id = some record ∧
        record.vault = v ∧
        w.memory.now ≤ max record.metadata.deleteAfter (w.added id) + reaperInterval + 2 * slack))) := by
  have keeps : ∀ w l w', Held c w.memory ∧ (∃ due, Timely slack w due) → Prompt slack w l → Custody.step c w l = some w' →
      Held c w'.memory ∧ ∃ due, Timely slack w' due := by
    rintro w l w' ⟨held,due,timely⟩ allowed taken
    exact ⟨custodyHeld held taken,timelyStep timely allowed taken⟩
  obtain ⟨held,due,timely⟩ := alongInvariant keeps run ⟨heldInitial c start,_,timelyInitial slack start⟩
  have bound : v < w.memory.made.length := held.sound.length ▸ (List.getElem?_eq_some_iff.mp here).1
  have written := List.getElem?_eq_getElem bound
  have value := held.sound.values v cell _ here written
  refine ⟨_,written,?_⟩
  split at value
  · rename_i referenced
    refine .inr ⟨value,?_⟩
    rcases memRefs.mp referenced with ⟨id,record,stored,own⟩ | held
    · have late := timely.late
      have kept := timely.kept id record stored
      exact .inr ⟨id,record,stored,own,by omega⟩
    · exact .inl held
  · exact .inl value

end

instance (slack : Nat) (w : Custody) : (l : Chore) → Decidable (Prompt slack w l)
  | .deed (.tick n) => inferInstanceAs (Decidable (∀ due ∈ w.reaper.due, w.memory.now + n ≤ due + slack))
  | .deed (.generateKeypair _ _ _) | .deed (.newVault _ _) | .deed (.newRecord _ _) | .deed (.addKey _) | .deed (.getKey _)
  | .deed (.getPrivateKey _ _) | .deed (.derive _ _ _) | .deed (.returns _) | .deed (.removeKey _) | .deed .removeAllKeys
  | .deed (.reap _) | .wakes | .loads | .reads | .sweeps => .isTrue trivial
  | .stops => .isFalse id

def missedOnce : List Chore :=
  [.deed (.tick 1),.deed (.generateKeypair ⟨⟨1,1,1⟩,none,60⟩ [5] 64),.deed (.newVault 0 true),.deed (.newRecord 0 7),
    .deed (.addKey 0),.deed (.tick 59999999999),.wakes,.loads,.reads,.sweeps,.deed (.tick 60000000005),.wakes,.loads,.reads]

theorem keysErasedInTimeMissed :
    let start := Custody.initial 0
    let w := (exec (Custody.step Standin.bssl) start missedOnce).getD start
    let w' := (exec (Custody.step Standin.bssl) start (missedOnce ++ [.sweeps])).getD start
    w.memory.vaults = [⟨Standin.pad32 [5],1⟩] ∧ w.memory.now = 120000000005 ∧
      (∃ id record, w.memory.keys.lookup id = some record ∧ record.vault = 0 ∧
        w.memory.now ≤ max record.metadata.deleteAfter (w.added id) + reaperInterval + 2 * 5) ∧
      w'.memory.vaults = [⟨List.replicate 32 0,0⟩] := by
  intro start w w'
  have run : Along (Custody.step Standin.bssl) (Prompt 5) start missedOnce w := alongGetD (by decide +kernel)
  have vaults : w.memory.vaults = [⟨Standin.pad32 [5],1⟩] := by decide +kernel
  have here : w.memory.vaults[0]? = some ⟨Standin.pad32 [5],1⟩ := by rw [vaults]; rfl
  have idle : ∀ stage ∈ w.memory.calls, 0 ∉ stage.vaults := by decide +kernel
  have made : w.memory.made = [Standin.pad32 [5]] := by decide +kernel
  obtain ⟨key,written,erased | ⟨_,⟨stage,mem,holds⟩ | stored⟩⟩ := keysErasedInTime run here
  · rw [made] at written
    cases Option.some.inj written
    exact absurd erased (by decide +kernel)
  · exact absurd holds (idle stage mem)
  · exact ⟨vaults,by decide +kernel,stored,by decide +kernel⟩

end KeyProtection
