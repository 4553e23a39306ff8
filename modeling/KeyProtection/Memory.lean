import KeyProtection.Lib.Cells
import KeyProtection.Standin

/-! Where the private keys are. km_common/src/protected_mem.rs keeps each in a mapping of its
own that is zeroed when it is dropped, secret_box.rs does the same for copies on the heap,
and key_types.rs shares a record between the registry and the calls that use it by an Arc.
Here are these as memory: vaults and heap buffers with their bytes, whatever is freed
staying in place with what was last written to it, and any number of calls that stand
between two of their steps. -/
namespace KeyProtection
open Lib Lib.Run Lib.Cells

def zeroize (bytes : Bytes) : Bytes := bytes.map (fun _ => 0)

/- SecretBox::new. A Vec with room to spare is copied and zeroed over its whole capacity. -/
def SecretBox.new (heap : List Bytes) (data : Bytes) (capacity : Nat) : List Bytes × Nat :=
  if capacity > data.length then (heap ++ [List.replicate capacity 0] ++ [data],heap.length + 1)
  else (heap ++ [data],heap.length)

structure KeyOrder where
  algo : HpkeAlgorithm
  bindingPublicKey : Option PublicKey
  expirySecs : UInt64
  deriving DecidableEq, Repr

def KeyOrder.spec (order : KeyOrder) (pubKey : PublicKey) : KeySpec :=
  match order.bindingPublicKey with
  | none => .binding order.algo pubKey
  | some bindingPublicKey => .kemWithBindingPub order.algo pubKey bindingPublicKey

/- An Arc<KeyRecord>: the metadata and the address of the vault. -/
structure Shared where
  metadata : KeyMetadata
  vault : Nat
  deriving DecidableEq, Repr

inductive CustodyStage where
  | generated (order : KeyOrder) (pubKey : PublicKey) (privKey : Nat)
  | vaulted (order : KeyOrder) (pubKey : PublicKey) (vault : Nat)
  | created (record : Shared)
  | holding (record : Shared)
  | reading (record : Shared) (privKey : Nat) (derived : List Nat)
  | removed (record : Shared)
  | done
  deriving DecidableEq, Repr

def CustodyStage.vaults : CustodyStage → List Nat
  | .vaulted _ _ vault => [vault]
  | .created record => [record.vault]
  | .holding record => [record.vault]
  | .reading record _ _ => [record.vault]
  | .removed record => [record.vault]
  | _ => []

def CustodyStage.boxes : CustodyStage → List Nat
  | .generated _ _ privKey => [privKey]
  | .reading _ privKey derived => privKey :: derived
  | _ => []

structure Memory where
  now : Nat
  keys : Table Uuid Shared
  vaults : List (Cell Bytes)
  heap : List Bytes
  calls : List CustodyStage
  -- What was written to each vault when it was made. No code reads it.
  made : List Bytes

def Memory.initial (now : Nat) : Memory := ⟨now,∅,[],[],[],[]⟩

namespace Memory

def put (m : Memory) (i : Nat) (stage : CustodyStage) : Memory := {m with calls := m.calls.set i stage}

def begin (m : Memory) (stage : CustodyStage) : Memory := {m with calls := m.calls ++ [stage]}

def drop (m : Memory) (vaults : List Nat) : Memory := {m with vaults := releaseAll zeroize m.vaults vaults}

def free (m : Memory) (boxes : List Nat) : Memory := {m with heap := wipe zeroize m.heap boxes}

end Memory

inductive Deed where
  | generateKeypair (order : KeyOrder) (seed : Bytes) (capacity : Nat)
  | newVault (i : Nat) (mapped : Bool)
  | newRecord (i : Nat) (id : Uuid)
  | addKey (i : Nat)
  | getKey (id : Uuid)
  | getPrivateKey (i : Nat) (capacity : Nat)
  -- A shared secret or a plaintext, in a box of its own.
  | derive (i : Nat) (data : Bytes) (capacity : Nat)
  | returns (i : Nat)
  | removeKey (id : Uuid)
  | removeAllKeys
  | reap (now : Nat)
  | tick (n : Nat)
  deriving DecidableEq, Repr

def Memory.swept (m : Memory) (now : Nat) : List Nat :=
  ((Table.values m.keys).filter (fun record => ! decide (record.metadata.deleteAfter > now))).map Shared.vault

def Memory.replaced (m : Memory) (id : Uuid) : List Nat := ((m.keys.lookup id).map Shared.vault).toList

def Memory.step (c : Bssl) (m : Memory) : Deed → Option Memory
  | .generateKeypair order seed capacity =>
      if ¬ order.algo.Supported then some (m.begin .done)
      else match Crypto.generateKeypair c .dhkemX25519HkdfSha256 seed with
        | .error _ => some (m.begin .done)
        | .ok (pubKey,privKey) =>
          let out := SecretBox.new m.heap privKey capacity
          some {m.begin (.generated order pubKey out.2) with heap := out.1}
  | .newVault i mapped =>
      match m.calls[i]? with
      | some (.generated order pubKey privKey) =>
        if mapped then
          let data := m.heap.getD privKey []
          some {(m.put i (.vaulted order pubKey m.vaults.length)).free [privKey] with
            vaults := m.vaults ++ [⟨data,1⟩], made := m.made ++ [data]}
        else some ((m.put i .done).free [privKey])
      | _ => none
  | .newRecord i id =>
      match m.calls[i]? with
      | some (.vaulted order pubKey vault) =>
        match checkedAdd m.now order.expirySecs with
        | none => some ((m.put i .done).drop [vault])
        | some deleteAfter => some (m.put i (.created ⟨⟨id,m.now,deleteAfter,order.spec pubKey⟩,vault⟩))
      | _ => none
  | .addKey i =>
      match m.calls[i]? with
      | some (.created record) =>
        some {(m.put i .done).drop (m.replaced record.metadata.id) with keys := m.keys.insert record.metadata.id record}
      | _ => none
  | .getKey id =>
      match m.keys.lookup id with
      | none => some (m.begin .done)
      | some record =>
        if record.metadata.deleteAfter > m.now then
          some {m.begin (.holding record) with vaults := clone m.vaults record.vault}
        else some (m.begin .done)
  | .getPrivateKey i capacity =>
      match m.calls[i]? with
      | some (.holding record) =>
        let out := SecretBox.new m.heap ((m.vaults[record.vault]?.map Cell.value).getD []) capacity
        some {m.put i (.reading record out.2 []) with heap := out.1}
      | _ => none
  | .derive i data capacity =>
      match m.calls[i]? with
      | some (.reading record privKey derived) =>
        let out := SecretBox.new m.heap data capacity
        some {m.put i (.reading record privKey (out.2 :: derived)) with heap := out.1}
      | _ => none
  | .returns i =>
      match m.calls[i]? with
      | some (.holding record) => some ((m.put i .done).drop [record.vault])
      | some (.reading record privKey derived) => some (((m.put i .done).free (privKey :: derived)).drop [record.vault])
      | some (.removed record) => some ((m.put i .done).drop [record.vault])
      | _ => none
  | .removeKey id =>
      match m.keys.lookup id with
      | none => some (m.begin .done)
      | some record => some {m.begin (.removed record) with keys := m.keys.erase id}
  | .removeAllKeys => some {m.drop ((Table.values m.keys).map Shared.vault) with keys := ∅}
  | .reap now =>
      if now ≤ m.now then
        some {m.drop (m.swept now) with
          keys := Table.retain (fun record => decide (record.metadata.deleteAfter > now)) m.keys}
      else none
  | .tick n => some {m with now := m.now + n}

/-! Who holds what, in every state. -/

def Blank (bytes : Bytes) : Prop := ∀ b ∈ bytes, b = 0

theorem blankZeroize (bytes : Bytes) : Blank (zeroize bytes) := by
  intro b mem
  obtain ⟨_,_,same⟩ := List.mem_map.mp mem
  exact same.symm

theorem blankReplicate (n : Nat) : Blank (List.replicate n 0) := fun _ mem => List.eq_of_mem_replicate mem

namespace Memory

def registered (m : Memory) : List Nat := (Table.values m.keys).map Shared.vault

def refs (m : Memory) : List Nat := m.calls.flatMap CustodyStage.vaults ++ m.registered

def boxes (m : Memory) : List Nat := m.calls.flatMap CustodyStage.boxes

end Memory

def Shared.Paired (c : Bssl) (made : List Bytes) (record : Shared) : Prop :=
  ∃ seed key, Crypto.generateKeypair c .dhkemX25519HkdfSha256 seed = .ok (record.metadata.spec.ownKey,key) ∧
    made[record.vault]? = some key

def CustodyStage.Ok (c : Bssl) (heap made : List Bytes) : CustodyStage → Prop
  | .generated _ pubKey privKey => ∃ seed key,
      Crypto.generateKeypair c .dhkemX25519HkdfSha256 seed = .ok (pubKey,key) ∧ heap[privKey]? = some key
  | .vaulted _ pubKey vault => ∃ seed key,
      Crypto.generateKeypair c .dhkemX25519HkdfSha256 seed = .ok (pubKey,key) ∧ made[vault]? = some key
  | .created record => record.Paired c made
  | .holding record => record.Paired c made
  | .reading record privKey _ => record.Paired c made ∧ heap[privKey]? = made[record.vault]?
  | .removed record => record.Paired c made
  | .done => True

structure Held (c : Bssl) (m : Memory) : Prop where
  sound : Counted zeroize m.made m.vaults m.refs
  clean : Clean Blank m.heap m.boxes
  keyed : ∀ id record, m.keys.lookup id = some record → record.metadata.id = id
  records : ∀ id record, m.keys.lookup id = some record → record.Paired c m.made
  stages : ∀ stage ∈ m.calls, stage.Ok c m.heap m.made

section
variable {c : Bssl} {m m' : Memory} {heap made : List Bytes} {i : Nat} {old new : CustodyStage}

theorem specOwn (order : KeyOrder) (pubKey : PublicKey) : (order.spec pubKey).ownKey = pubKey := by
  unfold KeyOrder.spec
  split <;> rfl

theorem pairedGrows {record : Shared} (v : Bytes) (paired : record.Paired c made) : record.Paired c (made ++ [v]) := by
  obtain ⟨seed,key,pair,here⟩ := paired
  exact ⟨seed,key,pair,(List.getElem?_append_left (List.getElem?_eq_some_iff.mp here).1).trans here⟩

theorem stageKept {heap' : List Bytes} {stage : CustodyStage} (same : ∀ a ∈ stage.boxes, heap'[a]? = heap[a]?)
    (ok : stage.Ok c heap made) : stage.Ok c heap' made := by
  cases stage with
  | generated order pubKey privKey =>
    obtain ⟨seed,key,pair,here⟩ := ok
    exact ⟨seed,key,pair,(same privKey List.mem_cons_self).trans here⟩
  | reading record privKey derived => exact ⟨ok.1,(same privKey List.mem_cons_self).trans ok.2⟩
  | _ => exact ok

theorem stageGrows {stage : CustodyStage} (v : Bytes) (ok : stage.Ok c heap made) : stage.Ok c heap (made ++ [v]) := by
  cases stage with
  | generated order pubKey privKey => exact ok
  | vaulted order pubKey vault =>
    obtain ⟨seed,key,pair,here⟩ := ok
    exact ⟨seed,key,pair,(List.getElem?_append_left (List.getElem?_eq_some_iff.mp here).1).trans here⟩
  | reading record privKey derived =>
    obtain ⟨paired,copy⟩ := ok
    obtain ⟨seed,key,pair,here⟩ := id paired
    refine ⟨pairedGrows v paired,copy.trans ?_⟩
    rw [List.getElem?_append_left (List.getElem?_eq_some_iff.mp here).1]
  | done => trivial
  | _ => exact pairedGrows v ok

theorem boxNew {owned : List Nat} (clean : Clean Blank heap owned) (data : Bytes) (capacity : Nat) :
    Clean Blank (SecretBox.new heap data capacity).1 ((SecretBox.new heap data capacity).2 :: owned) ∧
      (SecretBox.new heap data capacity).1[(SecretBox.new heap data capacity).2]? = some data ∧
      ∀ a, a < heap.length → (SecretBox.new heap data capacity).1[a]? = heap[a]? := by
  unfold SecretBox.new
  split
  · have spare := cleanNew data (cleanBlank (blankReplicate capacity) clean)
    rw [List.length_append,List.length_singleton] at spare
    refine ⟨spare,?_,fun a inside => ?_⟩
    · rw [List.getElem?_append_right (by simp)]
      simp
    · rw [List.append_assoc,List.getElem?_append_left inside]
  · refine ⟨cleanNew data clean,?_,fun a inside => List.getElem?_append_left inside⟩
    rw [List.getElem?_append_right (Nat.le_refl _)]
    simp

/-! One call changes its stage. -/

theorem refsPut (here : m.calls[i]? = some old) : ∃ rest, m.refs.Perm (old.vaults ++ (rest ++ m.registered)) ∧
    ∀ new, ((m.calls.set i new).flatMap CustodyStage.vaults).Perm (CustodyStage.vaults new ++ rest) := by
  obtain ⟨rest,before,after⟩ := holdersPut here
  refine ⟨rest,?_,after⟩
  rw [← List.append_assoc]
  exact before.append_right _

theorem boxesPut (here : m.calls[i]? = some old) : ∃ rest, m.boxes.Perm (old.boxes ++ rest) ∧
    ∀ new, ((m.calls.set i new).flatMap CustodyStage.boxes).Perm (CustodyStage.boxes new ++ rest) := holdersPut here

theorem memPut {stage : CustodyStage} (mem : stage ∈ m.calls.set i new) :
    stage = new ∨ stage ∈ m.calls.set i .done := by
  obtain ⟨j,bound,same⟩ := List.getElem_of_mem mem
  rw [List.length_set] at bound
  rw [List.getElem_set] at same
  split at same
  · exact .inl same.symm
  · rename_i other
    refine .inr (List.mem_iff_getElem.mpr ⟨j,by rw [List.length_set]; exact bound,?_⟩)
    rw [List.getElem_set,if_neg other]
    exact same

theorem memDone {stage : CustodyStage} (mem : stage ∈ m.calls.set i .done) : stage = .done ∨ stage ∈ m.calls :=
  (List.mem_or_eq_of_mem_set mem).symm

theorem othersKept {heap' : List Bytes} {rest : List Nat} (held : Held c m)
    (others : ((m.calls.set i .done).flatMap CustodyStage.boxes).Perm (CustodyStage.boxes .done ++ rest))
    (kept : ∀ a ∈ rest, heap'[a]? = m.heap[a]?) : ∀ stage ∈ m.calls.set i .done, stage.Ok c heap' m.made := by
  intro stage mem
  rcases memDone mem with rfl | before
  · trivial
  · refine stageKept (fun a inside => kept a ?_) (held.stages stage before)
    exact others.mem_iff.mp (List.mem_flatMap.mpr ⟨stage,mem,inside⟩)

theorem stagesPut {heap' made' : List Bytes} (others : ∀ stage ∈ m.calls.set i .done, stage.Ok c heap' made')
    (ok : new.Ok c heap' made') : ∀ stage ∈ m.calls.set i new, stage.Ok c heap' made' := by
  intro stage mem
  rcases memPut mem with rfl | other
  · exact ok
  · exact others stage other

theorem wipedOthers {gone rest : List Nat} (clean : Clean Blank heap (gone ++ rest)) :
    ∀ a ∈ rest, (wipe zeroize heap gone)[a]? = heap[a]? := by
  intro a inside
  exact wipeOther (fun mem => List.disjoint_of_nodup_append clean.once mem inside)

theorem heldBegin (held : Held c m) : Held c (m.begin .done) := by
  refine ⟨?_,?_,held.keyed,held.records,fun stage mem => ?_⟩
  · simpa [Memory.refs,Memory.registered,Memory.begin,CustodyStage.vaults] using held.sound
  · simpa [Memory.boxes,Memory.begin,CustodyStage.boxes] using held.clean
  · rcases List.mem_append.mp mem with before | last
    · exact held.stages stage before
    · cases List.mem_singleton.mp last
      trivial

theorem heldGenerated {order : KeyOrder} {seed privKey : Bytes} {pubKey : PublicKey} (capacity : Nat) (held : Held c m)
    (pair : Crypto.generateKeypair c .dhkemX25519HkdfSha256 seed = .ok (pubKey,privKey)) :
    Held c {m.begin (.generated order pubKey (SecretBox.new m.heap privKey capacity).2) with
      heap := (SecretBox.new m.heap privKey capacity).1} := by
  obtain ⟨clean,here,kept⟩ := boxNew held.clean privKey capacity
  refine ⟨?_,?_,held.keyed,held.records,fun stage mem => ?_⟩
  · simpa [Memory.refs,Memory.registered,Memory.begin,CustodyStage.vaults] using held.sound
  · refine cleanPerm ?_ clean
    simp only [Memory.boxes,Memory.begin,List.flatMap_append,List.flatMap_singleton,CustodyStage.boxes]
    exact (List.perm_append_singleton _ _).symm
  · rcases List.mem_append.mp mem with before | last
    · refine stageKept (fun a inside => kept a (held.clean.bound a ?_)) (held.stages stage before)
      exact List.mem_flatMap.mpr ⟨stage,before,inside⟩
    · cases List.mem_singleton.mp last
      exact ⟨seed,privKey,pair,here⟩

theorem heldVaulted {order : KeyOrder} {pubKey : PublicKey} {privKey : Nat} (held : Held c m)
    (here : m.calls[i]? = some (.generated order pubKey privKey)) :
    Held c {(m.put i (.vaulted order pubKey m.vaults.length)).free [privKey] with
      vaults := m.vaults ++ [⟨m.heap.getD privKey [],1⟩], made := m.made ++ [m.heap.getD privKey []]} := by
  obtain ⟨vrest,vbefore,vafter⟩ := refsPut here
  obtain ⟨brest,bbefore,bafter⟩ := boxesPut here
  obtain ⟨seed,key,pair,stored⟩ := held.stages _ (List.mem_of_getElem? here)
  have data : m.heap.getD privKey [] = key := by rw [List.getD_eq_getElem?_getD,stored,Option.getD_some]
  have clean := cleanPerm bbefore held.clean
  rw [data]
  refine ⟨?_,?_,held.keyed,fun id record stored => pairedGrows key (held.records id record stored),?_⟩
  · refine soundPerm ?_ (soundAlloc key held.sound)
    refine (vbefore.cons _).trans ?_
    exact ((vafter (.vaulted order pubKey m.vaults.length)).append_right m.registered).symm
  · exact cleanPerm (bafter (.vaulted order pubKey m.vaults.length)).symm (cleanWipe blankZeroize clean)
  · have kept := othersKept held (bafter .done) (wipedOthers clean)
    refine stagesPut (fun stage other => stageGrows key (kept stage other)) ⟨seed,key,pair,?_⟩
    rw [held.sound.length,List.getElem?_append_right (Nat.le_refl _)]
    simp

theorem heldLeaves (held : Held c m) (here : m.calls[i]? = some old) :
    Held c (((m.put i .done).free old.boxes).drop old.vaults) := by
  obtain ⟨vrest,vbefore,vafter⟩ := refsPut here
  obtain ⟨brest,bbefore,bafter⟩ := boxesPut here
  have clean := cleanPerm bbefore held.clean
  refine ⟨?_,?_,held.keyed,held.records,?_⟩
  · refine soundPerm ?_ (soundReleaseAll (soundPerm vbefore held.sound))
    exact ((vafter .done).append_right m.registered).symm
  · exact cleanPerm (bafter .done).symm (cleanWipe blankZeroize clean)
  · exact othersKept held (bafter .done) (wipedOthers clean)

theorem heldGoes (held : Held c m) (here : m.calls[i]? = some old) (vaults : new.vaults = old.vaults)
    (boxes : new.boxes = old.boxes) (ok : new.Ok c m.heap m.made) : Held c (m.put i new) := by
  obtain ⟨vrest,vbefore,vafter⟩ := refsPut here
  obtain ⟨brest,bbefore,bafter⟩ := boxesPut here
  refine ⟨soundPerm ?_ held.sound,cleanPerm ?_ held.clean,held.keyed,held.records,?_⟩
  · rw [← vaults,← List.append_assoc] at vbefore
    exact vbefore.trans ((vafter new).append_right m.registered).symm
  · rw [← boxes] at bbefore
    exact bbefore.trans (bafter new).symm
  · exact stagesPut (othersKept held (bafter .done) (fun a _ => rfl)) ok

theorem heldBoxes {data : Bytes} {box : Nat} {heap' : List Bytes} (capacity : Nat) (held : Held c m)
    (here : m.calls[i]? = some old) (made : SecretBox.new m.heap data capacity = (heap',box))
    (vaults : new.vaults = old.vaults) (boxes : new.boxes.Perm (box :: old.boxes))
    (ok : heap'[box]? = some data → (∀ a ∈ old.boxes, heap'[a]? = m.heap[a]?) → new.Ok c heap' m.made) :
    Held c {m.put i new with heap := heap'} := by
  obtain ⟨vrest,vbefore,vafter⟩ := refsPut here
  obtain ⟨brest,bbefore,bafter⟩ := boxesPut here
  obtain ⟨clean,stored,kept⟩ := boxNew held.clean data capacity
  rw [made] at clean stored kept
  have inside : ∀ a ∈ old.boxes ++ brest, a < m.heap.length :=
    fun a mem => held.clean.bound a (bbefore.mem_iff.mpr mem)
  refine ⟨soundPerm ?_ held.sound,cleanPerm ?_ clean,held.keyed,held.records,?_⟩
  · rw [← vaults,← List.append_assoc] at vbefore
    exact vbefore.trans ((vafter new).append_right m.registered).symm
  · refine (bbefore.cons box).trans ?_
    rw [← List.cons_append]
    exact (boxes.symm.append_right brest).trans (bafter new).symm
  · refine stagesPut (othersKept held (bafter .done) (fun a mem => kept a (inside a ?_))) (ok stored fun a mem => kept a (inside a ?_))
    · exact List.mem_append_right _ mem
    · exact List.mem_append_left _ mem

/-! The registry's map changes. -/

theorem registeredRef {id : Uuid} {record : Shared} (stored : m.keys.lookup id = some record) : record.vault ∈ m.refs :=
  List.mem_append_right _ (List.mem_map_of_mem (Table.memValues.mpr ⟨id,stored⟩))

theorem registeredErase {id : Uuid} {record : Shared} (stored : m.keys.lookup id = some record) :
    m.registered.Perm (record.vault :: (Table.values (m.keys.erase id)).map Shared.vault) :=
  (Table.valuesErase stored).map Shared.vault

theorem heldAdds {record : Shared} (held : Held c m) (here : m.calls[i]? = some (.created record)) :
    Held c {(m.put i .done).drop (m.replaced record.metadata.id) with keys := m.keys.insert record.metadata.id record} := by
  obtain ⟨vrest,vbefore,vafter⟩ := refsPut here
  obtain ⟨brest,bbefore,bafter⟩ := boxesPut here
  have paired : record.Paired c m.made := held.stages _ (List.mem_of_getElem? here)
  -- The Arc moves from the call to the map, and whatever it replaces there goes.
  have split : m.registered.Perm (m.replaced record.metadata.id ++
      (Table.values (m.keys.erase record.metadata.id)).map Shared.vault) := by
    unfold Memory.replaced
    cases stored : m.keys.lookup record.metadata.id with
    | none =>
      have same : Table.values (m.keys.erase record.metadata.id) = Table.values m.keys := by
        have replaced := Table.valuesReplace m.keys record.metadata.id record
        exact (List.cons.inj (replaced.symm.trans (Table.valuesInsert stored record))).2
      rw [same]
      exact List.Perm.refl _
    | some before => exact registeredErase stored
  refine ⟨?_,?_,?_,?_,?_⟩
  · have moved : m.refs.Perm (m.replaced record.metadata.id ++ ((m.calls.set i .done).flatMap CustodyStage.vaults ++
        (record.vault :: (Table.values (m.keys.erase record.metadata.id)).map Shared.vault))) := by
      refine List.perm_iff_count.mpr (fun a => ?_)
      have before := vbefore.count_eq a
      have after := (vafter .done).count_eq a
      have parts := split.count_eq a
      simp only [CustodyStage.vaults,List.count_append,List.count_cons,List.count_nil,Nat.zero_add] at before after parts ⊢
      omega
    have sound := soundReleaseAll (soundPerm moved held.sound)
    simpa only [Memory.refs,Memory.registered,Memory.drop,Memory.put,Table.valuesReplace,List.map_cons] using sound
  · exact cleanPerm (bbefore.trans (bafter .done).symm) held.clean
  · intro id found stored
    rw [Table.lookupInsert] at stored
    split at stored
    · rename_i same
      cases Option.some.inj stored
      exact same.symm
    · exact held.keyed id found stored
  · intro id found stored
    rw [Table.lookupInsert] at stored
    split at stored
    · cases Option.some.inj stored
      exact paired
    · exact held.records id found stored
  · exact othersKept held (bafter .done) (fun a _ => rfl)

theorem heldGets {id : Uuid} {record : Shared} (held : Held c m) (stored : m.keys.lookup id = some record) :
    Held c {m.begin (.holding record) with vaults := clone m.vaults record.vault} := by
  refine ⟨?_,?_,held.keyed,held.records,fun stage mem => ?_⟩
  · refine soundPerm ?_ (soundClone (registeredRef stored) held.sound)
    simp only [Memory.refs,Memory.registered,Memory.begin,List.flatMap_append,List.flatMap_singleton,CustodyStage.vaults,
      List.append_assoc,List.singleton_append]
    exact List.perm_middle.symm
  · simpa [Memory.boxes,Memory.begin,CustodyStage.boxes] using held.clean
  · rcases List.mem_append.mp mem with before | last
    · exact held.stages stage before
    · cases List.mem_singleton.mp last
      exact held.records id record stored

theorem heldRemoves {id : Uuid} {record : Shared} (held : Held c m) (stored : m.keys.lookup id = some record) :
    Held c {m.begin (.removed record) with keys := m.keys.erase id} := by
  have left : ∀ id' record', (m.keys.erase id).lookup id' = some record' → m.keys.lookup id' = some record' := by
    intro id' record' found
    rw [Table.lookupErase] at found
    split at found
    · contradiction
    · exact found
  refine ⟨?_,?_,fun id' record' found => held.keyed id' record' (left id' record' found),
    fun id' record' found => held.records id' record' (left id' record' found),fun stage mem => ?_⟩
  · refine soundPerm ?_ held.sound
    refine List.perm_iff_count.mpr (fun a => ?_)
    have parts := (registeredErase stored).count_eq a
    simp only [Memory.refs,Memory.registered,Memory.begin,List.flatMap_append,List.flatMap_singleton,CustodyStage.vaults,
      List.count_append,List.count_cons,List.count_nil,Nat.zero_add] at parts ⊢
    omega
  · simpa [Memory.boxes,Memory.begin,CustodyStage.boxes] using held.clean
  · rcases List.mem_append.mp mem with before | last
    · exact held.stages stage before
    · cases List.mem_singleton.mp last
      exact held.records id record stored

theorem heldSweeps {keys : Table Uuid Shared} {gone : List Nat} (held : Held c m)
    (split : m.registered.Perm (gone ++ (Table.values keys).map Shared.vault))
    (left : ∀ id record, keys.lookup id = some record → m.keys.lookup id = some record) :
    Held c {m.drop gone with keys := keys} := by
  refine ⟨?_,held.clean,fun id record found => held.keyed id record (left id record found),
    fun id record found => held.records id record (left id record found),held.stages⟩
  have moved : m.refs.Perm (gone ++ (m.calls.flatMap CustodyStage.vaults ++ (Table.values keys).map Shared.vault)) := by
    refine List.perm_iff_count.mpr (fun a => ?_)
    have parts := split.count_eq a
    simp only [Memory.refs,List.count_append] at parts ⊢
    omega
  exact soundReleaseAll (soundPerm moved held.sound)

theorem heldReaps (held : Held c m) (now : Nat) : Held c {m.drop (m.swept now) with
    keys := Table.retain (fun record => decide (record.metadata.deleteAfter > now)) m.keys} := by
  refine heldSweeps held ?_ (fun id record found => ?_)
  · rw [Memory.swept,Table.valuesRetain,← List.map_append]
    refine List.Perm.map _ (List.Perm.trans ?_ List.perm_append_comm)
    exact (List.filter_append_perm _ _).symm
  · rw [Table.lookupRetain,Option.filter_eq_some_iff] at found
    exact found.1

theorem heldClears (held : Held c m) : Held c {m.drop ((Table.values m.keys).map Shared.vault) with keys := ∅} := by
  refine heldSweeps held ?_ (fun id record found => by simp at found)
  have none : Table.values (∅ : Table Uuid Shared) = [] := rfl
  rw [none,List.map_nil,List.append_nil]
  exact List.Perm.refl _

theorem heldStep {d : Deed} (held : Held c m) (taken : m.step c d = some m') : Held c m' := by
  cases d with
  | generateKeypair order seed capacity =>
    simp only [Memory.step] at taken
    split at taken
    · cases Option.some.inj taken
      exact heldBegin held
    split at taken
    · cases Option.some.inj taken
      exact heldBegin held
    · rename_i pubKey privKey pair
      cases Option.some.inj taken
      exact heldGenerated capacity held pair
  | newVault i mapped =>
    simp only [Memory.step] at taken
    split at taken <;> try contradiction
    rename_i order pubKey privKey here
    split at taken
    · cases Option.some.inj taken
      exact heldVaulted held here
    · cases Option.some.inj taken
      exact heldLeaves held here
  | newRecord i id =>
    simp only [Memory.step] at taken
    split at taken <;> try contradiction
    rename_i order pubKey vault here
    split at taken
    · cases Option.some.inj taken
      exact heldLeaves held here
    · cases Option.some.inj taken
      obtain ⟨seed,key,pair,stored⟩ := held.stages _ (List.mem_of_getElem? here)
      exact heldGoes held here rfl rfl ⟨seed,key,(specOwn order pubKey).symm ▸ pair,stored⟩
  | addKey i =>
    simp only [Memory.step] at taken
    split at taken <;> try contradiction
    rename_i record here
    cases Option.some.inj taken
    exact heldAdds held here
  | getKey id =>
    simp only [Memory.step] at taken
    split at taken
    · cases Option.some.inj taken
      exact heldBegin held
    rename_i record stored
    split at taken
    · cases Option.some.inj taken
      exact heldGets held stored
    · cases Option.some.inj taken
      exact heldBegin held
  | getPrivateKey i capacity =>
    simp only [Memory.step] at taken
    split at taken <;> try contradiction
    rename_i record here
    cases Option.some.inj taken
    have paired : record.Paired c m.made := held.stages _ (List.mem_of_getElem? here)
    have reference : record.vault ∈ m.refs :=
      List.mem_append_left _ (List.mem_flatMap.mpr ⟨_,List.mem_of_getElem? here,List.mem_cons_self⟩)
    obtain ⟨cell,key,shown,written,value⟩ := soundReads reference held.sound
    refine heldBoxes capacity held here rfl rfl (List.Perm.refl _) (fun stored _ => ⟨paired,stored.trans ?_⟩)
    rw [written,shown,← value]
    rfl
  | derive i data capacity =>
    simp only [Memory.step] at taken
    split at taken <;> try contradiction
    rename_i record privKey derived here
    cases Option.some.inj taken
    obtain ⟨paired,copy⟩ := held.stages _ (List.mem_of_getElem? here)
    exact heldBoxes capacity held here rfl rfl (List.Perm.swap _ _ _)
      (fun _ kept => ⟨paired,(kept privKey List.mem_cons_self).trans copy⟩)
  | returns i =>
    simp only [Memory.step] at taken
    split at taken <;> try contradiction
    all_goals
      rename_i here
      cases Option.some.inj taken
      exact heldLeaves held here
  | removeKey id =>
    simp only [Memory.step] at taken
    split at taken
    · cases Option.some.inj taken
      exact heldBegin held
    · rename_i record stored
      cases Option.some.inj taken
      exact heldRemoves held stored
  | removeAllKeys =>
    cases Option.some.inj taken
    exact heldClears held
  | reap now =>
    simp only [Memory.step] at taken
    split at taken <;> try contradiction
    cases Option.some.inj taken
    exact heldReaps held now
  | tick n =>
    cases Option.some.inj taken
    exact ⟨held.sound,held.clean,held.keyed,held.records,held.stages⟩

theorem heldInitial (c : Bssl) (now : Nat) : Held c (Memory.initial now) :=
  ⟨soundNil,cleanNil,fun id record found => by simp [Memory.initial] at found,
    fun id record found => by simp [Memory.initial] at found,fun stage mem => by simp [Memory.initial] at mem⟩

end

/-! The registry of the other modules, beside the memory it stands for. -/

def Shared.record (made : List Bytes) (shared : Shared) : KeyRecord := ⟨shared.metadata,made.getD shared.vault []⟩

def Deed.registers (m : Memory) (keys : KeyRegistry) : Deed → KeyRegistry
  | .addKey i =>
      match m.calls[i]? with
      | some (.created shared) => keys.addKey (shared.record m.made)
      | _ => keys
  | .removeKey id => (keys.removeKey id).2
  | .removeAllKeys => keys.removeAllKeys
  | .reap now => keys.reap now
  | _ => keys

def Memory.beside (c : Bssl) (s : Memory × KeyRegistry) (d : Deed) : Option (Memory × KeyRegistry) :=
  (s.1.step c d).map (fun m => (m,d.registers s.1 s.2))

def Memory.Referenced (m : Memory) (vault : Nat) : Prop :=
  (∃ id shared, m.keys.lookup id = some shared ∧ shared.vault = vault) ∨ ∃ stage ∈ m.calls, vault ∈ stage.vaults

def Views (m : Memory) (keys : KeyRegistry) : Prop :=
  ∀ id, keys.lookup id = (m.keys.lookup id).map (Shared.record m.made)

section
variable {c : Bssl} {m m' : Memory} {keys : KeyRegistry}

theorem memRefs {vault : Nat} : vault ∈ m.refs ↔ m.Referenced vault := by
  simp only [Memory.refs,Memory.registered,Memory.Referenced,List.mem_append,List.mem_flatMap,List.mem_map,Table.memValues]
  constructor
  · rintro (⟨stage,mem,inside⟩ | ⟨shared,⟨id,stored⟩,same⟩)
    · exact .inr ⟨stage,mem,inside⟩
    · exact .inl ⟨id,shared,stored,same⟩
  · rintro (⟨id,shared,stored,same⟩ | ⟨stage,mem,inside⟩)
    · exact .inr ⟨shared,⟨id,stored⟩,same⟩
    · exact .inl ⟨stage,mem,inside⟩

theorem recordPaired {made : List Bytes} {shared : Shared} (paired : shared.Paired c made) :
    made[shared.vault]? = some (shared.record made).privateKey ∧ ∃ seed,
      Crypto.generateKeypair c .dhkemX25519HkdfSha256 seed = .ok (shared.metadata.spec.ownKey,(shared.record made).privateKey) := by
  obtain ⟨seed,key,pair,here⟩ := paired
  have same : (shared.record made).privateKey = key := by
    simp only [Shared.record,List.getD_eq_getElem?_getD,here,Option.getD_some]
  rw [same]
  exact ⟨here,seed,pair⟩

theorem recordGrows {made : List Bytes} {shared : Shared} (v : Bytes) (paired : shared.Paired c made) :
    shared.record (made ++ [v]) = shared.record made := by
  obtain ⟨seed,key,pair,here⟩ := paired
  simp only [Shared.record,List.getD_eq_getElem?_getD,List.getElem?_append_left (List.getElem?_eq_some_iff.mp here).1]

theorem viewsSame (views : Views m keys) (same : m'.keys = m.keys) (made : m'.made = m.made) : Views m' keys := by
  intro id
  rw [same,made]
  exact views id

theorem viewsAdd (views : Views m keys) (shared : Shared) :
    Views {m with keys := m.keys.insert shared.metadata.id shared} (keys.addKey (shared.record m.made)) := by
  intro id
  simp only [KeyRegistry.addKey]
  rw [Table.lookupInsert,Table.lookupInsert]
  by_cases same : id = shared.metadata.id
  · rw [if_pos same]
    exact if_pos same
  · rw [if_neg same]
    exact (if_neg same).trans (views id)

theorem registersAdd {i : Nat} {shared : Shared} (here : m.calls[i]? = some (.created shared)) :
    (Deed.addKey i).registers m keys = keys.addKey (shared.record m.made) := by
  unfold Deed.registers
  dsimp only
  rw [here]

theorem viewsReap (views : Views m keys) (now : Nat) :
    Views {m with keys := Table.retain (fun shared => decide (shared.metadata.deleteAfter > now)) m.keys} (keys.reap now) := by
  intro id
  rw [KeyRegistry.reap,Table.lookupRetain,Table.lookupRetain,views id]
  cases m.keys.lookup id with
  | none => rfl
  | some shared =>
    simp only [Option.map_some,Option.filter_some,Shared.record]
    split <;> rfl

theorem viewsStep {d : Deed} (held : Held c m) (views : Views m keys) (taken : m.step c d = some m') :
    Views m' (d.registers m keys) := by
  cases d with
  | newVault i mapped =>
    simp only [Memory.step] at taken
    split at taken <;> try contradiction
    rename_i order pubKey privKey here
    split at taken
    · cases Option.some.inj taken
      intro id
      refine (views id).trans ?_
      cases stored : m.keys.lookup id with
      | none => simp [Memory.put,Memory.free,stored]
      | some shared =>
        have kept := recordGrows (m.heap.getD privKey []) (held.records id shared stored)
        simp only [Memory.put,Memory.free,stored,Option.map_some,kept]
    · cases Option.some.inj taken
      exact viewsSame views rfl rfl
  | addKey i =>
    simp only [Memory.step] at taken
    split at taken <;> try contradiction
    rename_i shared here
    cases Option.some.inj taken
    rw [registersAdd here]
    exact viewsAdd views shared
  | removeKey gone =>
    have erased : Views {m with keys := m.keys.erase gone} (keys.removeKey gone).2 := by
      intro id
      simp only [KeyRegistry.removeKey,Table.lookupErase]
      by_cases same : id = gone
      · rw [if_pos same,if_pos same]
        rfl
      · rw [if_neg same,if_neg same]
        exact views id
    simp only [Memory.step] at taken
    split at taken
    · rename_i missing
      cases Option.some.inj taken
      intro id
      refine (erased id).trans ?_
      simp only [Table.lookupErase,Memory.begin]
      by_cases same : id = gone
      · rw [if_pos same,same,missing]
      · rw [if_neg same]
    · cases Option.some.inj taken
      exact viewsSame erased rfl rfl
  | removeAllKeys =>
    cases Option.some.inj taken
    intro id
    rfl
  | reap now =>
    simp only [Memory.step] at taken
    split at taken <;> try contradiction
    cases Option.some.inj taken
    exact viewsSame (viewsReap views now) rfl rfl
  | generateKeypair order seed capacity =>
    simp only [Memory.step] at taken
    repeat' split at taken
    all_goals
      cases Option.some.inj taken
      exact viewsSame views rfl rfl
  | newRecord i id =>
    simp only [Memory.step] at taken
    split at taken <;> try contradiction
    split at taken <;> cases Option.some.inj taken <;> exact viewsSame views rfl rfl
  | getKey id =>
    simp only [Memory.step] at taken
    repeat' split at taken
    all_goals
      cases Option.some.inj taken
      exact viewsSame views rfl rfl
  | getPrivateKey i capacity =>
    simp only [Memory.step] at taken
    split at taken <;> try contradiction
    cases Option.some.inj taken
    exact viewsSame views rfl rfl
  | derive i data capacity =>
    simp only [Memory.step] at taken
    split at taken <;> try contradiction
    cases Option.some.inj taken
    exact viewsSame views rfl rfl
  | returns i =>
    simp only [Memory.step] at taken
    split at taken <;> try contradiction
    all_goals
      cases Option.some.inj taken
      exact viewsSame views rfl rfl
  | tick n =>
    cases Option.some.inj taken
    exact viewsSame views rfl rfl

/- In every run, whatever the calls, sweeps and their order: a vault has its private key as
long as anyone holds its record, and zeros from then on; heap memory that belongs to no
call in progress is zero; a call reads the key that its record was made with, destroyed
in the meantime or not; and the map is the registry of the other modules. -/
theorem privateKeysConfined {now : Nat} {ds : List Deed}
    (run : Steps (Memory.beside c) (Memory.initial now,∅) ds (m,keys)) :
    (∀ (v : Nat) cell, m.vaults[v]? = some cell → ∃ key, m.made[v]? = some key ∧
      (m.Referenced v → cell.value = key) ∧ (¬ m.Referenced v → cell.value = zeroize key)) ∧
    (∀ (a : Nat) bytes, m.heap[a]? = some bytes → (∀ stage ∈ m.calls, a ∉ stage.boxes) → ∀ b ∈ bytes, b = 0) ∧
    (∀ shared privKey derived, .reading shared privKey derived ∈ m.calls →
      m.heap[privKey]? = some (shared.record m.made).privateKey ∧ ∃ seed, Crypto.generateKeypair c .dhkemX25519HkdfSha256 seed =
        .ok (shared.metadata.spec.ownKey,(shared.record m.made).privateKey)) ∧
    ∀ id, keys.lookup id = (m.keys.lookup id).map (Shared.record m.made) := by
  have keeps : ∀ s d t, (Held c s.1 ∧ Views s.1 s.2) → True → Memory.beside c s d = some t →
      Held c t.1 ∧ Views t.1 t.2 := by
    rintro ⟨m,keys⟩ d t ⟨held,views⟩ _ taken
    obtain ⟨next,stepped,rfl⟩ := Option.map_eq_some_iff.mp taken
    exact ⟨heldStep held stepped,viewsStep held views stepped⟩
  obtain ⟨held,views⟩ := alongInvariant keeps run ⟨heldInitial c now,fun id => rfl⟩
  refine ⟨fun v cell here => ?_,fun a bytes here unowned => ?_,fun shared privKey derived mem => ?_,views⟩
  · have bound : v < m.made.length := held.sound.length ▸ (List.getElem?_eq_some_iff.mp here).1
    have written := List.getElem?_eq_getElem bound
    have value := held.sound.values v cell _ here written
    refine ⟨_,written,fun referenced => ?_,fun free => ?_⟩
    · rw [value,if_pos (memRefs.mpr referenced)]
    · rw [value,if_neg (fun mem => free (memRefs.mp mem))]
  · refine held.clean.rest a bytes here (fun mem => ?_)
    obtain ⟨stage,inside,box⟩ := List.mem_flatMap.mp mem
    exact unowned stage inside box
  · obtain ⟨paired,copy⟩ := held.stages _ mem
    obtain ⟨written,seed,pair⟩ := recordPaired paired
    exact ⟨copy.trans written,seed,pair⟩

end

def destroyedInUse : List Deed :=
  [.generateKeypair ⟨⟨1,1,1⟩,none,3600⟩ [5] 64,.newVault 0 true,.newRecord 0 7,.addKey 0,.getKey 7,.getPrivateKey 1 64,
    .derive 1 [9,9] 2,.removeKey 7,.returns 2]

theorem privateKeysConfinedInUse :
    let start := (Memory.initial 0,(∅ : KeyRegistry))
    let mid := (exec (Memory.beside Standin.bssl) start destroyedInUse).getD start
    let last := (exec (Memory.beside Standin.bssl) start (destroyedInUse ++ [.returns 1])).getD start
    mid.2.lookup 7 = none ∧ mid.1.vaults = [⟨Standin.pad32 [5],1⟩] ∧ last.1.vaults = [⟨List.replicate 32 0,0⟩] ∧
      ∀ bytes ∈ last.1.heap, ∀ b ∈ bytes, b = 0 := by
  intro start mid last
  have run : Steps (Memory.beside Standin.bssl) start (destroyedInUse ++ [.returns 1]) last :=
    stepsGetD (by decide +kernel)
  rw [← Prod.eta last] at run
  have idle : last.1.calls = [.done,.done,.done] := by decide +kernel
  obtain ⟨_,heap,_,_⟩ := privateKeysConfined run
  refine ⟨by decide +kernel,by decide +kernel,by decide +kernel,fun bytes mem => ?_⟩
  obtain ⟨a,here⟩ := List.getElem?_of_mem mem
  refine heap a bytes here (fun stage call => ?_)
  rw [idle] at call
  simp only [List.mem_cons,List.not_mem_nil,or_false,or_self] at call
  subst call
  simp [CustodyStage.boxes]

end KeyProtection
