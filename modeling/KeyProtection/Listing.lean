import KeyProtection.Paging
import KeyProtection.Remote

/-! GET /v1/keys over either adapter. The handler asks for one page of at most 10000 keys and
drops the flag that says whether there are more, so its answer is the list of all active
keys only as long as they fit on that page. -/
namespace KeyProtection
open KeyRegistry

/- The two implementations of EnumerateKEMKeys that a server may be built with. -/
inductive Adapter where
  | inProcess
  | remote (order : RangeOrder)

def Adapter.enumerateKEMKeys (x : Externals) (keys : KeyRegistry) (now : Nat) (readings : Nat → Nat)
    (limit offset : Int32) : Adapter → Go (List KpsCore.KEMKeyInfo × Bool)
  | .inProcess => KpsCore.enumerateKEMKeys x keys now readings limit offset
  | .remote order => (RemoteKeyProtectionService.enumerateKEMKeys x order keys now readings limit offset).1

def handleEnumerateKeys (u : Setup) (adapter : Adapter) (keys : KeyRegistry) (now : Nat) (readings : Nat → Nat) : Answer :=
  enumerateAnswer u (adapter.enumerateKEMKeys u.x keys now readings defaultEnumerateLimit 0)

def KeyInfo.Describes (info : KeyInfo) (record : KeyRecord) : Prop :=
  info.handle = uuidString record.id ∧ info.kemId = record.metadata.spec.algo.kem ∧
  info.publicKey = record.metadata.spec.ownKey.bytes

structure ListsAll (keys : KeyRegistry) (now : Nat) (infos : List KeyInfo) : Prop where
  complete : ∀ id record, getKey keys now id = some record → ∃ info ∈ infos, info.Describes record
  nothingElse : ∀ info ∈ infos, ∃ id record, getKey keys now id = some record ∧ info.Describes record
  distinct : (infos.map KeyInfo.handle).Nodup

theorem uuidStringInjective {x : Externals} (laws : x.Lawful) {a b : Uuid} (same : uuidString a = uuidString b) : a = b := by
  have parsed := laws.parses a
  rw [same,laws.parses b] at parsed
  exact (Except.ok.inj parsed).symm

def KeyInfo.of (u : Setup) (record : KeyRecord) : KeyInfo :=
  ⟨uuidString record.id,record.metadata.spec.algo.kem,record.metadata.spec.ownKey.bytes,u.mechanism.string⟩

section
variable {u : Setup} {keys : KeyRegistry}

theorem answersFirstPage (laws : u.x.Lawful) (kinds : Homogeneous KemRecord keys) (adapter : Adapter) (now : Nat)
    (readings : Nat → Nat) :
    handleEnumerateKeys u adapter keys now readings =
      .http 200 (.keys (((sortedLive keys now).take 10000).map (KeyInfo.of u))) := by
  have positive : (0 : Int32) < defaultEnumerateLimit := by decide
  obtain ⟨page,called,size,shown⟩ := KpsCore.enumeratesPage laws kinds now readings positive (Int32.le_refl 0)
  have both : adapter.enumerateKEMKeys u.x keys now readings defaultEnumerateLimit 0 =
      KpsCore.enumerateKEMKeys u.x keys now readings defaultEnumerateLimit 0 := by
    cases adapter with
    | inProcess => rfl
    | remote order =>
      simp only [Adapter.enumerateKEMKeys]
      rw [RemoteKeyProtectionService.enumerateRemotely order keys now laws readings positive (by decide) (by decide),
        called]
      rfl
  have entries := congrArg (List.map (fun key : Uuid × HpkeAlgorithm × Bytes =>
    KeyInfo.mk (uuidString key.1) key.2.1.kem key.2.2 u.mechanism.string)) shown
  rw [List.map_map,List.map_map] at entries
  rw [handleEnumerateKeys,both,called]
  exact congrArg (fun infos => Answer.http 200 (.keys infos)) entries

theorem pageListsAll (laws : u.x.Lawful) (keyed : Keyed keys) (now n : Nat) :
    ListsAll keys now (((sortedLive keys now).take n).map (KeyInfo.of u)) ↔ (sortedLive keys now).length ≤ n := by
  have handles : ((sortedLive keys now).map (fun record => uuidString record.id)).Nodup :=
    List.pairwise_map.mpr ((liveDistinct keyed now).imp (fun different same => different (uuidStringInjective laws same)))
  constructor
  · intro lists
    have inside : (sortedLive keys now).map (fun record => uuidString record.id) ⊆
        (((sortedLive keys now).take n).map (KeyInfo.of u)).map KeyInfo.handle := by
      intro handle mem
      obtain ⟨record,live,same⟩ := List.mem_map.mp mem
      obtain ⟨info,listed,described⟩ := lists.complete _ record ((RegistryTtl.memSortedLive keyed).mp live)
      exact List.mem_map.mpr ⟨info,listed,described.1.trans same⟩
    have bound := (List.subperm_of_subset handles inside).length_le
    simp only [List.length_map,List.length_take] at bound
    omega
  · intro few
    rw [List.take_of_length_le few]
    refine ⟨fun id record found => ?_,fun info mem => ?_,?_⟩
    · have same : record.id = id := keyed id record (getKeyIff.mp found).1
      exact ⟨KeyInfo.of u record,List.mem_map_of_mem ((RegistryTtl.memSortedLive keyed).mpr (same ▸ found)),rfl,rfl,rfl⟩
    · obtain ⟨record,live,same⟩ := List.mem_map.mp mem
      exact ⟨record.id,record,(RegistryTtl.memSortedLive keyed).mp live,same ▸ ⟨rfl,rfl,rfl⟩⟩
    · rw [List.map_map]
      exact handles

end

theorem listingComplete {u : Setup} (laws : u.x.Lawful) {s : Custody.Core} (reach : Custody.KpsReachable u.x s)
    (adapter : Adapter) (now : Nat) (readings : Nat → Nat) :
    ∃ infos, handleEnumerateKeys u adapter s.keys now readings = .http 200 (.keys infos) ∧
      (ListsAll s.keys now infos ↔ (sortedLive s.keys now).length ≤ 10000) := by
  have kinds := kpsHomogeneous laws reach
  exact ⟨_,answersFirstPage laws kinds adapter now readings,pageListsAll laws kinds.keyed now 10000⟩

theorem listingComplete150 :
    (sortedLive (Standin.crowd 150).keys 0).length = 150 ∧
    ∃ infos, handleEnumerateKeys Standin.setup (.remote Standin.order) (Standin.crowd 150).keys 0 (fun _ => 0) =
      .http 200 (.keys infos) ∧ ListsAll (Standin.crowd 150).keys 0 infos := by
  have live : (sortedLive (Standin.crowd 150).keys 0).length = 150 := Standin.crowdLive (by omega)
  obtain ⟨infos,answered,all⟩ := @listingComplete Standin.setup Standin.lawful (Standin.crowd 150)
    (Standin.crowdReachable 150) (.remote Standin.order) 0 (fun _ => 0)
  exact ⟨live,infos,answered,all.mpr (by omega)⟩

theorem listingMissesKey :
    Custody.KpsReachable Standin.externals (Standin.crowd 10001) ∧
    ∃ infos, handleEnumerateKeys Standin.setup .inProcess (Standin.crowd 10001).keys 0 (fun _ => 0) =
      .http 200 (.keys infos) ∧ ¬ ListsAll (Standin.crowd 10001).keys 0 infos := by
  have reach := Standin.crowdReachable 10001
  have kinds := kpsHomogeneous Standin.lawful reach
  have live : (sortedLive (Standin.crowd 10001).keys 0).length = 10001 := Standin.crowdLive (by omega)
  refine ⟨reach,_,@answersFirstPage Standin.setup _ Standin.lawful kinds .inProcess 0 (fun _ => 0),fun all => ?_⟩
  have few := (@pageListsAll Standin.setup _ Standin.lawful kinds.keyed 0 10000).mp all
  omega

end KeyProtection
