import KeyProtection.Custody

/-! Pages of EnumerateKEMKeys over a registry that stands still. One call shows a segment of
the live keys in (created_at, id) order, and calls at offsets that advance by the number
of keys returned show all of them, each once. -/
namespace KeyProtection
open Lib Lib.Run KeyRegistry

def Before (a b : KeyRecord) : Prop :=
  a.metadata.createdAt < b.metadata.createdAt ∨ (a.metadata.createdAt = b.metadata.createdAt ∧ a.id < b.id)

theorem beforeOrder {a b : KeyRecord} (sorted : pageOrder a b = true) (distinct : a.id ≠ b.id) : Before a b := by
  simp only [pageOrder,Bool.or_eq_true,Bool.and_eq_true,decide_eq_true_eq,beq_iff_eq] at sorted
  rcases sorted with earlier | ⟨tie,ids⟩
  · exact .inl earlier
  · exact .inr ⟨tie,BitVec.lt_of_le_ne ids distinct⟩

theorem sortedLiveOrder (keys : KeyRegistry) (now : Nat) :
    (sortedLive keys now).Pairwise (fun a b => pageOrder a b) :=
  List.pairwise_mergeSort RegistryTtl.pageOrderTrans RegistryTtl.pageOrderTotal _

theorem liveDistinct {keys : KeyRegistry} (keyed : Keyed keys) (now : Nat) :
    (sortedLive keys now).Pairwise (fun a b => a.id ≠ b.id) := by
  refine (RegistryTtl.sortedLiveNodup keyed now).imp_of_mem (fun inLeft inRight different same => ?_)
  have left := (RegistryTtl.memSortedLive keyed).mp inLeft
  have right := (RegistryTtl.memSortedLive keyed).mp inRight
  rw [same] at left
  exact different (Option.some.inj (left.symm.trans right))

theorem sortedLiveBefore {keys : KeyRegistry} (keyed : Keyed keys) (now : Nat) :
    (sortedLive keys now).Pairwise Before :=
  ((sortedLiveOrder keys now).and (liveDistinct keyed now)).imp (fun both => beforeOrder both.1 both.2)

def rank (keys : KeyRegistry) (now : Nat) (record : KeyRecord) : Nat := (sortedLive keys now).idxOf record

theorem rankBeyond {keys : KeyRegistry} (keyed : Keyed keys) (now n : Nat) :
    (∃ record ∈ sortedLive keys now, n ≤ rank keys now record) ↔ n < (sortedLive keys now).length := by
  constructor
  · intro beyond
    obtain ⟨record,live,past⟩ := beyond
    exact Nat.lt_of_le_of_lt past (List.idxOf_lt_length_of_mem live)
  · intro more
    refine ⟨(sortedLive keys now)[n],List.getElem_mem more,?_⟩
    rw [rank,(RegistryTtl.sortedLiveNodup keyed now).idxOf_getElem]

namespace KpsCore

def infoOf (info : KeyMetadata) (now : Nat) : KEMKeyInfo :=
  ⟨info.id,info.spec.algo,info.spec.ownKey.bytes,remainingSecs info.deleteAfter now⟩

def KEMKeyInfo.shown (info : KEMKeyInfo) : Uuid × HpkeAlgorithm × Bytes := (info.id,info.algorithm,info.kemPubKey)

def shownAs (record : KeyRecord) : Uuid × HpkeAlgorithm × Bytes :=
  (record.id,record.metadata.spec.algo,record.metadata.spec.ownKey.bytes)

variable {x : Externals} {keys : KeyRegistry}

theorem copyIntoTake (array bytes : Bytes) : (copyInto array bytes).take bytes.length = bytes := by
  simp [copyInto]

theorem readsEntries (laws : x.Lawful) (readings : Nat → Nat) (index : Nat) (metas : List KeyMetadata) :
    readEntries x index (metas.mapIdx (fun i info => entryOf x info (readings i))) =
      .ok (metas.mapIdx (fun i info => infoOf info (readings i))) := by
  induction metas generalizing readings index with
  | nil => rfl
  | cons info metas ih =>
    have rest := ih (fun n => readings (n+1)) (index+1)
    simp only [List.mapIdx_cons,readEntries,entryOf,copyIntoTake,laws.decodes] at rest ⊢
    simp only [rest,bind,Except.bind,infoOf]

theorem shownPage (readings : Nat → Nat) (now offset limit : Nat) :
    ((pageOf keys now offset limit).mapIdx (fun i info => infoOf info (readings i))).map KEMKeyInfo.shown =
      (((sortedLive keys now).drop offset).take limit).map shownAs := by
  simp only [pageOf,listAllKeys]
  generalize ((sortedLive keys now).drop offset).take limit = page
  induction page generalizing readings with
  | nil => rfl
  | cons record page ih =>
    have rest := ih (fun n => readings (n+1))
    simp only [List.map_cons,List.mapIdx_cons] at rest ⊢
    rw [rest]
    rfl

theorem enumeratesPage (laws : x.Lawful) (kinds : Homogeneous KemRecord keys) (now : Nat) (readings : Nat → Nat)
    {limit offset : Int32} (positive : 0 < limit) (given : 0 ≤ offset) :
    ∃ page, enumerateKEMKeys x keys now readings limit offset =
        .ok (page,decide (offset.toInt.toNat + page.length < (sortedLive keys now).length)) ∧
      page.length = min limit.toInt.toNat ((sortedLive keys now).length - offset.toInt.toNat) ∧
      page.map KEMKeyInfo.shown =
        (((sortedLive keys now).drop offset.toInt.toNat).take limit.toInt.toNat).map shownAs := by
  have limitWord := Int32.toInt_lt limit
  have offsetWord := Int32.toInt_lt offset
  have size := pageLength keys now offset.toInt.toNat limit.toInt.toNat
  have called := enumerateCalled readings (fillsPage laws kinds now offset.toInt.toNat limit.toInt.toNat)
    (List.length_replicate (a := KpsKeyInfo.zero)) (some false)
  -- The page is no longer than the limit, so neither the cast nor the sum overflows.
  rw [countFits (by omega),Nat.mod_eq_of_lt (by omega)] at called
  have shown := @shownPage keys readings now offset.toInt.toNat limit.toInt.toNat
  simp only [enumerateKEMKeys,if_neg (Int32.not_le.mpr positive),if_neg (Int32.not_lt.mpr given),
    keyManagerEnumerateKemKeys,called]
  generalize pageOf keys now offset.toInt.toNat limit.toInt.toNat = page at size shown
  have nonneg : ¬ (page.length : Int) < 0 := by omega
  have cut := sliceToLeft (page.mapIdx (fun i info => entryOf x info (readings i)))
    ((List.replicate limit.toInt.toNat KpsKeyInfo.zero).drop page.length)
  rw [List.length_mapIdx] at cut
  refine ⟨page.mapIdx (fun i info => infoOf info (readings i)),?_,by rw [List.length_mapIdx,size],shown⟩
  simp only [if_neg nonneg,Option.getD_some,Int.toNat_natCast,cut,readsEntries laws,Option.map_some,bind,Except.bind,
    List.length_mapIdx]

/- The client's loop; `readings n` are the clock readings of its n-th call, and the fuel
bounds the number of calls. -/
def pageThrough (x : Externals) (keys : KeyRegistry) (now : Nat) (limit : Int32) (readings : Nat → Nat → Nat) :
    Nat → Int32 → Option (Go (List (List KEMKeyInfo)))
  | 0, _ => none
  | fuel+1, offset =>
    match enumerateKEMKeys x keys now (readings 0) limit offset with
    | .error fault => some (.error fault)
    | .ok (page,hasMore) =>
      if hasMore then
        (pageThrough x keys now limit (fun n => readings (n+1)) fuel (offset + Int32.ofNat page.length)).map
          (fun rest => rest.map (fun pages => page::pages))
      else some (.ok [page])

theorem offsetAdvances {offset : Int32} (given : 0 ≤ offset) {count : Nat} (bound : offset.toInt.toNat + count < 2^31) :
    0 ≤ offset + Int32.ofNat count ∧ (offset + Int32.ofNat count).toInt.toNat = offset.toInt.toNat + count := by
  have sign : 0 ≤ offset.toInt := Int32.le_iff_toInt_le.mp given
  have sum : (offset + Int32.ofNat count).toInt = offset.toInt + count := by
    rw [Int32.toInt_add,Int32.toInt_ofNat_of_lt (by omega)]
    exact Int.bmod_eq_of_le (by omega) (by omega)
  refine ⟨Int32.le_iff_toInt_le.mpr ?_,by omega⟩
  rw [sum]
  simp only [Int32.toInt_zero]
  omega

theorem pagesThrough (laws : x.Lawful) (kinds : Homogeneous KemRecord keys) {now : Nat}
    (few : (sortedLive keys now).length < 2^31) {limit : Int32} (positive : 0 < limit) (readings : Nat → Nat → Nat)
    {offset : Int32} (given : 0 ≤ offset) :
    ∃ pages, (∀ fuel, (sortedLive keys now).length < offset.toInt.toNat + fuel → 0 < fuel →
        pageThrough x keys now limit readings fuel offset = some (.ok pages)) ∧
      pages.flatten.map KEMKeyInfo.shown = ((sortedLive keys now).drop offset.toInt.toNat).map shownAs := by
  induction left : (sortedLive keys now).length - offset.toInt.toNat using Nat.strong_induction_on
    generalizing offset readings with
  | _ left ih =>
    obtain ⟨page,called,size,shown⟩ := enumeratesPage laws kinds now (readings 0) positive given
    have width : 0 < limit.toInt := Int32.lt_iff_toInt_lt.mp positive
    by_cases more : offset.toInt.toNat + page.length < (sortedLive keys now).length
    · obtain ⟨nonneg,advanced⟩ := offsetAdvances given (Nat.lt_trans more few)
      have full : page.length = limit.toInt.toNat := by omega
      obtain ⟨pages,ends,flat⟩ := ih _ (by omega) (fun n => readings (n+1)) nonneg rfl
      refine ⟨page::pages,fun fuel enough some => ?_,?_⟩
      · obtain ⟨fuel,rfl⟩ := Nat.exists_eq_succ_of_ne_zero (Nat.ne_of_gt some)
        simp only [pageThrough,called,decide_eq_true more,if_true,ends fuel (by omega) (by omega),Option.map_some,
          Except.map]
      · rw [List.flatten_cons,List.map_append,shown,flat,advanced,full,← List.map_append,← List.drop_drop,
          List.take_append_drop]
    · have last : ((sortedLive keys now).drop offset.toInt.toNat).length ≤ limit.toInt.toNat := by
        rw [List.length_drop]
        omega
      refine ⟨[page],fun fuel _ some => ?_,?_⟩
      · obtain ⟨fuel,rfl⟩ := Nat.exists_eq_succ_of_ne_zero (Nat.ne_of_gt some)
        simp only [pageThrough,called,decide_eq_false more]
        rfl
      · rw [List.flatten_singleton,shown,List.take_of_length_le last]

end KpsCore

/- The three parts: the loop ends and shows the live keys in order, each once; what one call
at any offset shows and says; and that the C interface never returns a count that could be
taken for a status. -/
theorem pagingComplete {x : Externals} (laws : x.Lawful) {s : Custody.Core} (reach : Custody.KpsReachable x s) (now : Nat)
    (few : (sortedLive s.keys now).length < 2^31) :
    ((∀ limit : Int32, 0 < limit → ∀ readings, ∃ pages,
        (∀ fuel, (sortedLive s.keys now).length < fuel →
          KpsCore.pageThrough x s.keys now limit readings fuel 0 = some (.ok pages)) ∧
        pages.flatten.map KpsCore.KEMKeyInfo.shown = (sortedLive s.keys now).map KpsCore.shownAs) ∧
      (sortedLive s.keys now).Pairwise Before ∧ ((sortedLive s.keys now).map KeyRecord.id).Nodup ∧
      (∀ record, record ∈ sortedLive s.keys now ↔ getKey s.keys now record.id = some record)) ∧
    (∀ limit offset : Int32, 0 < limit → 0 ≤ offset → ∀ readings, ∃ page hasMore,
      KpsCore.enumerateKEMKeys x s.keys now readings limit offset = .ok (page,hasMore) ∧
      page.map KpsCore.KEMKeyInfo.shown =
        (((sortedLive s.keys now).drop offset.toInt.toNat).take limit.toInt.toNat).map KpsCore.shownAs ∧
      (hasMore = true ↔
        ∃ record ∈ sortedLive s.keys now, offset.toInt.toNat + page.length ≤ rank s.keys now record)) ∧
    (∀ readings offset outHasMore, offset < 2^64 →
      (∀ entries : List KpsCore.KpsKeyInfo,
        (KpsCore.keyManagerEnumerateKemKeys x s.keys now readings (some entries) offset outHasMore).result =
          (pageOf s.keys now offset entries.length).length ∧
        offset + (pageOf s.keys now offset entries.length).length < 2^64) ∧
      (KpsCore.keyManagerEnumerateKemKeys x s.keys now readings none offset outHasMore).result < 0) := by
  have kinds := kpsHomogeneous laws reach
  refine ⟨⟨fun limit positive readings => ?_,sortedLiveBefore kinds.keyed now,?_,
    fun record => RegistryTtl.memSortedLive kinds.keyed⟩,fun limit offset positive given readings => ?_,
    fun readings offset outHasMore word => ⟨fun entries => ?_,?_⟩⟩
  · obtain ⟨pages,ends,flat⟩ := KpsCore.pagesThrough laws kinds few positive readings (Int32.le_refl 0)
    simp only [Int32.toInt_zero,Int.toNat_zero,List.drop_zero,Nat.zero_add] at ends flat
    exact ⟨pages,fun fuel enough => ends fuel enough (by omega),flat⟩
  · exact List.pairwise_map.mpr (liveDistinct kinds.keyed now)
  · obtain ⟨page,called,_,shown⟩ := KpsCore.enumeratesPage laws kinds now readings positive given
    refine ⟨page,_,called,shown,?_⟩
    rw [decide_eq_true_iff,rankBeyond kinds.keyed]
  · have called := enumerateCalled readings (KpsCore.fillsPage laws kinds now offset entries.length) rfl outHasMore
    have size := pageLength s.keys now offset entries.length
    refine ⟨?_,by omega⟩
    simp only [KpsCore.keyManagerEnumerateKemKeys,called]
    exact pageFits (.inl few) offset
  · show -(Status.invalidArgument.code : Int) < 0
    decide

theorem pagingCompleteThreeKeys :
    let keys := (Standin.crowd 3).keys
    (sortedLive keys 0).length = 3 ∧
    ∃ pages, KpsCore.pageThrough Standin.externals keys 0 2 (fun _ _ => 0) 4 0 = some (.ok pages) ∧
      pages.flatten.map KpsCore.KEMKeyInfo.shown = (sortedLive keys 0).map KpsCore.shownAs := by
  intro keys
  have three : (sortedLive keys 0).length = 3 := Standin.crowdLive (by omega)
  obtain ⟨⟨loops,_⟩,_⟩ := pagingComplete Standin.lawful (Standin.crowdReachable 3) 0 (by rw [three]; omega)
  obtain ⟨pages,ends,flat⟩ := loops 2 (by decide) (fun _ _ => 0)
  exact ⟨three,pages,ends 4 (by rw [three]; omega),flat⟩

end KeyProtection
