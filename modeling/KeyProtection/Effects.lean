import KeyProtection.Custody

/-! What calls of the two C interfaces leave behind. A key generation compares the size of
its public key buffer after the key has been stored, so one that is refused for it leaves a
key that its caller cannot name. No call that reports a failure has written to its
buffers. -/
namespace KeyProtection
open Lib Lib.Run KeyRegistry

/-! Key generation and the registry. -/

def Atomic (keys : KeyRegistry) (out : KeypairOut) : Prop :=
  (out.status ≠ .success → ∀ id, out.keys.lookup id = keys.lookup id) ∧
  (out.status = .success → ∃ record, keys.lookup record.id = none ∧
    (∀ id, out.keys.lookup id = if id = record.id then some record else keys.lookup id) ∧
    out.outUuid = some record.id ∧ out.outPubkey = some record.metadata.spec.ownKey.bytes)

def Accepts (x : Externals) (now : Nat) (entropy : Entropy) (algoPtr : Option Bytes) (expirySecs : UInt64) : Prop :=
  (∃ algoSlice suite, algoPtr = some algoSlice ∧ algoSlice ≠ [] ∧ x.decode algoSlice = .ok suite ∧ suite.Supported) ∧
  entropy.vault = true ∧ (checkedAdd now expirySecs).isSome

def Misfit (outUuid : Option Uuid) (outPubkey : Option Bytes) : Prop :=
  outUuid.isSome ∧ ∃ slice, outPubkey = some slice ∧ slice.length ≠ 32

section
variable {x : Externals} {keys : KeyRegistry} {now : Nat} {entropy : Entropy} {expirySecs : UInt64}
  {algoPtr bindingPubkey : Option Bytes} {outUuid : Option Uuid} {outPubkey : Option Bytes}

theorem issuedAtomic {makes : KeyRecord → PublicKey → Prop} {out : KeypairOut}
    (issued : Issued keys outUuid outPubkey makes out)
    (fresh : ∀ record pubKey, makes record pubKey →
      keys.lookup record.id = none ∧ record.metadata.spec.ownKey = pubKey) :
    Atomic keys out ↔ ¬ ((∃ record pubKey, makes record pubKey) ∧ ∃ slice, outPubkey = some slice ∧ slice.length ≠ 32) := by
  cases issued with
  | refused failure unmade =>
    refine ⟨fun _ left => ?_,fun _ => ⟨fun _ id => rfl,fun success => absurd success failure⟩⟩
    obtain ⟨⟨record,pubKey,made⟩,_⟩ := left
    exact unmade record pubKey made
  | @stored record pubKey slice made buffer fits =>
    obtain ⟨new,own⟩ := fresh record pubKey made
    refine ⟨fun _ left => ?_,fun _ => ⟨fun failure => absurd rfl failure,fun _ => ?_⟩⟩
    · obtain ⟨_,other,same,size⟩ := left
      cases Option.some.inj (buffer.symm.trans same)
      exact size fits
    · exact ⟨record,new,fun id => Table.lookupInsert keys record.id record id,rfl,by rw [own]⟩
  | @stranded record pubKey slice made buffer size =>
    obtain ⟨new,_⟩ := fresh record pubKey made
    refine ⟨fun atomic => ?_,fun kept => absurd ⟨⟨record,pubKey,made⟩,slice,buffer,size⟩ kept⟩
    -- The new record is there, although the call has failed.
    have there := atomic.1 (by simp) record.id
    rw [addKey,Table.lookupInsert,if_pos (show record.id = record.metadata.id from rfl),new] at there
    contradiction

theorem kemMakes (laws : x.Lawful) :
    (∃ record pubKey, KpsCore.Makes x now entropy expirySecs algoPtr bindingPubkey outUuid outPubkey record pubKey) ↔
      Accepts x now entropy algoPtr expirySecs ∧ (∃ key, bindingPubkey = some key ∧ key.length = 32) ∧
        outUuid.isSome ∧ outPubkey.isSome := by
  constructor
  · intro makes
    obtain ⟨record,pubKey,made⟩ := makes
    cases made with
    | @mk algoSlice suite bindingKey _ _ _ _ given decoded created spec =>
      obtain ⟨_,fixed,_⟩ := KeyRecord.createdKem created
      exact ⟨⟨⟨algoSlice,suite,rfl,given,decoded,fixed.suite⟩,fixed.vault,by rw [fixed.deadline]; rfl⟩,
        ⟨bindingKey.bytes,rfl,bindingKey.size⟩,rfl,rfl⟩
  · intro accepted
    obtain ⟨⟨⟨algoSlice,suite,rfl,given,decoded,supported⟩,vault,deadline⟩,⟨key,rfl,size⟩,uuid,buffer⟩ := accepted
    obtain ⟨uuid,rfl⟩ := Option.isSome_iff_exists.mp uuid
    obtain ⟨slice,rfl⟩ := Option.isSome_iff_exists.mp buffer
    obtain ⟨deleteAfter,bounded⟩ := Option.isSome_iff_exists.mp deadline
    obtain ⟨record,made⟩ := KeyRecord.createsInternal laws.bssl supported
      (fun algo pubKey => .kemWithBindingPub algo pubKey ⟨key,size⟩) vault bounded
    have created : KeyRecord.createBoundKemKey x.bssl suite ⟨key,size⟩ expirySecs entropy now = .ok record := by
      simp only [KeyRecord.createBoundKemKey,supported.1]
      exact made
    obtain ⟨pubKey,_,spec⟩ := KeyRecord.createdKem created
    exact ⟨record,pubKey,@KpsCore.Makes.mk _ _ _ _ _ _ ⟨key,size⟩ _ _ _ _ given decoded created spec⟩

theorem bindingMakes (laws : x.Lawful) :
    (∃ record pubKey, WsCore.Makes x now entropy expirySecs algoPtr outUuid outPubkey record pubKey) ↔
      Accepts x now entropy algoPtr expirySecs ∧ outUuid.isSome ∧ outPubkey.isSome := by
  constructor
  · intro makes
    obtain ⟨record,pubKey,made⟩ := makes
    cases made with
    | @mk algoSlice suite _ _ _ _ given decoded created spec =>
      obtain ⟨_,fixed,_⟩ := KeyRecord.createdBinding created
      exact ⟨⟨⟨algoSlice,suite,rfl,given,decoded,fixed.suite⟩,fixed.vault,by rw [fixed.deadline]; rfl⟩,rfl,rfl⟩
  · intro accepted
    obtain ⟨⟨⟨algoSlice,suite,rfl,given,decoded,supported⟩,vault,deadline⟩,uuid,buffer⟩ := accepted
    obtain ⟨uuid,rfl⟩ := Option.isSome_iff_exists.mp uuid
    obtain ⟨slice,rfl⟩ := Option.isSome_iff_exists.mp buffer
    obtain ⟨deleteAfter,bounded⟩ := Option.isSome_iff_exists.mp deadline
    obtain ⟨record,created⟩ := KeyRecord.createsInternal laws.bssl supported
      (fun algo pubKey => .binding algo pubKey) vault bounded
    obtain ⟨pubKey,_,spec⟩ := KeyRecord.createdBinding created
    exact ⟨record,pubKey,.mk given decoded created spec⟩

theorem generationAtomic (laws : x.Lawful) (keys : KeyRegistry) (fresh : keys.lookup entropy.uuid = none) (now : Nat)
    (expirySecs : UInt64) (algoPtr bindingPubkey : Option Bytes) (outUuid : Option Uuid) (outPubkey : Option Bytes) :
    (Atomic keys (KpsCore.keyManagerGenerateKemKeypair x keys now entropy algoPtr bindingPubkey expirySecs outUuid
        outPubkey) ↔
      ¬ (Accepts x now entropy algoPtr expirySecs ∧ (∃ key, bindingPubkey = some key ∧ key.length = 32) ∧
        Misfit outUuid outPubkey)) ∧
    (Atomic keys (WsCore.keyManagerGenerateBindingKeypair x keys now entropy algoPtr expirySecs outUuid outPubkey) ↔
      ¬ (Accepts x now entropy algoPtr expirySecs ∧ Misfit outUuid outPubkey)) := by
  constructor
  · rw [issuedAtomic (KpsCore.issuedKem x keys now entropy algoPtr bindingPubkey expirySecs outUuid outPubkey),
      kemMakes laws]
    · refine not_congr ⟨fun left => ?_,fun left => ?_⟩
      · obtain ⟨⟨accepted,key,uuid,_⟩,misfit⟩ := left
        exact ⟨accepted,key,uuid,misfit⟩
      · obtain ⟨accepted,key,uuid,slice,buffer,size⟩ := left
        exact ⟨⟨accepted,key,uuid,by rw [buffer]; rfl⟩,slice,buffer,size⟩
    · intro record pubKey made
      cases made with
      | mk given decoded created spec =>
        obtain ⟨_,fixed,_⟩ := KeyRecord.createdKem created
        exact ⟨fixed.id ▸ fresh,by rw [spec]; rfl⟩
  · rw [issuedAtomic (WsCore.issuedBinding x keys now entropy algoPtr expirySecs outUuid outPubkey),bindingMakes laws]
    · refine not_congr ⟨fun left => ?_,fun left => ?_⟩
      · obtain ⟨⟨accepted,uuid,_⟩,misfit⟩ := left
        exact ⟨accepted,uuid,misfit⟩
      · obtain ⟨accepted,uuid,slice,buffer,size⟩ := left
        exact ⟨⟨accepted,uuid,by rw [buffer]; rfl⟩,slice,buffer,size⟩
    · intro record pubKey made
      cases made with
      | mk given decoded created spec =>
        obtain ⟨_,fixed,_⟩ := KeyRecord.createdBinding created
        exact ⟨fixed.id ▸ fresh,by rw [spec]; rfl⟩

end

namespace Standin

def suiteBytes : Option Bytes := some [8,1,16,1,24,1]

def generateKem (keys : KeyRegistry) (pubkeyLen : Nat) : KeypairOut :=
  KpsCore.keyManagerGenerateKemKeypair externals keys 0 (entropy 2) suiteBytes (some (pad32 [7])) 3600 (some 0)
    (some (List.replicate pubkeyLen 0))

def generateBinding (keys : KeyRegistry) (pubkeyLen : Nat) : KeypairOut :=
  WsCore.keyManagerGenerateBindingKeypair externals keys 0 (entropy 2) suiteBytes 3600 (some 0)
    (some (List.replicate pubkeyLen 0))

theorem fits : ¬ Misfit (some 0) (some (List.replicate 32 0)) := by
  intro misfit
  obtain ⟨_,slice,same,size⟩ := misfit
  cases Option.some.inj same
  exact size (by decide)

end Standin

theorem generationAtomicSecondKey :
    let kps := (Standin.kpsAfter [Standin.makeKem 1 32]).keys
    let ws := (Standin.wsAfter [Standin.makeBinding 1 32]).keys
    kps.lookup 2 = none ∧ ws.lookup 2 = none ∧ (Standin.generateKem kps 32).status = .success ∧
    (Standin.generateBinding ws 32).status = .success ∧
    Atomic kps (Standin.generateKem kps 32) ∧ Atomic ws (Standin.generateBinding ws 32) := by
  intro kps ws
  have kpsFresh : kps.lookup (Standin.entropy 2).uuid = none := by decide +kernel
  have wsFresh : ws.lookup (Standin.entropy 2).uuid = none := by decide +kernel
  exact ⟨kpsFresh,wsFresh,by decide +kernel,by decide +kernel,
    (generationAtomic Standin.lawful kps kpsFresh 0 3600 Standin.suiteBytes (some (Standin.pad32 [7])) (some 0)
      (some (List.replicate 32 0))).1.mpr (fun strands => Standin.fits strands.2.2),
    (generationAtomic Standin.lawful ws wsFresh 0 3600 Standin.suiteBytes none (some 0)
      (some (List.replicate 32 0))).2.mpr (fun strands => Standin.fits strands.2)⟩

theorem misfitStrandsKey :
    (Standin.generateKem ∅ 40).status = .invalidArgument ∧ ((Standin.generateKem ∅ 40).keys.lookup 2).isSome ∧
    ¬ Atomic ∅ (Standin.generateKem ∅ 40) ∧
    (Standin.generateBinding ∅ 40).status = .invalidArgument ∧ ((Standin.generateBinding ∅ 40).keys.lookup 2).isSome ∧
    ¬ Atomic ∅ (Standin.generateBinding ∅ 40) := by
  have kem : (Standin.generateKem ∅ 40).status = .invalidArgument ∧
      ((Standin.generateKem ∅ 40).keys.lookup 2).isSome := by decide +kernel
  have binding : (Standin.generateBinding ∅ 40).status = .invalidArgument ∧
      ((Standin.generateBinding ∅ 40).keys.lookup 2).isSome := by decide +kernel
  refine ⟨kem.1,kem.2,fun atomic => ?_,binding.1,binding.2,fun atomic => ?_⟩
  · have same := atomic.1 (by rw [kem.1]; decide) 2
    rw [same] at kem
    simp at kem
  · have same := atomic.1 (by rw [binding.1]; decide) 2
    rw [same] at binding
    simp at binding

/-! Failed calls and the caller's buffers. -/

def KeypairOut.Untouched (out : KeypairOut) (outUuid : Option Uuid) (outPubkey : Option Bytes) : Prop :=
  out.status ≠ .success → out.outUuid = outUuid ∧ out.outPubkey = outPubkey

def EnumerateOut.Untouched {ε : Type} (out : EnumerateOut ε) (outEntries : Option (List ε))
    (outHasMore : Option Bool) : Prop :=
  out.result < 0 → out.outEntries = outEntries ∧ out.outHasMore = outHasMore

theorem issuedUntouched {keys : KeyRegistry} {outUuid : Option Uuid} {outPubkey : Option Bytes}
    {makes : KeyRecord → PublicKey → Prop} {out : KeypairOut} (issued : Issued keys outUuid outPubkey makes out) :
    out.Untouched outUuid outPubkey := by
  cases issued with
  | refused failure unmade => exact fun _ => ⟨rfl,rfl⟩
  | stored made buffer fits => exact fun failure => absurd rfl failure
  | stranded made buffer size => exact fun _ => ⟨rfl,rfl⟩

section
variable {ε : Type} {fill : KeyMetadata → Nat → Rust ε} {f : KeyMetadata → Nat → ε} {keys : KeyRegistry}

theorem enumerateUntouched {now : Nat}
    (fills : ∀ offset limit, ∀ info ∈ pageOf keys now offset limit, ∀ now', fill info now' = .ok (f info now'))
    (readings : Nat → Nat) (outEntries : Option (List ε)) (offset : Nat) (outHasMore : Option Bool)
    (few : FewLive keys now ∨ ∀ entries, outEntries = some entries → entries.length < 2^31) :
    (keyManagerEnumerate fill keys now readings outEntries offset outHasMore).Untouched outEntries outHasMore := by
  intro failure
  cases outEntries with
  | none => exact ⟨rfl,rfl⟩
  | some entries =>
    have counted := (enumerateCounts readings (fills offset entries.length) outHasMore).2
      (few.imp_right (fun short => short entries rfl))
    omega

end

namespace KpsCore

def SealOut.Untouched (out : SealOut) (outEncapsulatedKey outCiphertext : Option Bytes) : Prop :=
  out.status ≠ .success → out.outEncapsulatedKey = outEncapsulatedKey ∧ out.outCiphertext = outCiphertext

def KemInfoOut.Untouched (out : KemInfoOut) (outKemPubkey outBindingPubkey outAlgo : Option Bytes)
    (outAlgoLen outRemainingLifespanSecs : Option Nat) : Prop :=
  out.status ≠ .success → out.outKemPubkey = outKemPubkey ∧ out.outBindingPubkey = outBindingPubkey ∧
    out.outAlgo = outAlgo ∧ out.outAlgoLen = outAlgoLen ∧ out.outRemainingLifespanSecs = outRemainingLifespanSecs

variable (x : Externals) (keys : KeyRegistry)

theorem sealUntouched (now : Nat) (entropy : Bytes) (uuidBytes : Option Uuid)
    (encapsulatedKey aad outEncapsulatedKey outCiphertext : Option Bytes) :
    (keyManagerDecapAndSeal x keys now entropy uuidBytes encapsulatedKey aad outEncapsulatedKey
      outCiphertext).Untouched outEncapsulatedKey outCiphertext := by
  unfold keyManagerDecapAndSeal
  simp only
  split
  · split
    · exact fun _ => ⟨rfl,rfl⟩
    split
    · exact fun _ => ⟨rfl,rfl⟩
    · exact fun failure => absurd rfl failure
  · exact fun _ => ⟨rfl,rfl⟩

theorem kemInfoUntouched (now later : Nat) (uuidBytes : Option Uuid)
    (outKemPubkey outBindingPubkey outAlgo : Option Bytes) (outAlgoLen outRemainingLifespanSecs : Option Nat) :
    (keyManagerGetKemKey x keys now later uuidBytes outKemPubkey outBindingPubkey outAlgo outAlgoLen
      outRemainingLifespanSecs).Untouched outKemPubkey outBindingPubkey outAlgo outAlgoLen
      outRemainingLifespanSecs := by
  unfold keyManagerGetKemKey
  simp only
  split
  · split
    · exact fun _ => ⟨rfl,rfl,rfl,rfl,rfl⟩
    split
    · exact fun _ => ⟨rfl,rfl,rfl,rfl,rfl⟩
    split
    · exact fun _ => ⟨rfl,rfl,rfl,rfl,rfl⟩
    · exact fun failure => absurd rfl failure
  · exact fun _ => ⟨rfl,rfl,rfl,rfl,rfl⟩

end KpsCore

namespace WsCore

def OpenOut.Untouched (out : OpenOut) (outPlaintext : Option Bytes) : Prop :=
  out.status ≠ .success → out.outPlaintext = outPlaintext

def BindingOut.Untouched (out : BindingOut) (outPubkey outAlgo : Option Bytes) (outAlgoLen : Option Nat) : Prop :=
  out.status ≠ .success → out.outPubkey = outPubkey ∧ out.outAlgo = outAlgo ∧ out.outAlgoLen = outAlgoLen

variable (x : Externals) (keys : KeyRegistry)

theorem openUntouched (now : Nat) (uuidBytes : Option Uuid) (enc ciphertext aad outPlaintext : Option Bytes) :
    (keyManagerOpen x keys now uuidBytes enc ciphertext aad outPlaintext).Untouched outPlaintext := by
  unfold keyManagerOpen
  simp only
  split
  · split
    · exact fun _ => rfl
    split
    · exact fun _ => rfl
    split
    · exact fun _ => rfl
    · exact fun failure => absurd rfl failure
  · exact fun _ => rfl

theorem bindingInfoUntouched (now : Nat) (uuidBytes : Option Uuid) (outPubkey outAlgo : Option Bytes)
    (outAlgoLen : Option Nat) :
    (keyManagerGetBindingKey x keys now uuidBytes outPubkey outAlgo outAlgoLen).Untouched outPubkey outAlgo
      outAlgoLen := by
  unfold keyManagerGetBindingKey
  simp only
  split
  · split
    · exact fun _ => ⟨rfl,rfl,rfl⟩
    split
    · exact fun _ => ⟨rfl,rfl,rfl⟩
    split
    · exact fun _ => ⟨rfl,rfl,rfl⟩
    · exact fun failure => absurd rfl failure
  · exact fun _ => ⟨rfl,rfl,rfl⟩

end WsCore

/- A failed call leaves every output as it was. For the enumerations this rests on the bound
that their i32 result has anyway: no count is negative as long as fewer than 2^31 keys are
live or the array is shorter than that. -/
theorem failuresWriteNothing {x : Externals} (laws : x.Lawful) :
    (∀ s, Custody.KpsReachable x s →
      (∀ now entropy algoPtr bindingPubkey expirySecs outUuid outPubkey,
        (KpsCore.keyManagerGenerateKemKeypair x s.keys now entropy algoPtr bindingPubkey expirySecs outUuid
          outPubkey).Untouched outUuid outPubkey) ∧
      (∀ now entropy uuidBytes encapsulatedKey aad outEncapsulatedKey outCiphertext,
        (KpsCore.keyManagerDecapAndSeal x s.keys now entropy uuidBytes encapsulatedKey aad outEncapsulatedKey
          outCiphertext).Untouched outEncapsulatedKey outCiphertext) ∧
      (∀ now later uuidBytes outKemPubkey outBindingPubkey outAlgo outAlgoLen outRemainingLifespanSecs,
        (KpsCore.keyManagerGetKemKey x s.keys now later uuidBytes outKemPubkey outBindingPubkey outAlgo outAlgoLen
          outRemainingLifespanSecs).Untouched outKemPubkey outBindingPubkey outAlgo outAlgoLen
          outRemainingLifespanSecs) ∧
      (∀ now readings outEntries offset outHasMore,
        FewLive s.keys now ∨ (∀ entries, outEntries = some entries → entries.length < 2^31) →
        (KpsCore.keyManagerEnumerateKemKeys x s.keys now readings outEntries offset outHasMore).Untouched outEntries
          outHasMore)) ∧
    (∀ s, Custody.WsReachable x s →
      (∀ now entropy algoPtr expirySecs outUuid outPubkey,
        (WsCore.keyManagerGenerateBindingKeypair x s.keys now entropy algoPtr expirySecs outUuid outPubkey).Untouched
          outUuid outPubkey) ∧
      (∀ now uuidBytes enc ciphertext aad outPlaintext,
        (WsCore.keyManagerOpen x s.keys now uuidBytes enc ciphertext aad outPlaintext).Untouched outPlaintext) ∧
      (∀ now uuidBytes outPubkey outAlgo outAlgoLen,
        (WsCore.keyManagerGetBindingKey x s.keys now uuidBytes outPubkey outAlgo outAlgoLen).Untouched outPubkey outAlgo
          outAlgoLen) ∧
      (∀ now readings outEntries offset outHasMore,
        FewLive s.keys now ∨ (∀ entries, outEntries = some entries → entries.length < 2^31) →
        (WsCore.keyManagerEnumerateBindingKeys x s.keys now readings outEntries offset outHasMore).Untouched outEntries
          outHasMore)) := by
  constructor
  · intro s reach
    have kinds := kpsHomogeneous laws reach
    refine ⟨fun now entropy algoPtr bindingPubkey expirySecs outUuid outPubkey => issuedUntouched
      (KpsCore.issuedKem x s.keys now entropy algoPtr bindingPubkey expirySecs outUuid outPubkey),
      KpsCore.sealUntouched x s.keys,KpsCore.kemInfoUntouched x s.keys,fun now => ?_⟩
    exact enumerateUntouched (KpsCore.fillsPage laws kinds now)
  · intro s reach
    have kinds := wsHomogeneous laws reach
    refine ⟨fun now entropy algoPtr expirySecs outUuid outPubkey => issuedUntouched
      (WsCore.issuedBinding x s.keys now entropy algoPtr expirySecs outUuid outPubkey),
      WsCore.openUntouched x s.keys,WsCore.bindingInfoUntouched x s.keys,fun now => ?_⟩
    exact enumerateUntouched (WsCore.fillsPage laws kinds now)

theorem failuresWriteNothingTwoKeys :
    let kps := Standin.crowd 2
    let info := KpsCore.keyManagerGetKemKey Standin.externals kps.keys 0 0 (some 1) (some [5]) (some [6]) (some [7])
      (some 1) (some 9)
    let listed := KpsCore.keyManagerEnumerateKemKeys Standin.externals kps.keys 0 (fun _ => 0)
      (some (List.replicate 3 KpsCore.KpsKeyInfo.zero)) 0 (some true)
    info.status = .invalidArgument ∧ info.Untouched (some [5]) (some [6]) (some [7]) (some 1) (some 9) ∧
    (sortedLive kps.keys 0).length = 2 ∧ listed.Untouched (some (List.replicate 3 KpsCore.KpsKeyInfo.zero)) (some true) := by
  intro kps info listed
  obtain ⟨_,_,infos,lists⟩ := (failuresWriteNothing Standin.lawful).1 kps (Standin.crowdReachable 2)
  have live : (sortedLive kps.keys 0).length = 2 := Standin.crowdLive (by omega)
  have few : FewLive kps.keys 0 := by
    rw [FewLive,live]
    decide
  exact ⟨by decide +kernel,infos 0 0 (some 1) (some [5]) (some [6]) (some [7]) (some 1) (some 9),live,
    lists 0 (fun _ => 0) _ 0 _ (.inl few)⟩

end KeyProtection
