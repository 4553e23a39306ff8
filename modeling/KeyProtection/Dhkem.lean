import KeyProtection.Lib.Dhkem
import KeyProtection.Standin

/-! The two hand-written derivations of crypto/x25519.rs against the KEM of the standard.
The code is the scheme with KEM id 0x0020 over X25519 and HKDF-SHA256: the same bytes in
the same order, with a failure status wherever the scheme has no outcome. -/
namespace KeyProtection
open Lib.Dhkem (Scheme)

/- What the derivations rely on of bssl_crypto: public keys have 32 bytes, the exchange
commutes, and HKDF fills a 32-byte buffer. -/
structure Bssl.Exchanges (c : Bssl) : Prop where
  publicSize : ∀ sk, sk.length = 32 → (c.toPublic sk).length = 32
  exchange : ∀ a b, a.length = 32 → b.length = 32 →
    c.computeSharedKey a (c.toPublic b) = c.computeSharedKey b (c.toPublic a)
  expands : ∀ prk info, ∃ out, c.expandInto prk info 32 = some out ∧ out.length = 32

theorem lawfulExchanges {c : Bssl} (laws : c.Lawful) : c.Exchanges := ⟨laws.publicSize,laws.exchange,laws.expands⟩

def x25519HkdfSha256 (c : Bssl) : Scheme where
  kemId := 0x0020
  secretSize := 32
  privateSize := 32
  publicSize := 32
  toPublic := c.toPublic
  exchange := c.computeSharedKey
  extract salt ikm := c.extract ikm salt
  expand := c.expandInto

def orStatus {α : Type} (status : Status) : Option α → Rust α
  | some value => .ok value
  | none => .error (.err status)

namespace Crypto
variable {c : Bssl}

theorem schemeLawful (laws : c.Exchanges) : (x25519HkdfSha256 c).Lawful :=
  ⟨laws.publicSize,laws.exchange,laws.expands⟩

theorem sameSuite (c : Bssl) : suiteId = (x25519HkdfSha256 c).suiteId := by
  have closed : suiteId = Lib.Dhkem.octets "KEM" ++ Lib.Dhkem.i2osp 0x0020 2 := by decide +kernel
  exact closed

theorem sameVersion : ascii "HPKE-v1" = Lib.Dhkem.octets "HPKE-v1" := by decide +kernel

theorem toBeBytesOctets (len : UInt16) : toBeBytes len = Lib.Dhkem.i2osp len.toNat 2 := by
  simp [toBeBytes,Lib.Dhkem.i2osp,List.range_succ]

theorem labeledExtractMatches (c : Bssl) (salt label ikm : Bytes) :
    labeledExtract c salt label ikm suiteId = (x25519HkdfSha256 c).labeledExtract salt label ikm := by
  unfold labeledExtract Scheme.labeledExtract
  rw [sameSuite c,sameVersion]
  rfl

theorem labeledInfoMatches (c : Bssl) (label info : Bytes) (len : UInt16) :
    labeledInfo label info suiteId len = (x25519HkdfSha256 c).labeledInfo label info len.toNat := by
  unfold labeledInfo Scheme.labeledInfo
  rw [sameSuite c,sameVersion,toBeBytesOctets]

theorem labeledExpandMatches (c : Bssl) (prk label info : Bytes) (len : UInt16) :
    labeledExpand c prk label info suiteId len =
      orStatus .decapsulationFailure ((x25519HkdfSha256 c).labeledExpand prk label info len.toNat) := by
  have same : (x25519HkdfSha256 c).labeledExpand prk label info len.toNat =
      c.expandInto prk ((x25519HkdfSha256 c).labeledInfo label info len.toNat) len.toNat := rfl
  unfold labeledExpand
  rw [labeledInfoMatches c,same]
  cases c.expandInto prk ((x25519HkdfSha256 c).labeledInfo label info len.toNat) len.toNat <;> rfl

theorem expandMatches (c : Bssl) (dh context : Bytes) :
    labeledExpand c (labeledExtract c [] (ascii "eae_prk") dh suiteId) (ascii "shared_secret") context suiteId 32 =
      orStatus .decapsulationFailure ((x25519HkdfSha256 c).extractAndExpand dh context) := by
  have extractLabel : ascii "eae_prk" = Lib.Dhkem.octets "eae_prk" := by decide +kernel
  have expandLabel : ascii "shared_secret" = Lib.Dhkem.octets "shared_secret" := by decide +kernel
  rw [labeledExpandMatches,labeledExtractMatches,extractLabel,expandLabel]
  rfl

theorem decapsMatches {skR enc : Bytes} (recipient : skR.length = 32) (size : enc.length = 32) :
    decapsInternal c skR enc = orStatus .decapsulationFailure ((x25519HkdfSha256 c).decap enc skR) := by
  have unfolded : (x25519HkdfSha256 c).decap enc skR = (c.computeSharedKey skR enc).bind (fun dh =>
      (x25519HkdfSha256 c).extractAndExpand dh (enc ++ c.toPublic skR)) := rfl
  unfold decapsInternal
  rw [if_neg (not_not.mpr recipient),if_neg (not_not.mpr size),unfolded]
  cases c.computeSharedKey skR enc with
  | none => rfl
  | some dh => exact expandMatches c dh _

theorem encapMatches {skE dh : Bytes} {pkR : PublicKey} (ephemeral : skE.length = 32)
    (defined : c.computeSharedKey skE pkR.bytes = some dh) (entropy : Bytes) :
    encapInternal c pkR (some skE) entropy =
      orStatus .decapsulationFailure ((x25519HkdfSha256 c).encap pkR.bytes skE) := by
  have unfolded : (x25519HkdfSha256 c).encap pkR.bytes skE = (c.computeSharedKey skE pkR.bytes).bind (fun dh =>
      ((x25519HkdfSha256 c).extractAndExpand dh (c.toPublic skE ++ pkR.bytes)).bind (fun secret =>
        some (secret,c.toPublic skE))) := rfl
  rw [unfolded,defined,Option.bind_some]
  simp only [encapInternal,bind,Except.bind,ne_eq,ephemeral,not_true,if_false,defined,expandMatches]
  cases (x25519HkdfSha256 c).extractAndExpand dh (c.toPublic skE ++ pkR.bytes) <;> rfl

def decapsInfo (c : Bssl) (privateKey enc : Bytes) : Bytes :=
  labeledInfo (ascii "shared_secret") (enc ++ c.toPublic privateKey) suiteId 32

theorem decapsFeeds {skR enc secret : Bytes} (ok : decapsInternal c skR enc = .ok secret) :
    enc.length = 32 ∧ ∃ prk, c.expandInto prk (decapsInfo c skR enc) 32 = some secret := by
  unfold decapsInternal at ok
  split at ok <;> try contradiction
  split at ok <;> try contradiction
  rename_i size
  split at ok <;> try contradiction
  simp only [labeledExpand] at ok
  split at ok <;> try contradiction
  rename_i result expanded
  cases Except.ok.inj ok
  exact ⟨not_not.mp size,_,expanded⟩

theorem decapsRejects {skR enc : Bytes} (recipient : skR.length = 32)
    (bad : enc.length ≠ 32 ∨ c.computeSharedKey skR enc = none) :
    decapsInternal c skR enc = .error (.err .decapsulationFailure) := by
  unfold decapsInternal
  rw [if_neg (not_not.mpr recipient)]
  split
  · rfl
  · rename_i size
    rcases bad with short | undefined
    · exact absurd short size
    · rw [undefined]

theorem decapsInfoBinds {skR skR' enc enc' : Bytes} (size : enc.length = enc'.length)
    (same : decapsInfo c skR enc = decapsInfo c skR' enc') : enc = enc' ∧ c.toPublic skR = c.toPublic skR' := by
  unfold decapsInfo at same
  rw [labeledInfoMatches c,labeledInfoMatches c] at same
  exact Scheme.contextBinds size (Scheme.labeledInfoInjective same)

theorem dhkemMatchesScheme (laws : c.Exchanges) {skR : Bytes} (recipient : skR.length = 32) :
    let scheme := x25519HkdfSha256 c
    (∀ (skE entropy dh : Bytes) (pkR : PublicKey), skE.length = 32 → pkR.bytes = c.toPublic skR →
      c.computeSharedKey skE pkR.bytes = some dh →
      ∃ secret, secret.length = 32 ∧ encapInternal c pkR (some skE) entropy = .ok (secret,c.toPublic skE) ∧
        decapsInternal c skR (c.toPublic skE) = .ok secret ∧
        scheme.labeledExpand (scheme.labeledExtract [] (Lib.Dhkem.octets "eae_prk") dh)
          (Lib.Dhkem.octets "shared_secret") (c.toPublic skE ++ c.toPublic skR) 32 = some secret) ∧
    (∀ enc, enc.length ≠ 32 ∨ c.computeSharedKey skR enc = none →
      decapsInternal c skR enc = .error (.err .decapsulationFailure)) ∧
    (∀ skR' enc enc' secret secret', decapsInternal c skR enc = .ok secret → decapsInternal c skR' enc' = .ok secret' →
      (∃ prk, c.expandInto prk (decapsInfo c skR enc) 32 = some secret) ∧
      (decapsInfo c skR enc = decapsInfo c skR' enc' → enc = enc' ∧ c.toPublic skR = c.toPublic skR')) := by
  intro scheme
  refine ⟨fun skE entropy dh pkR ephemeral owns defined => ?_,fun enc bad => decapsRejects recipient bad,
    fun skR' enc enc' secret secret' left right => ?_⟩
  · obtain ⟨secret,made,size⟩ := Scheme.derived (schemeLawful laws) dh (c.toPublic skE ++ c.toPublic skR)
    have commuted : c.computeSharedKey skR (c.toPublic skE) = some dh := by
      rw [laws.exchange skR skE recipient ephemeral,← owns]
      exact defined
    have opened : scheme.decap (c.toPublic skE) skR = some secret := by
      have unfolded : scheme.decap (c.toPublic skE) skR = (c.computeSharedKey skR (c.toPublic skE)).bind (fun dh =>
          scheme.extractAndExpand dh (c.toPublic skE ++ c.toPublic skR)) := rfl
      rw [unfolded,commuted]
      exact made
    have sealed : scheme.encap (c.toPublic skR) skE = some (secret,c.toPublic skE) :=
      (Scheme.decapEncap (schemeLawful laws) recipient ephemeral).trans (congrArg (Option.map _) opened)
    refine ⟨secret,size,?_,?_,made⟩
    · rw [encapMatches ephemeral defined,owns]
      exact congrArg (orStatus .decapsulationFailure) sealed
    · rw [decapsMatches recipient (laws.publicSize skE ephemeral)]
      exact congrArg (orStatus .decapsulationFailure) opened
  · obtain ⟨size,feeds⟩ := decapsFeeds left
    obtain ⟨size',_⟩ := decapsFeeds right
    exact ⟨feeds,decapsInfoBinds (size.trans size'.symm)⟩

end Crypto

theorem dhkemMatchesSchemeStandin :
    ∃ secret, secret.length = 32 ∧
      Crypto.decapsInternal Standin.bssl (Standin.pad32 [3]) (Standin.pad32 [5]) = .ok secret ∧
      Crypto.encapInternal Standin.bssl ⟨Standin.pad32 [3],Standin.padSize _⟩ (some (Standin.pad32 [5])) [] =
        .ok (secret,Standin.pad32 [5]) := by
  obtain ⟨inverts,_⟩ := Crypto.dhkemMatchesScheme (lawfulExchanges Standin.bsslLawful) (Standin.padSize [3])
  have defined : Standin.bssl.computeSharedKey (Standin.pad32 [5]) (Standin.pad32 [3]) = some (Standin.pad32 [8]) := by
    decide +kernel
  obtain ⟨secret,size,encaps,decaps,_⟩ :=
    inverts (Standin.pad32 [5]) [] _ ⟨Standin.pad32 [3],Standin.padSize _⟩ (Standin.padSize _) rfl defined
  exact ⟨secret,size,decaps,encaps⟩

end KeyProtection
