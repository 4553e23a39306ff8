import Mathlib.Algebra.Group.Nat.Defs
import Mathlib.Data.List.Basic

/-! The Diffie-Hellman KEM of RFC 9180, section 4.1, over any exchange and any key
derivation function. Keys, contexts and labels are byte strings; a derivation that asks
for more than the function can give, or an exchange without a defined result, has no
outcome. Both sides derive one secret because they put one pair of keys in one order. -/
namespace KeyProtection.Lib.Dhkem

abbrev Octets := List UInt8

def octets (s : String) : Octets := s.toUTF8.data.toList

/- I2OSP: the w octets of n, most significant first. -/
def i2osp (n w : Nat) : Octets := (List.range w).map (fun i => UInt8.ofNat (n / 256^(w - 1 - i)))

structure Scheme where
  kemId : Nat
  secretSize : Nat
  privateSize : Nat
  publicSize : Nat
  toPublic : Octets → Octets
  exchange : Octets → Octets → Option Octets
  extract : (salt ikm : Octets) → Octets
  expand : (prk info : Octets) → Nat → Option Octets

namespace Scheme
variable (k : Scheme)

def suiteId : Octets := octets "KEM" ++ i2osp k.kemId 2

def labeledExtract (salt label ikm : Octets) : Octets :=
  k.extract salt (octets "HPKE-v1" ++ k.suiteId ++ label ++ ikm)

def labeledInfo (label info : Octets) (len : Nat) : Octets :=
  i2osp len 2 ++ octets "HPKE-v1" ++ k.suiteId ++ label ++ info

def labeledExpand (prk label info : Octets) (len : Nat) : Option Octets :=
  k.expand prk (k.labeledInfo label info len) len

def extractAndExpand (dh kemContext : Octets) : Option Octets :=
  k.labeledExpand (k.labeledExtract [] (octets "eae_prk") dh) (octets "shared_secret") kemContext k.secretSize

def kemContext (enc pkR : Octets) : Octets := enc ++ pkR

/- The ephemeral key is an argument. -/
def encap (pkR skE : Octets) : Option (Octets × Octets) := do
  let dh ← k.exchange skE pkR
  let sharedSecret ← k.extractAndExpand dh (kemContext (k.toPublic skE) pkR)
  some (sharedSecret,k.toPublic skE)

def decap (enc skR : Octets) : Option Octets := do
  let dh ← k.exchange skR enc
  k.extractAndExpand dh (kemContext enc (k.toPublic skR))

structure Lawful : Prop where
  sized : ∀ sk, sk.length = k.privateSize → (k.toPublic sk).length = k.publicSize
  commutes : ∀ a b, a.length = k.privateSize → b.length = k.privateSize →
    k.exchange a (k.toPublic b) = k.exchange b (k.toPublic a)
  derives : ∀ prk info, ∃ out, k.expand prk info k.secretSize = some out ∧ out.length = k.secretSize

variable {k}

theorem derived (laws : k.Lawful) (dh context : Octets) :
    ∃ secret, k.extractAndExpand dh context = some secret ∧ secret.length = k.secretSize :=
  laws.derives _ _

theorem decapEncap (laws : k.Lawful) {skR skE : Octets} (recipient : skR.length = k.privateSize)
    (ephemeral : skE.length = k.privateSize) :
    k.encap (k.toPublic skR) skE = (k.decap (k.toPublic skE) skR).map (fun secret => (secret,k.toPublic skE)) := by
  unfold encap decap
  rw [laws.commutes skE skR ephemeral recipient]
  cases k.exchange skR (k.toPublic skE) with
  | none => rfl
  | some dh =>
    simp only [bind,Option.bind_some]
    cases k.extractAndExpand dh (kemContext (k.toPublic skE) (k.toPublic skR)) <;> rfl

theorem labeledInfoInjective {label info info' : Octets} {len : Nat}
    (same : k.labeledInfo label info len = k.labeledInfo label info' len) : info = info' := by
  unfold labeledInfo at same
  exact List.append_cancel_left same

theorem contextBinds {enc enc' pk pk' : Octets} (size : enc.length = enc'.length)
    (same : kemContext enc pk = kemContext enc' pk') : enc = enc' ∧ pk = pk' :=
  List.append_inj same size

end Scheme
end KeyProtection.Lib.Dhkem
