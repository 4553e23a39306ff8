import KeyProtection.Paging
import KeyProtection.Lib.Pages
import Mathlib.Data.List.Perm.Basic

/-! Page reads of the KPS registry while threads generate keys. A generation samples
created_at when it makes its record and stores the record in a later critical section, so a
record may be stored after others that sort behind it. If it then sorts before the last key
that was read, that key moves back over the offset and is read again. -/
namespace KeyProtection
open Lib Lib.Run Lib.Pages KeyRegistry

/-! Storing one record in the sorted listing. -/

section
variable {keys : KeyRegistry} {record : KeyRecord} {now : Nat}

end

/-! The race of one reader with any number of generating threads. -/

structure Race where
  keys : KeyRegistry
  now : Nat
  -- Records that a thread has created and not stored yet.
  pending : List KeyRecord
  offset : Nat
  pages : List (List KeyMetadata)
  hasMore : Bool
  -- The keys listed just before the first page was read; no code reads this.
  snapshot : Option (List Uuid)

namespace Race

def start (keys : KeyRegistry) (now : Nat) : Race := ⟨keys,now,[],0,[],true,none⟩

inductive Event where
  | creates (algo : HpkeAlgorithm) (bindingPublicKey : PublicKey) (expirySecs : UInt64) (entropy : Entropy)
  | adds (i : Nat)
  | reads (limit : Nat)
  | tick (elapsed : Nat)
  deriving DecidableEq, Repr

def listing (s : Race) : List Uuid := (sortedLive s.keys s.now).map KeyRecord.id

/- No key has the id of a new one. The sum of the offset and a count of keys in memory does
not reach 2^64. -/
def step (x : Externals) (s : Race) : Event → Option Race
  | .creates algo bindingPublicKey expirySecs entropy =>
      if (∃ record ∈ s.pending, record.id = entropy.uuid) ∨ (s.keys.lookup entropy.uuid).isSome then none
      else match KeyRecord.createBoundKemKey x.bssl algo bindingPublicKey expirySecs entropy s.now with
        | .error _ => some s
        | .ok record => some {s with pending := s.pending ++ [record]}
  | .adds i => s.pending[i]?.map (fun record =>
      {s with keys := addKey s.keys record, pending := s.pending.eraseIdx i})
  | .reads limit =>
      if s.hasMore then
        let (metas,totalCount) := listAllKeys s.keys s.now s.offset limit
        some {s with
          offset := s.offset + metas.length, pages := s.pages ++ [metas],
          hasMore := decide (s.offset + metas.length < totalCount), snapshot := some (s.snapshot.getD s.listing)}
      else none
  | .tick elapsed => some {s with now := s.now + elapsed}

variable {x : Externals} {s t : Race}

end Race

namespace Standin

def create (n : Nat) : Race.Event := .creates ⟨1,1,1⟩ givenKey 3600 (entropy n)

def pair (now : Nat) : KeyRegistry := addKey (addKey ∅ (madeRecord 2 now)) (madeRecord 3 now)

def shownPage (n now : Nat) : List KeyMetadata := [(madeRecord n now).metadata]

/- Key 1 is made before the others and stored after the first page. -/
def late : List Race.Event :=
  [create 1,.tick 1,create 2,create 3,.adds 1,.adds 1,.reads 1,.adds 0,.reads 1,.reads 1]

end Standin

end KeyProtection
