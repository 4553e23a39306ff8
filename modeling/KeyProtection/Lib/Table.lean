import Mathlib.Data.List.AList

/-! Finite tables with one value a key: association lists whose keys are distinct.
Adds the two operations of a hash map that the list library has no name for, the
sweep that keeps the entries satisfying a test and the listing of all values. -/
namespace KeyProtection.Lib

abbrev Table (K V : Type) := AList (fun _ : K => V)

namespace Table
variable {K V : Type} [DecidableEq K]

def retain (keep : V → Bool) (t : Table K V) : Table K V :=
  ⟨t.entries.filter (fun e => keep e.2),
    t.nodupKeys.sublist (List.filter_sublist)⟩

def values (t : Table K V) : List V := t.entries.map Sigma.snd

theorem lookupEntry {t : Table K V} {k : K} {v : V} :
    t.lookup k = some v ↔ (⟨k,v⟩ : Sigma (fun _ : K => V)) ∈ t.entries :=
  AList.mem_lookup_iff

theorem lookupRetain (keep : V → Bool) (t : Table K V) (k : K) :
    (retain keep t).lookup k = (t.lookup k).filter keep := by
  ext v
  simp only [Option.filter_eq_some_iff]
  rw [lookupEntry,lookupEntry]
  simp [retain]

theorem memValues {t : Table K V} {v : V} : v ∈ values t ↔ ∃ k, t.lookup k = some v := by
  simp only [values,List.mem_map,lookupEntry]
  constructor
  · intro entry
    obtain ⟨⟨k,w⟩,mem,rfl⟩ := entry
    exact ⟨k,mem⟩
  · intro stored
    obtain ⟨k,mem⟩ := stored
    exact ⟨⟨k,v⟩,mem,rfl⟩

theorem lookupInsert (t : Table K V) (k : K) (v : V) (a : K) :
    (t.insert k v).lookup a = if a = k then some v else t.lookup a := by
  split
  · rename_i same
    subst same
    exact AList.lookup_insert t
  · rename_i other
    exact AList.lookup_insert_ne other

theorem lookupErase (t : Table K V) (k a : K) :
    (t.erase k).lookup a = if a = k then none else t.lookup a := by
  split
  · rename_i same
    subst same
    exact AList.lookup_erase _ t
  · rename_i other
    exact AList.lookup_erase_ne other

theorem valuesInsert {t : Table K V} {k : K} (missing : t.lookup k = none) (v : V) :
    values (t.insert k v) = v :: values t := by
  simp only [values,AList.insert_of_notMem (AList.lookup_eq_none.mp missing),List.map_cons]

theorem valuesNodup {key : V → K} (t : Table K V) (keyed : ∀ k v, t.lookup k = some v → key v = k) :
    (values t).Nodup := by
  have keys : (values t).map key = t.keys := by
    simp only [values,List.map_map,AList.keys,List.keys]
    apply List.map_congr_left
    intro entry mem
    exact keyed entry.1 entry.2 (lookupEntry.mpr mem)
  exact List.Nodup.of_map key (keys ▸ t.keys_nodup)

theorem valuesReplace (t : Table K V) (k : K) (v : V) : values (t.insert k v) = v :: values (t.erase k) := by
  simp only [values,AList.entries_insert,List.map_cons]
  rfl

theorem valuesErase {t : Table K V} {k : K} {v : V} (stored : t.lookup k = some v) :
    (values t).Perm (v :: values (t.erase k)) := by
  have mem := lookupEntry.mp stored
  let named (entry : Sigma (fun _ : K => V)) : Bool := decide (k = entry.1)
  have here : named ⟨k,v⟩ = true := decide_eq_true rfl
  obtain ⟨entry,before,after,_,same,split,rest⟩ := List.exists_of_eraseP mem here
  have erased : (t.erase k).entries = before ++ after := rest
  have key : k = entry.1 := of_decide_eq_true same
  have found : t.lookup k = some entry.2 := lookupEntry.mpr (by rw [key,split]; simp)
  cases Option.some.inj (stored.symm.trans found)
  simp only [values,split,erased,List.map_append,List.map_cons]
  exact List.perm_middle

omit [DecidableEq K] in
theorem valuesRetain (keep : V → Bool) (t : Table K V) : values (retain keep t) = (values t).filter keep := by
  simp only [values,retain,List.filter_map]
  rfl

end Table
end KeyProtection.Lib
