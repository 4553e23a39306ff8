import Mathlib.Data.List.Perm.Basic
import Mathlib.Data.List.Basic

/-! Memory cells and who holds them. Cells that are shared by counted references are finalised
when the last of them goes; cells with one owner are finalised when the owner lets go. The
references that are held anywhere are one list, in which a cell occurs once for every
reference to it; the counts, and what the cells hold, are read off that list. -/
namespace KeyProtection.Lib.Cells

variable {α : Type}

structure Cell (α : Type) where
  value : α
  strong : Nat
  deriving DecidableEq, Repr

def clone (cells : List (Cell α)) (a : Nat) : List (Cell α) :=
  cells.modify a (fun c => {c with strong := c.strong + 1})

def release (finalize : α → α) (cells : List (Cell α)) (a : Nat) : List (Cell α) :=
  cells.modify a (fun c => if c.strong = 1 then ⟨finalize c.value,0⟩ else {c with strong := c.strong - 1})

def releaseAll (finalize : α → α) (cells : List (Cell α)) (refs : List Nat) : List (Cell α) :=
  refs.foldl (release finalize) cells

structure Counted (finalize : α → α) (made : List α) (cells : List (Cell α)) (refs : List Nat) : Prop where
  length : cells.length = made.length
  bound : ∀ a ∈ refs, a < cells.length
  counts : ∀ (a : Nat) c, cells[a]? = some c → c.strong = refs.count a
  values : ∀ (a : Nat) c v, cells[a]? = some c → made[a]? = some v → c.value = if a ∈ refs then v else finalize v

section
variable {finalize : α → α} {made : List α} {cells : List (Cell α)} {refs refs' : List Nat} {a : Nat}

theorem soundNil : Counted finalize ([] : List α) [] [] := ⟨rfl,by simp,by simp,by simp⟩

theorem soundPerm (same : refs.Perm refs') (sound : Counted finalize made cells refs) : Counted finalize made cells refs' := by
  refine ⟨sound.length,fun a mem => sound.bound a (same.mem_iff.mpr mem),fun a c here => ?_,fun a c v here there => ?_⟩
  · rw [← same.count_eq]
    exact sound.counts a c here
  · rw [sound.values a c v here there]
    simp only [same.mem_iff]

theorem soundAlloc (v : α) (sound : Counted finalize made cells refs) :
    Counted finalize (made ++ [v]) (cells ++ [⟨v,1⟩]) (cells.length :: refs) := by
  have fresh : cells.length ∉ refs := fun mem => Nat.lt_irrefl _ (sound.bound _ mem)
  refine ⟨by simp [sound.length],?_,fun a c here => ?_,fun a c w here there => ?_⟩
  · intro a mem
    rw [List.length_append,List.length_singleton]
    rcases List.mem_cons.mp mem with same | old
    · omega
    · exact Nat.lt_succ_of_lt (sound.bound a old)
  · rw [List.getElem?_append] at here
    split at here
    · rename_i old
      rw [List.count_cons_of_ne (by omega)]
      exact sound.counts a c here
    · rename_i new
      obtain ⟨bound,same⟩ := List.getElem?_eq_some_iff.mp here
      have last : a = cells.length := by simp at bound; omega
      subst last
      simp only [Nat.sub_self,List.getElem_cons_zero] at same
      rw [← same,List.count_cons_self,List.count_eq_zero_of_not_mem fresh]
  · rw [List.getElem?_append] at here there
    rw [← sound.length] at there
    split at here
    · rename_i old
      rw [if_pos old] at there
      rw [sound.values a c w here there]
      have other : a ≠ cells.length := by omega
      simp only [List.mem_cons,other,false_or]
    · rename_i new
      rw [if_neg new] at there
      obtain ⟨bound,same⟩ := List.getElem?_eq_some_iff.mp here
      have last : a = cells.length := by simp at bound; omega
      subst last
      simp only [Nat.sub_self,List.getElem?_cons_zero,Option.some.injEq] at here there
      rw [if_pos List.mem_cons_self,← here,← there]

theorem soundClone (held : a ∈ refs) (sound : Counted finalize made cells refs) :
    Counted finalize made (clone cells a) (a :: refs) := by
  refine ⟨by simp [clone,sound.length],?_,fun b c here => ?_,fun b c v here there => ?_⟩
  · intro b mem
    rw [clone,List.length_modify]
    rcases List.mem_cons.mp mem with same | old
    · exact same ▸ sound.bound a held
    · exact sound.bound b old
  · rw [clone,List.getElem?_modify] at here
    obtain ⟨old,before,rfl⟩ := Option.map_eq_some_iff.mp here
    have counts := sound.counts b old before
    split
    · rename_i same
      subst same
      rw [List.count_cons_self,← counts]
    · rename_i other
      rw [List.count_cons_of_ne other]
      exact counts
  · rw [clone,List.getElem?_modify] at here
    obtain ⟨old,before,rfl⟩ := Option.map_eq_some_iff.mp here
    have value := sound.values b old v before there
    have shared : b ∈ a :: refs ↔ b ∈ refs := by
      rw [List.mem_cons]
      exact ⟨fun mem => mem.elim (fun same => same ▸ held) id,.inr⟩
    simp only [shared]
    split <;> exact value

theorem soundRelease (sound : Counted finalize made cells (a :: refs)) :
    Counted finalize made (release finalize cells a) refs := by
  refine ⟨by simp [release,sound.length],?_,fun b c here => ?_,fun b c v here there => ?_⟩
  · intro b mem
    rw [release,List.length_modify]
    exact sound.bound b (List.mem_cons_of_mem a mem)
  · rw [release,List.getElem?_modify] at here
    obtain ⟨old,before,rfl⟩ := Option.map_eq_some_iff.mp here
    have counts := sound.counts b old before
    split
    · rename_i same
      subst same
      rw [List.count_cons_self] at counts
      split
      · simp only; omega
      · simp only; omega
    · rename_i other
      rw [List.count_cons_of_ne other] at counts
      exact counts
  · rw [release,List.getElem?_modify] at here
    obtain ⟨old,before,rfl⟩ := Option.map_eq_some_iff.mp here
    have counts := sound.counts b old before
    have value := sound.values b old v before there
    split
    · rename_i same
      subst same
      rw [List.count_cons_self] at counts
      rw [if_pos List.mem_cons_self] at value
      split
      · rename_i last
        have gone : a ∉ refs := List.count_eq_zero.mp (by omega)
        rw [if_neg gone,value]
      · rename_i more
        have left : a ∈ refs := List.count_pos_iff.mp (by omega)
        rw [if_pos left]
        exact value
    · rename_i other
      have different : b ≠ a := fun same => other same.symm
      simp only [List.mem_cons,different,false_or] at value
      exact value

theorem soundReleaseAll {gone : List Nat} (sound : Counted finalize made cells (gone ++ refs)) :
    Counted finalize made (releaseAll finalize cells gone) refs := by
  induction gone generalizing cells with
  | nil => exact sound
  | cons a gone ih => exact ih (soundRelease sound)

theorem soundReads (held : a ∈ refs) (sound : Counted finalize made cells refs) :
    ∃ c v, cells[a]? = some c ∧ made[a]? = some v ∧ c.value = v := by
  have bound := sound.bound a held
  have bound' : a < made.length := sound.length ▸ bound
  refine ⟨_,_,List.getElem?_eq_getElem bound,List.getElem?_eq_getElem bound',?_⟩
  rw [sound.values a _ _ (List.getElem?_eq_getElem bound) (List.getElem?_eq_getElem bound'),if_pos held]

end

/-! Cells with one owner. -/

def wipe (finalize : α → α) (cells : List α) (gone : List Nat) : List α :=
  gone.foldl (fun cells a => cells.modify a finalize) cells

structure Clean (blank : α → Prop) (cells : List α) (owned : List Nat) : Prop where
  once : owned.Nodup
  bound : ∀ a ∈ owned, a < cells.length
  rest : ∀ (a : Nat) v, cells[a]? = some v → a ∉ owned → blank v

section
variable {blank : α → Prop} {finalize : α → α} {cells : List α} {owned owned' : List Nat}

theorem cleanNil : Clean blank ([] : List α) [] := ⟨List.nodup_nil,by simp,by simp⟩

theorem cleanPerm (same : owned.Perm owned') (clean : Clean blank cells owned) : Clean blank cells owned' :=
  ⟨same.nodup_iff.mp clean.once,fun a mem => clean.bound a (same.mem_iff.mpr mem),
    fun a v here free => clean.rest a v here (fun mem => free (same.mem_iff.mp mem))⟩

theorem cleanNew (v : α) (clean : Clean blank cells owned) : Clean blank (cells ++ [v]) (cells.length :: owned) := by
  refine ⟨List.nodup_cons.mpr ⟨fun mem => Nat.lt_irrefl _ (clean.bound _ mem),clean.once⟩,?_,fun a w here free => ?_⟩
  · intro a mem
    rw [List.length_append,List.length_singleton]
    rcases List.mem_cons.mp mem with same | old
    · omega
    · exact Nat.lt_succ_of_lt (clean.bound a old)
  · rw [List.mem_cons,not_or] at free
    have bound := (List.getElem?_eq_some_iff.mp here).1
    rw [List.length_append,List.length_singleton] at bound
    rw [List.getElem?_append_left (by omega)] at here
    exact clean.rest a w here free.2

theorem cleanBlank {v : α} (nothing : blank v) (clean : Clean blank cells owned) : Clean blank (cells ++ [v]) owned := by
  refine ⟨clean.once,fun a mem => ?_,fun a w here free => ?_⟩
  · rw [List.length_append]
    exact Nat.lt_add_right _ (clean.bound a mem)
  · rw [List.getElem?_append] at here
    split at here
    · exact clean.rest a w here free
    · rw [List.getElem?_singleton] at here
      split at here <;> try contradiction
      cases Option.some.inj here
      exact nothing

theorem wipeOther {gone : List Nat} {a : Nat} (kept : a ∉ gone) : (wipe finalize cells gone)[a]? = cells[a]? := by
  induction gone generalizing cells with
  | nil => rfl
  | cons b gone ih =>
    rw [List.mem_cons,not_or] at kept
    rw [wipe,List.foldl_cons]
    refine (ih kept.2).trans ?_
    have other : b ≠ a := fun same => kept.1 same.symm
    simp [other]

theorem cleanWipe (finalizes : ∀ v, blank (finalize v)) {gone : List Nat} (clean : Clean blank cells (gone ++ owned)) :
    Clean blank (wipe finalize cells gone) owned := by
  induction gone generalizing cells with
  | nil => exact clean
  | cons b gone ih =>
    refine ih ⟨(List.nodup_cons.mp clean.once).2,fun a mem => ?_,fun a v here free => ?_⟩
    · rw [List.length_modify]
      exact clean.bound a (List.mem_cons_of_mem b mem)
    · rw [List.getElem?_modify] at here
      obtain ⟨old,before,rfl⟩ := Option.map_eq_some_iff.mp here
      split
      · exact finalizes old
      · rename_i other
        exact clean.rest a old before (fun mem => (List.mem_cons.mp mem).elim (fun same => other same.symm) free)

end

/-! Holders that are a list: what the others hold when one of them changes. -/

theorem holdersPut {σ ρ : Type} {holds : σ → List ρ} {holders : List σ} {i : Nat} {old : σ} (here : holders[i]? = some old) :
    ∃ rest, (holders.flatMap holds).Perm (holds old ++ rest) ∧
      ∀ new, ((holders.set i new).flatMap holds).Perm (holds new ++ rest) := by
  induction holders generalizing i with
  | nil => simp at here
  | cons first others ih =>
    cases i with
    | zero =>
      cases Option.some.inj here
      exact ⟨others.flatMap holds,by simp,fun new => by simp⟩
    | succ i =>
      obtain ⟨rest,before,after⟩ := ih here
      refine ⟨holds first ++ rest,?_,fun new => ?_⟩
      · rw [List.flatMap_cons]
        exact (before.append_left _).trans (List.perm_append_comm_assoc _ _ _)
      · rw [List.set_cons_succ,List.flatMap_cons]
        exact ((after new).append_left _).trans (List.perm_append_comm_assoc _ _ _)

end KeyProtection.Lib.Cells
