import KeyProtection.Lib.Run
import Mathlib

/-! Measures on runs. A number that some step can always lower is brought to zero in as many
steps; a number that certain steps lower and no step raises bounds how many of those steps
a run has. -/
namespace KeyProtection.Lib.Run

variable {σ ℓ : Type} {step : σ → ℓ → Option σ}

theorem runsDown {inv : σ → Prop} {rank : σ → Nat} {own : ℓ → Prop}
    (lowers : ∀ s, inv s → 0 < rank s → ∃ l t, own l ∧ step s l = some t ∧ inv t ∧ rank t < rank s) (s : σ) (start : inv s) :
    ∃ ls t, Steps step s ls t ∧ (∀ l ∈ ls, own l) ∧ ls.length ≤ rank s ∧ inv t ∧ rank t = 0 := by
  generalize bound : rank s = n
  induction n using Nat.strongRecOn generalizing s with
  | ind n ih =>
    by_cases zero : rank s = 0
    · exact ⟨[],s,.nil s,by simp,Nat.zero_le _,start,zero⟩
    obtain ⟨l,m,first,taken,next,less⟩ := lowers s start (Nat.pos_of_ne_zero zero)
    obtain ⟨ls,t,rest,owned,short,final,done⟩ := ih (rank m) (bound ▸ less) m next rfl
    refine ⟨l::ls,t,.cons trivial taken rest,?_,?_,final,done⟩
    · intro l' mem
      rcases List.mem_cons.mp mem with same | later
      · exact same ▸ first
      · exact owned l' later
    · rw [List.length_cons]
      omega

theorem runsBounded {permit : σ → ℓ → Prop} {rank : σ → Nat} {inv : σ → Prop} {counted : ℓ → Bool}
    (keeps : ∀ s l t, inv s → permit s l → step s l = some t →
      inv t ∧ rank t ≤ rank s ∧ (counted l = true → rank t < rank s))
    {s ls t} (run : Along step permit s ls t) (start : inv s) : ls.countP counted + rank t ≤ rank s := by
  induction run with
  | nil s => simp
  | @cons s l m ls t allowed taken _ ih =>
    obtain ⟨next,lower,less⟩ := keeps s l m start allowed taken
    have rest := ih next
    rw [List.countP_cons]
    split
    · rename_i here
      have := less here
      omega
    · omega

/-! A measure that is a sum over the parties. -/

theorem sumSet {α : Type} (f : α → Nat) {xs : List α} {i : Nat} {a : α} (found : xs[i]? = some a) (b : α) :
    ((xs.set i b).map f).sum + f a = (xs.map f).sum + f b := by
  induction xs generalizing i with
  | nil => contradiction
  | cons x xs ih =>
    cases i with
    | zero =>
      cases Option.some.inj found
      simp only [List.set_cons_zero,List.map_cons,List.sum_cons]
      omega
    | succ i =>
      have rest := ih found
      simp only [List.set_cons_succ,List.map_cons,List.sum_cons]
      omega

theorem sumCounted {α : Type} {f : α → Nat} {counts : α → Bool} {most : Nat} (xs : List α)
    (bound : ∀ a, f a ≤ if counts a then most else 0) : (xs.map f).sum ≤ most * xs.countP counts := by
  induction xs with
  | nil => simp
  | cons x xs ih =>
    have here := bound x
    rw [List.map_cons,List.sum_cons,List.countP_cons,Nat.mul_add]
    split at here
    · rename_i counted
      rw [if_pos counted]
      omega
    · rename_i uncounted
      rw [if_neg uncounted]
      omega

end KeyProtection.Lib.Run
