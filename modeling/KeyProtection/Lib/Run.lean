import Mathlib.Data.List.Basic

/-! Runs of a partial labelled step function. A run is a list of labels, so an
interleaving is a value that can be executed and compared. No scheduler, fairness
or bound on the number of labels is assumed. -/
namespace KeyProtection.Lib.Run

variable {σ ℓ : Type} {step : σ → ℓ → Option σ}

/- Takes the labels in order; `none` as soon as one of them is not enabled. -/
def exec (step : σ → ℓ → Option σ) (s : σ) : List ℓ → Option σ
  | [] => some s
  | l::ls => (step s l).bind (fun m => exec step m ls)

/- The labels lead from the first state to the last one, and `permit` allows each
of them in the state in which it is taken. -/
inductive Along (step : σ → ℓ → Option σ) (permit : σ → ℓ → Prop) : σ → List ℓ → σ → Prop where
  | nil (s) : Along step permit s [] s
  | cons {s l m ls t} (allowed : permit s l) (taken : step s l = some m)
      (rest : Along step permit m ls t) : Along step permit s (l::ls) t

abbrev Steps (step : σ → ℓ → Option σ) : σ → List ℓ → σ → Prop := Along step (fun _ _ => True)

def Reachable (step : σ → ℓ → Option σ) (start s : σ) : Prop := ∃ ls, Steps step start ls s

theorem alongSteps {permit s ls t} (run : Along step permit s ls t) : Steps step s ls t := by
  induction run with
  | nil s => exact .nil s
  | cons _ taken _ ih => exact .cons trivial taken ih

theorem execSteps {s ls t} (ok : exec step s ls = some t) : Steps step s ls t := by
  induction ls generalizing s with
  | nil =>
    cases Option.some.inj ok
    exact .nil _
  | cons l ls ih =>
    obtain ⟨m,taken,rest⟩ := Option.bind_eq_some_iff.mp ok
    exact .cons trivial taken (ih rest)

theorem stepsGetD {s ls} (enabled : (exec step s ls).isSome) : Steps step s ls ((exec step s ls).getD s) := by
  obtain ⟨t,done⟩ := Option.isSome_iff_exists.mp enabled
  rw [done]
  exact execSteps done

def permitted (step : σ → ℓ → Option σ) (permit : σ → ℓ → Prop) [∀ s l, Decidable (permit s l)] (s : σ) :
    List ℓ → Bool
  | [] => true
  | l::ls => decide (permit s l) && (step s l).any (fun m => permitted step permit m ls)

theorem alongGetD {permit : σ → ℓ → Prop} [∀ s l, Decidable (permit s l)] {s ls}
    (ok : permitted step permit s ls = true) : Along step permit s ls ((exec step s ls).getD s) := by
  have run : ∃ t, exec step s ls = some t ∧ Along step permit s ls t := by
    induction ls generalizing s with
    | nil => exact ⟨s,rfl,.nil s⟩
    | cons l ls ih =>
      obtain ⟨allowed,rest⟩ := Bool.and_eq_true_iff.mp ok
      obtain ⟨m,taken,later⟩ := (Option.any_eq_true _ _).mp rest
      obtain ⟨t,done,along⟩ := ih later
      exact ⟨t,by simp [exec,taken,done],.cons (of_decide_eq_true allowed) taken along⟩
  obtain ⟨t,done,along⟩ := run
  rw [done]
  exact along

theorem alongAppend {permit s ls m ks t} (left : Along step permit s ls m)
    (right : Along step permit m ks t) : Along step permit s (ls ++ ks) t := by
  induction left with
  | nil => exact right
  | cons allowed taken _ ih => exact .cons allowed taken (ih right)

theorem alongAlways {permit : σ → ℓ → Prop} {s ls t} (run : Steps step s ls t)
    (always : ∀ l ∈ ls, ∀ s, permit s l) : Along step permit s ls t := by
  induction run with
  | nil s => exact .nil s
  | cons _ taken _ ih =>
    exact .cons (always _ List.mem_cons_self _) taken (ih (fun l mem => always l (List.mem_cons_of_mem _ mem)))

/- The invariant rule: what every permitted step keeps, a whole run keeps. -/
theorem alongInvariant {permit : σ → ℓ → Prop} {inv : σ → Prop} {s ls t}
    (keeps : ∀ s l m, inv s → permit s l → step s l = some m → inv m)
    (run : Along step permit s ls t) (start : inv s) : inv t := by
  induction run with
  | nil => exact start
  | cons allowed taken _ ih => exact ih (keeps _ _ _ start allowed taken)

theorem alongHistory {permit : σ → ℓ → Prop} {inv : List ℓ → σ → Prop} {s ls t}
    (keeps : ∀ ks s l m, inv ks s → permit s l → step s l = some m → inv (ks ++ [l]) m)
    (run : Along step permit s ls t) (start : inv [] s) : inv ls t := by
  suffices onward : ∀ ks, inv ks s → inv (ks ++ ls) t from onward [] start
  clear start
  induction run with
  | nil s =>
    intro ks before
    simpa using before
  | @cons s l m ls t allowed taken _ ih =>
    intro ks before
    simpa using ih (ks ++ [l]) (keeps ks s l m before allowed taken)

theorem reachableInvariant {inv : σ → Prop} {start s} (initial : inv start)
    (keeps : ∀ s l m, inv s → step s l = some m → inv m)
    (reach : Reachable step start s) : inv s := by
  obtain ⟨ls,run⟩ := reach
  exact alongInvariant (fun s l m h _ taken => keeps s l m h taken) run initial

theorem reachableAlong {permit start s ls t} (reach : Reachable step start s)
    (run : Along step permit s ls t) : Reachable step start t := by
  obtain ⟨ks,before⟩ := reach
  exact ⟨ks ++ ls,alongAppend before (alongSteps run)⟩

end KeyProtection.Lib.Run
