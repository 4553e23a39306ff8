import KeyProtection.Lib.Run

/-! One step function implements another system as far as the outside can tell. A step shows
a list of events, often none, and a run shows the events of its steps in order. The rule
asks for one simulation step at a time and gives the inclusion of whole histories. -/
namespace KeyProtection.Lib.Refine
open Run

variable {σ ℓ α ε : Type} {step : σ → ℓ → Option σ} {event : σ → ℓ → List ε} {next : α → List ε → α → Prop}

def shown (step : σ → ℓ → Option σ) (event : σ → ℓ → List ε) (s : σ) : List ℓ → List ε
  | [] => []
  | l::ls =>
    match step s l with
    | some m => event s l ++ shown step event m ls
    | none => []

inductive Many (next : α → List ε → α → Prop) : α → List ε → α → Prop where
  | nil (a) : Many next a [] a
  | cons {a es b fs c} (first : next a es b) (rest : Many next b fs c) : Many next a (es ++ fs) c

theorem manyOne {a b : α} {es : List ε} (taken : next a es b) : Many next a es b := by
  have one : Many next a (es ++ []) b := .cons taken (.nil b)
  rwa [List.append_nil] at one

theorem manyInvariant {inv : α → Prop} (keeps : ∀ a es b, inv a → next a es b → inv b) {a b : α} {es : List ε}
    (many : Many next a es b) (start : inv a) : inv b := by
  induction many with
  | nil a => exact start
  | cons first rest ih => exact ih (keeps _ _ _ start first)

/- A view that the steps respect: as it is seen, a run is the run of its labels as they are
seen. Two runs whose labels look alike end in states that look alike. -/
theorem execViewed {τ κ : Type} {step' : τ → κ → Option τ} {view : σ → τ} {seen : ℓ → κ} {inv : σ → Prop}
    (each : ∀ s l m, inv s → step s l = some m → inv m ∧ step' (view s) (seen l) = some (view m))
    {s ls t} (run : Steps step s ls t) (start : inv s) : exec step' (view s) (ls.map seen) = some (view t) := by
  induction run with
  | nil s => rfl
  | cons _ taken _ ih =>
    obtain ⟨next,same⟩ := each _ _ _ start taken
    simp only [List.map_cons,exec,same,Option.bind_some]
    exact ih next

end KeyProtection.Lib.Refine
