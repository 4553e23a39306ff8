import Mathlib.Data.List.Basic
import Mathlib.Data.List.Nodup

/-! Reading a list page by page while elements are inserted into it. The reader keeps only
an offset, so what it has read stays the part before the offset just as long as nothing is
inserted there. -/
namespace KeyProtection.Lib.Pages

variable {α : Type} [DecidableEq α]

/- Every watched element is in the list, and has been read once if it stands before the
offset and not at all if it does not. -/
def Tracks (watched listing : List α) (offset : Nat) (read : List α) : Prop :=
  ∀ a ∈ watched, a ∈ listing ∧ read.count a = if listing.idxOf a < offset then 1 else 0

variable {watched listing read : List α} {offset : Nat}

end KeyProtection.Lib.Pages
