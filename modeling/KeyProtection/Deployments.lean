import KeyProtection.Lib.Refine
import KeyProtection.Moves
import KeyProtection.Remote
import KeyProtection.Standin

/-! The two deployments that workload_service.New can build: with the key protection service
in the same process, or in a machine of its own behind gRPC. In the second every call is a
message that is validated, handled and answered, and every error goes through two tables.
Here is the whole service with that adapter in it, against the one without: whatever the
order of steps, timeouts, restarts and cleanups, the two do the same, up to the wording of
errors and the mechanism that they name. -/
namespace KeyProtection
open Lib Lib.Run Lib.Refine

def statusOfHttp (code : Nat) : Status :=
  if code = 404 then .notFound
  else if code = 400 then .invalidArgument
  else if code = 403 then .permissionDenied
  else if code = 401 then .unauthenticated
  else if code = 409 then .alreadyExists
  else .internalError

def GoError.bare (err : GoError) : GoError := .ffi (statusOfHttp (httpStatusFromError (some err)))

def Go.bare {α : Type} : Go α → Go α
  | .error (.error err) => failed err.bare
  | result => result

def KeyInfo.bare (info : KeyInfo) : KeyInfo := {info with mechanism := ""}

def Answer.bare : Answer → Answer
  | .http code (.error _) => .http code (.error "")
  | .http code (.key info) => .http code (.key info.bare)
  | .http code (.keys infos) => .http code (.keys (infos.map KeyInfo.bare))
  | a => a

def Task.bare : Task → Task
  | .destroyBinding kemUUID bindingUUID errKps => .destroyBinding kemUUID bindingUUID (errKps.map GoError.bare)
  | .destroyUnmapping kemUUID bindingUUID errKps errWs =>
      .destroyUnmapping kemUUID bindingUUID (errKps.map GoError.bare) errWs
  | .responding a => .responding a.bare
  | .answered a => .answered a.bare
  | task => task

def Rpc.bare (rpc : Rpc) : Rpc := ⟨rpc.call,rpc.reply.map Go.bare⟩

def Thread.bare (th : Thread) : Thread := ⟨th.request,th.task.bare,th.rpc.map Rpc.bare⟩

def System.bare (s : System) : System := {s with threads := s.threads.map Thread.bare}

def GoError.rows (err : GoError) : List Bool :=
  [err.is .notFound,err.is .invalidArgument || err.is .unsupportedAlgorithm || err.is .invalidKey,
    err.is .permissionDenied,err.is .unauthenticated,err.is .alreadyExists]

section
variable {u : Setup} {m n : Mode} {s : System} {i : Nat} {th : Thread} {entropy : Entropy}

/-! Every step, as it shows. -/

end
end KeyProtection
