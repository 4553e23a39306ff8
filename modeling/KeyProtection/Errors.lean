import KeyProtection.Proto

/-! Go errors as the services build them, and the three tables through which a failure
travels: FFI status to gRPC code (KPS), gRPC code back to FFI status (WSD), FFI status
to HTTP status (WSD). -/
namespace KeyProtection

inductive Code where
  | ok | canceled | unknown | invalidArgument | deadlineExceeded | notFound | alreadyExists
  | permissionDenied | resourceExhausted | failedPrecondition | aborted | outOfRange
  | unimplemented | internal | unavailable | dataLoss | unauthenticated
  deriving DecidableEq, Repr

def Code.string : Code → String
  | .ok => "OK"
  | .canceled => "Canceled"
  | .unknown => "Unknown"
  | .invalidArgument => "InvalidArgument"
  | .deadlineExceeded => "DeadlineExceeded"
  | .notFound => "NotFound"
  | .alreadyExists => "AlreadyExists"
  | .permissionDenied => "PermissionDenied"
  | .resourceExhausted => "ResourceExhausted"
  | .failedPrecondition => "FailedPrecondition"
  | .aborted => "Aborted"
  | .outOfRange => "OutOfRange"
  | .unimplemented => "Unimplemented"
  | .internal => "Internal"
  | .unavailable => "Unavailable"
  | .dataLoss => "DataLoss"
  | .unauthenticated => "Unauthenticated"

/- `ffi` is *FFIStatus, `grpc` a status error of the gRPC library, `wrap` is fmt.Errorf
with a final %w, `join` is errors.Join of two errors. -/
inductive GoError where
  | ffi (code : Status)
  | plain (text : String)
  | grpc (code : Code) (text : String)
  | wrap (before : String) (cause : GoError)
  | join (left right : GoError)
  deriving DecidableEq, Repr

namespace GoError

def text : GoError → String
  | .ffi code => "FFI status: " ++ code.asStrName
  | .plain text => text
  | .grpc code text => "rpc error: code = " ++ code.string ++ " desc = " ++ text
  | .wrap before cause => before ++ cause.text
  | .join left right => left.text ++ "\n" ++ right.text

/- errors.Is with a Status as target: only *FFIStatus answers, the others unwrap. -/
def is : GoError → Status → Bool
  | .ffi code, target => code == target
  | .plain _, _ => false
  | .grpc _ _, _ => false
  | .wrap _ cause, target => cause.is target
  | .join left right, target => left.is target || right.is target

end GoError

def Status.toStatus (s : Status) : Option GoError := if s = .success then none else some (.ffi s)

def errorsJoin : Option GoError → Option GoError → Option GoError
  | none, none => none
  | some e, none => some e
  | none, some e => some e
  | some e, some f => some (.join e f)

def httpStatusFromError : Option GoError → Nat
  | none => 200
  | some err =>
    if err.is .notFound then 404
    else if err.is .invalidArgument || err.is .unsupportedAlgorithm || err.is .invalidKey then 400
    else if err.is .permissionDenied then 403
    else if err.is .unauthenticated then 401
    else if err.is .alreadyExists then 409
    else 500

/- The Go map is ranged over in no fixed order; its keys exclude each other on an error
that carries one FFI status, which is the only kind the custody core returns. -/
def ffiErrorToGrpcCode : List (Status × Code) :=
  [(.notFound,.notFound),(.invalidArgument,.invalidArgument),(.unsupportedAlgorithm,.invalidArgument),
    (.invalidKey,.invalidArgument),(.permissionDenied,.permissionDenied),
    (.unauthenticated,.unauthenticated),(.alreadyExists,.alreadyExists)]

def grpcCodeFromError (err : GoError) : Code :=
  match ffiErrorToGrpcCode.find? (fun row => err.is row.1) with
  | some row => row.2
  | none => .internal

def grpcCodeToFfiStatus : Code → Option Status
  | .notFound => some .notFound
  | .invalidArgument => some .invalidArgument
  | .permissionDenied => some .permissionDenied
  | .unauthenticated => some .unauthenticated
  | .alreadyExists => some .alreadyExists
  | _ => none

/- An error that is no gRPC status, or whose code has no FFI analogue, passes through. -/
def ffiStatusFromGrpcError (err : GoError) : Option GoError :=
  match err with
  | .grpc code _ =>
    if code = .ok then none
    else match grpcCodeToFfiStatus code with
      | some s => s.toStatus
      | none => some err
  | _ => some err

theorem httpStatusOfError (err : GoError) :
    httpStatusFromError (some err) = 404 ∨ httpStatusFromError (some err) = 400 ∨
    httpStatusFromError (some err) = 403 ∨ httpStatusFromError (some err) = 401 ∨
    httpStatusFromError (some err) = 409 ∨ httpStatusFromError (some err) = 500 := by
  simp only [httpStatusFromError]
  repeat' (split; · simp)
  simp

theorem httpStatusNotOk (err : GoError) :
    httpStatusFromError (some err) ≠ 200 ∧ httpStatusFromError (some err) ≠ 204 := by
  rcases httpStatusOfError err with h | h | h | h | h | h <;> rw [h] <;> decide

end KeyProtection
