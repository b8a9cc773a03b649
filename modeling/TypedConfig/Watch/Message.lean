import TypedConfig.Files.Store

namespace TypedConfig.Watch

inductive Change where
  | added | modified | deleted
  deriving DecidableEq, Repr

inductive Message where
  | changed
  | removed
  | replaced
  | timerFired (token : Nat)
  | reattached
  | retryExhausted
  | watchError (detail : String)
  deriving DecidableEq, Repr

structure AttachError where
  path : Path
  reason : String
  deriving DecidableEq, Repr

def AttachError.message (e : AttachError) : String :=
  "failed to watch " ++ e.path.text ++ ": " ++ e.reason

inductive StartError where
  | unwatchable (error : AttachError)
  | inaccessible (error : AccessError)
  deriving DecidableEq, Repr

def StartError.message : StartError → String
  | .unwatchable error => error.message
  | .inaccessible error => error.message

end TypedConfig.Watch
