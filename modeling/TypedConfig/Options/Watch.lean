import TypedConfig.Options.Field
import TypedConfig.Binary64.Basic

namespace TypedConfig

open Options (Fields FieldError readField readAtLeast errorOf)

structure WatchOptions where
  debounce : Nat
  retryAttempts : Nat
  retryInterval : Nat
  deriving DecidableEq, Repr

namespace WatchOptions

def standard : WatchOptions := ⟨100, 10, 100⟩

def ofFields (fields : Fields) : Except (List FieldError) WatchOptions :=
  let debounce := readField fields "debounce_ms" (readAtLeast 0) (some standard.debounce)
  let attempts := readField fields "retry_attempts" (readAtLeast 1) (some standard.retryAttempts)
  let interval :=
    readField fields "retry_interval_ms" (readAtLeast 1) (some standard.retryInterval)
  match debounce, attempts, interval with
  | .ok debounce, .ok attempts, .ok interval =>
    .ok ⟨debounce.toNat, attempts.toNat, interval.toNat⟩
  | _, _, _ => .error (errorOf debounce ++ errorOf attempts ++ errorOf interval)

def seconds? (milliseconds : Nat) : Option Binary64 :=
  let seconds := Binary64.ofQuotient false milliseconds 1000
  if seconds.isInfinite then none else some seconds

end WatchOptions
end TypedConfig
