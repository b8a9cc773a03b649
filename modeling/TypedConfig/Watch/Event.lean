import TypedConfig.Watch.Coordinator

namespace TypedConfig.Watch

inductive Outcome where
  | success
  | failure (message : String)
  | unexpected
  deriving DecidableEq, Repr

inductive Event where
  /-- A watch reports a batch of changes. -/
  | batch (listener : Nat) (changes : List Change)
  | streamFailure (listener : Nat) (detail : String)
  | streamEnd (listener : Nat)
  /-- A job whose time has come goes on. -/
  | wake (sleeper : Sleeper)
  | elapse (time : Nat)
  /-- The scheduler takes its next turn. -/
  | turn
  | regenerated (outcome : Outcome) (reports : List Log.Record)
  | stopRequest

namespace Coordinator

/-- What a batch of changes says of the input, as far as the file that stands there now tells. -/
def messageOf (s : Surroundings) (changes : List Change) (c : Coordinator) : Message :=
  match s.identity with
  | none => .removed
  | some identity =>
    if Change.deleted ∈ changes ∨ c.watchedIdentity ≠ some identity then .replaced else .changed

def receive (s : Surroundings) (listener : Nat) (changes : List Change) (c : Coordinator) :
    Coordinator :=
  if listener ∈ c.listeners ∧ changes ≠ [] then c.post (c.messageOf s changes) else c

def endStream (listener : Nat) (c : Coordinator) : Coordinator :=
  { c with listeners := c.listeners.filter (· ≠ listener) }

def failStream (listener : Nat) (detail : String) (c : Coordinator) : Coordinator :=
  if listener ∈ c.listeners then (c.endStream listener).post (.watchError detail) else c

def wake (s : Surroundings) (sleeper : Sleeper) (c : Coordinator) : Coordinator :=
  if sleeper ∈ c.sleepers ∧ sleeper.due ≤ c.now then
    let c := { c with sleepers := c.sleepers.erase sleeper }
    match sleeper.job with
    | .debounce token => c.post (.timerFired token)
    | .retry number left =>
      if s.identity.isSome then c.post .reattached
      else
        match left with
        | 0 => c.post .retryExhausted
        | left + 1 =>
          let sleeper := ⟨c.now + c.options.retryInterval, .retry number left⟩
          { c with sleepers := c.sleepers ++ [sleeper] }
  else c

/-- A request to stop comes before every message that waits. -/
def turn (s : Surroundings) (c : Coordinator) : Coordinator :=
  if c.phase ≠ .scheduling then c
  else if c.stopRequested then
    c.shutDown.report .info ("Stopped watching " ++ c.inputFile.text)
  else
    match c.queue with
    | [] => c
    | message :: rest => { c with queue := rest }.handle s message

def finish (outcome : Outcome) (reports : List Log.Record) (c : Coordinator) : Coordinator :=
  if c.phase ≠ .regenerating then c
  else
    let c := { c with phase := .scheduling, journal := c.journal ++ reports }
    match outcome with
    | .success => c.report .info "Regeneration complete"
    | .failure message =>
      { c with failures := c.failures + 1 }.report .error ("Regeneration failed: " ++ message)
    | .unexpected =>
      { c with failures := c.failures + 1 }.report .error "Unexpected error during regeneration"

def step (s : Surroundings) (c : Coordinator) : Event → Coordinator
  | .batch listener changes => c.receive s listener changes
  | .streamFailure listener detail => c.failStream listener detail
  | .streamEnd listener => c.endStream listener
  | .wake sleeper => c.wake s sleeper
  | .elapse time => { c with now := c.now + time }
  | .turn => c.turn s
  | .regenerated outcome reports => c.finish outcome reports
  | .stopRequest => { c with stopRequested := true }

end Coordinator
end TypedConfig.Watch
