import TypedConfig.Log
import TypedConfig.Options.Watch
import TypedConfig.Watch.Message

namespace TypedConfig.Watch

inductive Condition where
  | idle | pending | unavailable
  deriving DecidableEq, Repr

def Condition.name : Condition → String
  | .idle => "idle"
  | .pending => "pending"
  | .unavailable => "unavailable"

inductive Phase where
  | created | scheduling | regenerating | ended
  deriving DecidableEq, Repr

inductive Job where
  | debounce (token : Nat)
  | retry (number left : Nat)
  deriving DecidableEq, Repr

structure Sleeper where
  due : Nat
  job : Job
  deriving DecidableEq, Repr

structure Surroundings where
  identity : Option Nat
  obstacle : Option Fault
  refusal : Option String

/-- The fields `timer`, `retry` and `watch` name the jobs that the scheduler knows of, by token or
number. The jobs that are alive are the ones in `sleepers` and `listeners`. -/
structure Coordinator where
  inputFile : Path
  options : WatchOptions
  condition : Condition
  phase : Phase
  stopRequested : Bool
  runs : Nat
  failures : Nat
  retriesStarted : Nat
  queue : List Message
  token : Nat
  timer : Option Nat
  retry : Option Nat
  watch : Option Nat
  watchedIdentity : Option Nat
  watchCalls : Nat
  watches : Nat
  sleepers : List Sleeper
  listeners : List Nat
  now : Nat
  journal : List Log.Record

namespace Coordinator

def new (inputFile : Path) (options : WatchOptions) : Coordinator where
  inputFile
  options
  condition := .idle
  phase := .created
  stopRequested := false
  runs := 0
  failures := 0
  retriesStarted := 0
  queue := []
  token := 0
  timer := none
  retry := none
  watch := none
  watchedIdentity := none
  watchCalls := 0
  watches := 0
  sleepers := []
  listeners := []
  now := 0
  journal := []

def report (level : Log.Level) (message : String) (c : Coordinator) : Coordinator :=
  { c with journal := c.journal ++ [⟨level, message⟩] }

def post (message : Message) (c : Coordinator) : Coordinator :=
  { c with queue := c.queue ++ [message] }

def isTimer (token : Nat) (s : Sleeper) : Bool :=
  s.job == .debounce token

def isRetry (number : Nat) (s : Sleeper) : Bool :=
  match s.job with
  | .retry n _ => n == number
  | .debounce _ => false

def cancelTimer (c : Coordinator) : Coordinator :=
  { c with
    timer := none
    sleepers :=
      match c.timer with
      | some token => c.sleepers.filter (!isTimer token ·)
      | none => c.sleepers
    condition := if c.condition = .pending then .idle else c.condition }

def armTimer (c : Coordinator) : Coordinator :=
  let c := c.cancelTimer
  let token := c.token + 1
  { c with
    token
    timer := some token
    sleepers := c.sleepers ++ [⟨c.now + c.options.debounce, .debounce token⟩]
    condition := .pending }

/-- Looks for the input from now on; a retry that is known to be running goes on alone. -/
def startRetry (c : Coordinator) : Coordinator :=
  let c := { c.cancelTimer with condition := .unavailable }
  match c.retry with
  | some _ => c
  | none =>
    let number := c.retriesStarted + 1
    { c with
      retriesStarted := number
      retry := some number
      sleepers := c.sleepers ++
        [⟨c.now + c.options.retryInterval, .retry number (c.options.retryAttempts - 1)⟩] }

def attach (s : Surroundings) (c : Coordinator) : Except AttachError Unit × Coordinator :=
  let c := { c with watchedIdentity := s.identity, watchCalls := c.watchCalls + 1 }
  match s.refusal with
  | some reason => (.error ⟨c.inputFile, reason⟩, c)
  | none =>
    let number := c.watches + 1
    (.ok (), { c with
      watches := number
      watch := some number
      listeners := c.listeners ++ [number] })

def detach (c : Coordinator) : Coordinator :=
  match c.watch with
  | none => c
  | some number => { c with watch := none, listeners := c.listeners.filter (· ≠ number) }

/-- Watches the input again, or looks for it if that is refused; tells whether it is watched. -/
def reattach (s : Surroundings) (c : Coordinator) : Bool × Coordinator :=
  match c.attach s with
  | (.ok _, c) => (true, c)
  | (.error e, c) =>
    (false,
      (c.report .warning ("Could not watch " ++ c.inputFile.text ++ ": " ++ e.message)).startRetry)

def start (s : Surroundings) (c : Coordinator) : Except StartError Unit × Coordinator :=
  match s.obstacle, s.identity with
  | some fault, _ => (.error (.inaccessible ⟨fault, c.inputFile.text, none⟩), c)
  | none, none => (.error (.unwatchable ⟨c.inputFile, "file does not exist"⟩), c)
  | none, some _ =>
    match c.attach s with
    | (.ok _, c) =>
      (.ok (), { c.report .info ("Watching " ++ c.inputFile.text) with phase := .scheduling })
    | (.error e, c) => (.error (.unwatchable e), c)

/-- A timer that was started again or ended meanwhile counts for nothing when its message is
read. -/
def handleTimer (token : Nat) (c : Coordinator) : Coordinator :=
  if token ≠ c.token ∨ c.timer.isNone then c
  else
    { c.report .info "Change detected, regenerating..." with
      timer := none
      condition := .idle
      runs := c.runs + 1
      phase := .regenerating }

/-- What the scheduler does on reading a message. -/
def handle (s : Surroundings) (c : Coordinator) : Message → Coordinator
  | .changed => c.armTimer
  | .timerFired token => c.handleTimer token
  | .replaced =>
    match ((c.report .info (c.inputFile.text ++ " replaced, re-attaching watch")).detach).reattach s
      with
    | (true, c) => c.armTimer
    | (false, c) => c
  | .removed =>
    let message := c.inputFile.text ++ " removed, waiting for recreation..."
    ((c.report .warning message).detach).startRetry
  | .watchError detail =>
    ((c.report .error ("Watch error on " ++ c.inputFile.text ++ ": " ++ detail)).detach).startRetry
  | .reattached =>
    match { c with retry := none }.reattach s with
    | (true, c) =>
      { c.report .info (c.inputFile.text ++ " recreated, watching again") with
        condition := .idle }.armTimer
    | (false, c) => c
  | .retryExhausted =>
    { c.report .warning ("Could not re-watch " ++ c.inputFile.text ++ " after removal (" ++
        toString c.options.retryAttempts ++ " attempts)") with retry := none }

def shutDown (c : Coordinator) : Coordinator :=
  let known (s : Sleeper) : Bool :=
    (c.timer.any fun token => isTimer token s) || (c.retry.any fun number => isRetry number s)
  { c.detach with
    timer := none
    retry := none
    sleepers := c.sleepers.filter (!known ·)
    condition := .idle
    phase := .ended }

end Coordinator
end TypedConfig.Watch
