import TypedConfig.Generation.Pipeline
import TypedConfig.Watch.Event

namespace TypedConfig.Watch

structure Attempt where
  reading : Option ByteArray
  reports : List Log.Record
  outcome : Outcome

structure Setting where
  regenerate : Nat → FileStore → Attempt × FileStore
  refusal : Nat → Option String

/-- The readings of all attempts are kept, the last one at the end. -/
structure Run where
  store : FileStore
  coordinator : Coordinator
  readings : List (Option ByteArray)

namespace Run

def surroundings (setting : Setting) (r : Run) : Surroundings where
  identity := r.store.identity? r.coordinator.inputFile
  obstacle := r.store.obstacle? r.coordinator.inputFile
  refusal := setting.refusal (r.coordinator.watchCalls + 1)

def step (setting : Setting) (event : Event) (r : Run) : Run :=
  { r with coordinator := r.coordinator.step (r.surroundings setting) event }

def start (setting : Setting) (r : Run) : Except StartError Unit × Run :=
  let (result, coordinator) := r.coordinator.start (r.surroundings setting)
  (result, { r with coordinator })

def regenerate (setting : Setting) (r : Run) : Run :=
  let (attempt, store) := setting.regenerate r.coordinator.runs r.store
  { r with store, readings := r.readings ++ [attempt.reading] }.step setting
    (.regenerated attempt.outcome attempt.reports)

def earliest : List Sleeper → Option Sleeper
  | [] => none
  | s :: rest =>
    match earliest rest with
    | some t => some (if t.due < s.due then t else s)
    | none => some s

def wakeNext (setting : Setting) (limit : Nat) (r : Run) : Option Run :=
  match earliest r.coordinator.sleepers with
  | none => none
  | some sleeper =>
    if limit < sleeper.due then none
    else
      let elapsed := r.step setting (.elapse (sleeper.due - r.coordinator.now))
      some (elapsed.step setting (.wake sleeper))

def next (setting : Setting) (limit : Nat) (r : Run) : Option Run :=
  match r.coordinator.phase with
  | .created | .ended => none
  | .regenerating => some (r.regenerate setting)
  | .scheduling =>
    if r.coordinator.stopRequested ∨ r.coordinator.queue ≠ [] then some (r.step setting .turn)
    else r.wakeNext setting limit

def iterate (setting : Setting) (limit : Nat) : Nat → Run → Run
  | 0, r => r
  | fuel + 1, r =>
    match r.next setting limit with
    | none => r
    | some r => iterate setting limit fuel r

/-- A message leads to one job at most, and a job that goes on leads to one message and one job at
most, no more than five things in each millisecond. -/
def bound (limit : Nat) (r : Run) : Nat :=
  5 * (r.coordinator.queue.length + r.coordinator.sleepers.length + 1) *
    (limit - r.coordinator.now + 2)

def advance (setting : Setting) (time : Nat) (r : Run) : Run :=
  let limit := r.coordinator.now + time
  let r := iterate setting limit (r.bound limit) r
  r.step setting (.elapse (limit - r.coordinator.now))

def react (setting : Setting) (event : Event) (r : Run) : Run :=
  (r.step setting event).advance setting 0

def inject (setting : Setting) (message : Message) (r : Run) : Run :=
  { r with coordinator := r.coordinator.post message }.advance setting 0

def stop (setting : Setting) (r : Run) : Run :=
  r.react setting .stopRequest

def listener (r : Run) : Nat :=
  r.coordinator.watches

end Run
end TypedConfig.Watch

namespace TypedConfig

open Watch (Attempt Outcome Coordinator Run Setting)

namespace GenerateOptions

def outcomeOf : Except GenerationError Path → Outcome
  | .ok _ => .success
  | .error e => if e.isExpected then .failure e.message else .unexpected

def attempt (o : GenerateOptions) (host : Host) (store : FileStore) : Attempt × FileStore :=
  let (result, session) := (o.run host).run ⟨store, []⟩
  (⟨(store.content o.inputFile).toOption, session.journal, outcomeOf result⟩, session.store)

def watchSetting (o : GenerateOptions) (host : Host) (refusal : Nat → Option String) : Setting where
  regenerate _ store := o.attempt host store
  refusal

/-- Generates once, before anything is watched. A failure that a run is prepared for is reported
and does not keep the loop from starting; any other ends it. -/
def generateFirst (o : GenerateOptions) (options : WatchOptions) (host : Host) (store : FileStore) :
    Except GenerationError Run × Session :=
  let (result, session) := (o.run host).run ⟨store, []⟩
  let coordinator := Coordinator.new (store.workingPath.join o.inputFile) options
  let run (session : Session) : Run :=
    ⟨session.store, { coordinator with journal := session.journal },
      [(store.content o.inputFile).toOption]⟩
  match outcomeOf result, result with
  | .failure message, _ =>
    let session := { session with journal := session.journal ++
      [⟨.error, "Initial generation failed: " ++ message⟩,
        ⟨.info, "Continuing to watch for changes..."⟩] }
    (.ok (run session), session)
  | _, .error e => (.error e, session)
  | _, .ok _ => (.ok (run session), session)

end GenerateOptions
end TypedConfig
