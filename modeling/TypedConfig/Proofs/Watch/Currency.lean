import TypedConfig.Proofs.Watch.Debounce
import TypedConfig.Proofs.Watch.Turns
import TypedConfig.Watch.Run
import Mathlib.Logic.Relation

/-!
A watch loop over an input that others rewrite at any moment. Every watch reports all changes of the
input that are made while it is alive, though it may take its time. Main statement: when nothing is
left to do, what the last attempt read is what the input holds now, if and only if a regeneration
has begun since the loop did or the input was still what the first attempt had read when it began to
be watched (`quiescent_current_iff`). The loop does not look whether the input has changed between
the two (`not_all_quiescent_current`).
-/

namespace TypedConfig

namespace GenerateOptions

def input (o : GenerateOptions) (store : FileStore) : Option ByteArray :=
  (store.content o.inputFile).toOption

/-- The loop that follows a first attempt is new, and the attempt read the input. -/
theorem new_of_generateFirst {o : GenerateOptions} {options : WatchOptions} {host : Host}
    {store : FileStore} {first : Watch.Run}
    (h : (o.generateFirst options host store).1 = .ok first) :
    (∃ inputFile journal, first.coordinator =
      { Watch.Coordinator.new inputFile options with journal }) ∧
    first.readings = [o.input store] := by
  simp only [generateFirst] at h
  split at h
  split at h <;> cases h <;> exact ⟨⟨_, _, rfl⟩, rfl⟩

end GenerateOptions

namespace Watch

open Relation

def Event.isPlain : Event → Bool
  | .batch .. | .regenerated .. => false
  | _ => true

/-- A loop, and the watches that still have changes of the input to report. -/
structure Scene where
  run : Run
  unreported : List Nat

namespace Scene

variable {o : GenerateOptions} {s₀ s t : Scene}

/-- What can happen to a loop and to the files it depends on. -/
inductive Step (o : GenerateOptions) : Scene → Scene → Prop
  /-- The files change in any way. If the input does, all watches that are alive have it to
  report. -/
  | rewrite (s : Scene) (store : FileStore) (unreported : List Nat)
      (kept : s.unreported ⊆ unreported)
      (owed : o.input store ≠ o.input s.run.store → s.run.coordinator.listeners ⊆ unreported) :
      Step o s ⟨{ s.run with store }, unreported⟩
  /-- A watch reports what it has to report, or part of it. -/
  | report (s : Scene) (setting : Setting) (listener : Nat) (changes : List Change)
      (unreported : List Nat) (changed : changes ≠ [])
      (others : ∀ n ∈ s.unreported, n ≠ listener → n ∈ unreported) :
      Step o s ⟨s.run.step setting (.batch listener changes), unreported⟩
  /-- The scheduler takes a turn, time passes, a job goes on, a watch ends or fails, or a stop is
  requested. -/
  | act (s : Scene) (setting : Setting) (event : Event) (plain : event.isPlain) :
      Step o s ⟨s.run.step setting event, s.unreported⟩
  /-- The regeneration that goes on reads the input. -/
  | read (s : Scene) (working : s.run.coordinator.phase = .regenerating)
      (unread : s.run.readings.length = s.run.coordinator.runs) :
      Step o s ⟨{ s.run with readings := s.run.readings ++ [o.input s.run.store] }, s.unreported⟩
  /-- The regeneration that goes on ends, after it has read the input. -/
  | finish (s : Scene) (setting : Setting) (outcome : Outcome) (reports : List Log.Record)
      (done : s.run.readings.length = s.run.coordinator.runs + 1) :
      Step o s ⟨s.run.step setting (.regenerated outcome reports), s.unreported⟩

/-- A first attempt is made, then anything happens to the files, and the input is watched from then
on, unless the attempt fails unexpectedly or the watch is refused. -/
def begin? (o : GenerateOptions) (options : WatchOptions) (host : Host)
    (store rewritten : FileStore) (setting : Setting) : Option Scene :=
  match (o.generateFirst options host store).1 with
  | .error _ => none
  | .ok first =>
    match ({ first with store := rewritten } : Run).start setting with
    | (.error _, _) => none
    | (.ok _, run) => some ⟨run, []⟩

def Begins (o : GenerateOptions) (s : Scene) : Prop :=
  ∃ options host store rewritten setting, begin? o options host store rewritten setting = some s

structure Quiescent (s : Scene) : Prop where
  idle : s.run.coordinator.condition = .idle
  scheduling : s.run.coordinator.phase = .scheduling
  watched : ∃ n ∈ s.run.coordinator.listeners, s.run.coordinator.watch = some n
  timer : s.run.coordinator.timer = none
  retry : s.run.coordinator.retry = none
  queue : s.run.coordinator.queue = []
  reported : ∀ n ∈ s.run.coordinator.listeners, n ∉ s.unreported

/-- The last attempt read what the input holds now. -/
def Current (o : GenerateOptions) (s : Scene) : Prop :=
  s.run.readings.getLast? = some (o.input s.run.store)

end Scene

namespace Coordinator

variable {c : Coordinator} {m : Moment}

def Stirred (c : Coordinator) : Prop :=
  c.condition ≠ .idle ∨ ∃ message ∈ c.queue, message.isNews

/-- What is known stays known until the loop ends or a regeneration begins; where nothing is known,
no watch is begun. -/
inductive Stir (c d : Coordinator) : Prop
  | ends (phase : d.phase = .ended)
  | fires (before : c.phase = .scheduling) (phase : d.phase = .regenerating)
      (runs : d.runs = c.runs + 1)
  | knows (stirred : d.Stirred) (phase : d.phase = c.phase) (runs : d.runs = c.runs)
  | rests (calm : ¬ c.Stirred) (listeners : d.listeners ⊆ c.listeners) (phase : d.phase = c.phase)
      (runs : d.runs = c.runs)

theorem stir_next (h : ∀ outcome reports, m.event ≠ .regenerated outcome reports) :
    c.Stir (c.next m) := by
  cases hread : c.reads m with
  | some message =>
      cases turn_next hread with
      | arms _ condition runs phase => exact .knows (.inl (by simp [condition])) phase runs
      | loses _ condition runs phase => exact .knows (.inl (by simp [condition])) phase runs
      | fires _ _ _ runs phase => exact .fires (turn_of_reads hread).2.1 phase runs
      | passes dull condition runs phase =>
          by_cases hstirred : c.Stirred
          · refine .knows (hstirred.imp (by rw [condition]; exact id) ?_) phase runs
            rintro ⟨news, hmem, hnews⟩
            -- the message that has been read is no news, so that the news still waits
            rw [(turn_of_reads hread).2.2.2, List.mem_cons] at hmem
            rw [queue_next_of_dull hread dull]
            obtain rfl | hmem := hmem
            · simp [dull] at hnews
            · exact ⟨news, hmem, hnews⟩
          · exact .rests hstirred (by rw [listeners_next_of_dull hread dull]; exact fun _ => id)
              phase runs
  | none =>
      obtain ⟨-, hended⟩ | calm := calm_next hread
      · exact .ends hended
      · have hphase : (c.next m).phase = c.phase :=
          calm.phase.resolve_right fun ⟨⟨outcome, reports, hevent⟩, _⟩ => h outcome reports hevent
        by_cases hstirred : c.Stirred
        · refine .knows (hstirred.imp (by rw [calm.condition]; exact id) ?_) hphase calm.runs
          exact fun ⟨news, hmem, hnews⟩ => ⟨news, calm.queue.subset hmem, hnews⟩
        · exact .rests hstirred (by rw [calm.listeners]; exact List.filter_subset_self _) hphase
            calm.runs

theorem isNews_messageOf (s : Surroundings) (changes : List Change) (c : Coordinator) :
    (c.messageOf s changes).isNews := by
  unfold messageOf
  split
  · rfl
  · split <;> rfl

/-- A report of a watch that is alive makes the change known. -/
theorem stirred_next_of_batch {s : Surroundings} {listener : Nat} {changes : List Change}
    (h : listener ∈ c.listeners) (hchanges : changes ≠ []) :
    (c.next ⟨s, .batch listener changes⟩).Stirred := by
  refine .inr ⟨c.messageOf s changes, ?_, isNews_messageOf s changes c⟩
  simp only [next, step, receive, if_pos (And.intro h hchanges)]
  exact List.mem_append_right _ (List.mem_singleton_self _)

end Coordinator

namespace Scene

variable {o : GenerateOptions} {s₀ s t : Scene}

def Settled (o : GenerateOptions) (s₀ s : Scene) : Prop :=
  (s.run.coordinator.runs = 0 ∧ s.run.readings = s₀.run.readings ∧
    o.input s.run.store = o.input s₀.run.store) ∨
  (0 < s.run.coordinator.runs ∧ s.Current o)

inductive Fresh (o : GenerateOptions) (s₀ s : Scene) : Prop
  | stirred (stirred : s.run.coordinator.Stirred)
  | unread (unread : s.run.readings.length = s.run.coordinator.runs)
  | unreported (owed : ∀ n ∈ s.run.coordinator.listeners, n ∈ s.unreported)
  | settled (settled : Settled o s₀ s)

structure Tidy (o : GenerateOptions) (s₀ s : Scene) : Prop where
  readings : s.run.readings.length = s.run.coordinator.runs + 1 ∨
    (s.run.coordinator.phase = .regenerating ∧ 0 < s.run.coordinator.runs ∧
      s.run.readings.length = s.run.coordinator.runs)
  fresh : Fresh o s₀ s

/-- Unless the loop ends, things stay tidy while it does anything but end a regeneration, if a
watch that has changes to report has them until the loop knows of them. -/
theorem Tidy.stir {setting : Setting} {event : Event} {unreported : List Nat}
    (h : Tidy o s₀ s) (hevent : ∀ outcome reports, event ≠ .regenerated outcome reports)
    (hkept : (s.run.step setting event).coordinator.Stirred ∨
      ∀ n ∈ s.run.coordinator.listeners, n ∈ s.unreported → n ∈ unreported) :
    (s.run.step setting event).coordinator.phase = .ended ∨
      Tidy o s₀ ⟨s.run.step setting event, unreported⟩ := by
  have hstir : s.run.coordinator.Stir (s.run.step setting event).coordinator :=
    Coordinator.stir_next (m := ⟨s.run.surroundings setting, event⟩) hevent
  have hreadings : (s.run.step setting event).readings = s.run.readings := rfl
  have hstore : (s.run.step setting event).store = s.run.store := rfl
  cases hstir with
  | ends phase => exact .inl phase
  | fires before phase runs =>
      -- no regeneration went on, so that there has been an attempt for each before this one
      have hlength : s.run.readings.length = s.run.coordinator.runs + 1 :=
        h.readings.resolve_right fun ⟨hphase, _⟩ => by simp [before] at hphase
      have hunread : (s.run.step setting event).readings.length =
          (s.run.step setting event).coordinator.runs := by rw [hreadings, runs, hlength]
      exact .inr ⟨.inr ⟨phase, by rw [runs]; omega, hunread⟩, .unread hunread⟩
  | knows stirred phase runs =>
      refine .inr ⟨?_, .stirred stirred⟩
      simpa only [hreadings, phase, runs] using h.readings
  | rests calm listeners phase runs =>
      refine .inr ⟨by simpa only [hreadings, phase, runs] using h.readings, ?_⟩
      obtain hstirred | hkept := hkept
      · exact .stirred hstirred
      · cases h.fresh with
        | stirred stirred => exact absurd stirred calm
        | unread unread => exact .unread (by rw [hreadings, runs, unread])
        | unreported owed =>
          exact .unreported fun n hn => hkept n (listeners hn) (owed n (listeners hn))
        | settled settled =>
            refine .settled ?_
            simpa only [Settled, Current, hreadings, hstore, runs] using settled

theorem Tidy.rewrite (h : Tidy o s₀ s) (store : FileStore) {unreported : List Nat}
    (hkept : s.unreported ⊆ unreported)
    (howed : o.input store ≠ o.input s.run.store → s.run.coordinator.listeners ⊆ unreported) :
    Tidy o s₀ ⟨{ s.run with store }, unreported⟩ := by
  refine ⟨h.readings, ?_⟩
  by_cases hsame : o.input store = o.input s.run.store
  · cases h.fresh with
    | stirred stirred => exact .stirred stirred
    | unread unread => exact .unread unread
    | unreported owed => exact .unreported fun n hn => hkept (owed n hn)
    | settled settled =>
        refine .settled ?_
        simpa only [Settled, Current, hsame] using settled
  · exact .unreported fun n hn => howed hsame hn

/-- What is read while a regeneration goes on is what the input holds at that time. -/
theorem Tidy.read (h : Tidy o s₀ s)
    (hunread : s.run.readings.length = s.run.coordinator.runs) :
    Tidy o s₀
      ⟨{ s.run with readings := s.run.readings ++ [o.input s.run.store] }, s.unreported⟩ := by
  have hruns : 0 < s.run.coordinator.runs := by
    obtain hread | ⟨-, hruns, -⟩ := h.readings
    · omega
    · exact hruns
  refine ⟨.inl ?_, .settled (.inr ⟨hruns, List.getLast?_concat⟩)⟩
  rw [List.length_append, hunread, List.length_singleton]

theorem Tidy.finish {setting : Setting} {outcome : Outcome} {reports : List Log.Record}
    (h : Tidy o s₀ s) (hdone : s.run.readings.length = s.run.coordinator.runs + 1) :
    Tidy o s₀ ⟨s.run.step setting (.regenerated outcome reports), s.unreported⟩ := by
  obtain ⟨⟨⟩, -⟩ | calm := Coordinator.calm_next (c := s.run.coordinator)
    (m := ⟨s.run.surroundings setting, .regenerated outcome reports⟩) rfl
  have hruns : (s.run.step setting (.regenerated outcome reports)).coordinator.runs =
      s.run.coordinator.runs := calm.runs
  refine ⟨.inl (hdone.trans (by rw [hruns])), ?_⟩
  cases h.fresh with
  | stirred stirred =>
      refine .stirred (stirred.imp ?_ ?_)
      · exact fun hlabel => calm.condition.trans_ne hlabel
      · exact fun ⟨news, hmem, hnews⟩ => ⟨news, calm.queue.subset hmem, hnews⟩
  | unread unread => omega
  | unreported owed =>
      refine .unreported fun n hn => owed n ?_
      exact List.filter_subset_self _ (calm.listeners ▸ hn)
  | settled settled =>
      refine .settled ?_
      simp only [Settled, Current, hruns]
      exact settled

theorem Step.ended (h : Step o s t) (hended : s.run.coordinator.phase = .ended) :
    t.run.coordinator.phase = .ended := by
  cases h with
  | rewrite | read => exact hended
  | report setting listener changes =>
      exact Coordinator.ended_next hended ⟨s.run.surroundings setting, .batch listener changes⟩
  | act setting event => exact Coordinator.ended_next hended ⟨s.run.surroundings setting, event⟩
  | finish setting outcome reports =>
      exact Coordinator.ended_next hended
        ⟨s.run.surroundings setting, .regenerated outcome reports⟩

theorem Step.tidy (h : Step o s t) (ht : Tidy o s₀ s) :
    t.run.coordinator.phase = .ended ∨ Tidy o s₀ t := by
  cases h with
  | rewrite store unreported kept owed => exact .inr (ht.rewrite store kept owed)
  | report setting listener changes unreported changed others =>
      refine ht.stir (by simp) ?_
      by_cases hlive : listener ∈ s.run.coordinator.listeners
      · exact .inl (Coordinator.stirred_next_of_batch hlive changed)
      · exact .inr fun n hn hmem => others n hmem fun heq => hlive (heq ▸ hn)
  | act setting event plain =>
      refine ht.stir ?_ (.inr fun _ _ => id)
      rintro outcome reports rfl
      cases plain
  | read working unread => exact .inr (ht.read unread)
  | finish setting outcome reports done => exact .inr (ht.finish done)

theorem tidy_of_reachable (h₀ : Tidy o s₀ s₀) (h : ReflTransGen (Step o) s₀ s) :
    s.run.coordinator.phase = .ended ∨ Tidy o s₀ s := by
  induction h with
  | refl => exact .inr h₀
  | tail _ step ih =>
      obtain hended | htidy := ih
      · exact .inl (step.ended hended)
      · exact step.tidy htidy

/-- When nothing is left to do, no change has gone unread since the loop began. -/
theorem Tidy.settled (h : Tidy o s₀ s) (hquiet : s.Quiescent) : Settled o s₀ s := by
  cases h.fresh with
  | settled settled => exact settled
  | stirred stirred =>
      obtain hlabel | ⟨news, hmem, -⟩ := stirred
      · exact absurd hquiet.idle hlabel
      · simp [hquiet.queue] at hmem
  | unread unread =>
      obtain hread | ⟨hworking, -⟩ := h.readings
      · omega
      · simp [hquiet.scheduling] at hworking
  | unreported owed =>
      obtain ⟨n, hn, -⟩ := hquiet.watched
      exact absurd (owed n hn) (hquiet.reported n hn)

theorem Begins.started (h : Begins o s) : s.run.coordinator.Started ∧
    s.run.readings.length = 1 ∧ s.unreported = [] := by
  obtain ⟨options, host, store, rewritten, setting, h⟩ := h
  simp only [begin?] at h
  split at h
  · cases h
  · rename_i first hfirst
    obtain ⟨⟨inputFile, journal, hnew⟩, hread⟩ := GenerateOptions.new_of_generateFirst hfirst
    split at h
    · cases h
    · rename_i run hstart
      cases h
      simp only [Run.start, Prod.mk.injEq] at hstart
      obtain ⟨hok, rfl⟩ := hstart
      rw [hnew] at hok ⊢
      exact ⟨⟨inputFile, options, journal, _, Prod.ext hok rfl⟩, by rw [hread]; rfl, rfl⟩

/-- A loop that has just begun has nothing to do. -/
theorem Begins.quiescent (h : Begins o s) : s.Quiescent := by
  obtain ⟨hstarted, -, hnone⟩ := h.started
  obtain ⟨inputFile, options, identity, journal, heq⟩ := hstarted.eq
  constructor <;> simp [heq, hnone, Coordinator.new]

theorem Begins.tidy (h : Begins o s) : Tidy o s s := by
  obtain ⟨hstarted, hread, -⟩ := h.started
  have hruns : s.run.coordinator.runs = 0 := congrArg Clockwork.runs hstarted.clockwork
  exact ⟨.inl (by rw [hread, hruns]), .settled (.inl ⟨hruns, rfl, rfl⟩)⟩

/-- Whatever has happened to a loop and its input, when nothing is left to do the last attempt read
what the input holds now, exactly if a regeneration has begun or the first attempt read what the
input held when it began to be watched. -/
theorem quiescent_current_iff (hbegins : Begins o s₀) (hreachable : ReflTransGen (Step o) s₀ s)
    (hquiet : s.Quiescent) :
    s.Current o ↔ s₀.Current o ∨ 0 < s.run.coordinator.runs := by
  have htidy := (tidy_of_reachable hbegins.tidy hreachable).resolve_left
    (by simp [hquiet.scheduling])
  obtain ⟨hruns, hreadings, hinput⟩ | ⟨hruns, hcurrent⟩ := htidy.settled hquiet
  · rw [Current, Current, hreadings, hinput, hruns]
    simp
  · exact iff_of_true hcurrent (.inr hruns)

def Tracked (r : Run) : Prop :=
  r.coordinator.phase = .ended ∨
    r.readings.length = r.coordinator.runs + if r.coordinator.phase = .regenerating then 0 else 1

theorem Tracked.step {r : Run} {setting : Setting} {event : Event} (h : Tracked r)
    (hevent : ∀ outcome reports, event ≠ .regenerated outcome reports) :
    Tracked (r.step setting event) := by
  have hstir : r.coordinator.Stir (r.step setting event).coordinator :=
    Coordinator.stir_next (m := ⟨r.surroundings setting, event⟩) hevent
  have hreadings : (r.step setting event).readings = r.readings := rfl
  cases hstir with
  | ends phase => exact .inl phase
  | fires before phase runs =>
      obtain hended | hlength := h
      · simp [before] at hended
      · simp only [before, reduceCtorEq, if_false] at hlength
        exact .inr (by rw [hreadings, phase, runs, hlength, if_pos rfl])
  | knows _ phase runs | rests _ _ phase runs =>
      simpa only [Tracked, hreadings, phase, runs] using h

theorem Tracked.finish {r : Run} (hworking : r.coordinator.phase = .regenerating)
    (hdone : r.readings.length = r.coordinator.runs + 1) (setting : Setting) (outcome : Outcome)
    (reports : List Log.Record) : Tracked (r.step setting (.regenerated outcome reports)) := by
  have hphase : (r.coordinator.finish outcome reports).phase = .scheduling ∧
      (r.coordinator.finish outcome reports).runs = r.coordinator.runs := by
    rw [Coordinator.finish, if_neg (by simp [hworking])]
    cases outcome <;> exact ⟨rfl, rfl⟩
  refine .inr ?_
  simp only [Run.step, Coordinator.step, hphase, hdone, reduceCtorEq, if_false]

/-- A regeneration reads the input, writes files, and ends. -/
theorem steps_regenerate {r : Run} (h : Tracked r) (hworking : r.coordinator.phase = .regenerating)
    (host : Host) (refusal : Nat → Option String) (unreported : List Nat) :
    Tracked (r.regenerate (o.watchSetting host refusal)) ∧
      ∃ after, ReflTransGen (Step o) ⟨r, unreported⟩
        ⟨r.regenerate (o.watchSetting host refusal), after⟩ := by
  have hunread : r.readings.length = r.coordinator.runs := by
    simpa [Tracked, hworking] using h
  let reading : Run := { r with readings := r.readings ++ [o.input r.store] }
  let written : Run := { reading with store := (o.attempt host r.store).2 }
  have hdone : written.readings.length = written.coordinator.runs + 1 := by
    simp [written, reading, hunread]
  have hread : Step o ⟨r, unreported⟩ ⟨reading, unreported⟩ := .read _ hworking hunread
  have hwritten : Step o ⟨reading, unreported⟩
      ⟨written, unreported ++ r.coordinator.listeners⟩ :=
    .rewrite _ _ _ (List.subset_append_left _ _) fun _ => List.subset_append_right _ _
  have hfinished := Step.finish (o := o) ⟨written, unreported ++ r.coordinator.listeners⟩
    (o.watchSetting host refusal) (o.attempt host r.store).1.outcome
    (o.attempt host r.store).1.reports hdone
  exact ⟨.finish (r := written) hworking hdone _ _ _, _,
    .tail (.tail (.single hread) hwritten) hfinished⟩

theorem steps_wakeNext {r r' : Run} {setting : Setting} {limit : Nat} (h : Tracked r)
    (hnext : r.wakeNext setting limit = some r') (unreported : List Nat) :
    Tracked r' ∧ ReflTransGen (Step o) ⟨r, unreported⟩ ⟨r', unreported⟩ := by
  simp only [Run.wakeNext] at hnext
  split at hnext
  · cases hnext
  · rename_i sleeper _
    split at hnext
    · cases hnext
    · cases hnext
      have helapse := Step.act (o := o) ⟨r, unreported⟩ setting
        (.elapse (sleeper.due - r.coordinator.now)) rfl
      exact ⟨(h.step (by simp)).step (by simp), .tail (.single helapse) (.act _ setting _ rfl)⟩

/-- The next thing that the loop does by itself. -/
theorem steps_next {r r' : Run} {host : Host} {refusal : Nat → Option String} {limit : Nat}
    (h : Tracked r) (hnext : r.next (o.watchSetting host refusal) limit = some r')
    (unreported : List Nat) :
    Tracked r' ∧ ∃ after, ReflTransGen (Step o) ⟨r, unreported⟩ ⟨r', after⟩ := by
  cases hphase : r.coordinator.phase with
  | created | ended => simp [Run.next, hphase] at hnext
  | regenerating =>
      simp only [Run.next, hphase, Option.some.injEq] at hnext
      exact hnext ▸ steps_regenerate h hphase host refusal unreported
  | scheduling =>
      simp only [Run.next, hphase] at hnext
      split at hnext
      · cases hnext
        exact ⟨h.step (by simp), _, .single (.act ⟨r, unreported⟩ _ .turn rfl)⟩
      · obtain ⟨htracked, hsteps⟩ := steps_wakeNext h hnext unreported
        exact ⟨htracked, _, hsteps⟩

theorem steps_iterate {r : Run} (h : Tracked r) (host : Host) (refusal : Nat → Option String)
    (limit fuel : Nat) (unreported : List Nat) :
    Tracked (r.iterate (o.watchSetting host refusal) limit fuel) ∧ ∃ after,
      ReflTransGen (Step o) ⟨r, unreported⟩
        ⟨r.iterate (o.watchSetting host refusal) limit fuel, after⟩ := by
  induction fuel generalizing r unreported with
  | zero => exact ⟨h, _, .refl⟩
  | succ fuel ih =>
      simp only [Run.iterate]
      cases hnext : r.next (o.watchSetting host refusal) limit with
      | none => exact ⟨h, _, .refl⟩
      | some r' =>
          obtain ⟨htracked, between, hfirst⟩ := steps_next h hnext unreported
          obtain ⟨hend, after, hrest⟩ := ih htracked between
          exact ⟨hend, after, hfirst.trans hrest⟩

/-- All that the loop does by itself in a time. -/
theorem steps_advance {r : Run} (h : Tracked r) (host : Host) (refusal : Nat → Option String)
    (time : Nat) (unreported : List Nat) :
    Tracked (r.advance (o.watchSetting host refusal) time) ∧ ∃ after,
      ReflTransGen (Step o) ⟨r, unreported⟩
        ⟨r.advance (o.watchSetting host refusal) time, after⟩ := by
  obtain ⟨htracked, between, hsteps⟩ := steps_iterate (o := o) h host refusal
    (r.coordinator.now + time) (r.bound (r.coordinator.now + time)) unreported
  exact ⟨htracked.step (by simp), between, hsteps.tail (.act ⟨_, between⟩ _ (.elapse _) rfl)⟩

theorem Begins.tracked (h : Begins o s) : Tracked s.run := by
  obtain ⟨hstarted, hread, -⟩ := h.started
  obtain ⟨inputFile, options, identity, journal, heq⟩ := hstarted.eq
  exact .inr (by rw [hread, heq]; rfl)

/-- A loop left to itself from its beginning on is one of those that the main statement is about. -/
theorem Begins.reaches_advance (h : Begins o s) (host : Host) (refusal : Nat → Option String)
    (time : Nat) : ∃ after, ReflTransGen (Step o) s
      ⟨s.run.advance (o.watchSetting host refusal) time, after⟩ :=
  (steps_advance h.tracked host refusal time s.unreported).2

def followed : GenerateOptions :=
  ⟨⟨.none, ["config.toml"]⟩, ⟨.none, ["config.go"]⟩, "", false, Loader.defaultLimit, .static, false⟩

def holding (text : String) : FileStore :=
  ⟨[(["config.toml"], ⟨1, text.toUTF8⟩)], [], [], 2⟩

def granting : Setting :=
  followed.watchSetting ⟨[], none⟩ fun _ => none

def rewrittenEarly? : Option Scene :=
  begin? followed .standard ⟨[], none⟩ (holding "") (holding "a = 1\n") granting

theorem isSome_rewrittenEarly? : rewrittenEarly?.isSome := by
  decide +kernel

def rewrittenEarly : Scene :=
  rewrittenEarly?.get isSome_rewrittenEarly?

theorem begins_rewrittenEarly : Begins followed rewrittenEarly :=
  ⟨_, _, _, _, _, (Option.some_get isSome_rewrittenEarly?).symm⟩

/-- The loop has nothing to do, though it has never read what the input holds. -/
theorem not_all_quiescent_current : ¬ ∀ (o : GenerateOptions) (s₀ s : Scene), Begins o s₀ →
    ReflTransGen (Step o) s₀ s → s.Quiescent → s.Current o := by
  intro h
  refine absurd (h followed _ _ begins_rewrittenEarly .refl begins_rewrittenEarly.quiescent) ?_
  rw [Current]
  decide +kernel

def rewrittenAgain : Scene :=
  let events : List Event := [.batch 1 [.modified], .turn, .elapse 100,
    .wake ⟨100, .debounce 1⟩, .turn]
  ⟨events.foldl (fun run event => run.step granting event)
    { rewrittenEarly.run with store := holding "a = 2\n" }, []⟩

def reread : Scene :=
  ⟨{ rewrittenAgain.run with
      readings := rewrittenAgain.run.readings ++ [followed.input rewrittenAgain.run.store] }.step
    granting (.regenerated .success []), []⟩

theorem rewrittenAgain_state : rewrittenAgain.run.coordinator.phase = .regenerating ∧
    rewrittenAgain.run.coordinator.runs = 1 ∧ rewrittenAgain.run.readings.length = 1 := by
  decide +kernel

theorem reread_state :
    let c := reread.run.coordinator
    c.condition = .idle ∧ c.phase = .scheduling ∧ c.listeners = [1] ∧ c.watch = some 1 ∧
      c.timer = none ∧ c.retry = none ∧ c.queue = [] ∧ c.runs = 1 := by
  decide +kernel

theorem quiescent_reread : reread.Quiescent := by
  obtain ⟨hidle, hphase, hlisteners, hwatch, htimer, hretry, hqueue, -⟩ := reread_state
  refine ⟨hidle, hphase, ⟨1, ?_, hwatch⟩, htimer, hretry, hqueue, fun n _ => List.not_mem_nil⟩
  rw [hlisteners]
  exact List.mem_singleton_self 1

theorem reachable_reread : ReflTransGen (Step followed) rewrittenEarly reread := by
  obtain ⟨inputFile, options, identity, journal, heq⟩ := begins_rewrittenEarly.started.1.eq
  have hlisteners : rewrittenEarly.run.coordinator.listeners ⊆ [1] := by
    rw [heq]
    exact List.Subset.refl _
  have hnone : rewrittenEarly.unreported ⊆ [1] := by
    rw [begins_rewrittenEarly.started.2.2]
    exact List.nil_subset _
  obtain ⟨hworking, hruns, hread⟩ := rewrittenAgain_state
  have hagain : ReflTransGen (Step followed) rewrittenEarly rewrittenAgain :=
    .tail (.tail (.tail (.tail (.tail (.single
      (.rewrite _ (holding "a = 2\n") [1] hnone fun _ => hlisteners))
      (.report _ granting 1 [.modified] [] (by decide) (by simp)))
      (.act _ granting .turn rfl)) (.act _ granting (.elapse 100) rfl))
      (.act _ granting (.wake ⟨100, .debounce 1⟩) rfl)) (.act _ granting .turn rfl)
  refine .tail (.tail hagain (.read _ hworking (hread.trans hruns.symm)))
    (.finish _ granting .success [] ?_)
  rw [List.length_append, hread, hruns, List.length_singleton]

/-- The regeneration has made up for what the first attempt had missed. -/
theorem current_reread : Begins followed rewrittenEarly ∧
    ReflTransGen (Step followed) rewrittenEarly reread ∧ reread.Quiescent ∧
    reread.Current followed :=
  have hruns : 0 < reread.run.coordinator.runs := reread_state.2.2.2.2.2.2.2 ▸ Nat.one_pos
  ⟨begins_rewrittenEarly, reachable_reread, quiescent_reread,
    (quiescent_current_iff begins_rewrittenEarly reachable_reread quiescent_reread).2 (.inr hruns)⟩

end Scene
end Watch
end TypedConfig
