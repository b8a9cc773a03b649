import TypedConfig.Watch.Event
import Mathlib.Data.List.Infix

/-!
Histories of a watch loop: what happens to it, moment by moment, from the time it begins to watch.
A moment brings any event and any state of the file system, so every order of messages, every
failure to watch and every delay is in some history.
-/

namespace TypedConfig.Watch

structure Moment where
  surroundings : Surroundings
  event : Event

def Moment.seeing (identity : Option Nat) (event : Event) : Moment :=
  ⟨⟨identity, none, none⟩, event⟩

/-- Whether a message, on being read, makes the loop wait for quiet: it tells of new content, and
the watch that it asks for is granted. -/
def Message.announces (s : Surroundings) : Message → Bool
  | .changed => true
  | .replaced | .reattached => s.refusal.isNone
  | _ => false

def Message.withdraws (s : Surroundings) : Message → Bool
  | .removed | .watchError _ => true
  | .replaced | .reattached => s.refusal.isSome
  | _ => false

namespace Coordinator

/-- A loop that has just begun to watch. An attempt before it may have left records. -/
def Started (c : Coordinator) : Prop :=
  ∃ inputFile options journal s,
    ({ new inputFile options with journal } : Coordinator).start s = (.ok (), c)

def next (c : Coordinator) (m : Moment) : Coordinator :=
  c.step m.surroundings m.event

def after (c : Coordinator) (history : List Moment) : Coordinator :=
  history.foldl next c

/-- Holds of every moment of a history and the state in which it comes. -/
def Along (P : Coordinator → Moment → Prop) (c : Coordinator) : List Moment → Prop
  | [] => True
  | m :: rest => P c m ∧ Along P (c.next m) rest

def reads (c : Coordinator) (m : Moment) : Option Message :=
  match m.event with
  | .turn => if c.phase = .scheduling ∧ c.stopRequested = false then c.queue.head? else none
  | _ => none

def Arms (c : Coordinator) (m : Moment) : Prop :=
  ∃ message, c.reads m = some message ∧ message.announces m.surroundings

def Loses (c : Coordinator) (m : Moment) : Prop :=
  ∃ message, c.reads m = some message ∧ message.withdraws m.surroundings

def Regenerates (c : Coordinator) (m : Moment) : Prop :=
  (c.next m).runs ≠ c.runs

/-- Nothing is read, or only what has no bearing on the timer that runs. -/
def Quiet (c : Coordinator) (m : Moment) : Prop :=
  ∀ message, c.reads m = some message →
    message = .retryExhausted ∨ ∃ token, message = .timerFired token

instance (c : Coordinator) (m : Moment) : Decidable (c.Arms m) :=
  decidable_of_iff ((c.reads m).any (·.announces m.surroundings)) (Option.any_eq_true _ _)

instance (c : Coordinator) (m : Moment) : Decidable (c.Loses m) :=
  decidable_of_iff ((c.reads m).any (·.withdraws m.surroundings)) (Option.any_eq_true _ _)

instance (c : Coordinator) (m : Moment) : Decidable (c.Regenerates m) :=
  inferInstanceAs (Decidable (_ ≠ _))

instance Along.decidable {P : Coordinator → Moment → Prop} [h : ∀ c m, Decidable (P c m)] :
    (c : Coordinator) → (history : List Moment) → Decidable (Along P c history)
  | _, [] => .isTrue trivial
  | c, m :: rest =>
    have := Along.decidable (P := P) (c.next m) rest
    inferInstanceAs (Decidable (P c m ∧ Along P (c.next m) rest))

@[simp]
theorem after_nil (c : Coordinator) : c.after [] = c :=
  rfl

@[simp]
theorem after_cons (c : Coordinator) (m : Moment) (rest : List Moment) :
    c.after (m :: rest) = (c.next m).after rest :=
  rfl

theorem after_append (c : Coordinator) (before rest : List Moment) :
    c.after (before ++ rest) = (c.after before).after rest :=
  List.foldl_append

theorem along_append {P : Coordinator → Moment → Prop} (before rest : List Moment)
    (c : Coordinator) :
    Along P c (before ++ rest) ↔ Along P c before ∧ Along P (c.after before) rest := by
  induction before generalizing c with
  | nil => simp [Along]
  | cons m before ih => simp only [List.cons_append, Along, ih, after_cons, and_assoc]

/-- A property that every moment keeps unless it is of a bad kind holds throughout a history exactly
if no moment is. An invariant may help to see it kept. -/
theorem forall_prefix_iff_along {I P : Coordinator → Prop} {Bad : Coordinator → Moment → Prop}
    (hinvariant : ∀ c m, I c → I (c.next m))
    (hstep : ∀ c m, I c → P c → (P (c.next m) ↔ ¬ Bad c m)) {c : Coordinator} (hI : I c) (hP : P c)
    (history : List Moment) :
    (∀ before, before <+: history → P (c.after before)) ↔
      Along (fun c m => ¬ Bad c m) c history := by
  induction history generalizing c with
  | nil => exact iff_of_true (fun before hb => by rwa [List.prefix_nil.1 hb]) trivial
  | cons m rest ih =>
      constructor
      · intro hall
        have hnext : P (c.next m) := hall [m] (List.cons_prefix_cons.2 ⟨rfl, List.nil_prefix⟩)
        refine ⟨(hstep c m hI hP).1 hnext, (ih (hinvariant c m hI) hnext).1 fun before hb => ?_⟩
        exact hall (m :: before) (List.cons_prefix_cons.2 ⟨rfl, hb⟩)
      · rintro ⟨hgood, hrest⟩ before hb
        cases before with
        | nil => exact hP
        | cons m' before =>
            obtain ⟨rfl, hbefore⟩ := List.cons_prefix_cons.1 hb
            exact (ih (hinvariant c m' hI) ((hstep c m' hI hP).2 hgood)).2 hrest before hbefore

theorem startRetry_of_some {c : Coordinator} {number : Nat} (h : c.retry = some number) :
    c.startRetry = { c.cancelTimer with condition := .unavailable } := by
  simp only [startRetry, cancelTimer, h]

theorem startRetry_of_none {c : Coordinator} (h : c.retry = none) :
    c.startRetry = { c.cancelTimer with
      condition := .unavailable
      retriesStarted := c.retriesStarted + 1
      retry := some (c.retriesStarted + 1)
      sleepers := c.cancelTimer.sleepers ++
        [⟨c.now + c.options.retryInterval,
          .retry (c.retriesStarted + 1) (c.options.retryAttempts - 1)⟩] } := by
  simp only [startRetry, cancelTimer, h]

theorem reattach_of_granted {s : Surroundings} (h : s.refusal = none) (c : Coordinator) :
    c.reattach s = (true, (c.attach s).2) := by
  simp only [reattach, attach, h]

theorem reattach_of_refused {s : Surroundings} {reason : String} (h : s.refusal = some reason)
    (c : Coordinator) :
    c.reattach s = (false, ((c.attach s).2.report .warning ("Could not watch " ++
      c.inputFile.text ++ ": " ++ AttachError.message ⟨c.inputFile, reason⟩)).startRetry) := by
  simp only [reattach, attach, h]

/-- What a loop knows when it begins: one watch is alive, and nothing has happened yet. -/
theorem Started.eq {c : Coordinator} (h : Started c) :
    ∃ inputFile options identity journal,
      c = { new inputFile options with
        phase := .scheduling
        watch := some 1
        watchedIdentity := identity
        watchCalls := 1
        watches := 1
        listeners := [1]
        journal } := by
  obtain ⟨inputFile, options, journal, s, h⟩ := h
  simp only [start, attach] at h
  split at h
  · cases h
  · cases h
  · cases hs : s.refusal with
    | some reason => simp only [hs] at h; cases h
    | none => simp only [hs] at h; cases h; exact ⟨_, _, _, _, rfl⟩

theorem turn_of_reads {c : Coordinator} {m : Moment} {message : Message}
    (h : c.reads m = some message) :
    m.event = .turn ∧ c.phase = .scheduling ∧ c.stopRequested = false ∧
      c.queue = message :: c.queue.tail := by
  unfold reads at h
  split at h
  · split at h
    · rename_i hturn hon
      exact ⟨hturn, hon.1, hon.2, List.eq_cons_of_mem_head? h⟩
    · cases h
  · cases h

/-- Reading a message takes it from the queue and handles it. -/
theorem next_of_reads {c : Coordinator} {m : Moment} {message : Message}
    (h : c.reads m = some message) :
    c.next m = { c with queue := c.queue.tail }.handle m.surroundings message := by
  obtain ⟨hturn, hphase, hstop, hqueue⟩ := turn_of_reads h
  rw [next, hturn, step, turn, if_neg (by simp [hphase]), if_neg (by simp [hstop]), hqueue]
  rfl

/-- Without a message to read, the scheduler stops or does nothing in its turn. -/
theorem next_turn_of_silent {c : Coordinator} {s : Surroundings}
    (hread : c.reads ⟨s, .turn⟩ = none) :
    c.next ⟨s, .turn⟩ = c ∨
      c.next ⟨s, .turn⟩ = c.shutDown.report .info ("Stopped watching " ++ c.inputFile.text) := by
  simp only [next, step, turn]
  split
  · exact .inl rfl
  · rename_i hphase
    split
    · exact .inr rfl
    · rename_i hstop
      have hempty : c.queue = [] := by simpa [reads, not_not.1 hphase, hstop] using hread
      simp only [hempty, true_or]

/-- A loop that has ended stays as it ended. -/
theorem ended_next {c : Coordinator} (h : c.phase = .ended) (m : Moment) :
    (c.next m).phase = .ended := by
  obtain ⟨s, event⟩ := m
  cases event with
  | batch listener changes =>
      simp only [next, step, receive]
      split <;> exact h
  | streamFailure listener detail =>
      simp only [next, step, failStream]
      split <;> exact h
  | wake sleeper =>
      simp only [next, step, wake]
      repeat' split
      all_goals exact h
  | turn => simp [next, step, turn, h]
  | regenerated outcome reports => simp [next, step, finish, h]
  | streamEnd | elapse | stopRequest => exact h

theorem ended_after {c : Coordinator} (h : c.phase = .ended) (history : List Moment) :
    (c.after history).phase = .ended := by
  induction history generalizing c with
  | nil => exact h
  | cons m rest ih => exact ih (ended_next h m)

def watching : Coordinator :=
  ((new ⟨.slash, ["config.toml"]⟩ .standard).start ⟨some 1, none, none⟩).2

theorem started_watching : Started watching :=
  ⟨⟨.slash, ["config.toml"]⟩, .standard, [], ⟨some 1, none, none⟩, rfl⟩

end Coordinator
end TypedConfig.Watch
