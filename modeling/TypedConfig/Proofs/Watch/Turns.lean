import TypedConfig.Proofs.Watch.Attachment
import TypedConfig.Proofs.Watch.Clockwork

namespace TypedConfig.Watch

def Event.ends? : Event → Option Nat
  | .streamFailure listener _ | .streamEnd listener => some listener
  | _ => none

def Message.attaches (s : Surroundings) : Message → Bool
  | .replaced | .reattached => s.refusal.isNone
  | _ => false

def Message.isNews : Message → Bool
  | .timerFired _ | .retryExhausted => false
  | _ => true

theorem Message.isNews_iff (s : Surroundings) (message : Message) :
    message.isNews ↔ message.announces s ∨ message.withdraws s := by
  cases message <;> cases hs : s.refusal <;> simp [isNews, announces, withdraws, hs]

/-- A message that asks for a watch either is granted one or makes the loop look for its input. -/
theorem Message.attaches_eq_false_of_withdraws {s : Surroundings} {message : Message}
    (h : message.withdraws s) : message.attaches s = false := by
  cases message <;> simp_all [withdraws, attaches, Option.isSome_iff_ne_none]

theorem Message.attaches_of_announces {s : Surroundings} {message : Message}
    (h : message.announces s) (hne : message ≠ .changed) : message.attaches s := by
  cases message <;> simp_all [announces, attaches]

theorem Message.withdraws_eq_false_of_announces {s : Surroundings} {message : Message}
    (h : message.announces s) : message.withdraws s = false := by
  cases message <;> simp_all [announces, withdraws]

namespace Coordinator

variable {c d : Coordinator} {m : Moment} {message : Message}

def spared (c : Coordinator) : Message → List Nat
  | .removed | .replaced | .watchError _ => c.detach.listeners
  | _ => c.listeners

/-- All that reading a message can do to the label and to the runs. -/
inductive Turn (c : Coordinator) (s : Surroundings) (message : Message) (d : Coordinator) : Prop
  | arms (announces : message.announces s) (condition : d.condition = .pending)
      (runs : d.runs = c.runs) (phase : d.phase = c.phase)
  | loses (withdraws : message.withdraws s) (condition : d.condition = .unavailable)
      (runs : d.runs = c.runs) (phase : d.phase = c.phase)
  | fires (dull : message.isNews = false) (armed : c.timer.isSome) (condition : d.condition = .idle)
      (runs : d.runs = c.runs + 1) (phase : d.phase = .regenerating)
  | passes (dull : message.isNews = false) (condition : d.condition = c.condition)
      (runs : d.runs = c.runs) (phase : d.phase = c.phase)

structure Calm (c : Coordinator) (event : Event) (d : Coordinator) : Prop where
  condition : d.condition = c.condition
  runs : d.runs = c.runs
  queue : c.queue <+: d.queue
  listeners : d.listeners = c.listeners.filter (event.ends? ≠ some ·)
  phase : d.phase = c.phase ∨ (∃ outcome reports, event = .regenerated outcome reports) ∧
    c.phase = .regenerating ∧ d.phase = .scheduling

theorem Calm.ended {event : Event} (h : c.Calm event d) : d.phase = .ended ↔ c.phase = .ended := by
  obtain hsame | ⟨-, hbefore, hafter⟩ := h.phase
  · rw [hsame]
  · simp [hbefore, hafter]

@[simp]
theorem phase_detach (c : Coordinator) : c.detach.phase = c.phase := by
  unfold detach
  split <;> rfl

@[simp]
theorem phase_startRetry (c : Coordinator) : c.startRetry.phase = c.phase := by
  cases hr : c.retry with
  | none => rw [startRetry_of_none hr]; rfl
  | some number => rw [startRetry_of_some hr]; rfl

@[simp]
theorem phase_reattach (s : Surroundings) (c : Coordinator) :
    (c.reattach s).2.phase = c.phase := by
  cases hs : s.refusal with
  | none => rw [reattach_of_granted hs, attach, hs]
  | some reason =>
      rw [reattach_of_refused hs, phase_startRetry, attach, hs]
      rfl

/-- What the timer has no part in is, after a replaced input has been handled, as the new watch or
its refusal left it. -/
theorem handle_replaced {α : Type} (f : Coordinator → α) (hf : ∀ d, f (armTimer d) = f d)
    (s : Surroundings) (c : Coordinator) :
    f (c.handle s .replaced) = f (((c.report .info
      (c.inputFile.text ++ " replaced, re-attaching watch")).detach).reattach s).2 := by
  simp only [handle]
  split
  · rename_i d heq
    rw [heq, hf]
  · rename_i d heq
    rw [heq]

theorem handle_reattached {α : Type} (f : Coordinator → α)
    (hf : ∀ d level text, f (armTimer { report level text d with condition := .idle }) = f d)
    (s : Surroundings) (c : Coordinator) :
    f (c.handle s .reattached) = f (({ c with retry := none } : Coordinator).reattach s).2 := by
  simp only [handle]
  split
  · rename_i d heq
    rw [heq, hf]
  · rename_i d heq
    rw [heq]

theorem phase_handle_of_isNews (s : Surroundings) (h : message.isNews) (c : Coordinator) :
    (c.handle s message).phase = c.phase := by
  have hreport (level : Log.Level) (text : String) : (c.report level text).phase = c.phase := rfl
  cases message with
  | timerFired | retryExhausted => cases h
  | changed => rfl
  | removed | watchError => simp only [handle, phase_startRetry, phase_detach, hreport]
  | replaced =>
      rw [handle_replaced phase (fun _ => rfl), phase_reattach, phase_detach, hreport]
  | reattached => rw [handle_reattached phase (fun _ _ _ => rfl), phase_reattach]

theorem turn_handle (s : Surroundings) (message : Message) (c : Coordinator) :
    c.Turn s message (c.handle s message) := by
  by_cases ha : message.announces s
  · have hclock := clockwork_handle_of_announces ha c
    exact .arms ha (congrArg Clockwork.condition hclock) (congrArg Clockwork.runs hclock)
      (phase_handle_of_isNews s ((Message.isNews_iff s message).2 (.inl ha)) c)
  by_cases hw : message.withdraws s
  · have hclock := clockwork_handle_of_withdraws hw c
    exact .loses hw (congrArg Clockwork.condition hclock) (congrArg Clockwork.runs hclock)
      (phase_handle_of_isNews s ((Message.isNews_iff s message).2 (.inr hw)) c)
  -- a firing or the end of a retry
  have hdull : message.isNews = false := by
    rw [Bool.eq_false_iff, Ne, Message.isNews_iff s message, not_or]
    exact ⟨ha, hw⟩
  cases message with
  | timerFired token =>
      simp only [handle, handleTimer]
      split
      · exact .passes rfl rfl rfl rfl
      · rename_i hcurrent
        exact .fires rfl (by simpa [Option.isSome_iff_ne_none] using (not_or.1 hcurrent).2)
          rfl rfl rfl
  | retryExhausted => exact .passes rfl rfl rfl rfl
  | changed | removed | replaced | reattached | watchError => cases hdull

theorem listeners_reattach (s : Surroundings) (c : Coordinator) :
    (c.reattach s).2.listeners =
      c.listeners ++ if s.refusal.isNone then [c.watches + 1] else [] := by
  cases hs : s.refusal with
  | none => rw [reattach_of_granted hs, (attach_of_granted hs c).1]; rfl
  | some reason =>
      rw [reattach_of_refused hs, (startRetry_keeps _).1]
      exact (attach_of_refused hs c).1.trans (List.append_nil _).symm

theorem watches_detach (c : Coordinator) : c.detach.watches = c.watches := by
  unfold detach
  split <;> rfl

/-- The watches alive after a message has been read: those that it spares, and the one that it
begins. -/
theorem listeners_handle (s : Surroundings) (message : Message) (c : Coordinator) :
    (c.handle s message).listeners =
      c.spared message ++ if message.attaches s then [c.watches + 1] else [] := by
  have hdetach (level : Log.Level) (text : String) :
      (c.report level text).detach.listeners = c.detach.listeners := by
    simp only [detach, report]
    split <;> rfl
  cases message with
  | changed | retryExhausted => exact (List.append_nil _).symm
  | timerFired token =>
      simp only [handle, handleTimer, Message.attaches, spared, Bool.false_eq_true, if_false,
        List.append_nil]
      split <;> rfl
  | removed | watchError =>
      simp only [handle, (startRetry_keeps _).1, hdetach, Message.attaches, spared,
        Bool.false_eq_true, if_false, List.append_nil]
  | replaced =>
      rw [handle_replaced listeners (fun _ => rfl), listeners_reattach, hdetach, watches_detach]
      rfl
  | reattached =>
      rw [handle_reattached listeners (fun _ _ _ => rfl), listeners_reattach]
      rfl

theorem turn_next (hread : c.reads m = some message) :
    c.Turn m.surroundings message (c.next m) := by
  rw [next_of_reads hread]
  cases turn_handle m.surroundings message { c with queue := c.queue.tail } with
  | arms announces condition runs phase => exact .arms announces condition runs phase
  | loses withdraws condition runs phase => exact .loses withdraws condition runs phase
  | fires dull armed condition runs phase => exact .fires dull armed condition runs phase
  | passes dull condition runs phase => exact .passes dull condition runs phase

theorem listeners_next (hread : c.reads m = some message) :
    (c.next m).listeners =
      c.spared message ++ if message.attaches m.surroundings then [c.watches + 1] else [] := by
  have hspared : spared { c with queue := c.queue.tail } message = c.spared message := by
    cases hw : c.watch <;> cases message <;> simp only [spared, detach, hw]
  rw [next_of_reads hread, listeners_handle, hspared]

/-- A message that tells nothing of the input leaves the watches alone. -/
theorem listeners_next_of_dull (hread : c.reads m = some message) (hdull : message.isNews = false) :
    (c.next m).listeners = c.listeners := by
  rw [listeners_next hread]
  cases message with
  | timerFired | retryExhausted => exact List.append_nil _
  | changed | removed | replaced | reattached | watchError => cases hdull

theorem queue_next_of_dull (hread : c.reads m = some message) (hdull : message.isNews = false) :
    (c.next m).queue = c.queue.tail := by
  rw [next_of_reads hread]
  cases message with
  | timerFired token =>
      simp only [handle, handleTimer]
      split <;> rfl
  | retryExhausted => rfl
  | changed | removed | replaced | reattached | watchError => cases hdull

/-- A moment without a message leaves the label as it is, unless the loop ends. -/
theorem calm_next (hread : c.reads m = none) :
    (m.event = .turn ∧ (c.next m).phase = .ended) ∨ c.Calm m.event (c.next m) := by
  have hkept {listeners : List Nat} :
      listeners = listeners.filter (Option.none ≠ some ·) := by simp
  have hfilter (listener : Nat) : c.listeners.filter (· ≠ listener) =
      c.listeners.filter (some listener ≠ some ·) := by
    refine List.filter_congr fun n _ => ?_
    simp [eq_comm]
  have hself (event : Event) (h : event.ends? = none) : c.Calm event c :=
    ⟨rfl, rfl, List.prefix_rfl, by simp [h], .inl rfl⟩
  obtain ⟨s, event⟩ := m
  cases event with
  | batch listener changes =>
      right
      simp only [next, step, receive]
      split
      · exact ⟨rfl, rfl, List.prefix_append _ _, hkept, .inl rfl⟩
      · exact hself _ rfl
  | streamFailure listener detail =>
      right
      simp only [next, step, failStream]
      split
      · exact ⟨rfl, rfl, List.prefix_append _ _, hfilter listener, .inl rfl⟩
      · rename_i hgone
        -- a watch that is not alive cannot fail
        refine ⟨rfl, rfl, List.prefix_rfl, ?_, .inl rfl⟩
        refine Eq.trans (List.filter_eq_self.2 fun n hn => ?_).symm (hfilter listener)
        exact decide_eq_true fun h => hgone (h ▸ hn)
  | streamEnd listener =>
      exact .inr ⟨rfl, rfl, List.prefix_rfl, hfilter listener, .inl rfl⟩
  | wake sleeper =>
      right
      simp only [next, step, wake]
      repeat' split
      all_goals first
        | exact ⟨rfl, rfl, List.prefix_append _ _, hkept, .inl rfl⟩
        | exact ⟨rfl, rfl, List.prefix_rfl, hkept, .inl rfl⟩
  | turn =>
      obtain hturn | hturn := next_turn_of_silent hread
      · rw [hturn]
        exact .inr (hself _ rfl)
      · rw [hturn]
        exact .inl ⟨rfl, rfl⟩
  | regenerated outcome reports =>
      right
      simp only [next, step, finish]
      split
      · exact hself _ rfl
      · rename_i hphase
        cases outcome <;> exact ⟨rfl, rfl, List.prefix_rfl, hkept,
          .inr ⟨⟨_, _, rfl⟩, not_not.1 hphase, rfl⟩⟩
  | elapse | stopRequest => exact .inr ⟨rfl, rfl, List.prefix_rfl, hkept, .inl rfl⟩

end Coordinator
end TypedConfig.Watch
