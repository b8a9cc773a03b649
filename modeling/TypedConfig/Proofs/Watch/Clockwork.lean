import TypedConfig.Proofs.Watch.History

namespace TypedConfig.Watch

def Sleeper.isDebounce (s : Sleeper) : Bool :=
  match s.job with
  | .debounce _ => true
  | .retry .. => false

def Message.firing? : Message → Option Nat
  | .timerFired token => some token
  | _ => none

structure Clockwork where
  condition : Condition
  token : Nat
  timer : Option Nat
  timers : List Sleeper
  firings : List Nat
  runs : Nat
  now : Nat
  debounce : Nat

namespace Clockwork

def cancel (w : Clockwork) : Clockwork :=
  { w with
    timer := none
    timers :=
      match w.timer with
      | some token => w.timers.filter (!Coordinator.isTimer token ·)
      | none => w.timers }

def arm (w : Clockwork) : Clockwork :=
  { w with
    condition := .pending
    token := w.token + 1
    timer := some (w.token + 1)
    timers := w.cancel.timers ++ [⟨w.now + w.debounce, .debounce (w.token + 1)⟩] }

def lose (w : Clockwork) : Clockwork :=
  { w.cancel with condition := .unavailable }

def fire (w : Clockwork) : Clockwork :=
  match w.firings with
  | [] => w
  | token :: rest =>
    if token ≠ w.token ∨ w.timer.isNone then { w with firings := rest }
    else
      { w with firings := rest, timer := none, condition := .idle, runs := w.runs + 1 }

def wake (token due : Nat) (w : Clockwork) : Clockwork :=
  { w with
    timers := w.timers.erase ⟨due, .debounce token⟩
    firings := w.firings ++ [token] }

def elapse (time : Nat) (w : Clockwork) : Clockwork :=
  { w with now := w.now + time }

def stop (w : Clockwork) : Clockwork :=
  { w.cancel with condition := .idle }

structure Armed (start : Nat) (w : Clockwork) : Prop where
  condition : w.condition = .pending
  timer : w.timer = some w.token
  firing : w.timers = [⟨start + w.debounce, .debounce w.token⟩] ∧ w.firings.count w.token = 0 ∨
    w.timers = [] ∧ w.firings.count w.token = 1 ∧ start + w.debounce ≤ w.now

structure Disarmed (w : Clockwork) : Prop where
  condition : w.condition ≠ .pending
  timer : w.timer = none
  timers : w.timers = []

structure Regular (w : Clockwork) : Prop where
  issued : ∀ token ∈ w.firings, token ≤ w.token
  armed : w.Disarmed ∨ ∃ start, w.Armed start

variable {w : Clockwork} {start : Nat}

theorem Disarmed.cancel_timers (h : w.Disarmed) : w.cancel.timers = [] := by
  simp only [cancel, h.timer, h.timers]

theorem Armed.cancel_timers (h : w.Armed start) : w.cancel.timers = [] := by
  simp only [cancel, h.timer]
  obtain ⟨ht, -⟩ | ⟨ht, -⟩ := h.firing
  · rw [ht]; simp [Coordinator.isTimer]
  · rw [ht]; rfl

theorem Regular.cancel_timers (h : w.Regular) : w.cancel.timers = [] := by
  obtain hd | ⟨start, ha⟩ := h.armed
  · exact hd.cancel_timers
  · exact ha.cancel_timers

theorem Regular.arm (h : w.Regular) : w.arm.Armed w.now where
  condition := rfl
  timer := rfl
  firing := by
    refine .inl ⟨?_, ?_⟩
    · simp only [Clockwork.arm, h.cancel_timers, List.nil_append]
    · -- no timer has had the new token before
      change w.firings.count (w.token + 1) = 0
      exact List.count_eq_zero.2 fun hmem => absurd (h.issued _ hmem) (by omega)

theorem lose_disarmed (h : w.cancel.timers = []) : w.lose.Disarmed :=
  ⟨by simp [lose], rfl, h⟩

theorem stop_disarmed (h : w.cancel.timers = []) : w.stop.Disarmed :=
  ⟨by simp [stop], rfl, h⟩

theorem Disarmed.fire (h : w.Disarmed) : w.fire.Disarmed ∧ w.fire.runs = w.runs := by
  cases hf : w.firings with
  | nil => simpa [Clockwork.fire, hf] using h
  | cons token rest =>
      simp only [Clockwork.fire, hf, h.timer, Option.isNone_none, or_true, if_true]
      exact ⟨⟨h.condition, rfl, h.timers⟩, trivial⟩

/-- Reading the firing of the timer that is armed begins a regeneration and disarms. -/
theorem Armed.fire_current (h : w.Armed start) {rest : List Nat}
    (hf : w.firings = w.token :: rest) :
    w.fire.Disarmed ∧ w.fire.runs = w.runs + 1 ∧ start + w.debounce ≤ w.now := by
  obtain ⟨-, hz⟩ | ⟨ht, -, hdue⟩ := h.firing
  · simp [hf] at hz
  · simp only [Clockwork.fire, hf, h.timer, ne_eq, not_true_eq_false, Option.isNone_some,
      Bool.false_eq_true, or_self, if_false]
    exact ⟨⟨by simp, rfl, ht⟩, trivial, hdue⟩

/-- A firing of an earlier timer changes nothing. -/
theorem Armed.fire_stale (h : w.Armed start) (hf : w.firings.head? ≠ some w.token) :
    w.fire.Armed start ∧ w.fire.runs = w.runs := by
  cases hw : w.firings with
  | nil => simpa [Clockwork.fire, hw] using h
  | cons token rest =>
      have hne : token ≠ w.token := by simpa [hw] using hf
      have hcount : rest.count w.token = w.firings.count w.token := by
        rw [hw, List.count_cons_of_ne hne]
      simp only [Clockwork.fire, hw, ne_eq, hne, not_false_eq_true, true_or, if_true, and_true]
      exact ⟨h.condition, h.timer, by simpa only [hcount] using h.firing⟩

theorem Armed.wake (h : w.Armed start) {token due : Nat}
    (hmem : ⟨due, .debounce token⟩ ∈ w.timers) (hdue : due ≤ w.now) :
    (w.wake token due).Armed start := by
  refine ⟨h.condition, h.timer, .inr ?_⟩
  obtain ⟨ht, hz⟩ | ⟨ht, -⟩ := h.firing
  · rw [ht, List.mem_singleton, Sleeper.mk.injEq, Job.debounce.injEq] at hmem
    obtain ⟨rfl, rfl⟩ := hmem
    refine ⟨?_, ?_, hdue⟩
    · simp only [Clockwork.wake, ht, List.erase_cons_head]
    · simp only [Clockwork.wake, List.count_append, hz, List.count_singleton_self]
  · simp [ht] at hmem

theorem Armed.elapse (h : w.Armed start) (time : Nat) : (w.elapse time).Armed start := by
  refine ⟨h.condition, h.timer, h.firing.imp_right ?_⟩
  rintro ⟨ht, hone, hdue⟩
  exact ⟨ht, hone, Nat.le_add_right_of_le hdue⟩

theorem fire_keeps (w : Clockwork) : w.fire.token = w.token ∧ w.fire.debounce = w.debounce ∧
    w.fire.firings = w.firings.tail := by
  cases hf : w.firings with
  | nil => simp only [fire, hf, List.tail_nil, and_self]
  | cons token rest =>
      simp only [fire, hf, List.tail_cons]
      split <;> exact ⟨rfl, rfl, rfl⟩

theorem Regular.fire (h : w.Regular) : w.fire.Regular := by
  obtain ⟨htoken, -, hfirings⟩ := w.fire_keeps
  refine ⟨fun token hmem => ?_, ?_⟩
  · rw [htoken]
    exact h.issued token (List.mem_of_mem_tail (hfirings ▸ hmem))
  · obtain d | ⟨start, a⟩ := h.armed
    · exact .inl d.fire.1
    · by_cases hf : w.firings.head? = some w.token
      · obtain ⟨rest, hrest⟩ := List.head?_eq_some_iff.1 hf
        exact .inl (a.fire_current hrest).1
      · exact .inr ⟨start, (a.fire_stale hf).1⟩

theorem Regular.wake (h : w.Regular) {token due : Nat}
    (hmem : ⟨due, .debounce token⟩ ∈ w.timers) (hdue : due ≤ w.now) :
    (w.wake token due).Regular := by
  obtain d | ⟨start, a⟩ := h.armed
  · simp [d.timers] at hmem
  · refine ⟨fun t ht => ?_, .inr ⟨start, a.wake hmem hdue⟩⟩
    obtain ht | ht := List.mem_append.1 ht
    · exact h.issued t ht
    · obtain ⟨htimers, -⟩ | ⟨htimers, -⟩ := a.firing
      · simp_all [Clockwork.wake]
      · simp [htimers] at hmem

theorem Regular.elapse (h : w.Regular) (time : Nat) : (w.elapse time).Regular :=
  ⟨h.issued, h.armed.imp (fun d => ⟨d.condition, d.timer, d.timers⟩)
    fun ⟨start, a⟩ => ⟨start, a.elapse time⟩⟩

end Clockwork

namespace Coordinator

def clockwork (c : Coordinator) : Clockwork where
  condition := c.condition
  token := c.token
  timer := c.timer
  timers := c.sleepers.filter Sleeper.isDebounce
  firings := c.queue.filterMap Message.firing?
  runs := c.runs
  now := c.now
  debounce := c.options.debounce

inductive Tick (c : Coordinator) (m : Moment) : Clockwork → Prop
  | arm (arms : c.Arms m) : Tick c m c.clockwork.arm
  | lose (loses : c.Loses m) : Tick c m c.clockwork.lose
  | fire {token : Nat} (read : c.reads m = some (.timerFired token))
      (head : c.clockwork.firings.head? = some token) : Tick c m c.clockwork.fire
  | stop (ended : (c.next m).phase = .ended) : Tick c m c.clockwork.stop
  | wake {token due : Nat} (silent : c.reads m = none)
      (asleep : ⟨due, .debounce token⟩ ∈ c.clockwork.timers) (due_le : due ≤ c.clockwork.now) :
      Tick c m (c.clockwork.wake token due)
  | elapse (time : Nat) (silent : c.reads m = none) : Tick c m (c.clockwork.elapse time)
  | pass (silent : c.reads m = none ∨ c.reads m = some .retryExhausted) : Tick c m c.clockwork

theorem clockwork_report (level : Log.Level) (message : String) (c : Coordinator) :
    (c.report level message).clockwork = c.clockwork :=
  rfl

theorem clockwork_detach (c : Coordinator) : c.detach.clockwork = c.clockwork := by
  unfold detach
  split <;> rfl

theorem clockwork_cancelTimer (c : Coordinator) :
    c.cancelTimer.clockwork = { c.clockwork.cancel with
      condition := if c.condition = .pending then .idle else c.condition } := by
  have htimers : c.cancelTimer.sleepers.filter Sleeper.isDebounce = c.clockwork.cancel.timers := by
    cases ht : c.timer with
    | none => simp only [cancelTimer, Clockwork.cancel, clockwork, ht]
    | some token =>
        simp only [cancelTimer, Clockwork.cancel, clockwork, ht, List.filter_filter]
        exact List.filter_congr fun s _ => Bool.and_comm _ _
  rw [clockwork, htimers]
  rfl

theorem clockwork_armTimer (c : Coordinator) : c.armTimer.clockwork = c.clockwork.arm := by
  have h := congrArg Clockwork.timers (clockwork_cancelTimer c)
  simp only [clockwork] at h
  simp only [armTimer, clockwork, Clockwork.arm, List.filter_append, h]
  rfl

theorem clockwork_startRetry (c : Coordinator) : c.startRetry.clockwork = c.clockwork.lose := by
  have h := congrArg Clockwork.timers (clockwork_cancelTimer c)
  simp only [clockwork] at h
  cases hr : c.retry with
  | none =>
      have hretry (due number left : Nat) :
          [(⟨due, .retry number left⟩ : Sleeper)].filter Sleeper.isDebounce = [] := rfl
      simp only [startRetry_of_none hr, clockwork, Clockwork.lose, List.filter_append, h, hretry,
        List.append_nil]
      rfl
  | some number =>
      simp only [startRetry_of_some hr, clockwork, Clockwork.lose, h]
      rfl

theorem clockwork_attach (s : Surroundings) (c : Coordinator) :
    (c.attach s).2.clockwork = c.clockwork := by
  unfold attach
  cases s.refusal <;> rfl

theorem clockwork_shutDown (c : Coordinator) : c.shutDown.clockwork = c.clockwork.stop := by
  have hdetach := clockwork_detach c
  have htimers : c.shutDown.sleepers.filter Sleeper.isDebounce = c.clockwork.cancel.timers := by
    simp only [shutDown, Clockwork.cancel, clockwork, List.filter_filter]
    cases c.timer with
    | none =>
        refine List.filter_congr fun s _ => ?_
        cases hs : s.job <;> cases c.retry <;> simp [Sleeper.isDebounce, isRetry, hs]
    | some token =>
        refine List.filter_congr fun s _ => ?_
        cases hs : s.job <;> cases c.retry <;> simp [Sleeper.isDebounce, isRetry, hs]
  simp only [clockwork, Clockwork.mk.injEq] at hdetach
  rw [clockwork, htimers]
  simp only [shutDown, hdetach]
  rfl

theorem clockwork_handle_of_announces {s : Surroundings} {message : Message}
    (h : message.announces s) (c : Coordinator) :
    (c.handle s message).clockwork = c.clockwork.arm := by
  cases message with
  | changed => exact clockwork_armTimer c
  | replaced =>
      have hs : s.refusal = none := by simpa [Message.announces] using h
      simp only [handle, reattach_of_granted hs, clockwork_armTimer, clockwork_attach,
        clockwork_detach, clockwork_report]
  | reattached =>
      have hs : s.refusal = none := by simpa [Message.announces] using h
      have hattach := clockwork_attach s { c with retry := none }
      simp only [clockwork, Clockwork.mk.injEq] at hattach
      simp only [handle, reattach_of_granted hs, clockwork_armTimer]
      simp only [clockwork, Clockwork.arm, Clockwork.cancel, report, hattach]
  | removed | timerFired | retryExhausted | watchError => simp [Message.announces] at h

theorem clockwork_handle_of_withdraws {s : Surroundings} {message : Message}
    (h : message.withdraws s) (c : Coordinator) :
    (c.handle s message).clockwork = c.clockwork.lose := by
  cases message with
  | removed => simp only [handle, clockwork_startRetry, clockwork_detach, clockwork_report]
  | watchError => simp only [handle, clockwork_startRetry, clockwork_detach, clockwork_report]
  | replaced =>
      obtain ⟨reason, hs⟩ := Option.isSome_iff_exists.1 (h : s.refusal.isSome)
      simp only [handle, reattach_of_refused hs, clockwork_startRetry, clockwork_attach,
        clockwork_detach, clockwork_report]
  | reattached =>
      obtain ⟨reason, hs⟩ := Option.isSome_iff_exists.1 (h : s.refusal.isSome)
      simp only [handle, reattach_of_refused hs, clockwork_startRetry, clockwork_attach,
        clockwork_report]
      rfl
  | changed | timerFired | retryExhausted => simp [Message.withdraws] at h

/-- Taking a message other than a firing from the queue does nothing to the timer. -/
theorem clockwork_dequeue {c : Coordinator} {m : Moment} {message : Message}
    (hread : c.reads m = some message) (hfiring : message.firing? = none) :
    ({ c with queue := c.queue.tail } : Coordinator).clockwork = c.clockwork := by
  have hqueue := (turn_of_reads hread).2.2.2
  have hfirings : c.queue.filterMap Message.firing? =
      c.queue.tail.filterMap Message.firing? := by
    rw [hqueue, List.filterMap_cons_none hfiring, List.tail_cons]
  simp only [clockwork, hfirings]

theorem firings_of_reads {c : Coordinator} {m : Moment} {token : Nat}
    (hread : c.reads m = some (.timerFired token)) :
    c.clockwork.firings = token :: c.queue.tail.filterMap Message.firing? := by
  have hqueue := (turn_of_reads hread).2.2.2
  rw [clockwork, hqueue]
  rfl

theorem clockwork_fire {c : Coordinator} {m : Moment} {token : Nat}
    (hread : c.reads m = some (.timerFired token)) :
    (c.next m).clockwork = c.clockwork.fire := by
  rw [next_of_reads hread, Clockwork.fire, firings_of_reads hread]
  simp only [handle, handleTimer]
  split
  · rename_i hstale
    exact (if_pos hstale).symm
  · rename_i hcurrent
    exact (if_neg hcurrent).symm

theorem clockwork_next_of_arms {c : Coordinator} {m : Moment} (h : c.Arms m) :
    (c.next m).clockwork = c.clockwork.arm := by
  obtain ⟨message, hread, ha⟩ := h
  have hfiring : message.firing? = none := by
    cases message <;> simp_all [Message.announces, Message.firing?]
  rw [next_of_reads hread, clockwork_handle_of_announces ha, clockwork_dequeue hread hfiring]

theorem clockwork_next_of_loses {c : Coordinator} {m : Moment} (h : c.Loses m) :
    (c.next m).clockwork = c.clockwork.lose := by
  obtain ⟨message, hread, hw⟩ := h
  have hfiring : message.firing? = none := by
    cases message <;> simp_all [Message.withdraws, Message.firing?]
  rw [next_of_reads hread, clockwork_handle_of_withdraws hw, clockwork_dequeue hread hfiring]

theorem tick_of_reads {c : Coordinator} {m : Moment} {message : Message}
    (hread : c.reads m = some message) : c.Tick m (c.next m).clockwork := by
  by_cases ha : message.announces m.surroundings
  · have harms : c.Arms m := ⟨message, hread, ha⟩
    exact clockwork_next_of_arms harms ▸ .arm harms
  by_cases hw : message.withdraws m.surroundings
  · have hloses : c.Loses m := ⟨message, hread, hw⟩
    exact clockwork_next_of_loses hloses ▸ .lose hloses
  cases message with
  | timerFired token =>
      rw [clockwork_fire hread]
      exact .fire hread (by rw [firings_of_reads hread]; rfl)
  | retryExhausted =>
      rw [next_of_reads hread]
      exact clockwork_dequeue hread rfl ▸ .pass (.inr hread)
  | changed | removed | watchError => simp [Message.announces, Message.withdraws] at ha hw
  | replaced | reattached => cases hs : m.surroundings.refusal <;>
      simp [Message.announces, Message.withdraws, hs] at ha hw

/-- Posting a message other than a firing does nothing to the timer. -/
theorem clockwork_post (message : Message) (h : message.firing? = none) (c : Coordinator) :
    (c.post message).clockwork = c.clockwork := by
  simp only [clockwork, post, List.filterMap_append, List.filterMap_cons_none h,
    List.filterMap_nil, List.append_nil]

theorem firing?_messageOf (s : Surroundings) (changes : List Change) (c : Coordinator) :
    (c.messageOf s changes).firing? = none := by
  unfold messageOf
  split
  · rfl
  · split <;> rfl

theorem tick_of_wake {c : Coordinator} {s : Surroundings} (sleeper : Sleeper) :
    c.Tick ⟨s, .wake sleeper⟩ (c.next ⟨s, .wake sleeper⟩).clockwork := by
  have hpass : c.Tick ⟨s, .wake sleeper⟩ c.clockwork := .pass (.inl rfl)
  obtain ⟨due, job⟩ := sleeper
  by_cases hready : ⟨due, job⟩ ∈ c.sleepers ∧ due ≤ c.now
  · cases job with
    | debounce token =>
        have h : (c.next ⟨s, .wake ⟨due, .debounce token⟩⟩).clockwork =
            c.clockwork.wake token due := by
          simp only [next, step, wake, if_pos hready, clockwork, post, Clockwork.wake,
            List.erase_filter, List.filterMap_append]
          rfl
        exact h ▸ .wake rfl (List.mem_filter.2 ⟨hready.1, rfl⟩) hready.2
    | retry number left =>
        -- a retry is no timer, whether it goes on sleeping or not
        have hnot : ⟨due, .retry number left⟩ ∉ c.sleepers.filter Sleeper.isDebounce := by
          simp [Sleeper.isDebounce]
        have hawake : ({ c with sleepers := c.sleepers.erase ⟨due, .retry number left⟩ } :
            Coordinator).clockwork = c.clockwork := by
          simp only [clockwork, ← List.erase_filter, List.erase_of_not_mem hnot]
        have h : (c.next ⟨s, .wake ⟨due, .retry number left⟩⟩).clockwork = c.clockwork := by
          simp only [next, step, wake, if_pos hready]
          split
          · rw [clockwork_post .reattached rfl, hawake]
          · cases left with
            | zero => rw [clockwork_post .retryExhausted rfl, hawake]
            | succ left =>
                simp only [clockwork, List.filter_append, ← List.erase_filter,
                  List.erase_of_not_mem hnot]
                simp [Sleeper.isDebounce]
        exact h ▸ hpass
  · have h : c.next ⟨s, .wake ⟨due, job⟩⟩ = c := if_neg hready
    exact h.symm ▸ hpass

theorem tick_next (c : Coordinator) (m : Moment) : c.Tick m (c.next m).clockwork := by
  cases hread : c.reads m with
  | some message => exact tick_of_reads hread
  | none =>
      obtain ⟨s, event⟩ := m
      have hpass : c.Tick ⟨s, event⟩ c.clockwork := .pass (.inl hread)
      cases event with
      | batch listener changes =>
          simp only [next, step, receive]
          split
          · rwa [clockwork_post _ (firing?_messageOf s changes c)]
          · exact hpass
      | streamFailure listener detail =>
          simp only [next, step, failStream]
          split
          · rwa [clockwork_post _ rfl]
          · exact hpass
      | wake sleeper => exact tick_of_wake sleeper
      | turn =>
          obtain h | h := next_turn_of_silent hread
          · rwa [h]
          · have hended : (c.next ⟨s, .turn⟩).phase = .ended := by rw [h]; rfl
            rw [h, clockwork_report, clockwork_shutDown]
            exact .stop hended
      | regenerated outcome reports =>
          simp only [next, step, finish]
          split
          · exact hpass
          · cases outcome <;> exact hpass
      | elapse time => exact .elapse time hread
      | streamEnd | stopRequest => exact hpass

end Coordinator
end TypedConfig.Watch
