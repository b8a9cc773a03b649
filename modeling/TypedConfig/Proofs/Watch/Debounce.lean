import TypedConfig.Proofs.Watch.Clockwork
import Mathlib.Data.List.Induction

namespace TypedConfig.Watch

namespace Coordinator

variable {c : Coordinator} {m : Moment} {w : Clockwork}

theorem Started.clockwork (h : Started c) :
    c.clockwork = ⟨.idle, 0, none, [], [], 0, 0, c.options.debounce⟩ := by
  obtain ⟨inputFile, options, identity, journal, rfl⟩ := h.eq
  rfl

theorem Started.regular (h : Started c) : c.clockwork.Regular := by
  rw [h.clockwork]
  exact ⟨by simp, .inl ⟨by simp, rfl, rfl⟩⟩

theorem Tick.regular (t : c.Tick m w) (h : c.clockwork.Regular) : w.Regular := by
  cases t with
  | arm => exact ⟨fun token hmem => Nat.le_succ_of_le (h.issued token hmem), .inr ⟨_, h.arm⟩⟩
  | lose => exact ⟨h.issued, .inl (Clockwork.lose_disarmed h.cancel_timers)⟩
  | stop => exact ⟨h.issued, .inl (Clockwork.stop_disarmed h.cancel_timers)⟩
  | fire => exact h.fire
  | wake _ asleep due_le => exact h.wake asleep due_le
  | elapse time => exact h.elapse time
  | pass => exact h

theorem regular_after (h : c.clockwork.Regular) (history : List Moment) :
    (c.after history).clockwork.Regular := by
  induction history generalizing c with
  | nil => exact h
  | cons m rest ih => exact ih ((tick_next c m).regular h)

/-- Only arming the timer changes its token, and nothing changes its length. -/
theorem Tick.keeps (t : c.Tick m w) :
    (c.Arms m ∨ w.token = c.token) ∧ w.debounce = c.options.debounce := by
  cases t with
  | arm arms => exact ⟨.inl arms, rfl⟩
  | fire => exact ⟨.inr c.clockwork.fire_keeps.1, c.clockwork.fire_keeps.2.1⟩
  | lose | stop | wake | elapse | pass => exact ⟨.inr rfl, rfl⟩

/-- Without a timer nothing but a message that announces new content has an effect. -/
theorem Tick.disarmed (t : c.Tick m w) (d : c.clockwork.Disarmed) (hno : ¬ c.Arms m) :
    w.Disarmed ∧ w.runs = c.runs := by
  cases t with
  | arm arms => exact absurd arms hno
  | fire => exact d.fire
  | wake _ asleep => simp [d.timers] at asleep
  | lose => exact ⟨Clockwork.lose_disarmed d.cancel_timers, rfl⟩
  | stop => exact ⟨Clockwork.stop_disarmed d.cancel_timers, rfl⟩
  | elapse | pass => exact ⟨⟨d.condition, d.timer, d.timers⟩, rfl⟩

/-- A timer that is armed stays so in a quiet moment. Otherwise it is armed again, ended, or fires:
after its full time, by its own firing. -/
inductive Progress (c : Coordinator) (m : Moment) (start : Nat) (w : Clockwork) : Prop
  | arms (arms : c.Arms m)
  | ends (why : c.Loses m ∨ (c.next m).phase = .ended) (disarmed : w.Disarmed)
      (runs : w.runs = c.runs)
  | waits (armed : w.Armed start) (quiet : c.Quiet m) (runs : w.runs = c.runs)
  | fires (disarmed : w.Disarmed) (runs : w.runs = c.runs + 1)
      (read : c.reads m = some (.timerFired c.token))
      (due : start + c.options.debounce ≤ c.now)

theorem quiet_of_reads_eq_none (h : c.reads m = none) : c.Quiet m := by
  simp [Quiet, h]

theorem Tick.armed (t : c.Tick m w) {start : Nat} (a : c.clockwork.Armed start) :
    c.Progress m start w := by
  cases t with
  | arm arms => exact .arms arms
  | lose loses => exact .ends (.inl loses) (Clockwork.lose_disarmed a.cancel_timers) rfl
  | stop ended => exact .ends (.inr ended) (Clockwork.stop_disarmed a.cancel_timers) rfl
  | @fire token read head =>
      by_cases htoken : token = c.token
      · subst htoken
        obtain ⟨rest, hrest⟩ := List.head?_eq_some_iff.1 head
        obtain ⟨hdisarmed, hruns, hdue⟩ := a.fire_current hrest
        exact .fires hdisarmed hruns read hdue
      · have hstale : c.clockwork.firings.head? ≠ some c.clockwork.token := by
          rw [head]
          exact fun h => htoken (Option.some.inj h)
        refine .waits (a.fire_stale hstale).1 ?_ (a.fire_stale hstale).2
        intro message hmessage
        rw [read] at hmessage
        exact .inr ⟨token, (Option.some.inj hmessage).symm⟩
  | wake silent asleep due_le =>
      exact .waits (a.wake asleep due_le) (quiet_of_reads_eq_none silent) rfl
  | elapse time silent => exact .waits (a.elapse time) (quiet_of_reads_eq_none silent) rfl
  | pass silent =>
      refine .waits a ?_ rfl
      obtain h | h := silent
      · exact quiet_of_reads_eq_none h
      · exact fun message hmessage => .inl (Option.some.inj (hmessage.symm.trans h))

def outstanding (token : Nat) (c : Coordinator) : Nat :=
  c.sleepers.countP (isTimer token) + c.queue.count (.timerFired token)

theorem outstanding_eq (token : Nat) (c : Coordinator) :
    c.outstanding token =
      c.clockwork.timers.countP (isTimer token) + c.clockwork.firings.count token := by
  have htimers : c.sleepers.countP (isTimer token) =
      (c.sleepers.filter Sleeper.isDebounce).countP (isTimer token) := by
    rw [List.countP_filter]
    refine List.countP_congr fun s _ => ?_
    cases hs : s.job <;> simp [isTimer, Sleeper.isDebounce, hs]
  have hfirings : c.queue.count (.timerFired token) =
      (c.queue.filterMap Message.firing?).count token := by
    induction c.queue with
    | nil => rfl
    | cons message rest ih =>
        cases message <;> simp [List.filterMap_cons, Message.firing?, List.count_cons, ih]
  rw [outstanding, htimers, hfirings]
  rfl

theorem outstanding_of_armed {start : Nat} (a : c.clockwork.Armed start) :
    c.outstanding c.token = 1 := by
  rw [outstanding_eq]
  obtain ⟨ht, hf⟩ | ⟨ht, hf, -⟩ := a.firing
  · change c.clockwork.firings.count c.token = 0 at hf
    rw [ht, hf]
    simp [isTimer, clockwork]
  · change c.clockwork.firings.count c.token = 1 at hf
    rw [ht, hf]
    rfl

/-- Once armed, a timer or one that follows it stays armed until the input is lost, a regeneration
begins, or the loop ends. -/
theorem armed_after (hregular : c.clockwork.Regular) (harmed : ∃ start, c.clockwork.Armed start)
    (rest : List Moment) (hkept : Along (fun c m => ¬ c.Loses m ∧ ¬ c.Regenerates m) c rest)
    (hrunning : (c.after rest).phase ≠ .ended) :
    ∃ start, (c.after rest).clockwork.Armed start := by
  induction rest generalizing c with
  | nil => exact harmed
  | cons m rest ih =>
      obtain ⟨start, a⟩ := harmed
      obtain ⟨⟨hlost, hidle⟩, hkept⟩ := hkept
      refine ih ((tick_next c m).regular hregular) ?_ hkept hrunning
      cases (tick_next c m).armed a with
      | arms arms => exact ⟨_, clockwork_next_of_arms arms ▸ hregular.arm⟩
      | waits armed => exact ⟨start, armed⟩
      | fires _ runs =>
          have hruns : (c.next m).runs = c.runs + 1 := runs
          exact absurd (by rw [Regenerates, hruns]; omega) hidle
      | ends why =>
          obtain hloses | hended := why
          · exact absurd hloses hlost
          · exact absurd (ended_after hended rest) hrunning

/-- The firing that a change is owed, when it is read, begins a regeneration. -/
theorem handle_timerFired_of_armed {start : Nat} (a : c.clockwork.Armed start) (s : Surroundings) :
    (c.handle s (.timerFired c.token)).phase = .regenerating ∧
      (c.handle s (.timerFired c.token)).runs = c.runs + 1 := by
  have htimer : c.timer = some c.token := a.timer
  simp [handle, handleTimer, htimer]

/-- A message that announces new content is read. As long as the input is not lost after it, no
regeneration has begun, and the loop goes on, exactly one firing of the current timer is
outstanding, and reading it begins a regeneration. -/
theorem change_is_owed {c₀ : Coordinator} (hstarted : Started c₀) (before : List Moment)
    (m : Moment) (rest : List Moment) (hchange : (c₀.after before).Arms m)
    (hkept : Along (fun c m => ¬ c.Loses m ∧ ¬ c.Regenerates m) ((c₀.after before).next m) rest)
    (hrunning : (c₀.after (before ++ m :: rest)).phase ≠ .ended) :
    let c := c₀.after (before ++ m :: rest)
    c.condition = .pending ∧ c.timer = some c.token ∧ c.outstanding c.token = 1 ∧
      ∀ s, (c.handle s (.timerFired c.token)).phase = .regenerating ∧
        (c.handle s (.timerFired c.token)).runs = c.runs + 1 := by
  have hregular := regular_after hstarted.regular before
  rw [after_append, after_cons] at hrunning ⊢
  obtain ⟨start, a⟩ := armed_after ((tick_next _ m).regular hregular)
    ⟨_, clockwork_next_of_arms hchange ▸ hregular.arm⟩ rest hkept hrunning
  exact ⟨a.condition, a.timer, outstanding_of_armed a, handle_timerFired_of_armed a⟩

def overtakenFiring : List Moment :=
  [.seeing (some 1) (.batch 1 [.modified]), .seeing (some 1) (.elapse 100),
    .seeing (some 1) (.wake ⟨100, .debounce 1⟩), .seeing (some 1) .turn]

/-- The firing of the first timer still waits, and is not taken for that of the second. -/
theorem overtaken_change_is_owed :
    let run := watching.after
      (.seeing (some 1) (.batch 1 [.modified]) :: .seeing (some 1) .turn :: overtakenFiring)
    Started watching ∧ run.queue = [.timerFired 1] ∧
      run.condition = .pending ∧ run.timer = some run.token ∧ run.outstanding run.token = 1 :=
  have h := change_is_owed started_watching [.seeing (some 1) (.batch 1 [.modified])]
    (.seeing (some 1) .turn) overtakenFiring (by decide) (by decide) (by decide)
  ⟨started_watching, by decide, h.1, h.2.1, h.2.2.1⟩

/-- Since a timer was started, in this history, everything has been quiet for the loop. -/
def QuietSince (c₀ : Coordinator) (history : List Moment) (start : Nat) : Prop :=
  ∃ before armed quiet, history = before ++ armed :: quiet ∧ (c₀.after before).Arms armed ∧
    (c₀.after history).token = (c₀.after before).token + 1 ∧
    (c₀.after before).now = start ∧ Along Quiet ((c₀.after before).next armed) quiet

theorem debounce_after (c : Coordinator) (history : List Moment) :
    (c.after history).options.debounce = c.options.debounce := by
  induction history generalizing c with
  | nil => rfl
  | cons m rest ih => exact (ih (c.next m)).trans (tick_next c m).keeps.2

/-- The invariant of a whole history: either no timer runs, or one does that is still to fire for
the message that started it. -/
theorem disarmed_or_quietSince {c₀ : Coordinator} (hstarted : Started c₀)
    (history : List Moment) :
    (c₀.after history).clockwork.Disarmed ∨
      ∃ start, (c₀.after history).clockwork.Armed start ∧ QuietSince c₀ history start := by
  induction history using List.reverseRecOn with
  | nil =>
      rw [after_nil, hstarted.clockwork]
      exact .inl ⟨by simp, rfl, rfl⟩
  | append_singleton history m ih =>
      have hregular := regular_after hstarted.regular history
      have htick := tick_next (c₀.after history) m
      have hafter : c₀.after (history ++ [m]) = (c₀.after history).next m := after_append _ _ _
      rw [hafter]
      by_cases harms : (c₀.after history).Arms m
      · have hclock := clockwork_next_of_arms harms
        refine .inr ⟨_, hclock ▸ hregular.arm, history, m, [], rfl, harms, ?_, rfl, trivial⟩
        rw [hafter]
        exact congrArg Clockwork.token hclock
      · obtain d | ⟨start, a, before, armed, quiet, rfl, hbefore, htoken, hnow, hquiet⟩ := ih
        · exact .inl (htick.disarmed d harms).1
        · cases htick.armed a with
          | arms arms => exact absurd arms harms
          | ends _ disarmed => exact .inl disarmed
          | fires disarmed => exact .inl disarmed
          | waits stays silent =>
              -- the same timer goes on, and this moment was quiet too
              refine .inr
                ⟨start, stays, before, armed, quiet ++ [m], by simp, hbefore, ?_, hnow, ?_⟩
              · rw [hafter, ← htoken]
                exact htick.keeps.1.resolve_left harms
              · refine (along_append _ _ _).2 ⟨hquiet, ?_, trivial⟩
                rwa [after_append, after_cons] at silent

theorem runs_next_of_arms (h : c.Arms m) : (c.next m).runs = c.runs :=
  congrArg Clockwork.runs (clockwork_next_of_arms h)

theorem runs_after_of_disarmed (d : c.clockwork.Disarmed) (rest : List Moment)
    (hno : Along (fun c m => ¬ c.Arms m) c rest) : (c.after rest).runs = c.runs := by
  induction rest generalizing c with
  | nil => rfl
  | cons m rest ih =>
      obtain ⟨hdisarmed, hruns⟩ := (tick_next c m).disarmed d hno.1
      exact (ih hdisarmed hno.2).trans hruns

/-- Until a timer is started again, one regeneration at most begins. -/
theorem runs_after_le_of_armed {start : Nat} (a : c.clockwork.Armed start) (rest : List Moment)
    (hno : Along (fun c m => ¬ c.Arms m) c rest) : (c.after rest).runs ≤ c.runs + 1 := by
  induction rest generalizing c with
  | nil => exact Nat.le_succ _
  | cons m rest ih =>
      cases (tick_next c m).armed a with
      | arms arms => exact absurd arms hno.1
      | ends _ disarmed runs =>
          rw [after_cons, (runs_after_of_disarmed disarmed rest hno.2).trans runs]
          exact Nat.le_succ _
      | fires disarmed runs =>
          exact Nat.le_of_eq ((runs_after_of_disarmed disarmed rest hno.2).trans runs)
      | waits armed _ runs =>
          have hruns : (c.next m).runs = c.runs := runs
          exact hruns ▸ ih armed hno.2

theorem next_of_stale {token : Nat} (hread : c.reads m = some (.timerFired token))
    (hstale : token ≠ c.token ∨ c.timer = none) :
    c.next m = { c with queue := c.queue.tail } := by
  rw [next_of_reads hread, handle, handleTimer, if_pos]
  exact hstale.imp_right fun h => by simp [h]

/-- The loop waits for quiet exactly while a timer runs. A regeneration begins only on reading the
firing of the timer that was started last, no earlier than its full time after it was started, and
nothing was read in between but firings of other timers and ends of retries. Starting a timer leads
to one regeneration at most, and a firing of a timer that was started again or ended to none. -/
theorem debounce_sound {c₀ : Coordinator} (hstarted : Started c₀) (history : List Moment) :
    let c := c₀.after history
    (c.condition = .pending ↔ c.timer.isSome) ∧
    (∀ m, c.Regenerates m →
      c.reads m = some (.timerFired c.token) ∧ c.condition = .pending ∧
      ∃ before armed quiet, history = before ++ armed :: quiet ∧
        (c₀.after before).Arms armed ∧ c.token = (c₀.after before).token + 1 ∧
        (c₀.after before).now + c₀.options.debounce ≤ c.now ∧
        Along Quiet ((c₀.after before).next armed) quiet) ∧
    (∀ before armed rest, history = before ++ armed :: rest → (c₀.after before).Arms armed →
      Along (fun c m => ¬ c.Arms m) ((c₀.after before).next armed) rest →
      c.runs ≤ (c₀.after before).runs + 1) ∧
    (∀ m token, c.reads m = some (.timerFired token) → token ≠ c.token ∨ c.timer = none →
      c.next m = { c with queue := c.queue.tail }) := by
  intro c
  have hinv := disarmed_or_quietSince hstarted history
  refine ⟨?_, ?_, ?_, fun m token hread hstale => next_of_stale hread hstale⟩
  · obtain d | ⟨start, a, -⟩ := hinv
    · exact iff_of_false d.condition (by rw [show c.timer = none from d.timer]; simp)
    · exact iff_of_true a.condition (by rw [show c.timer = some c.token from a.timer]; rfl)
  · intro m hm
    -- A moment that regenerates does not arm, so the wait that ends with it began before.
    have hno : ¬ c.Arms m := fun harms => hm (runs_next_of_arms harms)
    obtain d | ⟨start, a, before, armed, quiet, hhistory, harms, htoken, hnow, hquiet⟩ := hinv
    · exact absurd ((tick_next c m).disarmed d hno).2 hm
    · cases (tick_next c m).armed a with
      | arms arms => exact absurd arms hno
      | ends _ _ runs => exact absurd runs hm
      | waits _ _ runs => exact absurd runs hm
      | fires _ _ read due =>
          rw [debounce_after, ← hnow] at due
          exact ⟨read, a.condition, before, armed, quiet, hhistory, harms, htoken, due, hquiet⟩
  · rintro before armed rest rfl harms hno
    have hregular := regular_after hstarted.regular before
    have harmed : ((c₀.after before).next armed).clockwork.Armed _ :=
      clockwork_next_of_arms harms ▸ hregular.arm
    have hruns := runs_after_le_of_armed harmed rest hno
    rwa [runs_next_of_arms harms, ← after_cons, ← after_append] at hruns

/-- A regeneration begins after the stale firing of the first of two timers has been read. -/
theorem debounce_sound_overtaken :
    let history := .seeing (some 1) (.batch 1 [.modified]) :: .seeing (some 1) .turn ::
      overtakenFiring ++ [.seeing (some 1) .turn, .seeing (some 1) (.elapse 100),
        .seeing (some 1) (.wake ⟨200, .debounce 2⟩)]
    Started watching ∧ (watching.after history).Regenerates (.seeing (some 1) .turn) ∧
      (watching.after history).reads (.seeing (some 1) .turn) = some (.timerFired 2) :=
  have hregenerates : Regenerates _ _ := by decide
  ⟨started_watching, hregenerates,
    ((debounce_sound started_watching _).2.1 _ hregenerates).1⟩

end Coordinator
end TypedConfig.Watch
