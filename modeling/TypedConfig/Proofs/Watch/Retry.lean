import TypedConfig.Proofs.Watch.Turns

namespace TypedConfig.Watch

def Message.isAnswer : Message → Bool
  | .reattached | .retryExhausted => true
  | _ => false

structure Search where
  retry : Option Nat
  asleep : List Sleeper
  answers : Nat

namespace Search

def seek (due number left : Nat) (w : Search) : Search :=
  match w.retry with
  | some _ => w
  | none => { w with retry := some number, asleep := w.asleep ++ [⟨due, .retry number left⟩] }

def hear (w : Search) : Search :=
  { w with retry := none, answers := w.answers - 1 }

def sleepOn (sleeper : Sleeper) (due number left : Nat) (w : Search) : Search :=
  { w with asleep := w.asleep.erase sleeper ++ [⟨due, .retry number left⟩] }

def answer (sleeper : Sleeper) (w : Search) : Search :=
  { w with asleep := w.asleep.erase sleeper, answers := w.answers + 1 }

inductive Accounted (w : Search) : Prop
  | none (retry : w.retry = none) (asleep : w.asleep = []) (answers : w.answers = 0)
  | asleep {due number left : Nat} (retry : w.retry = some number)
      (asleep : w.asleep = [⟨due, .retry number left⟩]) (answers : w.answers = 0)
  | answered {number : Nat} (retry : w.retry = some number) (asleep : w.asleep = [])
      (answers : w.answers = 1)

variable {w : Search}

theorem Accounted.seek (h : w.Accounted) (due number left : Nat) :
    (w.seek due number left).Accounted := by
  cases h with
  | none retry asleep answers =>
      rw [Search.seek, retry]
      exact .asleep rfl (by rw [asleep, List.nil_append]) answers
  | asleep retry asleep answers =>
      rw [Search.seek, retry]
      exact .asleep retry asleep answers
  | answered retry asleep answers =>
      rw [Search.seek, retry]
      exact .answered retry asleep answers

/-- An answer leaves no retry behind. -/
theorem Accounted.hear (h : w.Accounted) (hwaits : 0 < w.answers) : w.hear.Accounted := by
  cases h with
  | none _ _ answers | asleep _ _ answers => omega
  | answered _ asleep answers => exact .none rfl asleep (by rw [Search.hear, answers])

theorem Accounted.sleepOn (h : w.Accounted) {due next number left : Nat}
    (hmem : ⟨due, .retry number (left + 1)⟩ ∈ w.asleep) :
    (w.sleepOn ⟨due, .retry number (left + 1)⟩ next number left).Accounted := by
  cases h with
  | none _ asleep | answered _ asleep => simp [asleep] at hmem
  | asleep retry asleep answers =>
      rw [asleep, List.mem_singleton, Sleeper.mk.injEq, Job.retry.injEq] at hmem
      obtain ⟨rfl, rfl, rfl⟩ := hmem
      exact .asleep retry (by rw [Search.sleepOn, asleep, List.erase_cons_head]; rfl) answers

theorem Accounted.answer (h : w.Accounted) {sleeper : Sleeper} (hmem : sleeper ∈ w.asleep) :
    (w.answer sleeper).Accounted := by
  cases h with
  | none _ asleep | answered _ asleep => simp [asleep] at hmem
  | asleep retry asleep answers =>
      rw [asleep, List.mem_singleton] at hmem
      subst hmem
      refine .answered retry ?_ (by rw [Search.answer, answers])
      rw [Search.answer, asleep, List.erase_cons_head]

theorem Accounted.total (h : w.Accounted) :
    w.asleep.length + w.answers = if w.retry.isSome then 1 else 0 := by
  cases h with
  | none retry asleep answers => rw [retry, asleep, answers]; rfl
  | asleep retry asleep answers => rw [retry, asleep, answers]; rfl
  | answered retry asleep answers => rw [retry, asleep, answers]; rfl

theorem Accounted.retry_of_mem (h : w.Accounted) {due number left : Nat}
    (hmem : ⟨due, .retry number left⟩ ∈ w.asleep) : w.retry = some number := by
  cases h with
  | none _ asleep | answered _ asleep => simp [asleep] at hmem
  | asleep retry asleep =>
      rw [asleep, List.mem_singleton, Sleeper.mk.injEq, Job.retry.injEq] at hmem
      obtain ⟨-, rfl, -⟩ := hmem
      exact retry

theorem Accounted.retry_of_answers (h : w.Accounted) (hwaits : 0 < w.answers) :
    w.retry.isSome := by
  cases h with
  | none _ _ answers | asleep _ _ answers => omega
  | answered retry => exact Option.isSome_iff_exists.2 ⟨_, retry⟩

end Search

namespace Coordinator

variable {c : Coordinator} {m : Moment} {message : Message} {w : Search}

def search (c : Coordinator) : Search where
  retry := c.retry
  asleep := c.sleepers.filter (!·.isDebounce)
  answers := c.queue.countP Message.isAnswer

/-- All that a moment can do to the search for the input. -/
inductive Look (c : Coordinator) (m : Moment) : Search → Prop
  | pass : Look c m c.search
  | stop {w : Search} (ended : (c.next m).phase = .ended) : Look c m w
  | seek (due number left : Nat) : Look c m (c.search.seek due number left)
  | hear (waits : 0 < c.search.answers) : Look c m c.search.hear
  | hearAndSeek (due number left : Nat) (waits : 0 < c.search.answers) :
      Look c m (c.search.hear.seek due number left)
  | sleepOn {due next number left : Nat}
      (asleep : ⟨due, .retry number (left + 1)⟩ ∈ c.search.asleep) :
      Look c m (c.search.sleepOn ⟨due, .retry number (left + 1)⟩ next number left)
  | answer {sleeper : Sleeper} (asleep : sleeper ∈ c.search.asleep) :
      Look c m (c.search.answer sleeper)

@[simp]
theorem search_report (level : Log.Level) (text : String) (c : Coordinator) :
    (c.report level text).search = c.search :=
  rfl

@[simp]
theorem search_detach (c : Coordinator) : c.detach.search = c.search := by
  unfold detach
  split <;> rfl

@[simp]
theorem search_attach (s : Surroundings) (c : Coordinator) : (c.attach s).2.search = c.search := by
  unfold attach
  cases s.refusal <;> rfl

theorem search_post (message : Message) (c : Coordinator) :
    (c.post message).search = { c.search with
      answers := c.search.answers + if message.isAnswer then 1 else 0 } := by
  simp only [search, post, List.countP_append, List.countP_singleton]

/-- A timer that is ended is no retry. -/
theorem asleep_cancelTimer (c : Coordinator) :
    c.cancelTimer.sleepers.filter (!·.isDebounce) = c.sleepers.filter (!·.isDebounce) := by
  cases ht : c.timer with
  | none => simp only [cancelTimer, ht]
  | some token =>
      simp only [cancelTimer, ht, List.filter_filter]
      refine List.filter_congr fun s _ => ?_
      cases hs : s.job <;> simp [Sleeper.isDebounce, isTimer, hs]

theorem search_armTimer (c : Coordinator) : c.armTimer.search = c.search := by
  simp only [armTimer, search, List.filter_append, asleep_cancelTimer]
  simp [Sleeper.isDebounce, cancelTimer]

theorem search_startRetry (c : Coordinator) :
    ∃ due number left, c.startRetry.search = c.search.seek due number left := by
  refine ⟨c.now + c.options.retryInterval, c.retriesStarted + 1, c.options.retryAttempts - 1, ?_⟩
  cases hr : c.retry with
  | none =>
      simp only [startRetry_of_none hr, search, Search.seek, hr, List.filter_append,
        asleep_cancelTimer]
      rfl
  | some number =>
      simp only [startRetry_of_some hr, search, Search.seek, hr, asleep_cancelTimer]
      rw [cancelTimer, hr]

theorem search_reattach (s : Surroundings) (c : Coordinator) :
    (c.reattach s).2.search = c.search ∨
      ∃ due number left, (c.reattach s).2.search = c.search.seek due number left := by
  cases hs : s.refusal with
  | none =>
      rw [reattach_of_granted hs]
      exact .inl (search_attach s c)
  | some reason =>
      rw [reattach_of_refused hs]
      obtain ⟨due, number, left, h⟩ := search_startRetry ((c.attach s).2.report .warning
        ("Could not watch " ++ c.inputFile.text ++ ": " ++
          AttachError.message ⟨c.inputFile, reason⟩))
      rw [search_report, search_attach] at h
      exact .inr ⟨due, number, left, h⟩

/-- A message that is no answer may begin a retry, and does nothing else to the search. -/
theorem search_handle_of_not_isAnswer (s : Surroundings) (h : message.isAnswer = false)
    (c : Coordinator) :
    (c.handle s message).search = c.search ∨
      ∃ due number left, (c.handle s message).search = c.search.seek due number left := by
  cases message with
  | changed => exact .inl (search_armTimer c)
  | timerFired token =>
      simp only [handle, handleTimer]
      split <;> exact .inl rfl
  | removed | watchError =>
      simp only [handle]
      obtain ⟨due, number, left, h⟩ := search_startRetry (report _ _ c).detach
      rw [search_detach, search_report] at h
      exact .inr ⟨due, number, left, h⟩
  | replaced =>
      rw [handle_replaced search search_armTimer]
      have h := search_reattach s
        ((c.report .info (c.inputFile.text ++ " replaced, re-attaching watch")).detach)
      rwa [search_detach, search_report] at h
  | reattached | retryExhausted => cases h

/-- An answer makes the loop forget its retry, and may begin another. -/
theorem search_handle_of_isAnswer (s : Surroundings) (h : message.isAnswer) (c : Coordinator) :
    (c.handle s message).search = { c with retry := none : Coordinator }.search ∨
      ∃ due number left, (c.handle s message).search =
        { c with retry := none : Coordinator }.search.seek due number left := by
  cases message with
  | reattached =>
      rw [handle_reattached search fun d level text => search_armTimer _]
      exact search_reattach s { c with retry := none }
  | retryExhausted => exact .inl rfl
  | changed | removed | replaced | timerFired | watchError => cases h

theorem look_of_reads (hread : c.reads m = some message) : c.Look m (c.next m).search := by
  have hqueue := (turn_of_reads hread).2.2.2
  rw [next_of_reads hread]
  cases h : message.isAnswer with
  | false =>
      have hsame : ({ c with queue := c.queue.tail } : Coordinator).search = c.search := by
        rw [search, search, hqueue, List.countP_cons_of_neg (by simp [h]), List.tail_cons]
      obtain hs | ⟨due, number, left, hs⟩ := search_handle_of_not_isAnswer m.surroundings h
        { c with queue := c.queue.tail }
      · rw [hs, hsame]
        exact .pass
      · rw [hs, hsame]
        exact .seek due number left
  | true =>
      have hanswers : c.search.answers = c.queue.tail.countP Message.isAnswer + 1 := by
        rw [search, hqueue, List.countP_cons_of_pos h, List.tail_cons]
      have hheard : ({ c with queue := c.queue.tail, retry := none } : Coordinator).search =
          c.search.hear := by
        rw [Search.hear, hanswers]
        rfl
      obtain hs | ⟨due, number, left, hs⟩ := search_handle_of_isAnswer m.surroundings h
        { c with queue := c.queue.tail }
      · rw [hs, hheard]
        exact .hear (by omega)
      · rw [hs, hheard]
        exact .hearAndSeek due number left (by omega)

theorem isAnswer_messageOf (s : Surroundings) (changes : List Change) (c : Coordinator) :
    (c.messageOf s changes).isAnswer = false := by
  unfold messageOf
  split
  · rfl
  · split <;> rfl

theorem look_of_wake (s : Surroundings) (sleeper : Sleeper) :
    c.Look ⟨s, .wake sleeper⟩ (c.next ⟨s, .wake sleeper⟩).search := by
  obtain ⟨due, job⟩ := sleeper
  by_cases hready : ⟨due, job⟩ ∈ c.sleepers ∧ due ≤ c.now
  · cases job with
    | debounce token =>
        have hnot : ⟨due, .debounce token⟩ ∉ c.sleepers.filter (!·.isDebounce) := by
          simp [Sleeper.isDebounce]
        have h : (c.next ⟨s, .wake ⟨due, .debounce token⟩⟩).search = c.search := by
          simp only [next, step, wake, if_pos hready, search_post]
          simp only [search, ← List.erase_filter, List.erase_of_not_mem hnot]
          rfl
        exact h ▸ .pass
    | retry number left =>
        have hasleep : ⟨due, .retry number left⟩ ∈ c.search.asleep :=
          List.mem_filter.2 ⟨hready.1, rfl⟩
        have hanswer (message : Message) (h : message.isAnswer) :
            (post message
              { c with sleepers := c.sleepers.erase ⟨due, .retry number left⟩ }).search =
              c.search.answer ⟨due, .retry number left⟩ := by
          rw [search_post, if_pos h]
          simp only [search, ← List.erase_filter, Search.answer]
        -- The file is there again, or this was the last look, or there is another one to come.
        simp only [next, step, wake, if_pos hready]
        split
        · rw [hanswer .reattached rfl]
          exact .answer hasleep
        · cases left with
          | zero =>
              rw [hanswer .retryExhausted rfl]
              exact .answer hasleep
          | succ left =>
              have hfilter (due : Nat) : [(⟨due, .retry number left⟩ : Sleeper)].filter
                  (!·.isDebounce) = [⟨due, .retry number left⟩] := rfl
              simp only [search, List.filter_append, ← List.erase_filter, hfilter]
              exact .sleepOn hasleep
  · have h : c.next ⟨s, .wake ⟨due, job⟩⟩ = c := if_neg hready
    exact h.symm ▸ .pass

theorem look_next (c : Coordinator) (m : Moment) : c.Look m (c.next m).search := by
  cases hread : c.reads m with
  | some message => exact look_of_reads hread
  | none =>
      obtain ⟨s, event⟩ := m
      cases event with
      | batch listener changes =>
          simp only [next, step, receive]
          split
          · rw [search_post, isAnswer_messageOf]
            exact .pass
          · exact .pass
      | streamFailure listener detail =>
          simp only [next, step, failStream]
          split
          · rw [search_post]
            exact .pass
          · exact .pass
      | wake sleeper => exact look_of_wake s sleeper
      | turn =>
          obtain h | h := next_turn_of_silent hread
          · rw [h]
            exact .pass
          · exact .stop (by rw [h]; rfl)
      | regenerated outcome reports =>
          simp only [next, step, finish]
          split
          · exact .pass
          · cases outcome <;> exact .pass
      | streamEnd | elapse | stopRequest => exact .pass

theorem Look.accounted (l : c.Look m w) (h : c.search.Accounted) :
    (c.next m).phase = .ended ∨ w.Accounted := by
  cases l with
  | pass => exact .inr h
  | stop ended => exact .inl ended
  | seek due number left => exact .inr (h.seek due number left)
  | hear waits => exact .inr (h.hear waits)
  | hearAndSeek due number left waits => exact .inr ((h.hear waits).seek due number left)
  | sleepOn asleep => exact .inr (h.sleepOn asleep)
  | answer asleep => exact .inr (h.answer asleep)

theorem Started.accounted (h : Started c) : c.search.Accounted := by
  obtain ⟨inputFile, options, identity, journal, rfl⟩ := h.eq
  exact .none rfl rfl rfl

theorem accounted_after (h : c.search.Accounted) (history : List Moment) :
    (c.after history).phase = .ended ∨ (c.after history).search.Accounted := by
  induction history generalizing c with
  | nil => exact .inr h
  | cons m rest ih =>
      obtain hended | hnext := (look_next c m).accounted h
      · exact .inl (ended_after hended rest)
      · exact ih hnext

def retries (c : Coordinator) : Nat :=
  c.sleepers.countP (!·.isDebounce)

def answers (c : Coordinator) : Nat :=
  c.queue.countP Message.isAnswer

/-- In every state of a loop that runs, the retries that are alive and the answers that wait are
together one if the scheduler knows of a retry, and none otherwise. What sleeps is the retry that
it knows of, and no answer is read that it does not wait for. -/
theorem retry_accounted {c₀ : Coordinator} (hstarted : Started c₀) (history : List Moment)
    (hrunning : (c₀.after history).phase ≠ .ended) :
    let c := c₀.after history
    c.retries + c.answers = (if c.retry.isSome then 1 else 0) ∧
      (∀ due number left, ⟨due, .retry number left⟩ ∈ c.sleepers → c.retry = some number) ∧
      ∀ m message, c.reads m = some message → message.isAnswer → c.retry.isSome := by
  intro c
  have haccounted := (accounted_after hstarted.accounted history).resolve_left hrunning
  refine ⟨?_, ?_, ?_⟩
  · refine Eq.trans ?_ haccounted.total
    rw [retries, List.countP_eq_length_filter]
    rfl
  · intro due number left h
    exact haccounted.retry_of_mem (List.mem_filter.2 ⟨h, rfl⟩)
  · intro m message hread h
    have hmem : message ∈ c.queue := (turn_of_reads hread).2.2.2 ▸ List.mem_cons_self
    exact haccounted.retry_of_answers (List.countP_pos_iff.2 ⟨message, hmem, h⟩)

def removedTwice : List Moment :=
  [.seeing none (.batch 1 [.deleted]), .seeing none (.batch 1 [.deleted]), .seeing none .turn,
    .seeing none .turn, .seeing none (.elapse 100), .seeing (some 2) (.wake ⟨100, .retry 1 9⟩)]

/-- One retry for both reports, one answer for the retry, and another retry for the refusal. -/
theorem retry_accounted_removedTwice :
    let answered := watching.after removedTwice
    let refused := watching.after (removedTwice ++ [⟨⟨some 2, none, some "busy"⟩, .turn⟩])
    Started watching ∧ answered.phase ≠ .ended ∧ refused.phase ≠ .ended ∧
      answered.retry = some 1 ∧ answered.queue = [.reattached] ∧
      answered.retries + answered.answers = 1 ∧
      refused.retry = some 2 ∧ refused.queue = [] ∧ refused.retries + refused.answers = 1 :=
  have hanswered := (retry_accounted started_watching removedTwice (by decide)).1
  have hrefused := (retry_accounted started_watching
    (removedTwice ++ [⟨⟨some 2, none, some "busy"⟩, .turn⟩]) (by decide)).1
  ⟨started_watching, by decide, by decide, by decide, by decide,
    by rwa [if_pos (by decide)] at hanswered, by decide, by decide,
    by rwa [if_pos (by decide)] at hrefused⟩

end Coordinator
end TypedConfig.Watch
