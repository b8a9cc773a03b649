import TypedConfig.Proofs.Watch.History

namespace TypedConfig.Watch.Coordinator

variable {c : Coordinator} {m : Moment}

/-- One watch at most is alive, and it is the one that the scheduler knows of. -/
def OnlyHeld (c : Coordinator) : Prop :=
  c.listeners.length ≤ 1 ∧ ∀ n ∈ c.listeners, c.watch = some n

instance (c : Coordinator) : Decidable c.OnlyHeld :=
  inferInstanceAs (Decidable (_ ∧ _))

/-- A watch is begun for an input that is back, though one is alive. -/
def Doubles (c : Coordinator) (m : Moment) : Prop :=
  c.reads m = some .reattached ∧ m.surroundings.refusal = none ∧ c.listeners ≠ []

instance (c : Coordinator) (m : Moment) : Decidable (c.Doubles m) :=
  inferInstanceAs (Decidable (_ ∧ _))

theorem onlyHeld_of_listeners_eq_nil (h : c.listeners = []) : c.OnlyHeld := by
  simp [OnlyHeld, h]

theorem onlyHeld_of_eq_singleton {n : Nat} (hl : c.listeners = [n]) (hw : c.watch = some n) :
    c.OnlyHeld := by
  simp [OnlyHeld, hl, hw]

theorem OnlyHeld.of_eq {d : Coordinator} (h : c.OnlyHeld) (hl : d.listeners = c.listeners)
    (hw : d.watch = c.watch) : d.OnlyHeld := by
  rwa [OnlyHeld, hl, hw]

/-- A watch that ends by itself leaves no other alive. -/
theorem OnlyHeld.filter {d : Coordinator} {p : Nat → Bool} (h : c.OnlyHeld)
    (hl : d.listeners = c.listeners.filter p) (hw : d.watch = c.watch) : d.OnlyHeld := by
  rw [OnlyHeld, hl, hw]
  exact ⟨(List.length_filter_le _ _).trans h.1, fun n hn => h.2 n (List.mem_filter.1 hn).1⟩

theorem listeners_detach (h : c.OnlyHeld) : c.detach.listeners = [] := by
  cases hw : c.watch with
  | none =>
      rw [detach, hw]
      exact List.eq_nil_iff_forall_not_mem.2 fun n hn => by simpa [hw] using h.2 n hn
  | some number =>
      rw [detach, hw]
      refine List.filter_eq_nil_iff.2 fun n hn => ?_
      have hn' : number = n := Option.some.inj (hw.symm.trans (h.2 n hn))
      simp [hn']

theorem listeners_shutDown (h : c.OnlyHeld) : c.shutDown.listeners = [] :=
  listeners_detach h

theorem startRetry_keeps (c : Coordinator) :
    c.startRetry.listeners = c.listeners ∧ c.startRetry.watch = c.watch := by
  cases hr : c.retry with
  | none => rw [startRetry_of_none hr]; exact ⟨rfl, rfl⟩
  | some number => rw [startRetry_of_some hr]; exact ⟨rfl, rfl⟩

theorem attach_of_granted {s : Surroundings} (h : s.refusal = none) (c : Coordinator) :
    (c.attach s).2.listeners = c.listeners ++ [c.watches + 1] ∧
      (c.attach s).2.watch = some (c.watches + 1) := by
  rw [attach, h]
  exact ⟨rfl, rfl⟩

theorem attach_of_refused {s : Surroundings} {reason : String} (h : s.refusal = some reason)
    (c : Coordinator) :
    (c.attach s).2.listeners = c.listeners ∧ (c.attach s).2.watch = c.watch := by
  rw [attach, h]
  exact ⟨rfl, rfl⟩

/-- A watch begun while none is alive is the only one. -/
theorem onlyHeld_attach (s : Surroundings) (h : c.listeners = []) :
    (c.attach s).2.OnlyHeld := by
  cases hs : s.refusal with
  | none =>
      obtain ⟨hl, hw⟩ := attach_of_granted hs c
      exact onlyHeld_of_eq_singleton (hl.trans (by rw [h, List.nil_append])) hw
  | some reason => exact onlyHeld_of_listeners_eq_nil ((attach_of_refused hs c).1.trans h)

theorem onlyHeld_reattach (s : Surroundings) (h : (c.attach s).2.OnlyHeld) :
    (c.reattach s).2.OnlyHeld := by
  cases hs : s.refusal with
  | none => rwa [reattach_of_granted hs]
  | some reason =>
      rw [reattach_of_refused hs]
      obtain ⟨hl, hw⟩ := startRetry_keeps _
      exact h.of_eq hl hw

theorem onlyHeld_handle_of_ne_reattached (s : Surroundings) {message : Message}
    (h : c.OnlyHeld) (hne : message ≠ .reattached) : (c.handle s message).OnlyHeld := by
  have hdetach (level : Log.Level) (text : String) : (c.report level text).detach.listeners = [] :=
    listeners_detach (c := c.report level text) (h.of_eq rfl rfl)
  have hretry (level : Log.Level) (text : String) :
      ((c.report level text).detach.startRetry).OnlyHeld :=
    onlyHeld_of_listeners_eq_nil ((startRetry_keeps _).1.trans (hdetach level text))
  cases message with
  | changed => exact h.of_eq rfl rfl
  | removed => exact hretry _ _
  | watchError detail => exact hretry _ _
  | retryExhausted => exact h.of_eq rfl rfl
  | reattached => exact absurd rfl hne
  | timerFired token =>
      simp only [handle, handleTimer]
      split
      · exact h
      · exact h.of_eq rfl rfl
  | replaced =>
      have hre := onlyHeld_reattach s (onlyHeld_attach s (hdetach .info
        (c.inputFile.text ++ " replaced, re-attaching watch")))
      simp only [handle]
      split
      · rename_i d heq
        rw [heq] at hre
        exact hre.of_eq rfl rfl
      · rename_i d heq
        rwa [heq] at hre

/-- The watch that is begun when the input is back is the only one only if none was alive. -/
theorem onlyHeld_handle_reattached_iff (s : Surroundings) (h : c.OnlyHeld) :
    (c.handle s .reattached).OnlyHeld ↔ ¬ (s.refusal = none ∧ c.listeners ≠ []) := by
  cases hs : s.refusal with
  | some reason =>
      obtain ⟨hl, hw⟩ := attach_of_refused hs { c with retry := none }
      have hre := onlyHeld_reattach s (h.of_eq hl hw)
      rw [reattach_of_refused hs] at hre
      simp only [handle, reattach_of_refused hs, reduceCtorEq, false_and, not_false_eq_true,
        iff_true]
      exact hre
  | none =>
      obtain ⟨hl, hw⟩ := attach_of_granted hs { c with retry := none }
      simp only [handle, reattach_of_granted hs, true_and, not_not]
      constructor
      · intro hheld
        have hlength := hheld.1
        change ({ c with retry := none }.attach s).2.listeners.length ≤ 1 at hlength
        rw [hl, List.length_append, List.length_singleton] at hlength
        exact List.eq_nil_of_length_eq_zero (by simpa using hlength)
      · intro hnil
        exact (onlyHeld_attach s (c := { c with retry := none }) hnil).of_eq rfl rfl

/-- All that puts a second watch beside the first. -/
theorem onlyHeld_next_iff (h : c.OnlyHeld) (m : Moment) :
    (c.next m).OnlyHeld ↔ ¬ c.Doubles m := by
  cases hread : c.reads m with
  | some message =>
      have hqueue : ({ c with queue := c.queue.tail } : Coordinator).OnlyHeld := h.of_eq rfl rfl
      rw [next_of_reads hread]
      by_cases hmessage : message = .reattached
      · rw [hmessage, onlyHeld_handle_reattached_iff m.surroundings hqueue]
        simp [Doubles, hread, hmessage]
      · refine iff_of_true (onlyHeld_handle_of_ne_reattached m.surroundings hqueue hmessage) ?_
        simp [Doubles, hread, hmessage]
  | none =>
      -- What is not a message may end a listener, but only messages attach one.
      refine iff_of_true ?_ (by simp [Doubles, hread])
      obtain ⟨s, event⟩ := m
      cases event with
      | batch listener changes =>
          simp only [next, step, receive]
          split
          · exact h.of_eq rfl rfl
          · exact h
      | streamFailure listener detail =>
          simp only [next, step, failStream]
          split
          · exact h.filter rfl rfl
          · exact h
      | streamEnd listener => exact h.filter rfl rfl
      | wake sleeper =>
          simp only [next, step, wake]
          repeat' split
          all_goals exact h.of_eq rfl rfl
      | turn =>
          obtain hturn | hturn := next_turn_of_silent hread
          · rwa [hturn]
          · rw [hturn]
            exact onlyHeld_of_listeners_eq_nil (listeners_shutDown h)
      | regenerated outcome reports =>
          simp only [next, step, finish]
          split
          · exact h
          · cases outcome <;> exact h.of_eq rfl rfl
      | elapse | stopRequest => exact h.of_eq rfl rfl

theorem Started.onlyHeld (h : Started c) : c.OnlyHeld := by
  obtain ⟨inputFile, options, identity, journal, rfl⟩ := h.eq
  exact onlyHeld_of_eq_singleton rfl rfl

theorem onlyHeld_after_iff (h : c.OnlyHeld) (history : List Moment) :
    (∀ before, before <+: history → (c.after before).OnlyHeld) ↔
      Along (fun c m => ¬ c.Doubles m) c history :=
  forall_prefix_iff_along (I := fun _ => True) (P := OnlyHeld) (fun _ _ _ => trivial)
    (fun _ m _ h => onlyHeld_next_iff h m) trivial h history

/-- In every state of a history one watch at most is alive, the one that the scheduler knows of, so
that stopping leaves none alive, exactly if no notice that the input is back is read while a watch
is alive and another is granted. -/
theorem onlyHeld_iff_never_doubles {c₀ : Coordinator} (hstarted : Started c₀)
    (history : List Moment) :
    (∀ before, before <+: history →
      (c₀.after before).OnlyHeld ∧ (c₀.after before).shutDown.listeners = []) ↔
      Along (fun c m => ¬ c.Doubles m) c₀ history := by
  rw [← onlyHeld_after_iff hstarted.onlyHeld history]
  constructor
  · exact fun h before hb => (h before hb).1
  · exact fun h before hb => ⟨h before hb, listeners_shutDown (h before hb)⟩

def removedAndReplaced : List Moment :=
  [.seeing (some 1) (.batch 1 [.modified]), .seeing (some 1) .turn, .seeing (some 1) (.elapse 100),
    .seeing (some 1) (.wake ⟨100, .debounce 1⟩), .seeing (some 1) .turn,
    .seeing none (.batch 1 [.deleted]), .seeing (some 2) (.batch 1 [.added]),
    .seeing (some 2) (.regenerated .success []), .seeing (some 2) .turn, .seeing (some 2) .turn,
    .seeing (some 2) (.elapse 100), .seeing (some 2) (.wake ⟨200, .retry 1 9⟩)]

/-- The notice that the input is back has not been read yet. -/
theorem onlyHeld_removedAndReplaced :
    Started watching ∧ (watching.after removedAndReplaced).OnlyHeld ∧
      (watching.after removedAndReplaced).listeners = [2] ∧
      (watching.after removedAndReplaced).queue = [.reattached] :=
  ⟨started_watching,
    (((onlyHeld_iff_never_doubles started_watching removedAndReplaced).2 (by decide)) _
      (List.prefix_refl _)).1, by decide, by decide⟩

/-- When it is read, a second watch comes beside the first, and one of them outlives the loop. -/
theorem retry_doubles_watch :
    let run := watching.after (removedAndReplaced ++ [.seeing (some 2) .turn])
    Started watching ∧ run.phase = .scheduling ∧ run.listeners = [2, 3] ∧ run.watch = some 3 ∧
      run.shutDown.listeners = [2] :=
  ⟨started_watching, by decide, by decide, by decide, by decide⟩

end TypedConfig.Watch.Coordinator
