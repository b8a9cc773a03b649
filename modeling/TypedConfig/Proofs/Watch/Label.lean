import TypedConfig.Proofs.Watch.Debounce
import TypedConfig.Proofs.Watch.Turns

namespace TypedConfig.Watch.Coordinator

variable {c : Coordinator} {m : Moment}

/-- The input counts as unavailable exactly while no watch is alive. -/
def Honest (c : Coordinator) : Prop :=
  c.condition = .unavailable ↔ c.listeners = []

/-- Some watch is alive, and every change that it reports reaches the scheduler. -/
def Sees (c : Coordinator) : Prop :=
  ∃ n ∈ c.listeners, ∀ s changes, changes ≠ [] →
    (c.next ⟨s, .batch n changes⟩).queue = c.queue ++ [c.messageOf s changes]

def FallsSilent (c : Coordinator) (m : Moment) : Prop :=
  c.listeners ≠ [] ∧ ∀ n ∈ c.listeners, m.event.ends? = some n

def HearsLate (c : Coordinator) (m : Moment) : Prop :=
  c.reads m = some .changed ∧ c.listeners = []

def GivesUpEarly (c : Coordinator) (m : Moment) : Prop :=
  ∃ message, c.reads m = some message ∧ message.withdraws m.surroundings ∧ c.spared message ≠ []

/-- The label and the watches come apart. -/
def Misleads (c : Coordinator) (m : Moment) : Prop :=
  c.phase ≠ .ended ∧ (c.FallsSilent m ∨ c.HearsLate m ∨ c.GivesUpEarly m)

instance (c : Coordinator) : Decidable c.Honest :=
  inferInstanceAs (Decidable (_ ↔ _))

instance (c : Coordinator) (m : Moment) : Decidable (c.FallsSilent m) :=
  inferInstanceAs (Decidable (_ ∧ _))

instance (c : Coordinator) (m : Moment) : Decidable (c.HearsLate m) :=
  inferInstanceAs (Decidable (_ ∧ _))

instance (c : Coordinator) (m : Moment) : Decidable (c.GivesUpEarly m) :=
  decidable_of_iff ((c.reads m).any fun message =>
      message.withdraws m.surroundings && c.spared message != []) <| by
    simp [GivesUpEarly, Option.any_eq_true]

instance (c : Coordinator) (m : Moment) : Decidable (c.Misleads m) :=
  inferInstanceAs (Decidable (_ ∧ _))

/-- A watch that is alive reports to the scheduler. -/
theorem sees_of_listeners_ne_nil (h : c.listeners ≠ []) : c.Sees := by
  obtain ⟨n, hn⟩ := List.exists_mem_of_ne_nil _ h
  refine ⟨n, hn, fun s changes hchanges => ?_⟩
  simp only [next, step, receive, if_pos (And.intro hn hchanges)]
  rfl

theorem Honest.sees (h : c.Honest) (hlabel : c.condition ≠ .unavailable) : c.Sees :=
  sees_of_listeners_ne_nil fun hnil => hlabel (h.2 hnil)

/-- While a timer runs the loop waits for quiet, and for nothing else. -/
theorem condition_of_timer (h : c.clockwork.Regular) (ht : c.timer.isSome) :
    c.condition = .pending := by
  obtain d | ⟨start, a⟩ := h.armed
  · have hnone : c.timer = none := d.timer
    simp [hnone] at ht
  · exact a.condition

theorem ends?_of_reads {message : Message} (hread : c.reads m = some message) :
    m.event.ends? = none := by
  rw [(turn_of_reads hread).1]
  rfl

theorem not_fallsSilent_of_ends? (h : m.event.ends? = none) : ¬ c.FallsSilent m := by
  rintro ⟨hne, hall⟩
  obtain ⟨n, hn⟩ := List.exists_mem_of_ne_nil _ hne
  have hends := hall n hn
  rw [h] at hends
  cases hends

/-- While nothing is read the label stays, so that only the end of the last watch misleads. -/
theorem honest_iff_of_calm (h : c.Honest) (hrunning : c.phase ≠ .ended) (hread : c.reads m = none)
    (calm : c.Calm m.event (c.next m)) : (c.next m).Honest ↔ ¬ c.Misleads m := by
  have hlisteners : (c.next m).listeners = [] ↔ ∀ n ∈ c.listeners, m.event.ends? = some n := by
    rw [calm.listeners, List.filter_eq_nil_iff]
    simp
  have hmisleads : c.Misleads m ↔ c.FallsSilent m := by
    simp [Misleads, HearsLate, GivesUpEarly, hread, hrunning]
  rw [hmisleads, FallsSilent]
  simp only [Honest, calm.condition, hlisteners] at h ⊢
  rw [h]
  constructor
  · exact fun hiff ⟨hne, hall⟩ => hne (hiff.2 hall)
  · intro hno
    refine ⟨fun hnil => by simp [hnil], fun hall => ?_⟩
    exact by_contra fun hne => hno ⟨hne, hall⟩

theorem honest_iff_of_reads (h : c.Honest) (hregular : c.clockwork.Regular) {message : Message}
    (hread : c.reads m = some message) : (c.next m).Honest ↔ ¬ c.Misleads m := by
  have hrunning : c.phase ≠ .ended := by simp [(turn_of_reads hread).2.1]
  have hlisteners := listeners_next hread
  have hmisleads : c.Misleads m ↔ (message = .changed ∧ c.listeners = []) ∨
      (message.withdraws m.surroundings ∧ c.spared message ≠ []) := by
    simp [Misleads, HearsLate, GivesUpEarly, hread, hrunning,
      not_fallsSilent_of_ends? (ends?_of_reads hread)]
  rw [hmisleads]
  have hdull (h : message.isNews = false) :
      ¬ ((message = .changed ∧ c.listeners = []) ∨
        (message.withdraws m.surroundings ∧ c.spared message ≠ [])) := by
    rintro (⟨rfl, -⟩ | ⟨hw, -⟩)
    · cases h
    · exact absurd ((Message.isNews_iff _ _).2 (.inr hw)) (by simp [h])
  cases turn_next hread with
  | arms announces condition =>
      have hlabel : (c.next m).Honest ↔ (c.next m).listeners ≠ [] := by simp [Honest, condition]
      by_cases hchanged : message = .changed
      · subst hchanged
        simp [hlabel, hlisteners, spared, Message.attaches, Message.withdraws]
      · simp [hlabel, hlisteners, Message.attaches_of_announces announces hchanged,
          Message.withdraws_eq_false_of_announces announces, hchanged]
  | loses withdraws condition =>
      have hchanged : message ≠ .changed := by
        rintro rfl
        cases withdraws
      simp [Honest, condition, hlisteners, Message.attaches_eq_false_of_withdraws withdraws,
        withdraws, hchanged]
  | fires dull armed condition =>
      -- a timer runs only while a watch is alive, as the label says
      have hne : c.listeners ≠ [] := fun hnil => by
        have hpending := condition_of_timer hregular armed
        simp [h.2 hnil] at hpending
      refine iff_of_true ?_ (hdull dull)
      simp [Honest, condition, listeners_next_of_dull hread dull, hne]
  | passes dull condition =>
      refine iff_of_true ?_ (hdull dull)
      rwa [Honest, condition, listeners_next_of_dull hread dull]

/-- The label of a loop that runs stays in step in all moments but those that mislead. -/
theorem honest_next_iff (h : c.phase ≠ .ended → c.Honest) (hregular : c.clockwork.Regular)
    (m : Moment) : ((c.next m).phase ≠ .ended → (c.next m).Honest) ↔ ¬ c.Misleads m := by
  by_cases hrunning : c.phase = .ended
  · refine iff_of_true (fun h => absurd (ended_next hrunning m) h) ?_
    simp [Misleads, hrunning]
  cases hread : c.reads m with
  | some message =>
      have hgoes : (c.next m).phase ≠ .ended := by
        have hphase := (turn_of_reads hread).2.1
        cases turn_next hread with
        | arms _ _ _ phase | loses _ _ _ phase | passes _ _ _ phase => simp [phase, hphase]
        | fires _ _ _ _ phase => simp [phase]
      rw [← honest_iff_of_reads (h hrunning) hregular hread]
      exact ⟨fun hall => hall hgoes, fun hnext _ => hnext⟩
  | none =>
      obtain ⟨hturn, hended⟩ | calm := calm_next hread
      · refine iff_of_true (fun h => absurd hended h) ?_
        have hfalls := not_fallsSilent_of_ends? (c := c) (m := m) (by rw [hturn]; rfl)
        simp [Misleads, HearsLate, GivesUpEarly, hread, hfalls]
      · rw [← honest_iff_of_calm (h hrunning) hrunning hread calm]
        exact ⟨fun hall => hall (calm.ended.not.2 hrunning), fun hnext _ => hnext⟩

theorem Started.honest (h : Started c) : c.Honest := by
  obtain ⟨inputFile, options, identity, journal, rfl⟩ := h.eq
  simp [Honest, new]

theorem honest_after_iff (h : c.Honest) (hregular : c.clockwork.Regular)
    (history : List Moment) :
    (∀ before, before <+: history → (c.after before).phase ≠ .ended → (c.after before).Honest) ↔
      Along (fun c m => ¬ c.Misleads m) c history :=
  forall_prefix_iff_along (P := fun c => c.phase ≠ .ended → c.Honest)
    (fun c m => (tick_next c m).regular) (fun _ m hI hP => honest_next_iff hP hI m) hregular
    (fun _ => h) history

/-- In every state of a history in which the loop runs, the input counts as unavailable exactly
while no watch is alive, and any other label means that changes are seen, if and only if, while
the loop runs, the last watch never ends by itself, no change is read while no watch is alive, and
the input is never given up while a watch goes on. -/
theorem honest_iff_never_misleads {c₀ : Coordinator} (hstarted : Started c₀)
    (history : List Moment) :
    (∀ before, before <+: history → (c₀.after before).phase ≠ .ended →
      (c₀.after before).Honest ∧
        ((c₀.after before).condition ≠ .unavailable → (c₀.after before).Sees)) ↔
      Along (fun c m => ¬ c.Misleads m) c₀ history := by
  rw [← honest_after_iff hstarted.honest hstarted.regular history]
  constructor
  · exact fun h before hb hrunning => (h before hb hrunning).1
  · exact fun h before hb hrunning => ⟨h before hb hrunning, (h before hb hrunning).sees⟩

def removedAndFound : List Moment :=
  [.seeing none (.batch 1 [.deleted]), .seeing none .turn, .seeing none (.elapse 100),
    .seeing (some 2) (.wake ⟨100, .retry 1 9⟩), .seeing (some 2) .turn]

/-- The label follows the watch through the loss of the input and back. -/
theorem honest_removedAndFound :
    let lost := watching.after (removedAndFound.take 2)
    let found := watching.after removedAndFound
    Started watching ∧ lost.condition = .unavailable ∧ lost.Honest ∧
      found.condition = .pending ∧ found.Honest ∧ found.Sees :=
  have h := (honest_iff_never_misleads started_watching removedAndFound).2 (by decide)
  ⟨started_watching, by decide, (h _ (List.take_prefix 2 _) (by decide)).1, by decide,
    (h _ List.prefix_rfl (by decide)).1, (h _ List.prefix_rfl (by decide)).2 (by decide)⟩

def movedAndBack : List Moment :=
  [.seeing (some 1) (.batch 1 [.modified]), .seeing (some 1) .turn, .seeing (some 1) (.elapse 100),
    .seeing (some 1) (.wake ⟨100, .debounce 1⟩), .seeing (some 1) .turn,
    .seeing none (.batch 1 [.deleted]), .seeing (some 1) (.batch 1 [.added]),
    .seeing (some 1) (.regenerated .success []), .seeing (some 1) .turn, .seeing (some 1) .turn]

/-- The three ways in which the label is misled: a loop without a watch is idle once the only watch
has ended, or waits for quiet once a change has been read late, and a loop that looks for its input
still has a watch that was put beside the one given up. -/
theorem label_misleads :
    let silent := watching.after [.seeing (some 1) (.streamEnd 1)]
    let late := watching.after movedAndBack
    let doubled := watching.after (removedAndReplaced ++
      [.seeing (some 2) .turn, .seeing none (.batch 3 [.deleted]), .seeing none .turn])
    Started watching ∧
      (silent.phase = .scheduling ∧ silent.condition = .idle ∧ silent.listeners = [] ∧
        silent.queue = [] ∧ silent.sleepers = [] ∧ ¬ silent.Honest) ∧
      (late.phase = .scheduling ∧ late.condition = .pending ∧ late.listeners = [] ∧
        ¬ late.Honest) ∧
      (doubled.phase = .scheduling ∧ doubled.condition = .unavailable ∧
        doubled.listeners = [2] ∧ ¬ doubled.Honest) :=
  ⟨started_watching, by decide, by decide, by decide⟩

end TypedConfig.Watch.Coordinator
