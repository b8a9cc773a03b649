import TypedConfig.Files.Writing
import TypedConfig.Proofs.Files.Store
import TypedConfig.Proofs.Outcome

namespace TypedConfig.FileStore

variable {store after : FileStore} {path target : Path} {location : Location}
  {content : ByteArray} {result : Except AccessError Unit} {error : AccessError}

structure Grown (path : Path) (before after : FileStore) : Prop where
  files : after.files = before.files
  workingDirectory : after.workingDirectory = before.workingDirectory
  directories : ∃ made, after.directories = before.directories ++ made ∧ ∀ location ∈ made,
    ∃ above : Path, above.root = path.root ∧ above.parts <+: path.parts ∧
      after.locate above = .ok location

theorem Grown.refl (path : Path) (store : FileStore) : Grown path store store :=
  ⟨rfl, rfl, [], by simp, by simp⟩

theorem Grown.keepsDirectories (h : Grown path store after) : KeepsDirectories store after := by
  obtain ⟨made, hmade, -⟩ := h.directories
  have happend : KeepsDirectories store { store with directories := store.directories ++ made } :=
    .append made
  refine ⟨h.workingDirectory, fun {location} hnode => ?_⟩
  have hnode := happend.node? hnode
  rw [node?] at hnode ⊢
  rw [h.files, hmade]
  exact hnode

theorem Grown.trans {between : FileStore} {above : Path} (h : Grown above store between)
    (h' : Grown path between after) (hroot : above.root = path.root)
    (hparts : above.parts <+: path.parts) : Grown path store after := by
  obtain ⟨made, hmade, habove⟩ := h.directories
  obtain ⟨more, hmore, hpath⟩ := h'.directories
  refine ⟨h'.files.trans h.files, h'.workingDirectory.trans h.workingDirectory, made ++ more, ?_,
    List.forall_mem_append.2 ⟨fun location hlocation => ?_, hpath⟩⟩
  · rw [hmore, hmade, List.append_assoc]
  · obtain ⟨place, hplace, hprefix, hlocate⟩ := habove location hlocation
    exact ⟨place, hplace.trans hroot, hprefix.trans hparts,
      h'.keepsDirectories.locate hlocate⟩

theorem grown_makeDirectory (h : store.makeDirectory path = .ok after) :
    Grown path store after := by
  unfold makeDirectory at h
  cases hlocate : store.locate path with
  | error fault =>
      rw [hlocate] at h
      cases h
  | ok location =>
      simp only [hlocate, bind, Except.bind] at h
      split at h
      · cases h
      · cases h
        exact ⟨rfl, rfl, [location], rfl, List.forall_mem_singleton.2
          ⟨path, rfl, List.prefix_rfl, (KeepsDirectories.append [location]).locate hlocate⟩⟩

theorem keeps_acceptExisting (fault : Fault) (path : Path) :
    Keeps id (acceptExisting fault path) := by
  intro store
  rw [acceptExisting, outcome_bind_of_ok outcome_get]
  split <;> rfl

/-- What is done with the answer to an attempt to make the directory itself. -/
theorem grown_makeDirectories_step {after : FileStore}
    (missing : FileAction Unit)
    (hmissing : ∀ result after, outcome missing store = (result, after) → Grown path store after)
    (h : outcome (do
      match (← get).makeDirectory path with
      | .ok store => set store
      | .error .notFound => missing
      | .error fault => acceptExisting fault path) store = (result, after)) :
    Grown path store after := by
  rw [outcome_bind_of_ok outcome_get] at h
  split at h
  · next made hmade =>
    cases h
    exact grown_makeDirectory hmade
  · exact hmissing _ _ h
  · next fault _ _ =>
    have hsame : after = store := (keeps_acceptExisting fault path).eq_of_outcome h
    rw [hsame]
    exact Grown.refl path store

theorem grown_makeDirectories (path : Path) {store after : FileStore}
    {result : Except AccessError Unit}
    (h : outcome (makeDirectories path) store = (result, after)) : Grown path store after := by
  induction path using makeDirectories.induct generalizing store after result with
  | case1 path ih =>
      rw [makeDirectories] at h
      refine grown_makeDirectories_step _ (fun result after h => ?_) h
      split at h
      · cases h
        exact Grown.refl path store
      · next hparts =>
        have hprefix : path.parent.parts <+: path.parts := List.dropLast_prefix path.parts
        rcases habove : outcome (makeDirectories path.parent) store with ⟨error | _, between⟩
        · have hgrown := ih hparts habove
          rw [outcome_bind_of_error habove] at h
          cases h
          exact hgrown.trans (Grown.refl path _) rfl hprefix
        · have hgrown := ih hparts habove
          rw [outcome_bind_of_ok habove] at h
          refine
            hgrown.trans (grown_makeDirectories_step _ (fun result after h => ?_) h) rfl hprefix
          cases h
          exact Grown.refl path between

/-- Either nothing was done, or an empty file stands where nothing stood. -/
theorem outcome_createTemporary (store : FileStore) (target : Path) :
    (∃ error, outcome (createTemporary target) store = (.error error, store)) ∨
    ∃ temporary location, outcome (createTemporary target) store =
        (.ok temporary, store.put location ByteArray.empty) ∧
      store.locate temporary = .ok location ∧ store.node? location = none := by
  rw [createTemporary, outcome_bind_of_ok outcome_get]
  dsimp only
  split
  · exact .inl ⟨_, rfl⟩
  · next attempt hattempt =>
    have hfree := List.find?_some hattempt
    rw [Bool.not_eq_true', fileExists_eq_false_iff] at hfree
    split
    · exact .inl ⟨_, rfl⟩
    · next location hlocate => exact .inr ⟨_, location, rfl, hlocate, hfree location hlocate⟩

theorem locate_of_checkReplaceable (h : store.checkReplaceable target = .ok location) :
    store.locate target = .ok location ∧ store.node? location ≠ some .directory := by
  unfold checkReplaceable at h
  split at h
  · cases h
  · cases hlocate : store.locate target with
    | error fault =>
        rw [hlocate] at h
        cases h
    | ok place =>
        simp only [hlocate, bind, Except.bind, pure, Except.pure] at h
        split at h
        · cases h
        · next hnode =>
          cases h
          exact ⟨rfl, hnode⟩

theorem outcome_replace {temporary : Path} {free : Location} (target : Path)
    (content : ByteArray) (hfree : store.node? free = none)
    (htemporary : store.locate temporary = .ok free) :
    let between := store.put free ByteArray.empty
    (∃ error, outcome (replace temporary target content) between =
      (.error error, between.remove free)) ∨
    ∃ location, outcome (replace temporary target content) between =
        (.ok ⟨⟩, (between.remove free).put location content) ∧
      between.locate target = .ok location ∧ between.node? location ≠ some .directory := by
  intro between
  have hlocate : between.locate temporary = .ok free :=
    (KeepsDirectories.put (by simp [hfree])).locate htemporary
  rw [replace, outcome_bind_of_ok outcome_get]
  simp only [hlocate]
  cases hreplace : between.checkReplaceable target with
  | error fault => exact .inl ⟨_, rfl⟩
  | ok location => exact .inr ⟨location, rfl, locate_of_checkReplaceable hreplace⟩

/-- Nothing is left of a temporary file but that its identity has been used. -/
theorem Grown.removeTemporary {free : Location} (h : Grown path store after)
    (hfree : after.node? free = none) :
    Grown path store ((after.put free ByteArray.empty).remove free) := by
  have hkeeps : KeepsDirectories after ((after.put free ByteArray.empty).remove free) :=
    (KeepsDirectories.put (by simp [hfree])).trans KeepsDirectories.remove
  obtain ⟨made, hmade, habove⟩ := h.directories
  refine ⟨(files_remove_put (lookup_of_node?_none hfree)).trans h.files, h.workingDirectory, made,
    hmade, fun location hlocation => ?_⟩
  obtain ⟨above, hroot, hprefix, hlocate⟩ := habove location hlocation
  exact ⟨above, hroot, hprefix, hkeeps.locate hlocate⟩

theorem outcome_writeAtomic (store : FileStore) (target : Path) (content : ByteArray) :
    ∃ grown, Grown target.parent store grown ∧
      ((∃ error, outcome (writeAtomic target content) store = (.error error, grown)) ∨
      ∃ location, outcome (writeAtomic target content) store =
          (.ok target, grown.put location content) ∧
        grown.locate target = .ok location ∧ grown.node? location ≠ some .directory) := by
  rw [writeAtomic]
  rcases hmake : outcome (makeDirectories target.parent) store with ⟨error | _, grown⟩
  · exact ⟨grown, grown_makeDirectories _ hmake, .inl ⟨error, outcome_bind_of_error hmake⟩⟩
  have hgrown := grown_makeDirectories _ hmake
  rw [outcome_bind_of_ok hmake]
  obtain ⟨error, htemporary⟩ | ⟨temporary, free, htemporary, hlocate, hfree⟩ :=
    outcome_createTemporary grown target
  · exact ⟨grown, hgrown, .inl ⟨error, outcome_bind_of_error htemporary⟩⟩
  rw [outcome_bind_of_ok htemporary]
  refine ⟨_, hgrown.removeTemporary hfree, ?_⟩
  obtain ⟨error, hreplace⟩ | ⟨location, hreplace, htarget, hnode⟩ :=
    outcome_replace target content hfree hlocate
  · exact .inl ⟨error, outcome_bind_of_error hreplace⟩
  · refine .inr ⟨location, outcome_bind_of_ok hreplace, KeepsDirectories.remove.locate htarget,
      fun hdirectory => hnode ?_⟩
    refine (KeepsDirectories.put (by simp [hfree])).node? ?_
    rw [node?, files_remove_put (lookup_of_node?_none hfree)] at hdirectory
    exact hdirectory

end TypedConfig.FileStore
