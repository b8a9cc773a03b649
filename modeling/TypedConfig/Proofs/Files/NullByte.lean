import TypedConfig.Proofs.Files.Writing

namespace TypedConfig

def Path.HasNull (path : Path) : Prop :=
  '\x00' ∈ path.text.toList

namespace FileStore

variable {store after : FileStore} {location : Location} {path target : Path}
  {content : ByteArray}

theorem walk_ne_nullByte {parts : List String} {start : Location} :
    store.walk start parts ≠ .error .nullByte := by
  induction parts generalizing start with
  | nil => simp [walk]
  | cons part parts ih =>
      rw [walk]
      split
      · simp
      · simp
      · split
        · exact ih
        · split
          · simp
          · exact ih

theorem locate_eq_nullByte_iff : store.locate path = .error .nullByte ↔ path.HasNull := by
  rw [locate]
  by_cases hnull : path.text.toList.contains '\x00'
  · rw [if_pos hnull]
    exact iff_of_true rfl (List.contains_iff_mem.1 hnull)
  · rw [if_neg hnull]
    refine iff_of_false ?_ (mt List.contains_iff_mem.2 hnull)
    split
    · simp
    · exact walk_ne_nullByte

theorem bind_eq_nullByte_iff {α β : Type} {x : Except Fault α} {f : α → Except Fault β}
    (hf : ∀ a, f a ≠ .error .nullByte) : x >>= f = .error .nullByte ↔ x = .error .nullByte := by
  rw [except_bind_eq_error_iff]
  exact or_iff_left fun ⟨a, _, h⟩ => hf a h

theorem find_eq_nullByte_iff : store.find path = .error .nullByte ↔ path.HasNull := by
  rw [find, bind_eq_nullByte_iff, locate_eq_nullByte_iff]
  intro location
  split
  · intro h
    cases h
  · intro h
    cases h

theorem content_eq_nullByte_iff : store.content path = .error .nullByte ↔ path.HasNull := by
  rw [content, bind_eq_nullByte_iff, find_eq_nullByte_iff]
  rintro (file | _)
  · intro h
    cases h
  · intro h
    cases h

theorem size_eq_nullByte_iff : store.size path = .error .nullByte ↔ path.HasNull := by
  rw [size, bind_eq_nullByte_iff, find_eq_nullByte_iff]
  rintro (file | _)
  · intro h
    cases h
  · intro h
    cases h

theorem mem_intercalate_iff {α : Type} {a : α} {separator : List α} (h : a ∉ separator)
    (parts : List (List α)) : a ∈ separator.intercalate parts ↔ ∃ part ∈ parts, a ∈ part := by
  induction parts with
  | nil => simp
  | cons part parts ih =>
      cases parts with
      | nil => simp
      | cons next rest =>
          rw [List.intercalate_cons_cons, List.mem_append, List.mem_append, ih]
          simp [h]

theorem hasNull_iff : path.HasNull ↔ ∃ part ∈ path.parts, '\x00' ∈ part.toList := by
  have hroot : '\x00' ∉ (Path.Root.text path.root).toList := by
    cases path.root <;> decide
  have hparts : '\x00' ∈ ("/".intercalate path.parts).toList ↔
      ∃ part ∈ path.parts, '\x00' ∈ part.toList := by
    rw [String.toList_intercalate, mem_intercalate_iff (by decide)]
    simp
  unfold Path.HasNull Path.text
  split
  · next hempty =>
    rw [hempty]
    simp
  · rw [String.toList_append, List.mem_append, hparts, or_iff_right hroot]

theorem hasNull_iff_parent_or_name :
    path.HasNull ↔ path.parent.HasNull ∨ '\x00' ∈ path.name.toList := by
  rw [hasNull_iff, hasNull_iff, Path.parent, Path.name]
  obtain hnil | ⟨above, name, happend⟩ := path.parts.eq_nil_or_concat
  · simp [hnil]
  · simp [happend, or_and_right, exists_or]

theorem makeDirectory_eq_nullByte_iff :
    store.makeDirectory path = .error .nullByte ↔ path.HasNull := by
  rw [makeDirectory, bind_eq_nullByte_iff, locate_eq_nullByte_iff]
  intro location
  split
  · intro h
    cases h
  · intro h
    cases h

theorem makeDirectories_of_hasNull (store : FileStore) (h : path.HasNull) :
    ∃ error, outcome (makeDirectories path) store = (.error error, store) ∧
      error.fault = .nullByte := by
  have hdirectory : store.isDirectory path = false := by
    rw [isDirectory, find_eq_nullByte_iff.2 h]
  refine ⟨⟨.nullByte, path.text, none⟩, ?_, rfl⟩
  rw [makeDirectories, outcome_bind_of_ok outcome_get]
  simp only [makeDirectory_eq_nullByte_iff.2 h]
  rw [acceptExisting, outcome_bind_of_ok outcome_get, if_neg (by simp [hdirectory])]
  rfl

theorem fault_of_acceptExisting {fault : Fault} {error : AccessError}
    (h : outcome (acceptExisting fault path) store = (.error error, after)) :
    error.fault = fault := by
  rw [acceptExisting, outcome_bind_of_ok outcome_get] at h
  split at h
  · cases h
  · cases h
    rfl

theorem makeDirectories_ne_nullByte {error : AccessError} (hnull : ¬ path.HasNull)
    (h : outcome (makeDirectories path) store = (.error error, after)) :
    error.fault ≠ .nullByte := by
  induction path using makeDirectories.induct generalizing store after error with
  | case1 path ih =>
      have hmake (store : FileStore) : store.makeDirectory path ≠ .error .nullByte :=
        mt makeDirectory_eq_nullByte_iff.1 hnull
      rw [makeDirectories, outcome_bind_of_ok outcome_get] at h
      split at h
      · cases h
      · split at h
        · cases h
          exact Fault.noConfusion
        · next hparts =>
          have hparent : ¬ path.parent.HasNull :=
            fun h => hnull (hasNull_iff_parent_or_name.2 (.inl h))
          rcases habove : outcome (makeDirectories path.parent) store with ⟨e | _, between⟩
          · rw [outcome_bind_of_error habove] at h
            cases h
            exact ih hparts hparent habove
          · rw [outcome_bind_of_ok habove, outcome_bind_of_ok outcome_get] at h
            split at h
            · cases h
            · cases h
              exact Fault.noConfusion
            · next fault _ hfault =>
              rw [fault_of_acceptExisting h]
              rintro rfl
              exact hmake between hfault
      · next fault _ hfault =>
        rw [fault_of_acceptExisting h]
        rintro rfl
        exact hmake store hfault

theorem null_mem_temporaryName {name : String} (attempt : Nat) :
    '\x00' ∈ (temporaryName name attempt).toList ↔ '\x00' ∈ name.toList := by
  have hdigits : '\x00' ∉ Nat.toDigits 10 attempt := fun h =>
    absurd (Nat.isDigit_of_mem_toDigits (by decide) (by decide) h) (by decide)
  simp [temporaryName, hdigits]

def NullBeside (store : FileStore) (target : Path) : Prop :=
  (store.absolute target.parent).HasNull ∨ '\x00' ∈ target.name.toList

theorem hasNull_temporary (attempt : Nat) :
    ((store.absolute target.parent).join
      ⟨.none, [temporaryName target.name attempt]⟩).HasNull ↔ store.NullBeside target := by
  rw [hasNull_iff, NullBeside, hasNull_iff]
  simp only [Path.join, List.mem_append, List.mem_singleton, or_and_right, exists_or,
    exists_eq_left, null_mem_temporaryName]

theorem createTemporary_of_null (h : store.NullBeside target) :
    ∃ error, outcome (createTemporary target) store = (.error error, store) ∧
      error.fault = .nullByte := by
  have hlocate (attempt : Nat) : store.locate ((store.absolute target.parent).join
      ⟨.none, [temporaryName target.name attempt]⟩) = .error .nullByte :=
    locate_eq_nullByte_iff.2 ((hasNull_temporary attempt).2 h)
  have hfree (attempt : Nat) : store.fileExists ((store.absolute target.parent).join
      ⟨.none, [temporaryName target.name attempt]⟩) = false := by
    rw [fileExists_eq_false_iff]
    intro location hok
    rw [hlocate] at hok
    cases hok
  rw [createTemporary, outcome_bind_of_ok outcome_get]
  dsimp only
  split
  · next hnone =>
    refine absurd (hfree 0) ?_
    simpa using List.find?_eq_none.1 hnone 0 (List.mem_range.2 (by decide))
  · next attempt _ =>
    rw [hlocate]
    exact ⟨_, rfl, rfl⟩

theorem createTemporary_ne_nullByte {error : AccessError} (hnull : ¬ store.NullBeside target)
    (h : outcome (createTemporary target) store = (.error error, after)) :
    error.fault ≠ .nullByte := by
  rw [createTemporary, outcome_bind_of_ok outcome_get] at h
  dsimp only at h
  split at h
  · cases h
    exact Fault.noConfusion
  · next attempt _ =>
    split at h
    · next fault hlocate =>
      cases h
      rintro rfl
      exact hnull ((hasNull_temporary attempt).1 (locate_eq_nullByte_iff.1 hlocate))
    · cases h

theorem hasNull_of_checkReplaceable (h : store.checkReplaceable target = .error .nullByte) :
    target.HasNull := by
  unfold checkReplaceable at h
  split at h
  · cases h
  · obtain h | ⟨location, -, h⟩ := except_bind_eq_error_iff.1 h
    · exact locate_eq_nullByte_iff.1 h
    · split at h
      · cases h
      · cases h

theorem replace_ne_nullByte {temporary : Path} {error : AccessError} (hnull : ¬ target.HasNull)
    (htemporary : store.locate temporary = .ok location)
    (h : outcome (replace temporary target content) store = (.error error, after)) :
    error.fault ≠ .nullByte := by
  rw [replace, outcome_bind_of_ok outcome_get] at h
  simp only [htemporary] at h
  split at h
  · next fault hfault =>
    cases h
    rintro rfl
    exact hnull (hasNull_of_checkReplaceable hfault)
  · cases h

/-- Writing is refused for a null character above the target, or, once the directories are there,
beside it. -/
theorem writeAtomic_refuses_null_iff (store : FileStore) (target : Path) (content : ByteArray) :
    (∃ error, (outcome (writeAtomic target content) store).1 = .error error ∧
        error.fault = .nullByte) ↔
      target.parent.HasNull ∨ ∃ made,
        outcome (makeDirectories target.parent) store = (.ok (), made) ∧
          made.NullBeside target := by
  rw [writeAtomic]
  by_cases hparent : target.parent.HasNull
  · obtain ⟨error, hmake, hfault⟩ := makeDirectories_of_hasNull store hparent
    exact iff_of_true ⟨error, by rw [outcome_bind_of_error hmake], hfault⟩ (.inl hparent)
  rw [or_iff_right hparent]
  rcases hmake : outcome (makeDirectories target.parent) store with ⟨error | _, made⟩
  · rw [outcome_bind_of_error hmake]
    simpa using makeDirectories_ne_nullByte hparent hmake
  rw [outcome_bind_of_ok hmake]
  by_cases hbeside : made.NullBeside target
  · obtain ⟨error, htemporary, hfault⟩ := createTemporary_of_null hbeside
    refine iff_of_true ⟨error, ?_, hfault⟩ ⟨made, rfl, hbeside⟩
    rw [outcome_bind_of_error htemporary]
  -- No step is left that could meet a null character, but each has to be looked at.
  refine iff_of_false ?_ ?_
  · rintro ⟨error, herror, hfault⟩
    obtain ⟨e, htemporary⟩ | ⟨temporary, free, htemporary, hlocate, hfree⟩ :=
      outcome_createTemporary made target
    · rw [outcome_bind_of_error htemporary] at herror
      cases herror
      exact createTemporary_ne_nullByte hbeside htemporary hfault
    · have htarget : ¬ target.HasNull := by
        rw [hasNull_iff_parent_or_name, not_or]
        exact ⟨hparent, fun h => hbeside (.inr h)⟩
      have hnode : made.node? free ≠ some .directory := by simp [hfree]
      have hthere : (made.put free ByteArray.empty).locate temporary = .ok free :=
        (KeepsDirectories.put hnode).locate hlocate
      rw [outcome_bind_of_ok htemporary] at herror
      rcases hreplace : outcome (replace temporary target content)
        (made.put free ByteArray.empty) with ⟨e | _, last⟩
      · rw [outcome_bind_of_error hreplace] at herror
        cases herror
        exact replace_ne_nullByte htarget hthere hreplace hfault
      · rw [outcome_bind_of_ok hreplace] at herror
        cases herror
  · rintro ⟨_, hmade, hnull⟩
    cases hmade
    exact hbeside hnull

end FileStore

end TypedConfig
