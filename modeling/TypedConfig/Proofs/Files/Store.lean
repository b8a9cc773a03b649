import TypedConfig.Files.Store
import Mathlib.Data.List.Basic

namespace TypedConfig.FileStore

variable {store after : FileStore} {location other : Location} {path : Path}
  {content : ByteArray} {files : List (Location × StoredFile)}

theorem lookup_filter_ne (h : other ≠ location) :
    (files.filter (·.1 ≠ location)).lookup other = files.lookup other := by
  induction files with
  | nil => rfl
  | cons file files ih =>
      obtain ⟨key, file⟩ := file
      by_cases hkey : key = location
      · have hother : (other == key) = false := by simpa [hkey] using h
        rw [List.filter_cons_of_neg (by simpa using hkey), ih, List.lookup_cons, hother]
      · rw [List.filter_cons_of_pos (by simpa using hkey), List.lookup_cons, List.lookup_cons, ih]

theorem lookup_filter_self : (files.filter (·.1 ≠ location)).lookup location = none := by
  rw [List.lookup_eq_none_iff]
  intro file hfile
  have hne : file.1 ≠ location := of_decide_eq_true (List.mem_filter.1 hfile).2
  exact bne_iff_ne.2 hne.symm

theorem filter_ne_of_lookup_eq_none (h : files.lookup location = none) :
    files.filter (·.1 ≠ location) = files := by
  rw [List.filter_eq_self]
  intro file hfile
  have hne := bne_iff_ne.1 (List.lookup_eq_none_iff.1 h file hfile)
  exact decide_eq_true hne.symm

theorem lookup_put_self :
    (store.put location content).files.lookup location = some ⟨store.nextIdentity, content⟩ := by
  rw [put, List.lookup_append, lookup_filter_self, Option.none_or, List.lookup_cons, BEq.rfl]

theorem lookup_put_of_ne (h : other ≠ location) :
    (store.put location content).files.lookup other = store.files.lookup other := by
  have hbeq : (other == location) = false := beq_false_of_ne h
  rw [put, List.lookup_append, lookup_filter_ne h, List.lookup_cons, hbeq, List.lookup_nil,
    Option.or_none]

/-- What was taken away right after it was added has never been there. -/
theorem files_remove_put (h : store.files.lookup location = none) :
    ((store.put location content).remove location).files = store.files := by
  rw [remove, put, List.filter_append, filter_ne_of_lookup_eq_none h,
    filter_ne_of_lookup_eq_none h, List.filter_cons_of_neg (by simp), List.filter_nil,
    List.append_nil]

theorem node?_of_lookup {file : StoredFile} (h : store.files.lookup location = some file) :
    store.node? location = some (.file file) := by
  rw [node?, h]

theorem node?_eq_file_iff {file : StoredFile} :
    store.node? location = some (.file file) ↔ store.files.lookup location = some file := by
  refine ⟨fun h => ?_, node?_of_lookup⟩
  rw [node?] at h
  split at h
  · next hlookup =>
    cases h
    exact hlookup
  · split at h
    · cases h
    · cases h

theorem lookup_of_node?_directory (h : store.node? location = some .directory) :
    store.files.lookup location = none := by
  rw [node?] at h
  split at h
  · cases h
  · next hlookup => exact hlookup

theorem lookup_of_node?_none (h : store.node? location = none) :
    store.files.lookup location = none := by
  rw [node?] at h
  split at h
  · cases h
  · next hlookup => exact hlookup

theorem locate_eq_ok_iff : store.locate path = .ok location ↔
    '\x00' ∉ path.text.toList ∧ path.text.utf8ByteSize ≤ maxPathBytes ∧
      store.walk (if path.root = .none then store.workingDirectory else []) path.parts =
        .ok location := by
  rw [locate]
  by_cases hnull : path.text.toList.contains '\x00'
  · rw [if_pos hnull]
    rw [List.contains_iff_mem] at hnull
    simp [hnull]
  · rw [if_neg hnull]
    rw [List.contains_iff_mem] at hnull
    by_cases hlong : maxPathBytes < path.text.utf8ByteSize
    · rw [if_pos hlong]
      simp [Nat.not_le.2 hlong]
    · rw [if_neg hlong]
      simp [hnull, Nat.not_lt.1 hlong]

/-- Every directory is still one, and relative paths still start where they did. -/
structure KeepsDirectories (before after : FileStore) : Prop where
  workingDirectory : after.workingDirectory = before.workingDirectory
  node? : ∀ {location}, before.node? location = some .directory →
    after.node? location = some .directory

namespace KeepsDirectories

theorem trans {between : FileStore} (h : KeepsDirectories store between)
    (h' : KeepsDirectories between after) : KeepsDirectories store after :=
  ⟨h'.workingDirectory.trans h.workingDirectory, fun hnode => h'.node? (h.node? hnode)⟩

theorem put (h : store.node? location ≠ some .directory) :
    KeepsDirectories store (store.put location content) := by
  refine ⟨rfl, fun {other} hother => ?_⟩
  have hne : other ≠ location := by
    rintro rfl
    exact h hother
  rw [FileStore.node?, lookup_put_of_ne hne]
  exact hother

theorem remove : KeepsDirectories store (store.remove location) := by
  refine ⟨rfl, fun {other} hother => ?_⟩
  have hlookup := lookup_of_node?_directory hother
  have hremoved : (store.remove location).files.lookup other = none := by
    by_cases hne : other = location
    · rw [hne]
      exact lookup_filter_self
    · rw [← hlookup]
      exact lookup_filter_ne hne
  rw [FileStore.node?, hlookup] at hother
  rw [FileStore.node?, hremoved]
  exact hother

theorem append (made : List Location) :
    KeepsDirectories store { store with directories := store.directories ++ made } := by
  refine ⟨rfl, fun {other} hother => ?_⟩
  have hlookup := lookup_of_node?_directory hother
  rw [FileStore.node?, hlookup] at hother ⊢
  dsimp only at hother ⊢
  split at hother
  · next hmem => exact if_pos (hmem.imp_right (List.mem_append_left made))
  · cases hother

variable (h : KeepsDirectories store after)

include h

theorem walk {parts : List String} {start : Location}
    (hwalk : store.walk start parts = .ok location) : after.walk start parts = .ok location := by
  induction parts generalizing start with
  | nil => exact hwalk
  | cons part parts ih =>
      rw [FileStore.walk] at hwalk ⊢
      split at hwalk
      · cases hwalk
      · cases hwalk
      · next hnode =>
        rw [h.node? hnode]
        dsimp only
        split at hwalk
        · next hup =>
          rw [if_pos hup]
          exact ih hwalk
        · next hup =>
          rw [if_neg hup]
          split at hwalk
          · cases hwalk
          · next hshort =>
            rw [if_neg hshort]
            exact ih hwalk

theorem locate (hlocate : store.locate path = .ok location) :
    after.locate path = .ok location := by
  obtain ⟨hnull, hshort, hwalk⟩ := locate_eq_ok_iff.1 hlocate
  refine locate_eq_ok_iff.2 ⟨hnull, hshort, ?_⟩
  rw [h.workingDirectory]
  exact h.walk hwalk

end KeepsDirectories

theorem find_eq_ok_iff {node : Node} : store.find path = .ok node ↔
    ∃ location, store.locate path = .ok location ∧ store.node? location = some node := by
  rw [find]
  cases hlocate : store.locate path with
  | error fault => simp [bind, Except.bind]
  | ok location =>
      cases hnode : store.node? location with
      | none => simp [bind, Except.bind, hnode, throw, throwThe, MonadExceptOf.throw]
      | some node => simp [bind, Except.bind, hnode, pure, Except.pure]

theorem content_eq_ok_iff : store.content path = .ok content ↔
    ∃ file, store.find path = .ok (.file file) ∧ file.content = content := by
  rw [FileStore.content]
  rcases store.find path with fault | (file | _)
  · simp [bind, Except.bind]
  · simp [bind, Except.bind, pure, Except.pure]
  · simp [bind, Except.bind, throw, throwThe, MonadExceptOf.throw]

theorem size_of_find {file : StoredFile} (h : store.find path = .ok (.file file)) :
    store.size path = .ok file.content.size := by
  rw [size, h]
  rfl

theorem fileExists_eq_false_iff : store.fileExists path = false ↔
    ∀ location, store.locate path = .ok location → store.node? location = none := by
  rw [fileExists]
  cases hfind : store.find path with
  | ok node =>
      obtain ⟨location, hlocate, hnode⟩ := find_eq_ok_iff.1 hfind
      simp [Except.isOk, Except.toBool, hlocate, hnode]
  | error fault =>
      refine iff_of_true rfl fun location hlocate => ?_
      by_contra hnode
      obtain ⟨node, hnode⟩ := Option.ne_none_iff_exists'.1 hnode
      rw [find_eq_ok_iff.2 ⟨location, hlocate, hnode⟩] at hfind
      cases hfind

/-- What was written at the end of a path is read from it. -/
theorem content_put (hlocate : store.locate path = .ok location)
    (hnode : store.node? location ≠ some .directory) :
    (store.put location content).content path = .ok content := by
  have hafter : (store.put location content).locate path = .ok location :=
    (KeepsDirectories.put hnode).locate hlocate
  rw [FileStore.content, find_eq_ok_iff.2 ⟨location, hafter, node?_of_lookup lookup_put_self⟩]
  rfl

end TypedConfig.FileStore
