import TypedConfig.Proofs.Files.Loading

namespace TypedConfig

namespace FileStore

variable {store : FileStore} {path : Path} {start location : Location}

def follow (location : Location) (part : String) : Location :=
  if part = ".." then location.dropLast else location ++ [part]

def Rooted (store : FileStore) : Prop :=
  ".." ∉ store.workingDirectory

theorem walk_eq_foldl {parts : List String} (h : store.walk start parts = .ok location) :
    location = parts.foldl follow start := by
  induction parts generalizing start with
  | nil => exact (Except.ok.inj h).symm
  | cons part parts ih =>
      rw [walk] at h
      rw [List.foldl_cons, follow]
      split at h
      · cases h
      · cases h
      · split at h
        · next hup =>
          rw [if_pos hup]
          exact ih h
        · next hup =>
          rw [if_neg hup]
          split at h
          · cases h
          · exact ih h

theorem foldl_follow_of_not_mem {names : List String} (h : ".." ∉ names) (start : Location) :
    names.foldl follow start = start ++ names := by
  induction names generalizing start with
  | nil => exact (List.append_nil start).symm
  | cons name names ih =>
      obtain ⟨hname, hnames⟩ := not_or.1 (mt List.mem_cons.2 h)
      rw [List.foldl_cons, follow, if_neg (Ne.symm hname), ih hnames, List.append_assoc]
      rfl

theorem collapse_eq_foldl {kept : List String} (hkept : ".." ∉ kept) (parts : List String) :
    Path.collapse false kept parts = parts.foldl follow kept.reverse := by
  induction parts generalizing kept with
  | nil => rfl
  | cons part parts ih =>
      rw [Path.collapse.eq_def, List.foldl_cons, follow]
      dsimp only
      by_cases hup : part = ".."
      · rw [if_neg (not_not.2 hup), if_pos hup]
        cases kept with
        | nil => exact ih hkept
        | cons last before =>
            obtain ⟨hlast, hbefore⟩ := not_or.1 (mt List.mem_cons.2 hkept)
            simp only [if_neg (Ne.symm hlast), List.reverse_cons, List.dropLast_concat]
            exact ih hbefore
      · rw [if_pos hup, if_neg hup, ih (List.not_mem_cons_of_ne_of_not_mem (Ne.symm hup) hkept),
          List.reverse_cons]

theorem parts_absolute (h : store.Rooted) (path : Path) : (store.absolute path).parts =
    path.parts.foldl follow (if path.root = .none then store.workingDirectory else []) := by
  obtain ⟨root, parts⟩ := path
  cases root with
  | none =>
      change Path.collapse false [] (store.workingDirectory ++ parts) = _
      rw [collapse_eq_foldl List.not_mem_nil, List.foldl_append, foldl_follow_of_not_mem h]
      rfl
  | slash | doubleSlash => exact collapse_eq_foldl List.not_mem_nil parts

theorem location_of_locate (h : store.Rooted) (hlocate : store.locate path = .ok location) :
    location = (store.absolute path).parts := by
  rw [parts_absolute h]
  exact walk_eq_foldl (locate_eq_ok_iff.1 hlocate).2.2

end FileStore

namespace Loader

variable {store : FileStore} {text : String} {content : ByteArray}

/-- What is read for a reference is the file at its normal form. -/
theorem lookup_of_resolve {base : Option Path} {limit : Int} {path : Path} (hstore : store.Rooted)
    (hpath : Reference.path base text = .ok path)
    (h : Reference.resolve store base limit text = .ok content) :
    (store.files.lookup (store.absolute path).parts).map StoredFile.content = some content := by
  obtain ⟨location, file, hlocate, hlookup, rfl, -⟩ := (resolve_eq_ok_iff hpath).1 h
  rw [← FileStore.location_of_locate hstore hlocate, hlookup, Option.map_some]

end Loader

end TypedConfig
