import TypedConfig.Proofs.Files.Normal
import Mathlib.Data.List.DropRight
import Mathlib.Data.List.Infix

namespace TypedConfig

namespace Path

/-- The path is the base or lies below it. -/
def Beneath (path base : Path) : Prop :=
  path.root = base.root ∧ base.parts <+: path.parts

instance (path base : Path) : Decidable (path.Beneath base) :=
  inferInstanceAs (Decidable (_ ∧ _))

/-- How many parts a relative path goes up before it goes down. -/
def climb (path : Path) : Nat :=
  path.normalize.parts.count ".."

def descent (path : Path) : List String :=
  path.normalize.parts.filter (· ≠ "..")

end Path

namespace FileStore

variable {start downs : List String}

/-- What is left of a start after climbing out of some of its parts has it in front exactly if the
parts that were left come back. -/
theorem prefix_rdrop_append_iff (n : Nat) :
    start <+: start.rdrop n ++ downs ↔ start.rtake n <+: downs := by
  have hstart : start = start.rdrop n ++ start.rtake n :=
    (List.take_append_drop (start.length - n) start).symm
  nth_rewrite 1 [hstart]
  exact List.prefix_append_right_inj _

theorem dropLast_rdrop (n : Nat) : (start.rdrop n).dropLast = start.rdrop (n + 1) := by
  rw [List.rdrop, List.rdrop, List.dropLast_eq_take, List.length_take, List.take_take]
  congr 1
  omega

/-- A relative path goes up a number of times and then down, wherever it starts. -/
theorem collapse_eq_climb {names : List String} (hnames : ".." ∉ names) (n : Nat)
    (parts : List String) : ∃ m downs,
      Path.collapse true (names.reverse ++ List.replicate n "..") parts =
        List.replicate m ".." ++ downs ∧ ".." ∉ downs ∧
      ∀ start : Location, parts.foldl follow (start.rdrop n ++ names) = start.rdrop m ++ downs := by
  -- What has been followed so far goes up `n` times and then down along `names`.
  induction parts generalizing n names with
  | nil =>
      refine ⟨n, names, ?_, hnames, fun start => rfl⟩
      rw [Path.collapse, List.reverse_append, List.reverse_reverse, List.reverse_replicate]
  | cons part parts ih =>
      by_cases hup : part = ".."
      · obtain rfl | ⟨names, last, rfl⟩ := List.eq_nil_or_concat' names
        · -- Nothing to go up from but the start itself.
          obtain ⟨m, downs, hcollapse, hdowns, hfollow⟩ := ih hnames (n + 1)
          refine ⟨m, downs, ?_, hdowns, fun start => ?_⟩
          · rw [← hcollapse, Path.collapse.eq_def]
            cases n <;> simp [hup, List.replicate_succ]
          · rw [← hfollow start, List.foldl_cons, follow, if_pos hup, List.append_nil,
              List.append_nil, dropLast_rdrop]
        · obtain ⟨hrest, hlast⟩ := not_or.1 (mt List.mem_append.2 hnames)
          obtain ⟨m, downs, hcollapse, hdowns, hfollow⟩ := ih hrest n
          refine ⟨m, downs, ?_, hdowns, fun start => ?_⟩
          · rw [← hcollapse, Path.collapse.eq_def, List.reverse_concat]
            simp [hup, Ne.symm (mt List.mem_singleton.2 hlast)]
          · rw [← hfollow start, List.foldl_cons, follow, if_pos hup, ← List.append_assoc,
              List.dropLast_concat]
      · have hlonger : ".." ∉ names ++ [part] := by simp [hnames, Ne.symm hup]
        obtain ⟨m, downs, hcollapse, hdowns, hfollow⟩ := ih hlonger n
        refine ⟨m, downs, ?_, hdowns, fun start => ?_⟩
        · rw [← hcollapse, Path.collapse.eq_def, List.reverse_concat]
          simp [hup]
        · rw [← hfollow start, List.foldl_cons, follow, if_neg hup, List.append_assoc]

theorem foldl_follow_eq {path : Path} (hroot : path.root = .none) (start : Location) :
    path.parts.foldl follow start = start.rdrop path.climb ++ path.descent := by
  obtain ⟨m, downs, hcollapse, hdowns, hfollow⟩ :=
    collapse_eq_climb (List.not_mem_nil) 0 path.parts
  have hparts : path.normalize.parts = List.replicate m ".." ++ downs := by
    rw [← hcollapse, Path.normalize, hroot]
    rfl
  have hclimb : path.climb = m := by
    rw [Path.climb, hparts, List.count_append, List.count_replicate_self,
      List.count_eq_zero_of_not_mem hdowns, Nat.add_zero]
  have hdescent : path.descent = downs := by
    rw [Path.descent, hparts, List.filter_append, List.filter_replicate_of_neg (by simp),
      List.nil_append, List.filter_eq_self]
    intro part hpart
    exact decide_eq_true (ne_of_mem_of_not_mem hpart hdowns)
  rw [hclimb, hdescent, ← hfollow start, List.rdrop_zero, List.append_nil]

variable {store : FileStore} {base path : Path}

theorem absolute_join (hroot : path.root = .none) : store.absolute (base.join path) =
    ⟨(store.absolute base).root, path.parts.foldl follow (store.absolute base).parts⟩ := by
  obtain ⟨root, parts⟩ := path
  obtain rfl : root = .none := hroot
  obtain ⟨root, names⟩ := base
  have hcollapse (before after : List String) : Path.collapse false [] (before ++ after) =
      after.foldl follow (Path.collapse false [] before) := by
    rw [collapse_eq_foldl List.not_mem_nil, collapse_eq_foldl List.not_mem_nil, List.foldl_append]
  cases root with
  | none =>
      have hparts := hcollapse (store.workingDirectory ++ names) parts
      rw [List.append_assoc] at hparts
      exact congrArg (Path.mk .slash) hparts
  | slash | doubleSlash => exact congrArg (Path.mk _) (hcollapse names parts)

/-- A relative path stays beneath the directory that it starts from exactly if it comes back down
through the parts that it climbs out of. -/
theorem beneath_join_iff (hroot : path.root = .none) :
    (store.absolute (base.join path)).Beneath (store.absolute base) ↔
      (store.absolute base).parts.rtake path.climb <+: path.descent := by
  rw [absolute_join hroot, Path.Beneath, foldl_follow_eq hroot, prefix_rdrop_append_iff]
  exact and_iff_right rfl

end FileStore

namespace Reference

def relative (text : String) : Path :=
  Path.ofText (String.ofList ((text.toList.drop referenceMarker.length).dropWhile isSeparator))

theorem root_relative (text : String) : (relative text).root = .none := by
  rw [relative, Path.ofText, String.toList_ofList]
  have hfront := List.head?_dropWhile_not isSeparator (text.toList.drop referenceMarker.length)
  cases hrest : (text.toList.drop referenceMarker.length).dropWhile isSeparator with
  | nil => rfl
  | cons c rest =>
      rw [hrest] at hfront
      have hslash : (c == '/') = false := (Bool.or_eq_false_iff.1 hfront).1
      rw [Path.rootOf, List.takeWhile_cons_of_neg (by simp [hslash])]

theorem path_some {base : Path} {text : String} (h : isReference text) :
    path (some base) text = .ok (base.join (relative text)) := by
  rw [path, if_neg (by simp [h])]
  rfl

/-- A reference stays beneath the base directory exactly if it comes back down through whatever
parts of the base it climbs out of. What is read for it is the file there. -/
theorem beneath_iff (store : FileStore) (base : Path) {text : String} (htext : isReference text) :
    ∃ path, Reference.path (some base) text = .ok path ∧
      ((store.absolute path).Beneath (store.absolute base) ↔
        (store.absolute base).parts.rtake (relative text).climb <+: (relative text).descent) ∧
      ∀ limit content, store.Rooted → resolve store (some base) limit text = .ok content →
        (store.files.lookup (store.absolute path).parts).map StoredFile.content = some content :=
  ⟨_, path_some htext, FileStore.beneath_join_iff (root_relative text),
    fun _ _ hstore => Loader.lookup_of_resolve hstore (path_some htext)⟩

def besideBase : FileStore :=
  ⟨[(["configs", "a"], ⟨1, ⟨#[1]⟩⟩), (["secret"], ⟨2, ⟨#[2]⟩⟩)], [["configs"]], [], 3⟩

theorem beneath_configs :
    isReference "file:../configs/a" ∧ besideBase.Rooted ∧ ∃ path,
      Reference.path (some ⟨.none, ["configs"]⟩) "file:../configs/a" = .ok path ∧
      (besideBase.absolute path).Beneath ⟨.slash, ["configs"]⟩ ∧
      (besideBase.files.lookup (besideBase.absolute path).parts).map StoredFile.content =
        some ⟨#[1]⟩ := by
  have htext : isReference "file:../configs/a" := by decide
  have hstore : besideBase.Rooted := nofun
  obtain ⟨path, hpath, hbeneath, hread⟩ := beneath_iff besideBase ⟨.none, ["configs"]⟩ htext
  exact ⟨htext, hstore, path, hpath, hbeneath.2 (by decide), hread 0 ⟨#[1]⟩ hstore rfl⟩

/-- Two dots behind the separators that are dropped lead out of the base directory. -/
theorem not_all_references_beneath : ¬ ∀ (store : FileStore) (base : Path) (limit : Int)
    (text : String) (path : Path) (content : ByteArray), store.Rooted →
      Reference.path (some base) text = .ok path →
      resolve store (some base) limit text = .ok content →
        (store.absolute path).Beneath (store.absolute base) := by
  intro h
  have hbeneath := h besideBase ⟨.none, ["configs"]⟩ 0 "file:/../secret"
    ⟨.none, ["configs", "..", "secret"]⟩ ⟨#[2]⟩ nofun (by decide) rfl
  exact absurd hbeneath (by decide)

end Reference

end TypedConfig
