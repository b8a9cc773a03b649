import TypedConfig.Proofs.Files.Normal

/-!
Which files one absolute path may stand for. In a store every path leads to where its normal form
says, but a symbolic link may lead anywhere, and two dots behind it go up from there.
-/

namespace TypedConfig

/-- A store with symbolic links at some locations, and where each of them leads in the end. -/
structure LinkedStore where
  store : FileStore
  links : List (Location × Location)

namespace LinkedStore

/-- Follows the parts of a path through directories and links. Two dots go up from where a link
leads. -/
def walk (system : LinkedStore) : Location → List String → Except Fault Location
  | location, [] => .ok location
  | location, part :: rest =>
    match system.store.node? location with
    | none => .error .notFound
    | some (.file _) => .error .notDirectory
    | some .directory =>
      if part = ".." then walk system location.dropLast rest
      else if FileStore.maxNameBytes < part.utf8ByteSize then .error .nameTooLong
      else walk system ((system.links.lookup (location ++ [part])).getD (location ++ [part])) rest

def locate (system : LinkedStore) (path : Path) : Except Fault Location :=
  let text := path.text
  if text.toList.contains '\x00' then .error .nullByte
  else if FileStore.maxPathBytes < text.utf8ByteSize then .error .nameTooLong
  else system.walk (if path.root = .none then system.store.workingDirectory else []) path.parts

def find (system : LinkedStore) (path : Path) : Except Fault Node := do
  match system.store.node? (← system.locate path) with
  | some node => return node
  | none => throw .notFound

def content (system : LinkedStore) (path : Path) : Except Fault ByteArray := do
  match ← system.find path with
  | .file file => return file.content
  | .directory => throw .isDirectory

def size (system : LinkedStore) (path : Path) : Except Fault Nat := do
  match ← system.find path with
  | .file file => return file.content.size
  | .directory => return FileStore.directorySize

end LinkedStore

instance : FileSystem LinkedStore where
  absolute system := system.store.absolute
  size := LinkedStore.size
  content := LinkedStore.content

namespace LinkedStore

variable {store : FileStore} {path : Path}

theorem walk_of_no_links (start : Location) (parts : List String) :
    (LinkedStore.mk store []).walk start parts = store.walk start parts := by
  induction parts generalizing start with
  | nil => rfl
  | cons part parts ih =>
      rcases hnode : store.node? start with _ | (_ | _)
      · simp [walk, FileStore.walk, hnode]
      · simp [walk, FileStore.walk, hnode]
      · simp [walk, FileStore.walk, hnode, ih]

/-- Without links it is the store itself. -/
theorem resolve_of_no_links (base : Option Path) (limit : Int) (text : String) :
    Reference.resolve (LinkedStore.mk store []) base limit text =
      Reference.resolve store base limit text := by
  have hlocate (path : Path) : (LinkedStore.mk store []).locate path = store.locate path := by
    simp only [locate, FileStore.locate, walk_of_no_links]
  have hfind (path : Path) : (LinkedStore.mk store []).find path = store.find path :=
    congrFun (congrArg (@bind (Except Fault) _ Location _) (hlocate path)) _
  have hsize (path : Path) :
      FileSystem.size (LinkedStore.mk store []) path = FileSystem.size store path :=
    congrFun (congrArg (@bind (Except Fault) _ Node _) (hfind path)) _
  have hcontent (path : Path) :
      FileSystem.content (LinkedStore.mk store []) path = FileSystem.content store path :=
    congrFun (congrArg (@bind (Except Fault) _ Node _) (hfind path)) _
  simp only [Reference.resolve, hsize, hcontent]

end LinkedStore

variable {σ : Type} [FileSystem σ] {store : σ} {base : Option Path} {limit : Int}

/-- References to one absolute path are never resolved to different contents. -/
def Reference.OneContent (store : σ) (base : Option Path) (limit : Int) : Prop :=
  ∀ text other path path' content content', Reference.path base text = .ok path →
    Reference.path base other = .ok path' →
    FileSystem.absolute store path = FileSystem.absolute store path' →
    resolve store base limit text = .ok content → resolve store base limit other = .ok content' →
      content = content'

theorem FileStore.oneContent {store : FileStore} (h : store.Rooted) (base : Option Path)
    (limit : Int) : Reference.OneContent store base limit := by
  intro text other path path' content content' hpath hpath' hsame hread hread'
  have hfile := Loader.lookup_of_resolve h hpath hread
  have hsame : store.absolute path = store.absolute path' := hsame
  rw [hsame, Loader.lookup_of_resolve h hpath' hread'] at hfile
  exact (Option.some.inj hfile).symm

namespace Loader

variable {loader one other before after : Loader} {text : String} {content : ByteArray}

/-- Whatever has been read is the content of a reference to its path. -/
structure ReadFrom (store : σ) (base : Option Path) (limit : Int) (loader : Loader) : Prop where
  beneath : loader.base = base
  bound : loader.limit = limit
  read : ∀ {key content}, loader.cache.lookup key = some content →
    ∃ text path, Reference.path base text = .ok path ∧ FileSystem.absolute store path = key ∧
      Reference.resolve store base limit text = .ok content

theorem readFrom_new (store : σ) (base : Option Path) (limit : Int) :
    (new base limit).ReadFrom store base limit :=
  ⟨rfl, rfl, fun h => nomatch h⟩

theorem ReadFrom.load (h : before.ReadFrom store base limit)
    (hload : outcome (load store text) before = (.ok content, after)) :
    after.ReadFrom store base limit := by
  cases loads_of_outcome hload with
  | held => exact h
  | read hpath _ hresolve =>
      refine ⟨h.beneath, h.bound, fun hcached => ?_⟩
      obtain hcached | ⟨-, rfl, rfl⟩ := lookup_added.1 hcached
      · exact h.read hcached
      · rw [h.beneath] at hpath
        rw [h.beneath, h.bound] at hresolve
        exact ⟨_, _, hpath, rfl, hresolve⟩

theorem ReadFrom.loadAll {texts : List String} (h : before.ReadFrom store base limit)
    (hload : outcome (loadAll store texts) before = (.ok (), after)) :
    after.ReadFrom store base limit := by
  induction texts generalizing before with
  | nil =>
      obtain ⟨-, rfl⟩ := Prod.mk.inj hload
      exact h
  | cons text texts ih =>
      rw [Loader.loadAll] at hload
      obtain ⟨content, between, hfirst, hrest⟩ := outcome_bind_eq_ok.1 hload
      exact ih (h.load hfirst) hrest

/-- What two loaders have read for a reference is the same, whatever else they have read. -/
theorem ReadFrom.supplies_eq (hstore : Reference.OneContent store base limit)
    (hone : one.ReadFrom store base limit) (hother : other.ReadFrom store base limit)
    {content' : ByteArray} (h : one.Supplies store text content)
    (h' : other.Supplies store text content') : content = content' := by
  obtain ⟨path, hpath, hlookup⟩ := h
  obtain ⟨path', hpath', hlookup'⟩ := h'
  rw [hone.beneath] at hpath
  rw [hother.beneath, hpath] at hpath'
  obtain rfl := Except.ok.inj hpath'
  obtain ⟨first, found, hfirst, hsame, hread⟩ := hone.read hlookup
  obtain ⟨second, found', hsecond, hsame', hread'⟩ := hother.read hlookup'
  exact hstore _ _ _ _ _ _ hfirst hsecond (hsame.trans hsame'.symm) hread hread'

end Loader

end TypedConfig
