import TypedConfig.Emission.Emitter
import TypedConfig.Proofs.Value.Sorted

namespace TypedConfig.Build

variable {σ : Type} [FileSystem σ] {α β : Type} {before after : Progress}

theorem literal_cons {store : σ} (first : Value) (rest : List Value) :
    literal store (.array (first :: rest)) = if first.isTable then pure .nil else do
      let firstLiteral ← element store (first.kind == .string) first
      let others ← elements store (first.kind == .string) rest
      return .slice (Go.GoType.ofValue first) (firstLiteral :: others) := by
  rw [literal.eq_def]
  cases first <;> rfl

theorem field_boolean (store : σ) (scope : Scope) (key : String) (b : Bool) :
    field store scope key (.boolean b) = pure (.boolean b) := by
  rw [field.eq_def]
  exact literal.eq_def store (.boolean b)

def fields (store : σ) (scope : Scope) (entries : Table) : Build (List (String × Go.Literal)) :=
  inKeyOrder (steps store scope entries)

def namedField (store : σ) (scope : Scope) (entry : String × Value) :
    Build (String × Go.Literal) := do
  return (Naming.pascalCase entry.1, ← field store scope entry.1 entry.2)

theorem steps_eq_map (store : σ) (scope : Scope) (entries : Table) :
    steps store scope entries = entries.map fun e => (e.1, field store scope e.1 e.2) := by
  induction entries with
  | nil => rfl
  | cons entry entries ih => rw [steps, ih, List.map_cons]

theorem fields_eq_mapM (store : σ) (scope : Scope) (entries : Table) :
    fields store scope entries = (Table.sortByKey entries).mapM (namedField store scope) := by
  rw [fields, inKeyOrder, steps_eq_map, Table.sortByKey_map, List.mapM_map]
  rfl

theorem field_table (store : σ) (scope : Scope) (key : String) (entries : Table) :
    field store scope key (.table entries) = do
      let fields ← fields store (scope.child key .config) entries
      return .record (some (scope.typeName key .config)) fields := by
  rw [field.eq_def]
  rfl

theorem field_array (store : σ) (scope : Scope) (key : String) (items : List Value) :
    field store scope key (.array items) =
      if Value.isTableArray (.array items) then do
        let elements ← records store (scope.child key .item) items
        return .records (scope.typeName key .item) elements
      else literal store (.array items) := by
  rw [field.eq_def]

theorem records_table (store : σ) (scope : Scope) (entries : Table) (rest : List Value) :
    records store scope (.table entries :: rest) = do
      let fields ← fields store scope entries
      let others ← records store scope rest
      return .record none fields :: others := by
  rw [records.eq_def]
  rfl

def Yields (x : Build α) (before : Progress) (a : α) (after : Progress) : Prop :=
  (x.run.run before).run = (.ok a, after)

@[simp] theorem yields_pure (a b : α) :
    Yields (pure a) before b after ↔ a = b ∧ before = after := by
  change ((Except.ok a, before) : Except BuildError α × Progress) = _ ↔ _
  simp

@[simp] theorem yields_bind (x : Build α) (f : α → Build β) (b : β) :
    Yields (x >>= f) before b after ↔
      ∃ a between, Yields x before a between ∧ Yields (f a) between b after := by
  have hrun : ((x >>= f).run.run before).run = match (x.run.run before).run with
      | (.ok a, between) => ((f a).run.run between).run
      | (.error e, between) => (.error e, between) := by
    rw [ExceptT.run_bind, StateT.run_bind, Id.run_bind]
    rcases (x.run.run before).run with ⟨e | a, between⟩
    · rfl
    · rfl
  unfold Yields
  rw [hrun]
  rcases (x.run.run before).run with ⟨e | a, between⟩
  · simp
  · simp

@[simp] theorem yields_map (x : Build α) (f : α → β) (b : β) :
    Yields (f <$> x) before b after ↔ ∃ a, Yields x before a after ∧ f a = b := by
  rw [map_eq_pure_bind, yields_bind]
  constructor
  · rintro ⟨a, between, hx, hb⟩
    obtain ⟨rfl, rfl⟩ := (yields_pure _ _).1 hb
    exact ⟨a, hx, rfl⟩
  · rintro ⟨a, hx, rfl⟩
    exact ⟨a, after, hx, (yields_pure _ _).2 ⟨rfl, rfl⟩⟩

@[simp] theorem yields_require (package : Go.Package) (u : Unit) :
    Yields (require package) before u after ↔
      { before with packages := before.packages ++ [package] } = after := by
  change ((Except.ok (), { before with packages := before.packages ++ [package] }) :
    Except BuildError Unit × Progress) = _ ↔ _
  simp

@[simp] theorem yields_get (p : Progress) :
    Yields get before p after ↔ before = p ∧ before = after := by
  change ((Except.ok before, before) : Except BuildError Progress × Progress) = _ ↔ _
  simp

@[simp] theorem yields_set (p : Progress) (u : PUnit) :
    Yields (set p) before u after ↔ p = after := by
  change ((Except.ok PUnit.unit, p) : Except BuildError PUnit × Progress) = _ ↔ _
  simp

@[simp] theorem yields_ofExcept (result : Except BuildError α) (a : α) :
    Yields (MonadExcept.ofExcept result) before a after ↔ result = .ok a ∧ before = after := by
  cases result with
  | ok b =>
      rw [Except.ok.injEq]
      exact yields_pure b a
  | error e =>
      change ((Except.error e, before) : Except BuildError α × Progress) = _ ↔ _
      simp

theorem yields_load {store : σ} {reference : String} {content : ByteArray}
    (h : Yields (load store reference) before content after) :
    after.packages = before.packages := by
  simp only [load, yields_bind, yields_get] at h
  obtain ⟨_, _, ⟨rfl, rfl⟩, h⟩ := h
  split at h
  simp only [yields_bind, yields_set, yields_ofExcept] at h
  obtain ⟨_, _, rfl, _, rfl⟩ := h
  rfl

theorem yields_integer {n : Int} {l : Go.Literal} (h : Yields (integer n) before l after) :
    l = .integer n ∧ after = before := by
  simp only [integer, yields_bind, yields_pure, yields_ofExcept] at h
  obtain ⟨_, _, ⟨_, rfl⟩, rfl, rfl⟩ := h
  exact ⟨rfl, rfl⟩

theorem eq_of_requireAll {packages : List Go.Package} {u : Unit}
    (h : Yields (packages.forM require) before u after) :
    after = { before with packages := before.packages ++ packages } := by
  induction packages generalizing before with
  | nil =>
      obtain ⟨-, rfl⟩ := (yields_pure _ _).1 h
      rw [List.append_nil]
  | cons package packages ih =>
      change Yields (require package >>= fun _ => packages.forM require) before u after at h
      simp only [yields_bind, yields_require] at h
      obtain ⟨_, _, rfl, h⟩ := h
      rw [ih h, List.append_assoc]
      rfl

theorem yields_requireAll {packages : List Go.Package} {u : Unit}
    (h : Yields (packages.forM require) before u after) :
    after.packages = before.packages ++ packages := by
  rw [eq_of_requireAll h]

theorem yields_mapM {f : α → Build β} {xs : List α} {ys : List β}
    (h : Yields (xs.mapM f) before ys after) :
    List.Forall₂ (fun x y => ∃ b c, Yields (f x) b y c) xs ys := by
  induction xs generalizing before ys with
  | nil =>
      rw [List.mapM_nil] at h
      obtain ⟨rfl, -⟩ := (yields_pure _ _).1 h
      exact .nil
  | cons x xs ih =>
      rw [List.mapM_cons] at h
      simp only [yields_bind, yields_pure] at h
      obtain ⟨y, between, hy, ys, last, hys, rfl, rfl⟩ := h
      exact .cons ⟨before, between, hy⟩ (ih hys)

/-- What is known of each result is known of all of them, in order. -/
theorem map_eq_of_yields_mapM {γ : Type} {f : α → Build β} {g : β → γ} {k : α → γ}
    (hf : ∀ {x b y c}, Yields (f x) b y c → g y = k x) {xs : List α} {ys : List β}
    (h : Yields (xs.mapM f) before ys after) : ys.map g = xs.map k := by
  have hall := yields_mapM h
  clear h
  induction hall with
  | nil => rfl
  | cons hx _ ih =>
      obtain ⟨_, _, hx⟩ := hx
      rw [List.map_cons, List.map_cons, hf hx, ih]

end TypedConfig.Build

namespace TypedConfig.Emitter

variable {σ : Type} [FileSystem σ]

def fallback (store : σ) (scope : Scope) (key : String) (v : Value) :
    Build (Option Go.Literal) :=
  if v.isTable then pure none else some <$> Build.field store scope key v

theorem accessor_eq (e : Emitter) (store : σ) (scope : Scope) (key : String) (v : Value) :
    e.accessor store scope key v = do
      let fallback ← fallback store scope key v
      (accessorPackages v.kind).forM Build.require
      return .accessor ⟨scope.name, Naming.pascalCase key, scope.fieldType key v, v.kind,
        Naming.variableName e.variablePrefix ((scope.path ++ [key]).map Naming.Step.key),
        fallback⟩ := by
  cases v <;> rfl

def methodsOfAll (e : Emitter) (store : σ) (catalog : Catalog) :
    Build (List (List Go.Declaration)) :=
  match e.mode with
  | .static => pure []
  | .getter => catalog.sorted.mapM (e.methods store)

def values (e : Emitter) (store : σ) (tree : Table) : Build (List Go.Declaration) :=
  match e.mode with
  | .static => staticValues store tree
  | .getter => e.getterValues store tree

def file (e : Emitter) (tree : Table) (declarations : List Go.Declaration) :
    Build Go.SourceFile := do
  if Value.entriesContainDuration tree then Build.require .time
  let packages := (← get).packages
  return ⟨e.package, Go.Package.all.filter (packages.contains ·), declarations⟩

theorem emit_eq (e : Emitter) (store : σ) (tree : Table) (catalog : Catalog) :
    e.emit store tree catalog = (do
      let methods ← e.methodsOfAll store catalog
      let values ← e.values store tree
      e.file tree (catalog.sorted.map (typeDeclaration e.mode) ++ methods.flatten ++ values)) := by
  unfold emit methodsOfAll values
  cases e.mode <;> rfl

end TypedConfig.Emitter
