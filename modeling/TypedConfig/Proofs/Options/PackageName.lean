import TypedConfig.Generation.Pipeline
import TypedConfig.Proofs.Emission.Run
import TypedConfig.Proofs.Generation.KeyOrder
import TypedConfig.Proofs.Text.Letter
import TypedConfig.Text.Digit

namespace TypedConfig

namespace Go

def keywords : List String :=
  ["break", "case", "chan", "const", "continue", "default", "defer", "else", "fallthrough", "for",
    "func", "go", "goto", "if", "import", "interface", "map", "package", "range", "return",
    "select", "struct", "switch", "type", "var"]

def isNameLetter (c : Char) : Bool :=
  Text.isLetter c || c == '_'

def isNameDigit (c : Char) : Bool :=
  (Text.digit? c).isSome

structure IsPackageName (name : String) : Prop where
  first : name.toList.head?.any isNameLetter
  letters_digits : ∀ c ∈ name.toList, isNameLetter c ∨ isNameDigit c
  not_keyword : name ∉ keywords

theorem isPackageName_iff {name : String} : IsPackageName name ↔
    name.toList.head?.any isNameLetter ∧
      (name.toList.all fun c => isNameLetter c || isNameDigit c) ∧ name ∉ keywords := by
  simp only [List.all_eq_true, Bool.or_eq_true]
  exact ⟨fun h => ⟨h.first, h.letters_digits, h.not_keyword⟩, fun h => ⟨h.1, h.2.1, h.2.2⟩⟩

instance (name : String) : Decidable (IsPackageName name) :=
  decidable_of_iff' _ isPackageName_iff

end Go

namespace Path

def IsProper (path : Path) : Prop :=
  ∀ part ∈ path.parts, part ≠ "" ∧ part ≠ "."

theorem IsProper.parent {path : Path} (h : path.IsProper) : path.parent.IsProper :=
  fun part hpart => h part (List.dropLast_subset _ hpart)

theorem isProper_ofText (text : String) : (ofText text).IsProper := by
  intro part hpart
  obtain ⟨cs, hcs, rfl⟩ := List.mem_map.1 hpart
  have hproper : isProperPart cs := (List.mem_filter.1 hcs).2
  rw [isProperPart, Bool.and_eq_true, bne_iff_ne, bne_iff_ne] at hproper
  exact ⟨mt String.ofList_eq_empty_iff.1 hproper.1, fun h => hproper.2 (String.ofList_inj.1 h)⟩

end Path

namespace PackageName

open Go (IsPackageName)

def directories (path : Path) : List String :=
  path.parts.dropLast.reverse

/-- The directory that a package is named for, by those that hold its file: the innermost one, or
the one around it if that one is a wrapper. A wrapper around which nothing is named stands for
itself in a relative path, but not right beneath the root. -/
def namingDirectory? (root : Root) : List String → Option String
  | [] => none
  | [name] => if name ∈ wrappers ∧ root ≠ .none then none else some name
  | name :: outer :: _ => some (if name ∈ wrappers then outer else name)

theorem isPackageName_fallback : IsPackageName fallback := by
  decide +kernel

section

variable {path : Path}

theorem name_parent (path : Path) : path.parent.name = (directories path).head?.getD "" := by
  rw [directories, List.head?_reverse]
  rfl

theorem directories_parent (path : Path) : directories path.parent = (directories path).tail := by
  rw [directories, directories, List.tail_reverse]
  rfl

theorem mem_parts_of_mem_directories {name : String} (h : name ∈ directories path) :
    name ∈ path.parts :=
  List.dropLast_subset _ (List.mem_reverse.1 h)

theorem isCurrent_iff (h : path.IsProper) :
    isCurrent path ↔ path.root = .none ∧ path.parts = [] := by
  obtain ⟨root, parts⟩ := path
  have hslash {text : String} (hmem : '/' ∈ text.toList) : text ≠ "." := by
    rintro rfl
    exact absurd hmem (by decide)
  rw [isCurrent, beq_iff_eq]
  match root, parts with
  | .none, [] => exact iff_of_true rfl ⟨rfl, rfl⟩
  | .none, [part] =>
      have htext : Path.text ⟨.none, [part]⟩ = part := by
        simp [Path.text, Path.Root.text]
      rw [htext]
      exact iff_of_false (h part (List.mem_singleton_self _)).2 (by simp)
  | .none, first :: second :: rest =>
      exact iff_of_false (hslash (by simp [Path.text, String.toList_intercalate])) (by simp)
  | .slash, parts => exact iff_of_false (hslash (by simp [Path.text, Path.Root.text])) (by simp)
  | .doubleSlash, parts =>
      exact iff_of_false (hslash (by simp [Path.text, Path.Root.text])) (by simp)

theorem isCurrent_parent (h : path.IsProper) :
    isCurrent path.parent = (path.root == .none && (directories path).isEmpty) := by
  rw [Bool.eq_iff_iff, isCurrent_iff h.parent, directories, List.isEmpty_reverse]
  simp [Path.parent]

theorem infer_eq (hproper : path.IsProper) :
    infer path = (namingDirectory? path.root (directories path)).getD fallback := by
  have hnamed (name : String) (h : name ∈ directories path) : name ≠ "" :=
    (hproper name (mem_parts_of_mem_directories h)).1
  have hroot : path.parent.root = path.root := rfl
  simp only [infer, name_parent, isCurrent_parent hproper, isCurrent_parent hproper.parent,
    directories_parent, hroot]
  generalize directories path = names at hnamed
  match names with
  | [] => simp [namingDirectory?, wrappers]
  | [name] =>
      have hname : name ≠ "" := hnamed name (by simp)
      by_cases hw : name ∈ wrappers ∧ path.root ≠ .none
      · simp [namingDirectory?, hw]
      · simp [namingDirectory?, hw, hname]
  | name :: outer :: rest =>
      have hname : name ≠ "" := hnamed name (by simp)
      have hname' : outer ≠ "" := hnamed outer (by simp)
      by_cases hw : name ∈ wrappers
      · simp [namingDirectory?, hname', hw]
      · simp [namingDirectory?, hname, hw]

end

end PackageName

namespace Emitter

variable {e : Emitter} {before after : Progress} {file : Go.SourceFile}

theorem package_file {tree : Table} {declarations : List Go.Declaration}
    (h : Build.Yields (e.file tree declarations) before file after) : file.package = e.package := by
  unfold Emitter.file at h
  split at h
  · simp only [Build.yields_bind, Build.yields_require, Build.yields_get, Build.yields_pure] at h
    obtain ⟨_, _, -, _, _, -, rfl, -⟩ := h
    rfl
  · simp only [Build.yields_bind, Build.yields_get, Build.yields_pure] at h
    obtain ⟨_, _, -, rfl, -⟩ := h
    rfl

theorem package_emit {σ : Type} [FileSystem σ] {store : σ} {tree : Table} {catalog : Catalog}
    (h : Build.Yields (e.emit store tree catalog) before file after) :
    file.package = e.package := by
  rw [emit_eq, Build.yields_bind] at h
  obtain ⟨_, _, -, h⟩ := h
  obtain ⟨_, _, -, h⟩ := (Build.yields_bind _ _ _).1 h
  exact package_file h

end Emitter

/-- A text in this package, below the mark of what is generated. -/
def Go.OpensPackage (text name : String) : Prop :=
  ∃ rest, text = "// Code generated by confgen. DO NOT EDIT.\n\npackage " ++ name ++ "\n" ++ rest

theorem Go.SourceFile.opensPackage_text (file : SourceFile) :
    OpensPackage file.text file.package := by
  unfold OpensPackage SourceFile.text fileText
  simp only [String.append_assoc]
  exact ⟨_, rfl⟩

theorem Generator.opensPackage_of_generate {g : Generator} {environment : Override.Environment}
    {input : Input} {source text : String} {s after : Session}
    (h : outcome (g.generate environment input source) s = (.ok text, after)) :
    Go.OpensPackage text g.package := by
  obtain ⟨t, between, -, h⟩ := outcome_bind_eq_ok.1 h
  obtain ⟨_, _, file, _, -, -, hemit, rfl⟩ := generateTree_eq_ok_iff.1 ⟨after, h⟩
  have hpackage : file.package = g.package := Emitter.package_emit hemit
  rw [← hpackage]
  exact file.opensPackage_text

theorem Options.lookup_of_readField {α : Type} {fields : Fields} {name : String}
    {read : FieldValue → Except FieldFault α} {a : α}
    (h : readField fields name read none = .ok a) :
    ∃ v, fields.lookup name = some v ∧ read v = .ok a := by
  unfold readField at h
  split at h
  · next v hv => exact ⟨v, hv, except_mapError_eq_ok_iff.1 h⟩
  · next hnone => cases hnone
  · cases h

namespace GenerateOptions

open Go (IsPackageName)
open Options (readField)
open PackageName (directories namingDirectory? fallback)

variable {fields : Options.Fields} {o : GenerateOptions}

theorem exists_ofText_of_readOutput {v : Options.FieldValue} {path : Path}
    (h : readOutput v = .ok path) : ∃ text, path = Path.ofText text := by
  obtain ⟨given, hgiven, h⟩ := except_bind_eq_ok_iff.1 h
  have hpath : given = path := by
    split at h
    · cases h
    · exact Except.ok.inj h
  cases v with
  | text text => exact ⟨text, hpath.symm.trans (Except.ok.inj hgiven).symm⟩
  | integer | truth | nothing | other => cases hgiven

theorem exists_ofText_of_ofFields (h : ofFields fields = .ok o) :
    ∃ text, o.outputFile = Path.ofText text := by
  unfold ofFields at h
  dsimp only at h
  split at h
  · next output _ _ _ _ _ _ houtput _ _ _ _ _ =>
    cases h
    obtain ⟨v, -, hv⟩ := Options.lookup_of_readField houtput
    exact exists_ofText_of_readOutput hv
  · cases h

/-- A package without a name of its own is named as its directory is, whatever characters that has.
So its name is legal exactly if that of the directory is, or if no directory is named. Sources are
generated in this package. -/
theorem resolvedPackageName_legal_iff (h : ofFields fields = .ok o) (hname : o.packageName = "") :
    o.resolvedPackageName =
        (namingDirectory? o.outputFile.root (directories o.outputFile)).getD fallback ∧
      (IsPackageName o.resolvedPackageName ↔
        ∀ name ∈ namingDirectory? o.outputFile.root (directories o.outputFile),
          IsPackageName name) ∧
      ∀ environment input source (s after : Session) text,
        outcome (o.generator.generate environment input source) s = (.ok text, after) →
          Go.OpensPackage text o.resolvedPackageName := by
  obtain ⟨text, htext⟩ := exists_ofText_of_ofFields h
  have hproper : o.outputFile.IsProper := htext ▸ Path.isProper_ofText text
  have hresolved : o.resolvedPackageName =
      (namingDirectory? o.outputFile.root (directories o.outputFile)).getD fallback := by
    rw [resolvedPackageName, hname, if_pos (by decide), PackageName.infer_eq hproper]
  have hlegal : IsPackageName o.resolvedPackageName ↔
      ∀ name ∈ namingDirectory? o.outputFile.root (directories o.outputFile),
        IsPackageName name := by
    rw [hresolved]
    cases namingDirectory? o.outputFile.root (directories o.outputFile) with
    | none => simp [PackageName.isPackageName_fallback]
    | some name => simp
  refine ⟨hresolved, hlegal, ?_⟩
  intro environment input source s after text hrun
  have hclause : Go.OpensPackage text o.generator.package :=
    Generator.opensPackage_of_generate hrun
  exact hclause

def ofOutput (text : String) : GenerateOptions :=
  ⟨Path.ofText "config.toml", Path.ofText text, "", true, Loader.defaultLimit, .static, false⟩

theorem ofFields_outputFile {text : String} (h : (Path.ofText text).text ≠ ".") :
    ofFields [("output_file", .text text)] = .ok (ofOutput text) := by
  have houtput : readField [("output_file", .text text)] "output_file" readOutput none =
      .ok (Path.ofText text) := by
    have hread : readOutput (.text text) = .ok (Path.ofText text) :=
      except_bind_eq_ok_iff.2 ⟨_, rfl, if_neg h⟩
    exact except_mapError_eq_ok_iff.2 hread
  rw [ofFields, houtput]
  rfl

def billing : GenerateOptions :=
  ofOutput "services/billing/internal/config.go"

theorem resolvedPackageName_legal_billing :
    ofFields [("output_file", .text "services/billing/internal/config.go")] = .ok billing ∧
      billing.packageName = "" ∧ billing.resolvedPackageName = "billing" ∧
      IsPackageName billing.resolvedPackageName ∧
      ∃ text after,
        outcome (billing.generator.generate [] (.text "") "")
            (⟨⟨[], [], [], 0⟩, []⟩ : Session) =
          (.ok text, after) ∧
        Go.OpensPackage text billing.resolvedPackageName := by
  have h : ofFields [("output_file", .text "services/billing/internal/config.go")] = .ok billing :=
    ofFields_outputFile (by decide +kernel)
  obtain ⟨hresolved, hlegal, hclause⟩ := resolvedPackageName_legal_iff h rfl
  have hnaming : namingDirectory? billing.outputFile.root (directories billing.outputFile) =
      some "billing" := by
    decide +kernel
  have hbilling : IsPackageName "billing" := by
    decide +kernel
  obtain ⟨after, hrun⟩ : ∃ after,
      outcome (billing.generator.generate [] (.text "") "")
            (⟨⟨[], [], [], 0⟩, []⟩ : Session) =
        (.ok "// Code generated by confgen. DO NOT EDIT.\n\npackage billing\n\nvar (\n)\n",
          after) :=
    exists_outcome_of_fst (by decide +kernel)
  rw [hnaming] at hresolved hlegal
  exact ⟨h, rfl, hresolved, hlegal.2 fun name hmem => Option.some.inj hmem ▸ hbilling, _, after,
    hrun, hclause _ _ _ _ _ _ hrun⟩

/-- Two dots stand for a directory whose name is not known, and the package is named `..`. -/
theorem not_all_inferred_legal : ¬ ∀ (fields : Options.Fields) (o : GenerateOptions),
    ofFields fields = .ok o → o.packageName = "" → IsPackageName o.resolvedPackageName := by
  intro h
  have haccepted : ofFields [("output_file", .text "../config.go")] =
      .ok (ofOutput "../config.go") :=
    ofFields_outputFile (by decide +kernel)
  exact absurd (h _ _ haccepted rfl) (by decide +kernel)

end GenerateOptions

end TypedConfig
