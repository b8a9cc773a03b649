import TypedConfig.Proofs.Go.Scalar

namespace TypedConfig.Go

def GoType.packages : GoType → List Package
  | .duration => [.time]
  | .slice element => element.packages
  | _ => []

def GoType.Named : GoType → Prop
  | .named name => IsName name
  | .slice element => element.Named
  | _ => True

theorem GoType.refers_text {t : GoType} (h : t.Named) : Refers t.text t.packages := by
  induction t with
  | named name => exact IsName.refers h
  | slice element ih =>
      have hopen : Separates "[]" := by decide
      exact hopen.append_refers (ih h)
  | duration => exact refers_of_read fun _ => ⟨_, rfl⟩
  | string | int64 | float64 | bool | byte | any | struct => exact IsName.refers (by decide)

mutual

def Literal.packages : Literal → List Package
  | .nil | .boolean _ | .integer _ | .float (.finite _) | .string _ | .bytes _ => []
  | .float .nan | .float (.infinite _) => [.math]
  | .duration n => if n = 0 then [] else [.time]
  | .slice element items => element.packages ++ itemPackages items
  | .record _ fields => fieldPackages fields
  | .records _ elements => itemPackages elements

def itemPackages : List Literal → List Package
  | [] => []
  | item :: rest => item.packages ++ itemPackages rest

def fieldPackages : List (String × Literal) → List Package
  | [] => []
  | (_, value) :: rest => value.packages ++ fieldPackages rest

end

mutual

def Literal.Named : Literal → Prop
  | .slice element items => element.Named ∧ ItemsNamed items
  | .record typeName fields => (∀ name ∈ typeName, IsName name) ∧ FieldsNamed fields
  | .records typeName elements => IsName typeName ∧ ItemsNamed elements
  | _ => True

def ItemsNamed : List Literal → Prop
  | [] => True
  | item :: rest => item.Named ∧ ItemsNamed rest

def FieldsNamed : List (String × Literal) → Prop
  | [] => True
  | (name, value) :: rest => IsName name ∧ value.Named ∧ FieldsNamed rest

end

mutual

theorem Literal.refers_text (depth : Int) :
    ∀ l : Literal, l.Named → Refers (l.text depth) l.packages
  | .nil, _ | .boolean true, _ | .boolean false, _ => by
      simp only [Literal.text, Literal.packages]
      exact IsName.refers (by decide)
  | .integer n, _ => by
      simp only [Literal.text, Literal.packages]
      exact refers_toString n
  | .float .nan, _ | .float (.infinite true), _ | .float (.infinite false), _ => by
      simp only [Literal.text, Literal.packages]
      exact refers_of_read fun _ => ⟨_, rfl⟩
  | .float (.finite x), _ => by
      simp only [Literal.text, Literal.packages]
      exact refers_floatText x
  | .string s, _ => by
      simp only [Literal.text, Literal.packages]
      exact (refersWhole_quote s).refers
  | .duration n, _ => by
      simp only [Literal.text, Literal.packages]
      split
      · next hn =>
        rw [hn]
        exact IsName.refers (by decide)
      · next hn => exact refers_duration hn
  | .bytes data, _ => by
      simp only [Literal.text, Literal.packages]
      exact (refersWhole_bytesText data depth).refers
  | .slice element items, h => by
      simp only [Literal.Named] at h
      simp only [Literal.text, Literal.packages]
      have hbrackets : Separates "[]" := by decide
      have htype := hbrackets.append_refers (GoType.refers_text h.1)
      have hopen := htype.append_separates (t := "\x7b") (by decide) (by decide)
      have hitems := hopen.append_refers (refers_itemTexts depth items h.2)
      exact (hitems.append_separates (by decide) (by decide)).refers
  | .record typeName fields, h => by
      simp only [Literal.Named] at h
      simp only [Literal.text, Literal.packages]
      have hname : Refers (typeName.getD "") [] := by
        cases typeName with
        | none => exact refersWhole_empty.refers
        | some name => exact IsName.refers (h.1 name rfl)
      have hopen := hname.append_separates (t := "\x7b\n") (by decide) (by decide)
      have hfields := hopen.append (refersWhole_fieldTexts (depth + 1) fields h.2)
      exact ((hfields.append_separates (separates_tabs depth)).append_separates (by decide)).refers
  | .records typeName elements, h => by
      simp only [Literal.Named] at h
      simp only [Literal.text, Literal.packages]
      have hbrackets : Separates "[]" := by decide
      have htype := hbrackets.append_refers h.1.refers
      have hopen := htype.append_separates (t := "\x7b\n") (by decide) (by decide)
      have helements := hopen.append (refersWhole_elementTexts (depth + 1) elements h.2)
      exact ((helements.append_separates (separates_tabs depth)).append_separates
        (by decide)).refers

theorem refers_itemTexts (depth : Int) :
    ∀ items : List Literal, ItemsNamed items →
      Refers (", ".intercalate (itemTexts depth items)) (itemPackages items)
  | [], _ => by
      simp only [itemTexts, itemPackages]
      exact refersWhole_empty.refers
  | item :: rest, h => by
      simp only [ItemsNamed] at h
      simp only [itemTexts, itemPackages]
      exact (Literal.refers_text depth item h.1).intercalate_cons (by decide) (by decide)
        (refers_itemTexts depth rest h.2)

theorem refersWhole_fieldTexts (depth : Int) :
    ∀ fields : List (String × Literal), FieldsNamed fields →
      RefersWhole (String.join (fieldTexts depth fields)) (fieldPackages fields)
  | [], _ => by
      simp only [fieldTexts, fieldPackages]
      exact refersWhole_empty
  | (name, value) :: rest, h => by
      simp only [FieldsNamed] at h
      simp only [fieldTexts, fieldPackages]
      have hname := ((separates_tabs depth).append_refers h.1.refers).append_separates (t := ": ")
        (by decide) (by decide)
      have hvalue := (hname.append_refers (Literal.refers_text depth value h.2.1)).append_separates
        (t := ",\n") (by decide) (by decide)
      exact hvalue.join_cons (refersWhole_fieldTexts depth rest h.2.2)

theorem refersWhole_elementTexts (depth : Int) :
    ∀ elements : List Literal, ItemsNamed elements →
      RefersWhole (String.join (elementTexts depth elements)) (itemPackages elements)
  | [], _ => by
      simp only [elementTexts, itemPackages]
      exact refersWhole_empty
  | element :: rest, h => by
      simp only [ItemsNamed] at h
      simp only [elementTexts, itemPackages]
      have helement := (separates_tabs depth).append_refers (Literal.refers_text depth element h.1)
      exact (helement.append_separates (t := ",\n") (by decide) (by decide)).join_cons
        (refersWhole_elementTexts depth rest h.2)

end

def conversionPackages : Kind → List Package
  | .integer | .float | .bool => [.strconv]
  | .duration => [.time]
  | _ => []

def bodyPackages (type fallback : List Package) : Kind → List Package
  | .table => type
  | .array | .tableArray | .any => fallback
  | .bytes => .os :: fallback
  | kind => .os :: conversionPackages kind ++ fallback

def Accessor.packages (a : Accessor) : List Package :=
  a.type.packages ++
    bodyPackages a.type.packages ((a.fallback.map (·.packages)).getD []) a.kind

def Accessor.Named (a : Accessor) : Prop :=
  (∀ name ∈ a.receiver, IsName name) ∧ IsName a.name ∧ a.type.Named ∧ ∀ l ∈ a.fallback, l.Named

def Variable.packages (v : Variable) : List Package :=
  (v.type.map (·.packages)).getD [] ++ (v.value.map (·.packages)).getD []

def Variable.Named (v : Variable) : Prop :=
  IsName v.name ∧ (∀ t ∈ v.type, t.Named) ∧ ∀ l ∈ v.value, l.Named

def Declaration.packages : Declaration → List Package
  | .record _ fields => fields.flatMap (·.type.packages)
  | .placeholder _ => []
  | .accessor a => a.packages
  | .group members => members.flatMap (·.packages)

def Declaration.Named : Declaration → Prop
  | .record name fields => IsName name ∧ ∀ f ∈ fields, IsName f.name ∧ f.type.Named
  | .placeholder name => IsName name
  | .accessor a => a.Named
  | .group members => ∀ v ∈ members, v.Named

theorem Field.refers_text {f : Field} (hname : IsName f.name) (htype : f.type.Named) :
    Refers f.text f.type.packages := by
  have h := ((separates_tabs 1).append_refers hname.refers).append_separates (t := " ")
    (by decide) (by decide)
  exact h.append_refers (GoType.refers_text htype)

theorem Variable.refers_text {v : Variable} (h : v.Named) : Refers v.text v.packages := by
  obtain ⟨hname, htype, hvalue⟩ := h
  have hstart : Refers (tabs 1 ++ v.name) [] := (separates_tabs 1).append_refers hname.refers
  have htyped : Refers (tabs 1 ++ v.name ++ (v.type.map (" " ++ ·.text)).getD "")
      ((v.type.map (·.packages)).getD []) := by
    cases ht : v.type with
    | none => simpa using hstart
    | some t =>
        have hspace := hstart.append_separates (t := " ") (by decide) (by decide)
        have h := hspace.append_refers (GoType.refers_text (htype t ht))
        rwa [String.append_assoc, List.nil_append] at h
  unfold Variable.text Variable.packages
  cases hv : v.value with
  | none => simpa using htyped
  | some l =>
      have hequals := htyped.append_separates (t := " = ") (by decide) (by decide)
      have h := hequals.append_refers (Literal.refers_text 1 l (hvalue l hv))
      rwa [String.append_assoc] at h

theorem refersWhole_conversion (kind : Kind) :
    RefersWhole (conversion (some kind)) (conversionPackages kind) := by
  cases kind <;> exact refersWhole_of_read fun _ => rfl

/-- A look-up that leaves the text of the variable to `conversion`. -/
theorem refersWhole_scalarLookUp {s fallback : String} {packages others : List Package}
    (variableName : String) (hs : RefersWhole s packages)
    (hfallback : RefersWhole fallback others) :
    RefersWhole ("\tif v := os.Getenv(" ++ quote variableName ++ "); v != \"\" \x7b\n" ++ s ++
      "\t\x7d\n" ++ fallback) (.os :: packages ++ others) := by
  have hopen : RefersWhole "\tif v := os.Getenv(" [.os] := refersWhole_of_read fun _ => rfl
  have hempty : RefersWhole "); v != \"\" \x7b\n" [] := refersWhole_of_read fun _ => rfl
  have h := ((hopen.append (refersWhole_quote variableName)).append hempty).append hs
  exact (h.append_separates (by decide)).append hfallback

/-- The last word of the comment stands before a point, but is no package. -/
theorem refersWhole_arrayComment :
    RefersWhole "\t// Arrays cannot be overridden via environment variables.\n" [] := by
  have hstart : RefersWhole "\t// Arrays cannot be overridden via environment " [] :=
    refersWhole_of_read fun _ => rfl
  have hend : RefersWhole "variables.\n" [] := by
    have hread (rest : List Char) : qualifiers (.code []) ("variables.\n".toList ++ rest) =
        ["variables".toList] ++ qualifiers (.code []) rest := rfl
    refine refersWhole_of_words hread fun p => ?_
    cases p <;> decide
  have htext : "\t// Arrays cannot be overridden via environment variables.\n" =
      "\t// Arrays cannot be overridden via environment " ++ "variables.\n" := by decide
  rw [htext]
  exact hstart.append hend

theorem AccessorParts.refersWhole_body {a : AccessorParts} {kind : Kind}
    {type fallback : List Package} (hkind : a.kind = some kind) (htype : Refers a.type type)
    (hfallback : Refers a.fallback fallback) :
    RefersWhole a.body (bodyPackages type fallback kind) := by
  have hreturn : RefersWhole "\treturn " [] := refersWhole_of_read fun _ => rfl
  have hfall : RefersWhole ("\treturn " ++ a.fallback ++ "\n") fallback :=
    (hreturn.append_refers hfallback).append_separates (by decide) (by decide)
  have hscalar :=
    refersWhole_scalarLookUp a.variableName (refersWhole_conversion kind) hfall
  unfold AccessorParts.body
  rw [hkind]
  cases kind with
  | table => exact (hreturn.append_refers htype).append_separates (by decide) (by decide)
  | array | tableArray =>
      exact refersWhole_arrayComment.append hfall
  | any => exact hfall
  | bytes =>
      have hopen : RefersWhole "\tif path := os.Getenv(" [.os] := refersWhole_of_read fun _ => rfl
      have hempty : RefersWhole "); path != \"\" \x7b\n" [] := refersWhole_of_read fun _ => rfl
      have hread : RefersWhole "\t\tif data, err := os.ReadFile(path); err == nil \x7b\n" [.os] :=
        refersWhole_of_read fun _ => rfl
      have hdata : RefersWhole "\t\t\treturn data\n\t\t\x7d\n\t\x7d\n" [] :=
        refersWhole_of_read fun _ => rfl
      have h := ((hopen.append (refersWhole_quote a.variableName)).append hempty).append hread
      refine ((h.append hdata).append hfall).congr fun p => ?_
      simp [bodyPackages]
  | string | integer | float | bool | duration => exact hscalar

theorem withoutLineEnd_append (s : String) : withoutLineEnd (s ++ "\x7d\n") = s ++ "\x7d" := by
  apply String.toList_injective
  simp [withoutLineEnd, String.toList_append]

theorem AccessorParts.refers_text {a : AccessorParts} {kind : Kind} {type fallback : List Package}
    (hreceiver : ∀ name ∈ a.receiver, IsName name) (hname : IsName a.name)
    (hkind : a.kind = some kind) (htype : Refers a.type type)
    (hfallback : Refers a.fallback fallback) :
    RefersWhole (withoutLineEnd a.text) (type ++ bodyPackages type fallback kind) := by
  have hfunc : RefersWhole "func " [] := refersWhole_of_read fun _ => rfl
  have htext : RefersWhole a.receiverText [] := by
    unfold AccessorParts.receiverText
    cases hr : a.receiver with
    | none => exact refersWhole_empty
    | some name =>
        dsimp only
        split
        · exact refersWhole_empty
        · have hopen : Separates "(" := by decide
          exact (hopen.append_refers (hreceiver name hr).refers).append_separates (by decide)
            (by decide)
  have hnamed := ((hfunc.append htext).append_refers hname.refers).append_separates (t := "() ")
    (by decide) (by decide)
  have htyped := (hnamed.append_refers htype).append_separates (t := " \x7b\n") (by decide)
    (by decide)
  unfold AccessorParts.text
  rw [withoutLineEnd_append]
  exact (htyped.append (refersWhole_body hkind htype hfallback)).append_separates (by decide)

theorem Accessor.refersWhole_text {a : Accessor} (h : a.Named) :
    RefersWhole (withoutLineEnd a.parts.text) a.packages := by
  obtain ⟨hreceiver, hname, htype, hfallback⟩ := h
  refine AccessorParts.refers_text hreceiver hname rfl (GoType.refers_text htype) ?_
  unfold Accessor.parts
  cases hf : a.fallback with
  | none => exact refersWhole_empty.refers
  | some l => exact Literal.refers_text 1 l (hfallback l hf)

theorem Declaration.refers_text {d : Declaration} (h : d.Named) : Refers d.text d.packages := by
  have htype : RefersWhole "type " [] := refersWhole_of_read fun _ => rfl
  cases d with
  | record name fields =>
      have hopen := (htype.append_refers h.1.refers).append_separates (t := " ") (by decide)
        (by decide)
      have hstruct : Refers "struct \x7b" [] := refers_of_read fun _ => ⟨_, rfl⟩
      have hhead : Refers ("type " ++ name ++ " struct \x7b") [] := by
        have hjoined := hopen.append_refers hstruct
        rwa [String.append_assoc] at hjoined
      have hfields := refers_intercalate "\n" (by decide) (by decide) Field.text (·.type.packages)
        fields ["\x7d"] (fun f hf => Field.refers_text (h.2 f hf).1 (h.2 f hf).2)
        (refers_of_read fun _ => ⟨_, rfl⟩)
      exact hhead.intercalate_cons (by decide) (by decide) hfields
  | placeholder name =>
      have hopen := (htype.append_refers h.refers).append_separates (t := " ") (by decide)
        (by decide)
      have hstruct : Refers "struct\x7b\x7d" [] := refers_of_read fun _ => ⟨_, rfl⟩
      have hjoined := hopen.append_refers hstruct
      rwa [String.append_assoc] at hjoined
  | accessor a => exact (Accessor.refersWhole_text h).refers
  | group members =>
      have hhead : Refers "var (" [] := refers_of_read fun _ => ⟨_, rfl⟩
      have hmembers := refers_intercalate "\n" (by decide) (by decide) Variable.text
        (·.packages) members [")"] (fun v hv => Variable.refers_text (h v hv))
        (refers_of_read fun _ => ⟨_, rfl⟩)
      exact hhead.intercalate_cons (by decide) (by decide) hmembers

/-- A package is referred to in a file when a type or a literal of a declaration takes it. -/
theorem SourceFile.refersTo_iff {f : SourceFile} (h : ∀ d ∈ f.declarations, d.Named) (p : Package) :
    f.RefersTo p ↔ ∃ d ∈ f.declarations, p ∈ d.packages := by
  have hblock (d : Declaration) (hd : d ∈ f.declarations) :
      RefersWhole ("\n" ++ d.text ++ "\n") d.packages := by
    have hline : Separates "\n" := by decide
    have hstart := hline.append_refers (Declaration.refers_text (h d hd))
    exact hstart.append_separates hline (by decide)
  have hblocks := refersWhole_join _ _ f.declarations hblock p []
  rw [List.append_nil, List.mem_flatMap] at hblocks
  simpa [SourceFile.RefersTo, SourceFile.blocks, qualifiers] using hblocks

end TypedConfig.Go
