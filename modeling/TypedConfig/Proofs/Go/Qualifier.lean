import TypedConfig.Go.Source
import Mathlib.Data.List.Basic

namespace TypedConfig.Go

/-- Where a reader of source text is: in code, behind the letters and digits read last, or in a
string literal, perhaps behind a backslash. -/
inductive Place where
  | code (word : List Char)
  | quoted
  | escaped

def isNameChar (c : Char) : Bool :=
  c.isAlphanum || c == '_' || 0x80 ≤ c.toNat

def Place.next : Place → Char → Place
  | .code word, c =>
    if c = '"' then .quoted else if isNameChar c then .code (word ++ [c]) else .code []
  | .quoted, c => if c = '\\' then .escaped else if c = '"' then .code [] else .quoted
  | .escaped, _ => .quoted

def Place.qualifier? : Place → Char → Option (List Char)
  | .code word, c => if c = '.' then some word else none
  | _, _ => none

def qualifiers (place : Place) : List Char → List (List Char)
  | [] => []
  | c :: rest => (place.qualifier? c).toList ++ qualifiers (place.next c) rest

def SourceFile.blocks (f : SourceFile) : String :=
  String.join (f.declarations.map fun d => "\n" ++ d.text ++ "\n")

def SourceFile.RefersTo (f : SourceFile) (p : Package) : Prop :=
  p.name.toList ∈ qualifiers (.code []) f.blocks.toList

instance (f : SourceFile) (p : Package) : Decidable (f.RefersTo p) :=
  inferInstanceAs (Decidable (_ ∈ _))

def IsSeparator (c : Char) : Prop :=
  c ≠ '"' ∧ c ≠ '.' ∧ isNameChar c = false

instance (c : Char) : Decidable (IsSeparator c) :=
  inferInstanceAs (Decidable (_ ∧ _))

def Separates (s : String) : Prop :=
  ∀ c ∈ s.toList, IsSeparator c

instance (s : String) : Decidable (Separates s) :=
  List.decidableBAll IsSeparator s.toList

def IsName (s : String) : Prop :=
  ∀ c ∈ s.toList, isNameChar c

instance (s : String) : Decidable (IsName s) :=
  List.decidableBAll (fun c => isNameChar c) s.toList

/-- Before a separator, the text refers to these packages and no others. -/
def Refers (s : String) (packages : List Package) : Prop :=
  ∀ p c rest, IsSeparator c →
    (p.name.toList ∈ qualifiers (.code []) (s.toList ++ c :: rest) ↔
      p ∈ packages ∨ p.name.toList ∈ qualifiers (.code []) rest)

/-- The text refers to these packages and no others, and what follows it is read afresh. -/
def RefersWhole (s : String) (packages : List Package) : Prop :=
  ∀ p rest, p.name.toList ∈ qualifiers (.code []) (s.toList ++ rest) ↔
    p ∈ packages ∨ p.name.toList ∈ qualifiers (.code []) rest

theorem fileText_eq (package : String) (imports blocks : List String) :
    fileText package imports blocks = fileText package imports [] ++
      String.join (blocks.map fun block => "\n" ++ block ++ "\n") := by
  have hnil : String.join (([] : List String).map fun block => "\n" ++ block ++ "\n") = "" := rfl
  unfold fileText
  rw [hnil, String.append_empty]

/-- The text of a file is its header and then its declarations. -/
theorem SourceFile.text_eq (f : SourceFile) :
    f.text = fileText f.package (f.imports.map Package.name) [] ++ f.blocks := by
  rw [SourceFile.text, fileText_eq, List.map_map, SourceFile.blocks, Function.comp_def]

theorem Package.name_toList_inj {p q : Package} (h : p.name.toList = q.name.toList) : p = q := by
  cases p <;> cases q <;> first | rfl | exact absurd h (by decide)

theorem Package.name_toList_mem_map {p : Package} {packages : List Package} :
    p.name.toList ∈ packages.map (·.name.toList) ↔ p ∈ packages :=
  List.mem_map_of_injective fun _ _ => Package.name_toList_inj

theorem qualifiers_separator {c : Char} (hc : IsSeparator c) (word rest : List Char) :
    qualifiers (.code word) (c :: rest) = qualifiers (.code []) rest := by
  simp [qualifiers, Place.qualifier?, Place.next, hc.1, hc.2.1, hc.2.2]

theorem qualifiers_quote (word rest : List Char) :
    qualifiers (.code word) ('"' :: rest) = qualifiers .quoted rest :=
  rfl

/-- Code without points and string literals refers to nothing. -/
theorem qualifiers_quiet {cs : List Char} (h : ∀ c ∈ cs, c ≠ '"' ∧ c ≠ '.')
    (word rest : List Char) :
    ∃ last, qualifiers (.code word) (cs ++ rest) = qualifiers (.code last) rest := by
  induction cs generalizing word with
  | nil => exact ⟨word, rfl⟩
  | cons c cs ih =>
      obtain ⟨hc, hcs⟩ := List.forall_mem_cons.1 h
      simp only [List.cons_append, qualifiers, Place.qualifier?, Place.next, hc.1, hc.2, if_false,
        Option.toList_none, List.nil_append]
      split <;> exact ih hcs _

theorem refers_of_quiet {s : String} (h : ∀ c ∈ s.toList, c ≠ '"' ∧ c ≠ '.') : Refers s [] := by
  intro p c rest hc
  obtain ⟨last, hlast⟩ := qualifiers_quiet h [] (c :: rest)
  rw [hlast, qualifiers_separator hc]
  simp

theorem IsName.refers {s : String} (h : IsName s) : Refers s [] := by
  refine refers_of_quiet fun c hc => ⟨?_, ?_⟩
  · rintro rfl
    exact absurd (h _ hc) (by decide)
  · rintro rfl
    exact absurd (h _ hc) (by decide)

theorem IsName.append {s t : String} (hs : IsName s) (ht : IsName t) : IsName (s ++ t) := by
  intro c hc
  rw [String.toList_append] at hc
  exact (List.mem_append.1 hc).elim (hs c) (ht c)

/-- A qualified name, and whatever else a piece of code has, read by computation. -/
theorem refers_of_read {s : String} {packages : List Package}
    (h : ∀ rest, ∃ last, qualifiers (.code []) (s.toList ++ rest) =
      packages.map (·.name.toList) ++ qualifiers (.code last) rest) : Refers s packages := by
  intro p c rest hc
  obtain ⟨last, hlast⟩ := h (c :: rest)
  rw [hlast, qualifiers_separator hc, List.mem_append, Package.name_toList_mem_map]

theorem refersWhole_of_words {s : String} {packages : List Package} {words : List (List Char)}
    (h : ∀ rest, qualifiers (.code []) (s.toList ++ rest) =
      words ++ qualifiers (.code []) rest)
    (hwords : ∀ p : Package, p.name.toList ∈ words ↔ p ∈ packages) : RefersWhole s packages := by
  intro p rest
  rw [h, List.mem_append, hwords]

theorem refersWhole_of_read {s : String} {packages : List Package}
    (h : ∀ rest, qualifiers (.code []) (s.toList ++ rest) =
      packages.map (·.name.toList) ++ qualifiers (.code []) rest) : RefersWhole s packages :=
  refersWhole_of_words h fun _ => Package.name_toList_mem_map

theorem refersWhole_empty : RefersWhole "" [] :=
  refersWhole_of_read fun _ => rfl

section Composition

variable {s t : String} {packages others : List Package}

theorem Refers.congr (h : Refers s packages) (heq : ∀ p, p ∈ packages ↔ p ∈ others) :
    Refers s others :=
  fun p c rest hc => (h p c rest hc).trans (or_congr_left (heq p))

theorem RefersWhole.congr (h : RefersWhole s packages) (heq : ∀ p, p ∈ packages ↔ p ∈ others) :
    RefersWhole s others :=
  fun p rest => (h p rest).trans (or_congr_left (heq p))

theorem RefersWhole.refers (h : RefersWhole s packages) : Refers s packages := by
  intro p c rest hc
  rw [h p (c :: rest), qualifiers_separator hc]

theorem Separates.refersWhole (h : Separates s) : RefersWhole s [] := by
  refine refersWhole_of_read fun rest => ?_
  unfold Separates at h
  generalize s.toList = cs at h ⊢
  induction cs with
  | nil => rfl
  | cons c cs ih =>
      obtain ⟨hc, hcs⟩ := List.forall_mem_cons.1 h
      rw [List.cons_append, qualifiers_separator hc]
      exact ih hcs

theorem RefersWhole.append (hs : RefersWhole s packages) (ht : RefersWhole t others) :
    RefersWhole (s ++ t) (packages ++ others) := by
  intro p rest
  rw [String.toList_append, List.append_assoc, hs, ht, List.mem_append, or_assoc]

theorem RefersWhole.append_refers (hs : RefersWhole s packages) (ht : Refers t others) :
    Refers (s ++ t) (packages ++ others) := by
  intro p c rest hc
  rw [String.toList_append, List.append_assoc, hs, ht p c rest hc, List.mem_append, or_assoc]

/-- What follows a separator is read afresh. -/
theorem Refers.append_separates (hs : Refers s packages) (ht : Separates t) (hne : t ≠ "") :
    RefersWhole (s ++ t) packages := by
  intro p rest
  obtain ⟨c, cs, hcs⟩ := List.exists_cons_of_ne_nil (mt String.toList_eq_nil_iff.1 hne)
  have hc : IsSeparator c := ht c (by simp [hcs])
  have hrest := ht.refersWhole p rest
  rw [hcs, List.cons_append, qualifiers_separator hc] at hrest
  rw [String.toList_append, List.append_assoc, hcs, List.cons_append, hs p c _ hc, hrest]
  simp

theorem RefersWhole.append_separates (hs : RefersWhole s packages) (ht : Separates t) :
    RefersWhole (s ++ t) packages := by
  have h := hs.append ht.refersWhole
  rwa [List.append_nil] at h

theorem Separates.append_refers (hs : Separates s) (ht : Refers t packages) :
    Refers (s ++ t) packages :=
  hs.refersWhole.append_refers ht

theorem RefersWhole.join_cons {texts : List String} (hs : RefersWhole s packages)
    (hrest : RefersWhole (String.join texts) others) :
    RefersWhole (String.join (s :: texts)) (packages ++ others) := by
  have hjoin : String.join (s :: texts) = s ++ String.join texts := by
    apply String.toList_injective
    simp [String.toList_join]
  rw [hjoin]
  exact hs.append hrest

theorem refersWhole_join {α : Type} (text : α → String) (packages : α → List Package)
    (xs : List α) (h : ∀ x ∈ xs, RefersWhole (text x) (packages x)) :
    RefersWhole (String.join (xs.map text)) (xs.flatMap packages) := by
  induction xs with
  | nil => exact refersWhole_empty
  | cons x xs ih =>
      obtain ⟨hx, hxs⟩ := List.forall_mem_cons.1 h
      exact hx.join_cons (ih hxs)

theorem Refers.intercalate_cons {sep : String} {texts : List String} (hsep : Separates sep)
    (hne : sep ≠ "") (hs : Refers s packages) (hrest : Refers (sep.intercalate texts) others) :
    Refers (sep.intercalate (s :: texts)) (packages ++ others) := by
  cases texts with
  | nil =>
      intro p c rest hc
      have hnone := hrest p c rest hc
      rw [String.intercalate_nil, String.toList_empty, List.nil_append,
        qualifiers_separator hc] at hnone
      rw [String.intercalate_singleton, hs p c rest hc, List.mem_append, or_assoc, ← hnone]
  | cons t texts =>
      rw [String.intercalate_cons_cons]
      exact (hs.append_separates hsep hne).append_refers hrest

theorem refers_intercalate {α : Type} (sep : String) (hsep : Separates sep) (hne : sep ≠ "")
    (text : α → String) (packages : α → List Package) (xs : List α) (last : List String)
    (h : ∀ x ∈ xs, Refers (text x) (packages x)) (hlast : Refers (sep.intercalate last) []) :
    Refers (sep.intercalate (xs.map text ++ last)) (xs.flatMap packages) := by
  induction xs with
  | nil => exact hlast
  | cons x xs ih =>
      obtain ⟨hx, hxs⟩ := List.forall_mem_cons.1 h
      exact hx.intercalate_cons hsep hne (ih hxs)

end Composition

end TypedConfig.Go
