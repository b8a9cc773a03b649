import TypedConfig.Proofs.Go.Qualifier
import TypedConfig.Schema.Basic

namespace TypedConfig

open Go (IsName isNameChar)

namespace Naming

theorem isWordChar_of_chunks {cs chunk : List Char} (h : chunk ∈ chunks cs) :
    ∀ c ∈ chunk, isWordChar c := by
  induction cs generalizing chunk with
  | nil =>
      rw [chunks, List.mem_singleton] at h
      simp [h]
  | cons d cs ih =>
      rw [chunks] at h
      split at h
      · next hd hrest =>
        obtain rfl | h := List.mem_cons.1 h
        · exact List.forall_mem_cons.2 ⟨hd, ih (by simp [hrest])⟩
        · exact ih (by simp [hrest, h])
      · next hd hrest =>
        rw [List.mem_singleton.1 h]
        exact List.forall_mem_cons.2 ⟨hd, by simp⟩
      · obtain rfl | h := List.mem_cons.1 h
        · simp
        · exact ih h

theorem mem_of_words {cs word : List Char} (h : word ∈ words cs) : ∀ c ∈ word, c ∈ cs := by
  fun_induction words cs generalizing word with
  | case1 => cases h
  | case2 a => simp_all
  | case3 a b rest hnil ih => simp_all
  | case4 a b rest first more hmore hboundary ih =>
      rw [hmore] at ih
      obtain rfl | h := List.mem_cons.1 h
      · simp
      · exact fun c hc => List.mem_cons_of_mem _ (ih h c hc)
  | case5 a b rest first more hmore hboundary ih =>
      rw [hmore] at ih
      obtain rfl | h := List.mem_cons.1 h
      · refine List.forall_mem_cons.2 ⟨List.mem_cons_self .., fun c hc => ?_⟩
        exact List.mem_cons_of_mem _ (ih (List.mem_cons_self ..) c hc)
      · exact fun c hc => List.mem_cons_of_mem _ (ih (List.mem_cons_of_mem _ h) c hc)

theorem capital_of_small {v : UInt32} (h : 'a'.val ≤ v ∧ v ≤ 'z'.val) :
    'A'.val ≤ v + ('A'.val - 'a'.val) ∧ v + ('A'.val - 'a'.val) ≤ 'Z'.val := by
  rw [UInt32.le_iff_toNat_le, UInt32.le_iff_toNat_le] at h ⊢
  have hshift : ('A'.val - 'a'.val).toNat = 2 ^ 32 - 32 := rfl
  have ha : 'a'.val.toNat = 97 := rfl
  have hz : 'z'.val.toNat = 122 := rfl
  have hA : 'A'.val.toNat = 65 := rfl
  have hZ : 'Z'.val.toNat = 90 := rfl
  rw [UInt32.toNat_add, hshift]
  omega

theorem isWordChar_toUpper {c : Char} (h : isWordChar c) : isWordChar c.toUpper := by
  unfold Char.toUpper
  split
  · next hsmall =>
    have hcapital := decide_eq_true (capital_of_small hsmall)
    simp only [isWordChar, Char.isAlphanum, Bool.or_eq_true]
    left
    change (Char.isUpper _ || Char.isLower _) = true
    exact Bool.or_eq_true_iff.2 (.inl hcapital)
  · exact h

theorem isWordChar_of_capitalize {word : List Char} (h : ∀ c ∈ word, isWordChar c) :
    ∀ c ∈ capitalize word, isWordChar c := by
  cases word with
  | nil => exact h
  | cons c word =>
      obtain ⟨hc, hword⟩ := List.forall_mem_cons.1 h
      exact List.forall_mem_cons.2 ⟨isWordChar_toUpper hc, hword⟩

def joined (key : List Char) : List Char :=
  ((chunks key).flatMap words).flatMap capitalize

theorem pascalChars_eq_joined (key : List Char) : pascalChars key =
    match joined key with
    | [] => ['X']
    | c :: _ => if c.isDigit then 'X' :: joined key else joined key :=
  rfl

theorem isWordChar_of_joined (key : List Char) : ∀ c ∈ joined key, isWordChar c := by
  intro c hc
  obtain ⟨word, hword, hc⟩ := List.mem_flatMap.1 hc
  obtain ⟨chunk, hchunk, hword⟩ := List.mem_flatMap.1 hword
  exact isWordChar_of_capitalize
    (fun d hd => isWordChar_of_chunks hchunk d (mem_of_words hword d hd)) c hc

theorem isWordChar_of_pascalChars (key : List Char) : ∀ c ∈ pascalChars key, isWordChar c := by
  have hjoined := isWordChar_of_joined key
  rw [pascalChars_eq_joined]
  split
  · exact List.forall_mem_cons.2 ⟨rfl, by simp⟩
  · split
    · exact List.forall_mem_cons.2 ⟨rfl, hjoined⟩
    · exact hjoined

theorem isName_pascalCase (key : String) : IsName (pascalCase key) := by
  intro c hc
  rw [pascalCase, String.toList_ofList] at hc
  have h : c.isAlphanum := isWordChar_of_pascalChars _ c hc
  simp [isNameChar, h]

theorem isName_suffix (suffix : Suffix) : IsName suffix.text := by
  cases suffix <;> decide

theorem dropSuffix?_subset {name suffix rest : List Char}
    (h : dropSuffix? name suffix = some rest) :
    rest ⊆ name := by
  unfold dropSuffix? at h
  split at h
  · cases h
    exact List.take_subset ..
  · cases h

theorem isName_strip {name : String} (h : IsName name) : IsName (strip name) := by
  unfold strip
  split
  · next hrest =>
    intro c hc
    rw [String.toList_ofList] at hc
    exact h c (dropSuffix?_subset hrest hc)
  · split
    · next hrest =>
      intro c hc
      rw [String.toList_ofList] at hc
      exact h c (dropSuffix?_subset hrest hc)
    · exact h

theorem pascalCase_ne_empty (key : String) : pascalCase key ≠ "" := by
  have hchars : pascalChars key.toList ≠ [] := by
    unfold pascalChars
    dsimp only
    split
    · simp
    · next hjoined =>
      split
      · simp
      · simp [hjoined]
  intro h
  exact hchars (String.ofList_eq_empty_iff.1 h)

theorem dropSuffix?_append {stem : List Char} (h : stem ≠ []) (suffix : List Char) :
    dropSuffix? (stem ++ suffix) suffix = some stem := by
  have hsuffix : suffix.isSuffixOf (stem ++ suffix) :=
    List.isSuffixOf_iff_suffix.2 (List.suffix_append ..)
  simp [dropSuffix?, hsuffix, List.length_pos_iff, h]

theorem dropSuffix?_config_item (stem : List Char) :
    dropSuffix? (stem ++ Suffix.item.text.toList) Suffix.config.text.toList = none := by
  have hsuffix : ¬ Suffix.config.text.toList.isSuffixOf (stem ++ Suffix.item.text.toList) := by
    intro h
    obtain ⟨front, hfront⟩ := List.isSuffixOf_iff_suffix.1 h
    have hlast := congrArg List.getLast? hfront
    simp [Suffix.text] at hlast
  simp [dropSuffix?, hsuffix]

/-- Stripping undoes the suffix of a type and nothing else, whatever the stem ends in. -/
theorem strip_append_suffix {stem : String} (h : stem ≠ "") (suffix : Suffix) :
    strip (stem ++ suffix.text) = stem := by
  have hstem : stem.toList ≠ [] := mt String.toList_eq_nil_iff.1 h
  unfold strip
  rw [String.toList_append]
  cases suffix with
  | config =>
      rw [dropSuffix?_append hstem]
      exact String.ofList_toList
  | item =>
      rw [dropSuffix?_config_item, dropSuffix?_append hstem]
      exact String.ofList_toList

end Naming

namespace Scope

def Named (scope : Scope) : Prop :=
  ∀ name ∈ scope.name, IsName name

theorem named_root : root.Named := by
  simp [Named, root]

theorem Named.isName_typeName {scope : Scope} (h : scope.Named) (key : String)
    (suffix : Naming.Suffix) : IsName (scope.typeName key suffix) := by
  unfold typeName
  split
  · exact (Naming.isName_pascalCase key).append (Naming.isName_suffix suffix)
  · next parent hparent =>
    exact ((Naming.isName_strip (h parent hparent)).append (Naming.isName_pascalCase key)).append
      (Naming.isName_suffix suffix)

theorem Named.child {scope : Scope} (h : scope.Named) (key : String) (suffix : Naming.Suffix) :
    (scope.child key suffix).Named := by
  rintro _ ⟨⟩
  exact h.isName_typeName key suffix

end Scope

end TypedConfig
