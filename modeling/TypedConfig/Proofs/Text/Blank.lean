import TypedConfig.Text.Blank
import Mathlib.Data.List.DropRight

namespace TypedConfig.Text

section Runs

variable {p : Char → Bool} {cs rest : List Char}

theorem takeWhile_append_of_stop (hcs : ∀ c ∈ cs, p c) (hrest : ∀ c ∈ rest.head?, p c = false) :
    (cs ++ rest).takeWhile p = cs := by
  rw [List.takeWhile_append_of_pos hcs]
  cases rest with
  | nil => simp
  | cons c rest => simp [hrest c rfl]

theorem dropWhile_append_of_stop (hcs : ∀ c ∈ cs, p c) (hrest : ∀ c ∈ rest.head?, p c = false) :
    (cs ++ rest).dropWhile p = rest := by
  rw [List.dropWhile_append_of_pos hcs]
  cases rest with
  | nil => simp
  | cons c rest => simp [hrest c rfl]

theorem dropTrailing_append_of_stop (hcs : ∀ c ∈ cs.getLast?, p c = false)
    (hrest : ∀ c ∈ rest, p c) : dropTrailing p (cs ++ rest) = cs := by
  have hdrop : (rest.reverse ++ cs.reverse).dropWhile p = cs.reverse := by
    refine dropWhile_append_of_stop (fun c hc => hrest c (List.mem_reverse.1 hc)) ?_
    rwa [List.head?_reverse]
  rw [dropTrailing, List.reverse_append, hdrop, List.reverse_reverse]

theorem exists_dropTrailing (p : Char → Bool) (cs : List Char) :
    ∃ rest, (∀ c ∈ rest, p c) ∧ cs = dropTrailing p cs ++ rest :=
  ⟨cs.rtakeWhile p, fun _ => List.mem_rtakeWhile_imp, List.rdropWhile_append_rtakeWhile.symm⟩

theorem exists_dropWhile (p : Char → Bool) (cs : List Char) :
    ∃ front, (∀ c ∈ front, p c) ∧ cs = front ++ cs.dropWhile p :=
  ⟨cs.takeWhile p, fun _ => List.mem_takeWhile_imp, List.takeWhile_append_dropWhile.symm⟩

end Runs

theorem isBlank_iff {c : Char} :
    isBlank c ↔ ∃ s ∈ (0x1c, 0x1f) :: spaceRanges, s.1 ≤ c.toNat ∧ c.toNat ≤ s.2 := by
  rw [List.exists_mem_cons_iff, isBlank, isSpace]
  simp [or_comm]

/-- Nothing but blanks at the ends is left out. -/
theorem exists_toList_trim (text : String) : ∃ before after, (∀ c ∈ before, isBlank c) ∧
    (∀ c ∈ after, isBlank c) ∧ text.toList = before ++ ((trim text).toList ++ after) := by
  obtain ⟨before, hbefore, htext⟩ := exists_dropWhile isBlank text.toList
  obtain ⟨after, hafter, hrest⟩ := exists_dropTrailing isBlank (text.toList.dropWhile isBlank)
  refine ⟨before, after, hbefore, hafter, ?_⟩
  rw [trim, String.toList_ofList, dropBlankEnd, ← hrest]
  exact htext

theorem toList_trim {text : String} {before core after : List Char} (hne : core ≠ [])
    (hbefore : ∀ c ∈ before, isBlank c) (hafter : ∀ c ∈ after, isBlank c)
    (hfirst : ∀ c ∈ core.head?, isBlank c = false)
    (hlast : ∀ c ∈ core.getLast?, isBlank c = false)
    (h : text.toList = before ++ (core ++ after)) : (trim text).toList = core := by
  have hhead : ∀ c ∈ (core ++ after).head?, isBlank c = false := by
    rwa [List.head?_append_of_ne_nil _ hne]
  rw [trim, String.toList_ofList, h, dropWhile_append_of_stop hbefore hhead]
  exact dropTrailing_append_of_stop hlast hafter

end TypedConfig.Text
