import TypedConfig.Proofs.Diff.Places

namespace TypedConfig.Diff

/-- The lesser one of two lists is the start of the other, or they part at some element. -/
theorem parts_of_lex {α : Type} {r : α → α → Prop} {p q : List α} (h : List.Lex r p q) :
    (∃ x rest, q = p ++ x :: rest) ∨
      ∃ above x y s t, r x y ∧ p = above ++ x :: s ∧ q = above ++ y :: t := by
  induction h with
  | nil => exact .inl ⟨_, _, rfl⟩
  | rel h => exact .inr ⟨[], _, _, _, _, h, rfl, rfl⟩
  | @cons a _ _ _ ih =>
      obtain ⟨x, rest, rfl⟩ | ⟨above, x, y, s, t, hxy, rfl, rfl⟩ := ih
      · exact .inl ⟨x, rest, rfl⟩
      · exact .inr ⟨a :: above, x, y, s, t, hxy, rfl, rfl⟩

theorem of_mem_pairwise {α : Type} {r s : α → α → Prop} (hasymm : ∀ a b, r a b → ¬ r b a)
    {xs : List α} (h : xs.Pairwise fun a b => r a b ∧ s a b) {a b : α} (ha : a ∈ xs) (hb : b ∈ xs)
    (hab : r a b) : s a b := by
  induction xs with
  | nil => cases ha
  | cons x xs ih =>
      obtain ⟨hx, hxs⟩ := List.pairwise_cons.1 h
      obtain rfl | ha' := List.mem_cons.1 ha
      · obtain rfl | hb' := List.mem_cons.1 hb
        · exact absurd hab (hasymm _ _ hab)
        · exact (hx b hb').2
      · obtain rfl | hb' := List.mem_cons.1 hb
        · exact absurd hab (hasymm _ _ (hx a ha').1)
        · exact ih hxs ha' hb'

theorem append_lt_append_iff (s t u : String) : s ++ t < s ++ u ↔ t < u := by
  rw [String.lt_iff, String.lt_iff, String.toList_append, String.toList_append]
  induction s.toList with
  | nil => rfl
  | cons c cs ih =>
      rw [List.cons_append, List.cons_append, List.cons_lt_cons_iff, ih,
        or_iff_right (Char.lt_irrefl c), and_iff_right rfl]

theorem empty_lt {s : String} (h : s ≠ "") : "" < s := by
  rw [String.lt_iff]
  cases htext : s.toList with
  | nil => exact absurd (String.toList_eq_nil_iff.1 htext) h
  | cons c cs => exact List.nil_lt_cons c cs

/-- Where a key does not start the greater key, what follows the two keys does not matter. -/
theorem starts_or_lt {key longer : String} (h : key < longer) :
    (∃ more, more ≠ "" ∧ longer = key ++ more) ∨ ∀ s t, key ++ s < longer ++ t := by
  obtain ⟨c, cs, hlonger⟩ | ⟨above, c, d, s, t, hcd, hkey, hlonger⟩ :=
    parts_of_lex (List.lex_lt.2 (String.lt_iff.1 h))
  · refine .inl ⟨String.ofList (c :: cs), by simp, String.toList_inj.1 ?_⟩
    rw [String.toList_append, String.toList_ofList, hlonger]
  · refine .inr fun s' t' => String.lt_iff.2 ?_
    rw [String.toList_append, String.toList_append, hkey, hlonger, List.append_assoc,
      List.append_assoc]
    exact List.append_left_lt (List.cons_lt_cons_iff.2 (.inl hcd))

def dotted (path : List String) : String :=
  String.join (path.map ("." ++ ·))

/-- What is printed of a path behind the text `outer`: no dot as long as nothing stands before
it. -/
def textBelow (outer : String) (path : List String) : String :=
  if outer.isEmpty then keyText "" path else dotted path

variable {outer key more : String} {above below beside path : List String}

theorem keyText_append (outer : String) (above path : List String) :
    keyText outer (above ++ path) = keyText (keyText outer above) path :=
  List.foldl_append

theorem exists_fullKey_eq (outer : String) : ∃ start, ∀ key, fullKey outer key = start ++ key := by
  by_cases h : outer.isEmpty
  · exact ⟨"", fun key => by rw [fullKey, if_pos h, String.empty_append]⟩
  · exact ⟨outer ++ ".", fun key => by rw [fullKey, if_neg h]⟩

theorem fullKey_append (outer key more : String) :
    fullKey outer (key ++ more) = fullKey outer key ++ more := by
  obtain ⟨start, h⟩ := exists_fullKey_eq outer
  rw [h, h, String.append_assoc]

theorem keyText_of_ne_empty (h : outer ≠ "") : keyText outer path = outer ++ dotted path := by
  induction path generalizing outer with
  | nil => exact String.append_empty.symm
  | cons key path ih =>
      have hfull : fullKey outer key = outer ++ ("." ++ key) := by
        rw [fullKey, if_neg (by simpa using h), String.append_assoc]
      have hne : fullKey outer key ≠ "" := by
        rw [hfull]
        intro hempty
        exact h (String.append_eq_empty_iff.1 hempty).1
      calc keyText outer (key :: path)
        _ = keyText (fullKey outer key) path := rfl
        _ = outer ++ ("." ++ key) ++ dotted path := by rw [ih hne, hfull]
        _ = outer ++ dotted (key :: path) := by
          rw [dotted, dotted, List.map_cons, String.join_cons, String.append_assoc]

theorem textBelow_of_ne_empty (h : outer ≠ "") : textBelow outer path = dotted path :=
  if_neg (by simpa using h)

theorem keyText_eq_append (outer : String) (path : List String) :
    keyText outer path = outer ++ textBelow outer path := by
  by_cases h : outer = ""
  · rw [h, String.empty_append]
    rfl
  · rw [keyText_of_ne_empty h, textBelow_of_ne_empty h]

theorem keyText_concat_ne_empty (h : key ≠ "") : keyText outer (above ++ [key]) ≠ "" := by
  obtain ⟨start, hstart⟩ := exists_fullKey_eq (keyText outer above)
  rw [keyText_append]
  change fullKey (keyText outer above) key ≠ ""
  rw [hstart]
  exact fun hempty => h (String.append_eq_empty_iff.1 hempty).2

theorem dotted_lt_of_after_dot (hbelow : below ≠ []) (hmore : more ≠ "")
    (h : ∀ x ∈ more.toList, '.' < x) : dotted below < more ++ dotted beside := by
  obtain ⟨key, below, rfl⟩ := List.exists_cons_of_ne_nil hbelow
  have hdots : (dotted (key :: below)).toList = '.' :: (key ++ dotted below).toList := by
    rw [dotted, List.map_cons, String.join_cons, String.append_assoc, String.toList_append]
    rfl
  have hrest : (more ++ dotted beside).toList = more.toList ++ (dotted beside).toList :=
    String.toList_append
  rw [String.lt_iff, hdots, hrest]
  cases htext : more.toList with
  | nil => exact absurd (String.toList_eq_nil_iff.1 htext) hmore
  | cons x rest =>
      have hx : '.' < x := h x (htext ▸ List.mem_cons_self)
      exact List.cons_lt_cons_iff.2 (.inl hx)

/-- Two paths that part at keys of which one starts with the other are compared by what is printed
behind the shorter key. -/
theorem keyText_lt_iff_of_starts (hmore : more ≠ "") :
    keyText outer (above ++ key :: below) < keyText outer (above ++ (key ++ more) :: beside) ↔
      textBelow (keyText outer (above ++ [key])) below < more ++ dotted beside := by
  have hkey : keyText outer (above ++ key :: below) =
      keyText (keyText outer (above ++ [key])) below := by
    rw [keyText_append, keyText_append]
    rfl
  have hlonger : keyText outer (above ++ (key ++ more) :: beside) =
      keyText outer (above ++ [key]) ++ (more ++ dotted beside) := by
    have hne : keyText outer (above ++ [key]) ++ more ≠ "" := by
      intro hempty
      exact hmore (String.append_eq_empty_iff.1 hempty).2
    rw [← String.append_assoc, ← keyText_of_ne_empty hne, keyText_append, keyText_append]
    exact congrArg (keyText · beside) (fullKey_append _ key more)
  rw [hkey, hlonger, keyText_eq_append, append_lt_append_iff]

theorem lex_of_starts (hmore : more ≠ "") :
    List.Lex (· < ·) (above ++ key :: below) (above ++ (key ++ more) :: beside) := by
  induction above with
  | nil =>
      refine .rel ?_
      calc key
        _ = key ++ "" := String.append_empty.symm
        _ < key ++ more := (append_lt_append_iff key "" more).2 (empty_lt hmore)
  | cons k above ih => exact .cons ih

theorem keyText_lt_of_parts {longer : String} (h : ∀ s t, key ++ s < longer ++ t) :
    keyText outer (above ++ key :: below) < keyText outer (above ++ longer :: beside) := by
  obtain ⟨start, hstart⟩ := exists_fullKey_eq (keyText outer above)
  have hcons (key : String) (path : List String) : keyText outer (above ++ key :: path) =
      start ++ (key ++ textBelow (start ++ key) path) := by
    rw [keyText_append, ← String.append_assoc, ← keyText_eq_append, ← hstart]
    rfl
  rw [hcons, hcons, append_lt_append_iff]
  exact h _ _

section

variable {left right : Option Value} {p q : List String} {c d : Change}

/-- Nothing is reported below a place that is reported. -/
theorem not_differsAt_below (h : DiffersAt left right p c) :
    ¬ DiffersAt left right (p ++ key :: path) d := by
  intro hbelow
  obtain ⟨⟨t, ht⟩, u, hu⟩ := hbelow.above p (List.prefix_append _ _) (by simp)
  have hhere := h.here
  rw [ht, hu] at hhere
  exact not_between_tables hhere

/-- The order of two places can be lost in print only where one stands below a key that starts the
other one's. -/
theorem keyText_lt_of_lex (hp : DiffersAt left right p c) (hq : DiffersAt left right q d)
    (hlex : List.Lex (· < ·) p q)
    (hstarts : ∀ above key more below beside, p = above ++ key :: below →
      q = above ++ (key ++ more) :: beside → below ≠ [] → more ≠ "" →
      textBelow (keyText outer (above ++ [key])) below < more ++ dotted beside) :
    keyText outer p < keyText outer q := by
  obtain ⟨key, rest, rfl⟩ | ⟨above, key, longer, below, beside, hlt, rfl, rfl⟩ := parts_of_lex hlex
  -- Nothing is reported below a reported place, so the paths part at two keys of one table.
  · exact absurd hq (not_differsAt_below hp)
  obtain ⟨more, hmore, rfl⟩ | hparts := starts_or_lt hlt
  · rw [keyText_lt_iff_of_starts hmore]
    by_cases hbelow : below = []
    · have hempty : textBelow (keyText outer (above ++ [key])) [] = "" := ite_self _
      rw [hbelow, hempty]
      exact empty_lt fun h => hmore (String.append_eq_empty_iff.1 h).1
    · exact hstarts above key more below beside rfl rfl hbelow hmore
  · exact keyText_lt_of_parts hparts

end

section

variable {first second : Table} (hfirst : first.KeysDistinct) (hsecond : second.KeysDistinct)
  (outer : String)

include hfirst hsecond

theorem keys_increase_iff_of_places :
    ((compare first second outer).map Entry.key).Pairwise (· < ·) ↔ ∀ p q c d,
      DiffersAt (some (.table first)) (some (.table second)) p c →
      DiffersAt (some (.table first)) (some (.table second)) q d →
      List.Lex (· < ·) p q → keyText outer p < keyText outer q := by
  obtain ⟨places, h⟩ := exists_places hfirst hsecond
  have hsorted := List.pairwise_map.1 h.sorted
  simp only [← h.mem_iff]
  rw [h.entries, List.map_map, List.pairwise_map]
  constructor
  · intro hincrease p q c d hp hq hlex
    have hasymm (a b : List String × Change) (hab : List.Lex (· < ·) a.1 b.1) :
        ¬ List.Lex (· < ·) b.1 a.1 := List.lex_asymm String.lt_asymm hab
    exact of_mem_pairwise hasymm (hsorted.and hincrease) hp hq hlex
  · intro hall
    refine hsorted.imp_of_mem fun ha hb hlex => ?_
    exact hall _ _ _ _ ha hb hlex

/-- The printed keys increase where no key that leads to a difference is empty or has a character
up to the dot. -/
theorem printed_keys_increase_of_plain
    (hplain : ∀ path c, DiffersAt (some (.table first)) (some (.table second)) path c →
      ∀ key ∈ path, key ≠ "" ∧ ∀ x ∈ key.toList, '.' < x) :
    ((compare first second outer).map Entry.key).Pairwise (· < ·) := by
  refine (keys_increase_iff_of_places hfirst hsecond outer).2 fun p q c d hp hq hlex => ?_
  refine keyText_lt_of_lex hp hq hlex ?_
  rintro above key more below beside rfl rfl hbelow hmore
  have hkey : key ≠ "" := (hplain _ _ hp key (by simp)).1
  have hlonger := (hplain _ _ hq (key ++ more) (by simp)).2
  rw [textBelow_of_ne_empty (keyText_concat_ne_empty hkey)]
  exact dotted_lt_of_after_dot hbelow hmore fun x hx => hlonger x (by simp [hx])

/-- The printed keys are in increasing order, and so distinct, exactly if this holds of all places
of which one is below a key that starts the key of the other: what is printed behind the shorter key
comes before what is printed there of the longer one. -/
theorem printed_keys_increase_iff :
    ((compare first second outer).map Entry.key).Pairwise (· < ·) ↔
      ∀ above key more below beside c d, below ≠ [] → more ≠ "" →
        DiffersAt (some (.table first)) (some (.table second)) (above ++ key :: below) c →
        DiffersAt (some (.table first)) (some (.table second))
          (above ++ (key ++ more) :: beside) d →
        textBelow (keyText outer (above ++ [key])) below < more ++ dotted beside := by
  rw [keys_increase_iff_of_places hfirst hsecond]
  constructor
  · intro h above key more below beside c d hbelow hmore hc hd
    exact (keyText_lt_iff_of_starts hmore).1 (h _ _ c d hc hd (lex_of_starts hmore))
  · intro h p q c d hp hq hlex
    refine keyText_lt_of_lex hp hq hlex ?_
    rintro above key more below beside rfl rfl hbelow hmore
    exact h above key more below beside c d hbelow hmore hp hq

end

def service : Table :=
  [("a", .table [("x", .integer 1), ("z", .table [])]), ("a_b", .integer 1), ("ab", .string "c")]

def serviceMoved : Table :=
  [("ab", .string "d"), ("a", .table [("z", .string ""), ("y", .boolean true)])]

theorem printed_keys_increase_services : service.KeysDistinct ∧ serviceMoved.KeysDistinct ∧
    ((compare service serviceMoved "").map Entry.key).Pairwise (· < ·) ∧
    ∀ above key more below beside c d, below ≠ [] → more ≠ "" →
      DiffersAt (some (.table service)) (some (.table serviceMoved)) (above ++ key :: below) c →
      DiffersAt (some (.table service)) (some (.table serviceMoved))
        (above ++ (key ++ more) :: beside) d →
      textBelow (keyText "" (above ++ [key])) below < more ++ dotted beside := by
  have hservice : service.KeysDistinct := by decide
  have hmoved : serviceMoved.KeysDistinct := by decide
  have hkeys : (compare service serviceMoved "").map Entry.key =
      ["a.x", "a.y", "a.z", "a_b", "ab"] := rfl
  have hincrease : ((compare service serviceMoved "").map Entry.key).Pairwise (· < ·) := by
    rw [hkeys]
    decide
  exact ⟨hservice, hmoved, hincrease, (printed_keys_increase_iff hservice hmoved "").1 hincrease⟩

def hyphenated : Table :=
  [("a", .table [("x", .integer 1)]), ("a-b", .integer 1)]

theorem not_all_printed_keys_increase : ¬ ∀ first second : Table, first.KeysDistinct →
    second.KeysDistinct → ((compare first second "").map Entry.key).Pairwise (· < ·) := by
  intro h
  have hfirst : hyphenated.KeysDistinct := by decide
  have hsecond : Table.KeysDistinct [("a", .table [])] := by decide
  have hkeys : (compare hyphenated [("a", .table [])] "").map Entry.key = ["a.x", "a-b"] := rfl
  have hincrease := h hyphenated [("a", .table [])] hfirst hsecond
  rw [hkeys] at hincrease
  have hsorted : ¬ ["a.x", "a-b"].Pairwise (· < ·) := by decide
  exact hsorted hincrease

end TypedConfig.Diff
