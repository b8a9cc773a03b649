import TypedConfig.Proofs.Diff.Keys

namespace TypedConfig.Diff

def Change.swap : Change → Change
  | .changed first second => .changed second first
  | .added second => .removed second
  | .removed first => .added first

def Entry.swap (e : Entry) : Entry :=
  ⟨e.key, e.change.swap⟩

theorem compareValue_swap_of_not_tables {left right : Value} (full : String)
    (h : left.isTable = false ∨ right.isTable = false) (hleft : left.KeysDistinct)
    (hright : right.KeysDistinct) :
    compareValue full right (some left) = (compareValue full left (some right)).map Entry.swap := by
  rw [compareValue_of_not_tables full h.symm, compareValue_of_not_tables full h,
    Value.equal_comm hright hleft]
  split <;> rfl

/-- Tables are compared key by key, so it is enough to exchange the sides at every key that both of
them have. -/
theorem compare_swap_of_common {first second : Table} (outer : String)
    (hfirst : first.KeysDistinct) (hsecond : second.KeysDistinct)
    (h : ∀ e ∈ first, ∀ (full : String) (right : Value), right.KeysDistinct →
      compareValue full right (some e.2) = (compareValue full e.2 (some right)).map Entry.swap) :
    compare second first outer = (compare first second outer).map Entry.swap := by
  rw [compare_eq_flatMap hfirst hsecond, compare_eq_flatMap hsecond hfirst,
    sortedKeys_comm hfirst hsecond, List.map_flatMap]
  congr 1
  funext key
  rw [changesAt, changesAt]
  cases hleft : first.lookup key with
  | none =>
      cases second.lookup key with
      | none => rfl
      | some right => exact compareValue_none _ right
  | some left =>
      cases hright : second.lookup key with
      | none =>
          dsimp only
          rw [compareValue_none]
          rfl
      | some right =>
          exact h (key, left) (Table.mem_of_lookup hleft) _ right
            (hsecond.of_mem (Table.mem_of_lookup hright))

mutual

theorem compareValue_swap : ∀ {left right : Value} (full : String), left.KeysDistinct →
    right.KeysDistinct →
    compareValue full right (some left) = (compareValue full left (some right)).map Entry.swap
  | .table first, right, full, hfirst, hright => by
      cases right with
      | table second =>
          exact compare_swap_of_common full hfirst hright (compareValue_swap_entries hfirst.2)
      | _ => exact compareValue_swap_of_not_tables full (.inr rfl) hfirst hright
  | .string _, _, full, hleft, hright | .integer _, _, full, hleft, hright
  | .float _, _, full, hleft, hright | .boolean _, _, full, hleft, hright
  | .moment _, _, full, hleft, hright | .array _, _, full, hleft, hright
  | .absent, _, full, hleft, hright =>
      compareValue_swap_of_not_tables full (.inl rfl) hleft hright

theorem compareValue_swap_entries : ∀ {entries : Table}, Value.EntryKeysDistinct entries →
    ∀ e ∈ entries, ∀ (full : String) (right : Value), right.KeysDistinct →
      compareValue full right (some e.2) = (compareValue full e.2 (some right)).map Entry.swap
  | [], _, _, he, _, _, _ => nomatch he
  | (_, v) :: entries, ⟨hv, hentries⟩, e, he, full, right, hright => by
      obtain rfl | he := List.mem_cons.1 he
      · exact compareValue_swap full hv hright
      · exact compareValue_swap_entries hentries e he full right hright

end

/-- Comparing the other way round exchanges what was added and what was removed, and the two values
of what was changed. -/
theorem compare_swap {first second : Table} (hfirst : first.KeysDistinct)
    (hsecond : second.KeysDistinct) (outer : String) :
    compare second first outer = (compare first second outer).map Entry.swap :=
  compare_swap_of_common outer hfirst hsecond (compareValue_swap_entries hfirst.2)

def staging : Table :=
  [("server", .table [("port", .integer 80), ("tls", .boolean true), ("limit", .float .nan)]),
    ("debug", .boolean true), ("cache", .table [])]

def production : Table :=
  [("cache", .string "10s"), ("debug", .integer 1),
    ("server", .table [("limit", .float .nan), ("tls", .table [("cert", .string "file:cert.pem")]),
      ("hosts", .array [.table [("name", .string "a")]])])]

theorem compare_swap_deployments : staging.KeysDistinct ∧ production.KeysDistinct ∧
    compare production staging "app" = (compare staging production "app").map Entry.swap := by
  have hstaging : staging.KeysDistinct := by decide
  have hproduction : production.KeysDistinct := by decide
  exact ⟨hstaging, hproduction, compare_swap hstaging hproduction "app"⟩

end TypedConfig.Diff
