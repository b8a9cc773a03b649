import TypedConfig.Proofs.Outcome
import TypedConfig.Proofs.Value.Keys
import TypedConfig.Toml.Document

namespace TypedConfig.Toml

theorem keysDistinct_addNew {t u : Table} {key : String} {v : Value} (hv : v.KeysDistinct)
    (ht : t.KeysDistinct) (h : addNew key v t = some u) : u.KeysDistinct := by
  unfold addNew at h
  split at h
  · next hnew =>
    obtain rfl := Option.some.inj h
    exact ht.append hnew hv
  · cases h

theorem keysDistinct_appendTable {t u : Table} {key : String} (ht : t.KeysDistinct)
    (h : appendTable key t = some u) : u.KeysDistinct := by
  have hempty : (Value.table []).KeysDistinct := Table.keysDistinct_nil
  unfold appendTable at h
  split at h
  · next hnew =>
    obtain rfl := Option.some.inj h
    exact ht.append hnew (Value.keysDistinct_array.2 (List.forall_mem_singleton.2 hempty))
  · next items hkey =>
    obtain rfl := Option.some.inj h
    have hitems := Value.keysDistinct_array.1 (ht.of_mem (Table.mem_of_lookup hkey))
    exact ht.insert (Value.keysDistinct_array.2
      (List.forall_mem_append.2 ⟨hitems, List.forall_mem_singleton.2 hempty⟩))
  · cases h

/-- What a change keeps of the table that it changes, it keeps of the whole tree. -/
theorem keysDistinct_modifyAt {throughArrays : Bool} {change : Table → Option Table}
    (hchange : ∀ {t u}, Table.KeysDistinct t → change t = some u → Table.KeysDistinct u)
    {path : Path} {t u : Table} (ht : t.KeysDistinct)
    (h : modifyAt throughArrays change path t = some u) : u.KeysDistinct := by
  induction path generalizing t u with
  | nil => exact hchange ht h
  | cons key path ih =>
      rw [modifyAt] at h
      split at h
      · obtain ⟨child, hchild, h⟩ := Option.bind_eq_some_iff.1 h
        obtain rfl := Option.some.inj h
        exact ht.insert (ih Table.keysDistinct_nil hchild)
      · next below hkey =>
        obtain ⟨child, hchild, h⟩ := Option.bind_eq_some_iff.1 h
        obtain rfl := Option.some.inj h
        exact ht.insert (ih (ht.of_mem (Table.mem_of_lookup hkey)) hchild)
      · next items hkey =>
        have hitems := Value.keysDistinct_array.1 (ht.of_mem (Table.mem_of_lookup hkey))
        split at h
        · next below hlast =>
          obtain ⟨child, hchild, h⟩ := Option.bind_eq_some_iff.1 h
          obtain rfl := Option.some.inj h
          have hbelow := hitems _ (List.mem_of_getLast? hlast)
          refine ht.insert (Value.keysDistinct_array.2 (List.forall_mem_append.2 ⟨?_, ?_⟩))
          · exact fun v hv => hitems v (List.dropLast_subset items hv)
          · exact List.forall_mem_singleton.2 (ih hbelow hchild)
        · cases h
      · cases h

def FindsScalars (scan : List Char → Option (Except DecodeError (Value × List Char))) : Prop :=
  ∀ cs v rest, scan cs = some (.ok (v, rest)) → v.KeysDistinct

theorem findsScalars_boolean : FindsScalars boolean := by
  intro cs v rest h
  unfold boolean at h
  split at h
  · cases h
    trivial
  · cases h
    trivial
  · cases h

theorem findsScalars_dateOrStamp : FindsScalars dateOrStamp := by
  intro cs v rest h
  obtain ⟨⟨date, behind⟩, -, h⟩ := Option.bind_eq_some_iff.1 h
  dsimp only at h
  split at h
  · cases h
  · split at h
    · cases h
      trivial
    · split at h
      · cases h
        trivial
      · cases h
        trivial

theorem findsScalars_clockValue : FindsScalars clockValue := by
  intro cs v rest h
  obtain ⟨_, -, h⟩ := Option.map_eq_some_iff.1 h
  cases h
  trivial

theorem findsScalars_decimalNumber : FindsScalars decimalNumber := by
  intro cs v rest h
  unfold decimalNumber at h
  dsimp only at h
  split at h
  · cases h
  · split at h
    · split at h
      · cases h
        trivial
      · cases h
    · cases h
      trivial

theorem findsScalars_number : FindsScalars number := by
  intro cs v rest h
  unfold number at h
  split at h
  · cases h
    trivial
  · exact findsScalars_decimalNumber _ _ _ h

theorem findsScalars_specialFloat : FindsScalars specialFloat := by
  intro cs v rest h
  unfold specialFloat at h
  dsimp only at h
  split at h
  · cases h
    trivial
  · cases h
    trivial
  · cases h

theorem FindsScalars.orElse {first second} (hfirst : FindsScalars first)
    (hsecond : FindsScalars second) : FindsScalars fun cs => first cs <|> second cs := by
  intro cs v rest h
  change (first cs <|> second cs) = _ at h
  cases hscan : first cs with
  | none =>
      rw [hscan] at h
      exact hsecond _ _ _ h
  | some result =>
      rw [hscan] at h
      exact hfirst _ _ _ (hscan.trans h)

theorem keysDistinct_scalar {cs rest : List Char} {v : Value} (h : scalar cs = .ok (v, rest)) :
    v.KeysDistinct := by
  have hfinds := findsScalars_boolean.orElse (findsScalars_dateOrStamp.orElse
    (findsScalars_clockValue.orElse (findsScalars_number.orElse findsScalars_specialFloat)))
  obtain h | ⟨-, h⟩ := Option.getD_eq_iff.1 h
  · exact hfinds _ _ _ h
  · cases h

structure ReadsDistinct (fuel : Nat) : Prop where
  value : ∀ {cs v rest}, value fuel cs = .ok (v, rest) → v.KeysDistinct
  arrayItems : ∀ {cs items rest}, arrayItems fuel cs = .ok (items, rest) →
    ∀ v ∈ items, v.KeysDistinct
  inlineEntries : ∀ {t sealedPaths cs u rest}, Table.KeysDistinct t →
    inlineEntries fuel t sealedPaths cs = .ok (u, rest) → Table.KeysDistinct u
  keyValue : ∀ {cs path v rest}, keyValue fuel cs = .ok ((path, v), rest) → v.KeysDistinct

namespace ReadsDistinct

variable {fuel : Nat} {cs rest : List Char} {v : Value}

theorem value_succ (h : ReadsDistinct fuel) (hread : Toml.value (fuel + 1) cs = .ok (v, rest)) :
    v.KeysDistinct := by
  have hstring {text : Except DecodeError (String × List Char)}
      (hread : (text >>= fun read => pure (Value.string read.1, read.2)) = .ok (v, rest)) :
      v.KeysDistinct := by
    obtain ⟨_, -, hread⟩ := except_bind_eq_ok_iff.1 hread
    cases hread
    trivial
  unfold Toml.value at hread
  split at hread
  · cases hread
  · exact hstring hread
  · exact hstring hread
  · exact hstring hread
  · exact hstring hread
  · next hfuel =>
    obtain rfl := Nat.succ.inj hfuel
    obtain ⟨⟨items, behind⟩, hitems, hread⟩ := except_bind_eq_ok_iff.1 hread
    cases hread
    exact Value.keysDistinct_array.2 (h.arrayItems hitems)
  · next hfuel =>
    obtain rfl := Nat.succ.inj hfuel
    split at hread
    · cases hread
      exact Table.keysDistinct_nil
    · obtain ⟨⟨entries, behind⟩, hentries, hread⟩ := except_bind_eq_ok_iff.1 hread
      cases hread
      exact h.inlineEntries Table.keysDistinct_nil hentries
  · exact keysDistinct_scalar hread

theorem arrayItems_succ (h : ReadsDistinct fuel) {items : List Value}
    (hread : Toml.arrayItems (fuel + 1) cs = .ok (items, rest)) : ∀ v ∈ items, v.KeysDistinct := by
  rw [Toml.arrayItems] at hread
  obtain ⟨start, -, hread⟩ := except_bind_eq_ok_iff.1 hread
  split at hread
  · cases hread
    exact List.forall_mem_nil _
  · obtain ⟨⟨item, behind⟩, hitem, hread⟩ := except_bind_eq_ok_iff.1 hread
    obtain ⟨start, -, hread⟩ := except_bind_eq_ok_iff.1 hread
    split at hread
    · cases hread
      exact List.forall_mem_singleton.2 (h.value hitem)
    · obtain ⟨⟨others, behind⟩, hothers, hread⟩ := except_bind_eq_ok_iff.1 hread
      cases hread
      exact List.forall_mem_cons.2 ⟨h.value hitem, h.arrayItems hothers⟩
    · cases hread

theorem keyValue_succ (h : ReadsDistinct fuel) {path : Path}
    (hread : Toml.keyValue (fuel + 1) cs = .ok ((path, v), rest)) : v.KeysDistinct := by
  rw [Toml.keyValue] at hread
  obtain ⟨⟨path, behind⟩, -, hread⟩ := except_bind_eq_ok_iff.1 hread
  dsimp only at hread
  split at hread
  · obtain ⟨⟨item, behind⟩, hitem, hread⟩ := except_bind_eq_ok_iff.1 hread
    cases hread
    exact h.value hitem
  · cases hread

theorem inlineEntries_succ (h : ReadsDistinct fuel) {t u : Table} {sealedPaths : List Path}
    (ht : t.KeysDistinct)
    (hread : Toml.inlineEntries (fuel + 1) t sealedPaths cs = .ok (u, rest)) : u.KeysDistinct := by
  rw [Toml.inlineEntries] at hread
  obtain ⟨⟨⟨path, item⟩, behind⟩, hitem, hread⟩ := except_bind_eq_ok_iff.1 hread
  dsimp only at hread
  split at hread
  · cases hread
  · split at hread
    · cases hread
    · next more hadd =>
      have hmore := keysDistinct_modifyAt (keysDistinct_addNew (h.keyValue hitem)) ht hadd
      split at hread
      · cases hread
        exact hmore
      · exact h.inlineEntries hmore hread
      · cases hread

end ReadsDistinct

theorem readsDistinct (fuel : Nat) : ReadsDistinct fuel := by
  -- The four readers call one another, always with one less.
  induction fuel with
  | zero =>
      refine ⟨fun h => ?_, fun h => ?_, fun _ h => ?_, fun h => ?_⟩
      · rw [value] at h
        cases h
      · rw [arrayItems] at h
        cases h
      · rw [inlineEntries] at h
        cases h
      · rw [keyValue] at h
        cases h
  | succ fuel ih =>
      exact ⟨ih.value_succ, ih.arrayItems_succ, ih.inlineEntries_succ, ih.keyValue_succ⟩

namespace Progress

variable {p q : Progress} {path : Path} {v : Value}

theorem keysDistinct_addEntry (hp : p.root.KeysDistinct) (hv : v.KeysDistinct)
    (h : p.addEntry path v = some q) : q.root.KeysDistinct := by
  unfold addEntry at h
  dsimp only at h
  split at h
  · cases h
  · obtain ⟨root, hroot, rfl⟩ := Option.map_eq_some_iff.1 h
    exact keysDistinct_modifyAt (keysDistinct_addNew hv) hp hroot

theorem keysDistinct_openHeader (hp : p.root.KeysDistinct) (h : p.openHeader path = some q) :
    q.root.KeysDistinct := by
  unfold openHeader at h
  split at h
  · cases h
  · obtain ⟨root, hroot, rfl⟩ := Option.map_eq_some_iff.1 h
    exact keysDistinct_modifyAt (fun ht h => Option.some.inj h ▸ ht) hp hroot

theorem keysDistinct_appendHeader (hp : p.root.KeysDistinct) (h : p.appendHeader path = some q) :
    q.root.KeysDistinct := by
  unfold appendHeader at h
  split at h
  · cases h
  · obtain ⟨root, hroot, rfl⟩ := Option.map_eq_some_iff.1 h
    exact keysDistinct_modifyAt keysDistinct_appendTable hp hroot

end Progress

variable {p q : Progress} {cs rest : List Char}

theorem keysDistinct_header (hp : p.root.KeysDistinct) (h : header p cs = .ok (q, rest)) :
    q.root.KeysDistinct := by
  unfold header at h
  dsimp only at h
  split at h
  · obtain ⟨⟨path, behind⟩, -, h⟩ := except_bind_eq_ok_iff.1 h
    dsimp only at h
    split at h
    · next happend =>
      cases h
      exact Progress.keysDistinct_appendHeader (p := p.closeSection) hp happend
    · cases h
  · obtain ⟨⟨path, behind⟩, -, h⟩ := except_bind_eq_ok_iff.1 h
    dsimp only at h
    split at h
    · next hopen =>
      cases h
      exact Progress.keysDistinct_openHeader (p := p.closeSection) hp hopen
    · cases h

theorem keysDistinct_statement {fuel : Nat} (hp : p.root.KeysDistinct)
    (h : statement fuel p cs = .ok (q, rest)) : q.root.KeysDistinct := by
  unfold statement at h
  split at h
  · exact keysDistinct_header hp h
  · obtain ⟨⟨⟨path, item⟩, behind⟩, hitem, h⟩ := except_bind_eq_ok_iff.1 h
    dsimp only at h
    split at h
    · next hadd =>
      cases h
      exact Progress.keysDistinct_addEntry hp ((readsDistinct fuel).keyValue hitem) hadd
    · cases h

theorem keysDistinct_statements {fuel : Nat} (hp : p.root.KeysDistinct)
    (h : statements fuel p cs = .ok q) : q.root.KeysDistinct := by
  induction fuel generalizing p cs with
  | zero => cases h
  | succ fuel ih =>
      -- Blank lines and statements go on alike behind their line ends.
      have hnext {p : Progress} {cs : List Char} {k : Option (List Char) → Except _ Progress}
          (hp : p.root.KeysDistinct) (h : endLine cs >>= k = .ok q) (hend : k none = pure p)
          (hmore : ∀ rest, k (some rest) = statements fuel p rest) : q.root.KeysDistinct := by
        obtain ⟨next, -, h⟩ := except_bind_eq_ok_iff.1 h
        cases next with
        | none =>
            rw [hend] at h
            cases h
            exact hp
        | some rest =>
            rw [hmore] at h
            exact ih hp h
      unfold statements at h
      dsimp only at h
      split at h
      · exact hnext hp h rfl fun _ => rfl
      · exact hnext hp h rfl fun _ => rfl
      · exact hnext hp h rfl fun _ => rfl
      · obtain ⟨⟨between, behind⟩, hbetween, h⟩ := except_bind_eq_ok_iff.1 h
        exact hnext (keysDistinct_statement hp hbetween) h rfl fun _ => rfl

/-- A document states no key of a table twice. -/
theorem keysDistinct_decode {text : String} {tree : Table} (h : decode text = .ok tree) :
    tree.KeysDistinct := by
  obtain ⟨p, hp, h⟩ := except_bind_eq_ok_iff.1 h
  cases h
  exact keysDistinct_statements Table.keysDistinct_nil hp

end TypedConfig.Toml
