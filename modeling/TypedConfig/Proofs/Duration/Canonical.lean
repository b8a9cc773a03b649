import TypedConfig.Proofs.Duration.Literal
import Mathlib.Data.List.Chain
import Mathlib.Data.List.Sort

namespace TypedConfig.Duration

def Unit.perLonger? : Unit → Option ℕ
  | .hour => none
  | .minute | .second => some 60
  | .millisecond | .microsecond | .nanosecond => some 1000

def Unit.Longer (u v : Unit) : Prop :=
  v.nanoseconds < u.nanoseconds

def Unit.IsNext (u v : Unit) : Prop :=
  ∃ n ∈ v.perLonger?, u.nanoseconds = n * v.nanoseconds

/-- The units get shorter, and there is at least one of each but too few for a longer one. -/
structure Canonical (ps : List Part) : Prop where
  shorter : (ps.map Part.unit).Pairwise Unit.Longer
  positive : ∀ p ∈ ps, 1 ≤ p.count
  few : ∀ p ∈ ps, ∀ n ∈ p.unit.perLonger?, p.count < n

variable {us : List Unit} {ps : List Part}

theorem isChain_units : units.IsChain Unit.IsNext := by
  have hratio (n : ℕ) (u v : Unit) (hn : v.perLonger? = some n)
      (h : u.nanoseconds = n * v.nanoseconds) : u.IsNext v := ⟨n, hn, h⟩
  simp only [units, List.isChain_cons_cons, List.isChain_singleton, and_true]
  exact ⟨hratio 60 _ _ rfl rfl, hratio 60 _ _ rfl rfl, hratio 1000 _ _ rfl rfl,
    hratio 1000 _ _ rfl rfl, hratio 1000 _ _ rfl rfl⟩

theorem pairwise_units : units.Pairwise Unit.Longer := by
  unfold Unit.Longer
  decide

/-- There are no units but the six, so a list of them that get shorter leaves some of these out. -/
theorem sublist_units (h : us.Pairwise Unit.Longer) : us.Sublist units := by
  have hantisymm : Std.Antisymm Unit.Longer := ⟨fun _ _ h h' => absurd h (Nat.lt_asymm h')⟩
  have hnodup : us.Nodup := h.imp fun hlonger => by
    rintro rfl
    exact Nat.lt_irrefl _ hlonger
  have hsubset : us ⊆ units := fun u _ => by cases u <;> decide
  exact List.sublist_of_subperm_of_pairwise (List.subperm_of_subset hnodup hsubset) h pairwise_units

theorem Unit.IsNext.nanoseconds_le {u v : Unit} (h : u.IsNext v) :
    v.nanoseconds ≤ u.nanoseconds := by
  obtain ⟨n, hn, heq⟩ := h
  have hpos : 0 < n := by
    cases v <;> simp [perLonger?] at hn <;> omega
  exact heq ▸ Nat.le_mul_of_pos_left _ hpos

theorem Canonical.tail {p : Part} (h : Canonical (p :: ps)) : Canonical ps :=
  ⟨(List.pairwise_cons.1 h.shorter).2, (List.forall_mem_cons.1 h.positive).2,
    (List.forall_mem_cons.1 h.few).2⟩

theorem Canonical.sum_nonneg (h : Canonical ps) : 0 ≤ (ps.map Part.nanoseconds).sum :=
  Part.sum_nanoseconds_nonneg fun p hp => Int.le_of_lt (h.positive p hp)

/-- Parts of shorter units do not add up to a longer one. -/
theorem Canonical.sum_lt {u : Unit} (h : Canonical ps) (hchain : (u :: us).IsChain Unit.IsNext)
    (hunits : (ps.map Part.unit).Sublist us) : (ps.map Part.nanoseconds).sum < u.nanoseconds := by
  induction us generalizing u ps with
  | nil =>
      obtain rfl := List.map_eq_nil_iff.1 (List.sublist_nil.1 hunits)
      exact Int.natCast_pos.2 u.nanoseconds_pos
  | cons v us ih =>
      obtain ⟨hnext, hchain⟩ := List.isChain_cons_cons.1 hchain
      obtain hunits | ⟨rest, hrest, hunits⟩ := List.sublist_cons_iff.1 hunits
      · exact (ih h hchain hunits).trans_le (Int.ofNat_le.2 hnext.nanoseconds_le)
      · obtain ⟨p, ps, rfl, rfl, rfl⟩ := List.map_eq_cons_iff.1 hrest
        obtain ⟨n, hn, hu⟩ := hnext
        have hsum := ih h.tail hchain hunits
        have hcount : p.count + 1 ≤ n := h.few p List.mem_cons_self n hn
        calc ((p :: ps).map Part.nanoseconds).sum
          _ = p.count * p.unit.nanoseconds + (ps.map Part.nanoseconds).sum := by
            rw [List.map_cons, List.sum_cons, Part.nanoseconds]
          _ < p.count * p.unit.nanoseconds + p.unit.nanoseconds := by omega
          _ = (p.count + 1) * p.unit.nanoseconds := by rw [add_mul, one_mul]
          _ ≤ n * p.unit.nanoseconds := Int.mul_le_mul_of_nonneg_right hcount (Int.natCast_nonneg _)
          _ = u.nanoseconds := by rw [hu, Int.natCast_mul]

/-- Each unit is taken as often as it stands in the parts, since the rest is less than it. -/
theorem Canonical.decompose_sum (h : Canonical ps) (hchain : us.IsChain Unit.IsNext)
    (hunits : (ps.map Part.unit).Sublist us) : decompose us (ps.map Part.nanoseconds).sum = ps := by
  induction us generalizing ps with
  | nil =>
      obtain rfl := List.map_eq_nil_iff.1 (List.sublist_nil.1 hunits)
      rfl
  | cons u us ih =>
      have htail := (List.isChain_cons.1 hchain).2
      -- Either no part has this unit, and their sum is less than one of it, or the first part has.
      obtain hunits | ⟨rest, hrest, hunits⟩ := List.sublist_cons_iff.1 hunits
      · have hsum := h.sum_lt hchain hunits
        rw [decompose, Int.ediv_eq_zero_of_lt h.sum_nonneg hsum,
          Int.emod_eq_of_lt h.sum_nonneg hsum, ih h htail hunits, if_pos rfl]
      · obtain ⟨p, ps, rfl, rfl, rfl⟩ := List.map_eq_cons_iff.1 hrest
        have hsum := h.tail.sum_lt hchain hunits
        have hunit : (p.unit.nanoseconds : ℤ) ≠ 0 := by
          have := p.unit.nanoseconds_pos
          omega
        have hcount : p.count ≠ 0 := by
          have := h.positive p List.mem_cons_self
          omega
        have hdiv : ((p :: ps).map Part.nanoseconds).sum / p.unit.nanoseconds = p.count := by
          rw [List.map_cons, List.sum_cons, Part.nanoseconds, add_comm,
            Int.add_mul_ediv_right _ _ hunit, Int.ediv_eq_zero_of_lt h.tail.sum_nonneg hsum,
            zero_add]
        have hmod : ((p :: ps).map Part.nanoseconds).sum % p.unit.nanoseconds =
            (ps.map Part.nanoseconds).sum := by
          rw [List.map_cons, List.sum_cons, Part.nanoseconds, add_comm,
            Int.add_mul_emod_self_right, Int.emod_eq_of_lt h.tail.sum_nonneg hsum]
        rw [decompose, hdiv, hmod, ih h.tail htail hunits, if_neg hcount]

theorem map_unit_decompose (us : List Unit) (n : ℤ) :
    ((decompose us n).map Part.unit).Sublist us := by
  induction us generalizing n with
  | nil => exact List.Sublist.refl _
  | cons u us ih =>
      rw [decompose]
      split
      · exact (ih _).cons u
      · exact (ih _).cons_cons u

theorem count_ne_zero (us : List Unit) (n : ℤ) : ∀ p ∈ decompose us n, p.count ≠ 0 := by
  induction us generalizing n with
  | nil => simp [decompose]
  | cons u us ih =>
      rw [decompose]
      split
      · exact ih _
      · next hcount => exact List.forall_mem_cons.2 ⟨hcount, ih _⟩

/-- What a unit leaves is too little for it, and so are the parts of the next shorter one. -/
theorem few_decompose (hchain : us.IsChain Unit.IsNext) {n : ℤ}
    (hfirst : ∀ u ∈ us.head?, ∀ k ∈ u.perLonger?, n < k * u.nanoseconds) :
    ∀ p ∈ decompose us n, ∀ k ∈ p.unit.perLonger?, p.count < k := by
  induction us generalizing n with
  | nil => simp [decompose]
  | cons u us ih =>
      obtain ⟨hnext, htail⟩ := List.isChain_cons.1 hchain
      have hu : (0 : ℤ) < u.nanoseconds := Int.natCast_pos.2 u.nanoseconds_pos
      have hrest : ∀ v ∈ us.head?, ∀ k ∈ v.perLonger?,
          n % u.nanoseconds < k * v.nanoseconds := by
        intro v hv k hk
        obtain ⟨l, hl, heq⟩ := hnext v hv
        obtain rfl := Option.mem_unique hk hl
        calc n % u.nanoseconds
          _ < u.nanoseconds := Int.emod_lt_of_pos n hu
          _ = k * v.nanoseconds := by rw [heq, Int.natCast_mul]
      rw [decompose]
      split
      · exact ih htail hrest
      · refine List.forall_mem_cons.2 ⟨fun k hk => ?_, ih htail hrest⟩
        exact Int.ediv_lt_of_lt_mul hu (hfirst u rfl k hk)

theorem canonical_parts (n : ℕ) : Canonical (parts n) := by
  have hnonneg : ∀ p ∈ parts n, 0 ≤ p.count := count_nonneg (Int.natCast_nonneg n)
  have hne : ∀ p ∈ parts n, p.count ≠ 0 := count_ne_zero units n
  refine ⟨pairwise_units.sublist (map_unit_decompose units n), fun p hp => ?_, ?_⟩
  · have := hnonneg p hp
    have := hne p hp
    omega
  · refine few_decompose isChain_units ?_
    rintro _ ⟨⟩ k hk
    cases hk

/-- The greedy parts are the only canonical ones that add up to the duration. -/
theorem parts_eq_iff_canonical (n : ℕ) (ps : List Part) :
    parts n = ps ↔ Canonical ps ∧ (ps.map Part.nanoseconds).sum = n := by
  constructor
  · rintro rfl
    exact ⟨canonical_parts n, sum_decompose (by decide) n⟩
  · rintro ⟨h, hsum⟩
    rw [parts, ← hsum]
    exact h.decompose_sum isChain_units (sublist_units h.shorter)

end TypedConfig.Duration
