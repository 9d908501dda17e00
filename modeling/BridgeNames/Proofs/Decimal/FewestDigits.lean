import BridgeNames.Decimal.Double

/-!
# The fewest digits read back

The decimal that `BridgeNames.Decimal.Binary.shortest` finds is rounded to the number that it stands
for, so whoever reads it has the number back. No coarser grid has a point of which that is true, and
no point of the same grid is nearer (`BridgeNames.Decimal.Binary.IsDouble.rounds_shortest`).

The search looks at two points of a grid and at finitely many grids. The rest need not be looked at:

| what is left out | why it does not matter |
|---|---|
| the other points of a grid | a neighbour is nearer, and rounded to the number if they are |
| coarser grids | their points are greater than every double |
| finer grids | the last grid is finer than the distance of any two doubles |

That numbers have a distance at all (`BridgeNames.Decimal.Binary.quarterStep_pos`) counts in the
first of these already: the interval is open where the mantissa is odd, and a neighbour may be the
number.
-/

namespace BridgeNames.Decimal

theorem posPow_pos {base : Nat} (h : 0 < base) (exponent : Int) : 0 < posPow base exponent :=
  Nat.pow_pos h

theorem posPow_mono {base : Nat} (h : 0 < base) {e e' : Int} (hle : e ≤ e') :
    posPow base e ≤ posPow base e' :=
  Nat.pow_le_pow_right h (Int.toNat_le_toNat hle)

/-- A search through the first numbers finds the least that has something. -/
theorem least_of_findSome?_range {α : Type} {f : Nat → Option α} {n : Nat} {a : α}
    (h : (List.range n).findSome? f = some a) :
    ∃ i, f i = some a ∧ ∀ j, j < i → f j = none := by
  obtain ⟨before, i, after, hrange, hi, hbefore⟩ := List.findSome?_eq_some_iff.mp h
  refine ⟨i, hi, fun j hj => ?_⟩
  have hsorted : (before ++ i :: after).Pairwise (· < ·) := hrange ▸ List.pairwise_lt_range
  have hin : i ∈ List.range n := by
    rw [hrange]
    exact List.mem_append_right before List.mem_cons_self
  have hmem : j ∈ before ++ i :: after := by
    rw [← hrange]
    exact List.mem_range.mpr (Nat.lt_trans hj (List.mem_range.mp hin))
  rcases List.mem_append.mp hmem with hearlier | hlater
  · exact hbefore j hearlier
  · -- the numbers go up, so what comes after the found one is greater
    obtain ⟨hafter, -⟩ := List.pairwise_cons.mp (List.pairwise_append.mp hsorted).2.1
    rcases List.mem_cons.mp hlater with rfl | hlater
    · exact absurd hj (Nat.lt_irrefl j)
    · exact absurd (hafter j hlater) (Nat.lt_asymm hj)

namespace Binary

variable {b : Binary} {grid : Int} {point other : Nat}

/-! ### What is rounded to a number -/

theorem unit_pos (b : Binary) (grid : Int) : 0 < (b.onGrid grid).2 :=
  Nat.mul_pos (Nat.mul_pos (by decide) (posPow_pos (by decide) _)) (posPow_pos (by decide) _)

theorem quarterStep_pos (b : Binary) (grid : Int) : 0 < b.quarterStep grid :=
  Nat.mul_pos (posPow_pos (by decide) _) (posPow_pos (by decide) _)

/-- The number in quarters of the distance to the next one. -/
theorem number_eq (b : Binary) (grid : Int) :
    (b.onGrid grid).1 = 4 * b.mantissa * b.quarterStep grid := by
  rw [onGrid, quarterStep, Nat.mul_comm b.mantissa 4, Nat.mul_assoc (4 * b.mantissa)]

/-- **What is rounded to a number is an interval around it**, and its ends belong to it if the
mantissa is even. It reaches at least a quarter of the distance of two numbers downwards, and half of
it upwards. -/
theorem exists_rounds_iff (b : Binary) (grid : Int) :
    ∃ below, b.quarterStep grid ≤ below ∧ ∀ point, b.rounds grid point = true ↔
      if b.mantissa % 2 = 0 then
        (b.onGrid grid).1 ≤ point * (b.onGrid grid).2 + below ∧
          point * (b.onGrid grid).2 ≤ (b.onGrid grid).1 + 2 * b.quarterStep grid
      else
        (b.onGrid grid).1 < point * (b.onGrid grid).2 + below ∧
          point * (b.onGrid grid).2 < (b.onGrid grid).1 + 2 * b.quarterStep grid := by
  refine ⟨if b.closerBelow then b.quarterStep grid else 2 * b.quarterStep grid, ?_, fun point => ?_⟩
  · split <;> omega
  · by_cases heven : b.mantissa % 2 = 0 <;> simp [rounds, heven]

/-- **What is nearer to the number on the same side is rounded to it as well.** -/
theorem rounds_of_between (h : b.rounds grid point = true)
    (hbetween : point * (b.onGrid grid).2 ≤ other * (b.onGrid grid).2 ∧
        other * (b.onGrid grid).2 ≤ (b.onGrid grid).1 ∨
      (b.onGrid grid).1 ≤ other * (b.onGrid grid).2 ∧
        other * (b.onGrid grid).2 ≤ point * (b.onGrid grid).2) :
    b.rounds grid other = true := by
  have hquarter := b.quarterStep_pos grid
  obtain ⟨below, hbelow, hrounds⟩ := b.exists_rounds_iff grid
  rw [hrounds] at h ⊢
  by_cases heven : b.mantissa % 2 = 0
  · rw [if_pos heven] at h ⊢
    omega
  · rw [if_neg heven] at h ⊢
    omega

/-- A point is rounded to the number above it if it is less than a quarter of the distance away. -/
theorem rounds_of_lt (hle : point * (b.onGrid grid).2 ≤ (b.onGrid grid).1)
    (hlt : (b.onGrid grid).1 < point * (b.onGrid grid).2 + b.quarterStep grid) :
    b.rounds grid point = true := by
  obtain ⟨below, hbelow, hrounds⟩ := b.exists_rounds_iff grid
  rw [hrounds]
  split <;> omega

/-- Nothing is rounded to the number that is more than half the distance above it. -/
theorem rounds_eq_false_of_lt
    (h : (b.onGrid grid).1 + 2 * b.quarterStep grid < point * (b.onGrid grid).2) :
    b.rounds grid point = false := by
  obtain ⟨below, -, hrounds⟩ := b.exists_rounds_iff grid
  rw [Bool.eq_false_iff, ne_eq, hrounds]
  split <;> omega

/-! ### One grid -/

/-- How far a point of a grid is from the number, over the common denominator. -/
def distance (b : Binary) (grid : Int) (point : Nat) : Nat :=
  ((b.onGrid grid).1 - point * (b.onGrid grid).2) + (point * (b.onGrid grid).2 - (b.onGrid grid).1)

/-- A point of a grid is one of the two neighbours of the number. -/
def IsNeighbour (b : Binary) (grid : Int) (point : Nat) : Prop :=
  point = (b.onGrid grid).1 / (b.onGrid grid).2 ∨
    point = (b.onGrid grid).1 / (b.onGrid grid).2 + 1

/-- **The neighbours make up for all other points**: with any point the neighbour on its side is
rounded to the number, and it is nearer. -/
theorem exists_neighbour (h : b.rounds grid point = true) (hpoint : point ≠ 0) :
    ∃ neighbour, b.IsNeighbour grid neighbour ∧ neighbour ≠ 0 ∧ b.rounds grid neighbour = true ∧
      b.distance grid neighbour ≤ b.distance grid point := by
  have hlow : (b.onGrid grid).1 / (b.onGrid grid).2 * (b.onGrid grid).2 ≤ (b.onGrid grid).1 :=
    Nat.div_mul_le_self _ _
  have hhigh : (b.onGrid grid).1 <
      ((b.onGrid grid).1 / (b.onGrid grid).2 + 1) * (b.onGrid grid).2 :=
    Nat.lt_mul_of_div_lt (Nat.lt_succ_self _) (b.unit_pos grid)
  rcases Nat.lt_or_ge ((b.onGrid grid).1 / (b.onGrid grid).2) point with hlt | hge
  · have hmul : ((b.onGrid grid).1 / (b.onGrid grid).2 + 1) * (b.onGrid grid).2 ≤
        point * (b.onGrid grid).2 := Nat.mul_le_mul_right _ hlt
    refine ⟨_, Or.inr rfl, Nat.succ_ne_zero _,
      rounds_of_between h (Or.inr ⟨Nat.le_of_lt hhigh, hmul⟩), ?_⟩
    simp only [distance]
    omega
  · have hmul : point * (b.onGrid grid).2 ≤
        (b.onGrid grid).1 / (b.onGrid grid).2 * (b.onGrid grid).2 := Nat.mul_le_mul_right _ hge
    refine ⟨_, Or.inl rfl, by omega, rounds_of_between h (Or.inl ⟨hmul, hlow⟩), ?_⟩
    simp only [distance]
    omega

/-- The neighbours are tried in the order of their distances. -/
theorem exists_candidates (b : Binary) (grid : Int) :
    ∃ first second, b.nearest? grid =
        [first, second].find? (fun point => point != 0 && b.rounds grid point) ∧
      (∀ point, b.IsNeighbour grid point ↔ point = first ∨ point = second) ∧
      b.distance grid first ≤ b.distance grid second := by
  have hlow : (b.onGrid grid).1 / (b.onGrid grid).2 * (b.onGrid grid).2 ≤ (b.onGrid grid).1 :=
    Nat.div_mul_le_self _ _
  have hnext : ((b.onGrid grid).1 / (b.onGrid grid).2 + 1) * (b.onGrid grid).2 =
      (b.onGrid grid).1 / (b.onGrid grid).2 * (b.onGrid grid).2 + (b.onGrid grid).2 :=
    Nat.succ_mul _ _
  simp only [nearest?, IsNeighbour, distance]
  generalize (b.onGrid grid).1 / (b.onGrid grid).2 = low at *
  generalize (b.onGrid grid).1 = number at *
  generalize (b.onGrid grid).2 = unit at *
  by_cases hfirst : (2 * (number - low * unit) < unit ||
      2 * (number - low * unit) == unit && low % 2 == 0) = true
  · rw [if_pos hfirst]
    refine ⟨low, low + 1, rfl, fun point => Iff.rfl, ?_⟩
    simp only [Bool.or_eq_true, Bool.and_eq_true, decide_eq_true_eq, beq_iff_eq] at hfirst
    omega
  · rw [if_neg hfirst]
    refine ⟨low + 1, low, rfl, fun point => or_comm, ?_⟩
    simp only [Bool.or_eq_true, Bool.and_eq_true, decide_eq_true_eq, beq_iff_eq] at hfirst
    omega

/-- **The point that is taken on a grid is rounded to the number**, and is the nearest of those. -/
theorem rounds_of_nearest? (h : b.nearest? grid = some point) :
    point ≠ 0 ∧ b.rounds grid point = true ∧
      ∀ other, other ≠ 0 → b.rounds grid other = true →
        b.distance grid point ≤ b.distance grid other := by
  obtain ⟨first, second, hcandidates, hneighbours, horder⟩ := b.exists_candidates grid
  rw [hcandidates] at h
  obtain ⟨hpoint, hround⟩ : point ≠ 0 ∧ b.rounds grid point = true := by
    simpa using List.find?_some h
  refine ⟨hpoint, hround, fun other hother hrounds => ?_⟩
  obtain ⟨neighbour, hneighbour, hne, hrounds', hle⟩ := exists_neighbour hrounds hother
  refine Nat.le_trans ?_ hle
  rcases (hneighbours neighbour).mp hneighbour with rfl | rfl
  · -- the nearer neighbour is tried first, so it is the one that was taken
    rw [List.find?_cons_of_pos (by simp [hne, hrounds'])] at h
    obtain rfl : neighbour = point := Option.some.inj h
    exact Nat.le_refl _
  · have hmem : point = first ∨ point = neighbour := by
      simpa using List.mem_of_find?_eq_some h
    rcases hmem with rfl | rfl
    · exact horder
    · exact Nat.le_refl _

/-- **A point is taken on every grid that has one which is rounded to the number.** -/
theorem rounds_eq_false_of_nearest? (h : b.nearest? grid = none) (hpoint : point ≠ 0) :
    b.rounds grid point = false := by
  obtain ⟨first, second, hcandidates, hneighbours, -⟩ := b.exists_candidates grid
  rw [hcandidates] at h
  refine Bool.eq_false_iff.mpr fun hround => ?_
  obtain ⟨neighbour, hneighbour, hne, hrounds, -⟩ := exists_neighbour hround hpoint
  have hmem : neighbour ∈ [first, second] := by simpa using (hneighbours neighbour).mp hneighbour
  have htried := List.find?_eq_none.mp h neighbour hmem
  simp [hne, hrounds] at htried

/-! ### All grids -/

/-- Mantissa and exponent are those that a finite double may have that is not zero. -/
structure IsDouble (b : Binary) : Prop where
  mantissa_pos : 0 < b.mantissa
  mantissa_lt : b.mantissa < 2 * mantissaSpan
  le_exponent : -1074 ≤ b.exponent
  exponent_le : b.exponent ≤ 971

/-- The points of the finest grid are closer to each other than numbers are. -/
theorem IsDouble.unit_le (h : b.IsDouble) : (b.onGrid (-379)).2 ≤ b.quarterStep (-379) :=
  calc 4 * posPow 2 (-b.exponent) * posPow 10 (-379)
      ≤ 4 * posPow 2 1074 * posPow 10 (-379) :=
        Nat.mul_le_mul_right _ (Nat.mul_le_mul_left _ (posPow_mono (by decide)
          (Int.neg_le_of_neg_le h.le_exponent)))
    _ ≤ posPow 10 379 := by decide +kernel
    _ ≤ posPow 2 b.exponent * posPow 10 379 :=
        Nat.le_mul_of_pos_left _ (posPow_pos (by decide) _)

/-- The finest grid has a point that is rounded to the number. -/
theorem IsDouble.exists_rounds (h : b.IsDouble) :
    ∃ point, point ≠ 0 ∧ b.rounds (-379) point = true := by
  have hunit := b.unit_pos (-379)
  have hfine := h.unit_le
  have hnumber : (b.onGrid (-379)).2 ≤ (b.onGrid (-379)).1 := by
    rw [b.number_eq]
    exact Nat.le_trans hfine
      (Nat.le_mul_of_pos_left _ (Nat.mul_pos (by decide) h.mantissa_pos))
  refine ⟨(b.onGrid (-379)).1 / (b.onGrid (-379)).2, ?_, ?_⟩
  · exact Nat.ne_of_gt (Nat.div_pos hnumber hunit)
  · refine rounds_of_lt (Nat.div_mul_le_self _ _) ?_
    have hnext : (b.onGrid (-379)).1 <
        (b.onGrid (-379)).1 / (b.onGrid (-379)).2 * (b.onGrid (-379)).2 + (b.onGrid (-379)).2 :=
      Nat.lt_div_mul_add hunit
    exact Nat.lt_of_lt_of_le hnext (Nat.add_le_add_left hfine _)

/-- The points of a grid above the first one are greater than the number by far. -/
theorem IsDouble.rounds_eq_false_of_coarse (h : b.IsDouble) (hgrid : 320 < grid)
    (hpoint : point ≠ 0) : b.rounds grid point = false := by
  apply rounds_eq_false_of_lt
  have hquarter : b.quarterStep grid ≤ posPow 2 971 * posPow 10 0 :=
    Nat.mul_le_mul (posPow_mono (by decide) h.exponent_le) (posPow_mono (by decide) (by omega))
  have hmantissa : 4 * b.mantissa + 2 ≤ 8 * mantissaSpan := by
    have hlt := h.mantissa_lt
    omega
  calc (b.onGrid grid).1 + 2 * b.quarterStep grid
      = (4 * b.mantissa + 2) * b.quarterStep grid := by rw [b.number_eq, Nat.add_mul]
    _ ≤ 8 * mantissaSpan * (posPow 2 971 * posPow 10 0) := Nat.mul_le_mul hmantissa hquarter
    _ < posPow 10 320 := by decide +kernel
    _ ≤ posPow 10 grid := posPow_mono (by decide) (Int.le_of_lt hgrid)
    _ ≤ (b.onGrid grid).2 := Nat.le_mul_of_pos_left _
        (Nat.mul_pos (by decide) (posPow_pos (by decide) _))
    _ ≤ point * (b.onGrid grid).2 := Nat.le_mul_of_pos_left _ (Nat.pos_of_ne_zero hpoint)

/-- The search finds a point on some grid, and the grids before that one have none. -/
theorem IsDouble.exists_nearest (h : b.IsDouble) :
    ∃ i : Nat, b.nearest? (320 - (i : Int)) = some b.shortest.digits ∧
      b.shortest.exponent = 320 - (i : Int) ∧
      ∀ j : Nat, j < i → b.nearest? (320 - (j : Int)) = none := by
  rw [shortest]
  cases hfound : (List.range 700).findSome? fun (i : Nat) =>
      (b.nearest? (320 - (i : Int))).map fun digits => (⟨digits, 320 - (i : Int)⟩ : Scaled) with
  | none =>
    -- the last grid of the search is the finest one
    have hlast := List.findSome?_eq_none_iff.mp hfound 699 (List.mem_range.mpr (by omega))
    obtain ⟨point, hpoint, hround⟩ := h.exists_rounds
    have hnone : b.nearest? (-379) = none := Option.map_eq_none_iff.mp hlast
    rw [rounds_eq_false_of_nearest? hnone hpoint] at hround
    cases hround
  | some found =>
    obtain ⟨i, hi, hbefore⟩ := least_of_findSome?_range hfound
    obtain ⟨digits, hnearest, rfl⟩ := Option.map_eq_some_iff.mp hi
    exact ⟨i, hnearest, rfl, fun j hj => Option.map_eq_none_iff.mp (hbefore j hj)⟩

/-- **The shortest decimal of a double is rounded to it**. It stands on the coarsest grid that has
such a point, and is the nearest of those on this grid. -/
theorem IsDouble.rounds_shortest (h : b.IsDouble) :
    b.shortest.digits ≠ 0 ∧ b.rounds b.shortest.exponent b.shortest.digits = true ∧
      (∀ coarser, b.shortest.exponent < coarser → ∀ point, point ≠ 0 →
        b.rounds coarser point = false) ∧
      ∀ other, other ≠ 0 → b.rounds b.shortest.exponent other = true →
        b.distance b.shortest.exponent b.shortest.digits ≤
          b.distance b.shortest.exponent other := by
  obtain ⟨i, hnearest, hexponent, hbefore⟩ := h.exists_nearest
  rw [hexponent]
  obtain ⟨hdigits, hround, hleast⟩ := rounds_of_nearest? hnearest
  refine ⟨hdigits, hround, fun coarser hcoarser point hpoint => ?_, hleast⟩
  rcases Int.lt_or_le 320 coarser with hlt | hle
  · exact h.rounds_eq_false_of_coarse hlt hpoint
  · -- the grid was looked at before the one with the decimal
    have hgrid : (320 : Int) - ((320 - coarser).toNat : Int) = coarser := by omega
    have hnone := hbefore (320 - coarser).toNat (by omega)
    rw [hgrid] at hnone
    exact rounds_eq_false_of_nearest? hnone hpoint

/-- The least double, and the one next to a tenth. -/
example : (Binary.mk 1 (-1074) false).shortest = ⟨5, -324⟩ ∧
    (Binary.mk 0x1999999999999a (-56) false).shortest = ⟨1, -1⟩ := by
  decide +kernel

end Binary

/-- **The magnitude of a finite double that is not zero is in that range**, so its shortest decimal
is rounded to it. The bits of the exponent tell whether it is finite. -/
theorem isDouble_binaryOf {f : Float}
    (hfinite : f.toBits.toNat / mantissaSpan % 0x800 ≠ 0x7ff)
    (hzero : f.toBits.toNat % (0x800 * mantissaSpan) ≠ 0) : (binaryOf f).IsDouble := by
  rw [binaryOf]
  generalize f.toBits.toNat = bits at hfinite hzero ⊢
  by_cases hfield : bits / mantissaSpan % 0x800 = 0
  · -- without a first bit the mantissa is what the fraction says, so this is not zero
    simp only [hfield, BEq.rfl, if_true]
    simp only [mantissaSpan] at hfinite hzero hfield ⊢
    constructor <;> simp only [mantissaSpan] <;> omega
  · simp only [beq_false_of_ne hfield, Bool.false_eq_true, if_false]
    simp only [mantissaSpan] at hfinite hzero hfield ⊢
    constructor <;> simp only [mantissaSpan] <;> omega

end BridgeNames.Decimal
