import Mathlib.Data.Rat.Floor

/-!
# Floating-point numbers

Python's `float`, as far as programs compare its values and print them: a number, one of the two
infinities, or NaN, which no comparison holds of. A test that a value is not above a bound says that
it is at most the bound only where neither is NaN (`le_iff_not_lt`).
-/

namespace Foundation

/-- `round` of a float: the nearest integer, the even one of two. -/
def roundHalfEven (q : ℚ) : ℤ :=
  let rest := q - ⌊q⌋
  if rest < 1 / 2 then ⌊q⌋
  else if 1 / 2 < rest then ⌊q⌋ + 1
  else if ⌊q⌋ % 2 = 0 then ⌊q⌋
  else ⌊q⌋ + 1

theorem roundHalfEven_le (q : ℚ) : roundHalfEven q ≤ ⌊q⌋ + 1 := by
  unfold roundHalfEven
  dsimp only
  split
  · omega
  · split
    · omega
    · split <;> omega

theorem roundHalfEven_eq_floor {q : ℚ} (h : q - ⌊q⌋ < 1 / 2) : roundHalfEven q = ⌊q⌋ := if_pos h

theorem roundHalfEven_nonpos {q : ℚ} (h : q ≤ 0) : roundHalfEven q ≤ 0 := by
  have hRound := roundHalfEven_le q
  have hFloor : ⌊q⌋ ≤ 0 := by
    by_contra hPos
    have hOne : ((1 : ℤ) : ℚ) ≤ q := Int.le_floor.mp (by omega)
    push_cast at hOne
    linarith
  by_cases hZero : ⌊q⌋ = 0
  · have hRest : q - ⌊q⌋ < 1 / 2 := by
      rw [hZero, Int.cast_zero]
      linarith
    rw [roundHalfEven_eq_floor hRest]
    exact hFloor
  · omega

theorem roundHalfEven_neg {q : ℚ} (h : q < -(1 / 2)) : roundHalfEven q < 0 := by
  have hRound := roundHalfEven_le q
  have hFloor : ⌊q⌋ ≤ -1 := by
    by_contra hNonneg
    have hZero : (0 : ℚ) ≤ q := Int.floor_nonneg.mp (by omega)
    linarith
  by_cases hOne : ⌊q⌋ = -1
  · have hRest : q - ⌊q⌋ < 1 / 2 := by
      rw [hOne]
      linarith
    rw [roundHalfEven_eq_floor hRest]
    omega
  · omega

inductive Float64 where
  | finite (q : ℚ)
  | infinity
  | negativeInfinity
  | nan
  deriving DecidableEq, Repr

namespace Float64

/-- `x < y`. -/
def lt : Float64 → Float64 → Bool
  | nan, _ | _, nan => false
  | finite p, finite q => p < q
  | negativeInfinity, negativeInfinity => false
  | negativeInfinity, _ => true
  | _, negativeInfinity => false
  | infinity, _ => false
  | finite _, infinity => true

/-- `x <= y`. -/
def le : Float64 → Float64 → Bool
  | nan, _ | _, nan => false
  | finite p, finite q => p ≤ q
  | negativeInfinity, _ => true
  | _, negativeInfinity => false
  | _, infinity => true
  | infinity, finite _ => false

variable {x y z : Float64}

theorem le_iff_not_lt (hx : x ≠ nan) (hy : y ≠ nan) :
    le x y = true ↔ lt y x = false := by
  cases x <;> cases y <;> simp_all [le, lt]

theorem not_le_nan : le x nan = false ∧ le nan x = false := by
  cases x <;> exact ⟨rfl, rfl⟩

theorem le_iff : le x y = true ↔ x ≠ nan ∧ y ≠ nan ∧ lt y x = false := by
  constructor
  · intro h
    have hx : x ≠ nan := by
      rintro rfl
      cases h
    have hy : y ≠ nan := by
      rintro rfl
      rw [not_le_nan.1] at h
      cases h
    exact ⟨hx, hy, (le_iff_not_lt hx hy).mp h⟩
  · rintro ⟨hx, hy, h⟩
    exact (le_iff_not_lt hx hy).mpr h

theorem le_trans (hxy : x.le y = true) (hyz : y.le z = true) :
    x.le z = true := by
  cases x <;> cases y <;> cases z <;> simp_all [le]
  linarith

theorem le_of_lt (h : x.lt y = true) : x.le y = true := by
  cases x <;> cases y <;> simp_all [le, lt]
  exact h.le

def neg : Float64 → Float64
  | finite q => finite (-q)
  | infinity => negativeInfinity
  | negativeInfinity => infinity
  | nan => nan

/-- `x - y`. -/
def sub : Float64 → Float64 → Float64
  | finite p, finite q => finite (p - q)
  | nan, _ | _, nan | infinity, infinity | negativeInfinity, negativeInfinity => nan
  | infinity, _ | _, negativeInfinity => infinity
  | negativeInfinity, _ | _, infinity => negativeInfinity

/-- `abs(x)`. -/
def abs : Float64 → Float64
  | finite q => finite |q|
  | negativeInfinity => infinity
  | x => x

/-- `min(x, y)`, the first of the two if they do not compare. -/
def min (x y : Float64) : Float64 := if y.lt x then y else x

/-- The smaller of two numbers is within a bound if the first is, or if the second replaces it. -/
theorem min_le_iff :
    (x.min y).le z = true ↔ x.le z = true ∨ (y.lt x = true ∧ y.le z = true) := by
  unfold min
  split
  next h =>
    constructor
    · intro hy
      exact .inr ⟨h, hy⟩
    · rintro (hx | ⟨_, hy⟩)
      · exact le_trans (le_of_lt h) hx
      · exact hy
  next h =>
    constructor
    · exact .inl
    · rintro (hx | ⟨hLess, _⟩)
      · exact hx
      · exact absurd hLess h

def isFinite : Float64 → Bool
  | finite _ => true
  | _ => false

/-- `round(x, 6)`. -/
def round6 : Float64 → Float64
  | finite q => finite (roundHalfEven (q * 1000000) / 1000000)
  | x => x

/-- `f'\x7bx:.4f\x7d'`. -/
def fixed4 : Float64 → String
  | nan => "nan"
  | infinity => "inf"
  | negativeInfinity => "-inf"
  | finite q =>
    let tenThousandths := (roundHalfEven (|q| * 10000)).toNat
    let fraction := tenThousandths % 10000
    String.ofList ((if q < 0 then ['-'] else []) ++ Nat.toDigits 10 (tenThousandths / 10000) ++
      '.' :: [Nat.digitChar (fraction / 1000), Nat.digitChar (fraction / 100 % 10),
        Nat.digitChar (fraction / 10 % 10), Nat.digitChar (fraction % 10)])

/-- `m / 2 ^ shift`, rounded to an integer; a tie goes to the even one. -/
def roundShift (m shift : Nat) : Nat :=
  let q := m / 2 ^ shift
  let r := m % 2 ^ shift
  if 2 ^ shift < 2 * r ∨ 2 ^ shift = 2 * r ∧ q % 2 = 1 then q + 1 else q

/-- `float(n)`; too large a number raises an `OverflowError`. -/
def ofInt (n : Int) : Option Float64 :=
  let m := n.natAbs
  let shift := Nat.log2 m - 52
  let rounded := roundShift m shift * 2 ^ shift
  if rounded < 2 ^ 1024 then some (finite (if n < 0 then -(rounded : ℚ) else rounded)) else none

end Float64

end Foundation
