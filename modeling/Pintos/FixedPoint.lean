import Mathlib.Data.Int.Defs
import Mathlib.Tactic.Ring

/-!
**The 17.14 fixed-point arithmetic of the MLFQS scheduler.**

`thread.c` keeps `load_avg` and every thread's `recent_cpu` as scaled integers and computes on them
with the macros of `threads/fixed_point.h`.  That header is not part of the sources, so the macros
are modelled from the spec: the standard 17.14 encoding, a scale factor `F = 2 ^ 14`, a 64-bit
intermediate in `MULT` and `DIV`, and C's truncating integer division (`Int.tdiv`).

Values are unbounded integers here; where a 32-bit `int` could overflow, the bound is a theorem
about the model and not an assumption of it.
-/

set_option autoImplicit false

namespace Pintos.FixedPoint

/-- Modelled from the spec: the scale factor of the 17.14 encoding, `1 << 14`. -/
def F : ℤ := 16384

/-- Modelled from the spec: `CONVERT_TO_FP (n)`, an integer as a fixed-point value. -/
def convertToFp (n : ℤ) : ℤ := n * F

/-- Modelled from the spec: `CONVERT_TO_INT_ROUND (x)`, rounding to the nearest integer, halves
away from zero. -/
def convertToIntRound (x : ℤ) : ℤ :=
  if 0 ≤ x then (x + F / 2).tdiv F else (x - F / 2).tdiv F

/-- Modelled from the spec: `ADD_INT (x, n)`, a fixed-point value plus an integer. -/
def addInt (x n : ℤ) : ℤ := x + n * F

/-- Modelled from the spec: `MULT (x, y)`, the product of two fixed-point values through a 64-bit
intermediate. -/
def mult (x y : ℤ) : ℤ := (x * y).tdiv F

/-- Modelled from the spec: `MULT_INT (x, n)`. -/
def multInt (x n : ℤ) : ℤ := x * n

/-- Modelled from the spec: `DIV (x, y)`, the quotient of two fixed-point values through a 64-bit
intermediate. -/
def div (x y : ℤ) : ℤ := (x * F).tdiv y

/-- Modelled from the spec: `DIV_INT (x, n)`. -/
def divInt (x n : ℤ) : ℤ := x.tdiv n

@[simp] theorem convertToIntRound_zero : convertToIntRound 0 = 0 := by decide

@[simp] theorem mult_zero_left (y : ℤ) : mult 0 y = 0 := by simp [mult]

@[simp] theorem divInt_zero (n : ℤ) : divInt 0 n = 0 := by simp [divInt]

@[simp] theorem multInt_zero (n : ℤ) : multInt 0 n = 0 := by simp [multInt]

@[simp] theorem div_zero_left (y : ℤ) : div 0 y = 0 := by simp [div]

end Pintos.FixedPoint
