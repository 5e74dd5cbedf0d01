import Northwind.Sources.Floats

/-!
# Decimals

A `decimal.Decimal` is taken as the rational it stands for.  The default context
computes an operation exactly and keeps 28 digits of the result, half to even.
The limits of its exponents do not occur.
-/

namespace Northwind
namespace Decimals

/-! ## The default context -/

/-- The distance of the decimals of 28 digits around a number. -/
def unitInLastDigit (x : ℚ) : ℚ :=
  10 ^ (Int.log 10 |x| - 27)

/-- A result as the context returns it. -/
def inContext (x : ℚ) : ℚ :=
  roundHalfEven (x / unitInLastDigit x) * unitInLastDigit x

/-- `x * y` -/
def multiply (x y : ℚ) : ℚ :=
  inContext (x * y)

/-- `x / y` -/
def divide (x y : ℚ) : ℚ :=
  inContext (x / y)

/-- `ROUND_HALF_UP` to a whole number: ties go away from zero. -/
def roundHalfUp (x : ℚ) : ℤ :=
  if 0 ≤ x then ⌊x + 1 / 2⌋ else -⌊-x + 1 / 2⌋

/-- `x.quantize(Decimal("0.01"), rounding=ROUND_HALF_UP)`; `none` is the
`InvalidOperation` of a coefficient of more than 28 digits. -/
def quantizeHundredths (x : ℚ) : Option ℚ :=
  if |roundHalfUp (x * 100)| < 10 ^ 28 then some (roundHalfUp (x * 100) / 100) else none

/-! ## Rounding to 28 digits -/

section Quotients

variable {n d : ℤ}

end Quotients

end Decimals
end Northwind
