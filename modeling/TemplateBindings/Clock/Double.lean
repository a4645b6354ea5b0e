/-!
# Rounding

Two roundings of exact numbers: to an integer, and to the nearest number with 53 binary digits. In
both a number halfway between two neighbours goes to the even one. The second is what arithmetic in
double precision gives for a single operation, as long as the result is neither tiny nor huge.
-/

namespace TemplateBindings
namespace Rounding

/-- **The nearest integer**, the even one of two. -/
def toInteger (x : Rat) : Int :=
  let below := x.floor
  let part := x - below
  if part < 1 / 2 then below
  else if 1 / 2 < part then below + 1
  else if below % 2 = 0 then below
  else below + 1

/-- The integer next to a number on the side of zero. -/
def towardZero (x : Rat) : Int := x.num.tdiv x.den

/-- The exponent of the greatest power of two that is not above a positive number. -/
def binaryLog (x : Rat) : Int :=
  let guess : Int := x.num.natAbs.log2 - x.den.log2
  if (2 : Rat) ^ guess ≤ x then guess else guess - 1

/-- The distance between neighbours with 53 binary digits at a number other than zero. -/
def spacing (x : Rat) : Rat := (2 : Rat) ^ (binaryLog (if x < 0 then -x else x) - 52)

/-- **The nearest number with 53 binary digits**. -/
def toDouble (x : Rat) : Rat :=
  if x = 0 then 0 else toInteger (x / spacing x) * spacing x

/-- The numbers from which on, in size, double precision has none. -/
def tooLarge : Rat := (2 : Rat) ^ (1024 : Int)

end Rounding
end TemplateBindings
