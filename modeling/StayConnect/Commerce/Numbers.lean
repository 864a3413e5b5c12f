import StayConnect.Commerce.Eligibility

/-!
# Numbers of a stored rule

A rule is read by decoders that keep a number as it is written and by decoders that make it a `float64`. An integer with a point or
an exponent is refused by `parseIntField` in the first form and taken in the second.
-/

namespace StayConnect.Commerce

/-- A JSON number as it is written. -/
structure Literal where
  negative : Bool
  whole : Nat
  /-- The digits after the point: the number they make, and how many they are. -/
  fraction : Option (Nat × Nat)
  exponent : Option Int

namespace Literal
variable (l : Literal)

/-- Without a point and an exponent. -/
def Plain : Prop := l.fraction = none ∧ l.exponent = none

instance : Decidable l.Plain := inferInstanceAs (Decidable (_ ∧ _))

def integer : Int := if l.negative then -l.whole else l.whole

def value : ℚ :=
  (if l.negative then -1 else 1) * (l.whole + l.fraction.elim 0 fun f => f.1 / 10 ^ f.2) * 10 ^ l.exponent.getD 0

/-- The value of a decoder that keeps numbers. -/
def number : Value := .number (if l.Plain then some l.integer else none)

end Literal

/-- Rounding to a `float64`, which fails outside its range. -/
structure Float64 where
  round : ℚ → Option ℚ
  exact : ∀ n : Int, -2 ^ 53 ≤ n → n ≤ 2 ^ 53 → round n = some (n : ℚ)
  monotone : ∀ {p q x y : ℚ}, p ≤ q → round p = some x → round q = some y → x ≤ y

/-- The value of a plain decoder. -/
def Literal.float (l : Literal) (F : Float64) : Option Value := (F.round l.value).map .float

/-- A number a rule may have. -/
def Allowed (q : ℚ) : Prop := ∃ n : Int, 0 ≤ n ∧ n ≤ maxInt32 ∧ q = n

section
variable {F : Float64} {v : Fields} {key : String} {q : ℚ} {l : Literal}

end

end StayConnect.Commerce
