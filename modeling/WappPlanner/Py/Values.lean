import Mathlib.Algebra.Order.Field.Rat

/-! # Python values

The values that reach the program from outside: byte strings, floats and decoded JSON. A finite
float is the rational number it denotes, apart from the negative zero, so comparing and printing it is
exact arithmetic on that number; a float that a model constrains to be at least `0` is an `Amount`, one
constrained to `[0, 1]` a `Fraction`, so that a value outside the constraint cannot be built. The
negative zero passes both constraints. -/

namespace WappPlanner.Py.Values

/-- `bytes`. -/
abbrev Bytes := List UInt8

/-- `str.encode("utf-8")`. -/
def utf8 (s : String) : Bytes := s.toByteArray.data.toList

theorem utf8_injective : Function.Injective utf8 := fun _ _ h =>
  String.toByteArray_inj.mp (ByteArray.ext (Array.ext' h))

/-- `float`. -/
inductive PyFloat
  | finite (q : ℚ)
  | negZero
  | inf (negative : Bool)
  | nan
  deriving DecidableEq, Repr

/-- The float times `2 ^ j`: exact, unless it is too large for a double. -/
def PyFloat.timesPow (j : ℕ) : PyFloat → PyFloat
  | .finite q => if |q| * 2 ^ j < 2 ^ 1024 then .finite (q * 2 ^ j) else .inf (decide (q < 0))
  | x => x

/-- A float that passed `Field(ge=0)`. -/
inductive Amount
  | finite (q : ℚ≥0)
  | negZero
  | inf
  deriving DecidableEq

/-- A float that passed `Field(ge=0.0, le=1.0)`; only the zero may be negative. -/
structure Fraction where
  val : ℚ≥0
  le_one : val ≤ 1
  negative : Bool
  eq_zero : negative = true → val = 0
  deriving DecidableEq

def Fraction.one : Fraction := ⟨1, le_rfl, false, fun h => by cases h⟩

def Amount.toFloat : Amount → PyFloat
  | finite q => .finite q
  | negZero => .negZero
  | inf => .inf false

/-- What `json.loads` returns. The fields of an object keep their order; `json.loads` never
repeats a name. -/
inductive Json
  | null
  | bool (b : Bool)
  | int (n : ℤ)
  | float (x : PyFloat)
  | str (s : String)
  | arr (items : List Json)
  | obj (fields : List (String × Json))
  deriving Inhabited

namespace Json

/-- `bool(x)`. -/
def truthy : Json → Bool
  | null => false
  | bool b => b
  | int n => n ≠ 0
  | float x => x ≠ .finite 0 && x ≠ .negZero
  | str s => s ≠ ""
  | arr items => !items.isEmpty
  | obj fields => !fields.isEmpty

/-- `x or y`. -/
def or (x y : Json) : Json := if x.truthy then x else y

/-- `x is None`. -/
def isNone : Json → Bool
  | null => true
  | _ => false

/-- The type's name, for error texts. -/
def typeName : Json → String
  | null => "NoneType"
  | bool _ => "bool"
  | int _ => "int"
  | float _ => "float"
  | str _ => "str"
  | arr _ => "list"
  | obj _ => "dict"

/-- An optional string as JSON. -/
def ofOption : Option String → Json
  | none => null
  | some s => str s

end Json

end WappPlanner.Py.Values
