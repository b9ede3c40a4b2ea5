import Mathlib.Algebra.Group.Int.Defs

/-! # JSON values

The values of a `JSONB` column, as Python reads them back.
-/
namespace QueryCraft

/-- The JSON values of a `JSONB` column, as Python reads them back.  A `float` is
the decimal `mantissa · 10^(-scale)` that Python prints. -/
inductive Json where
  | null
  | bool (b : Bool)
  | int (n : Int)
  | float (mantissa : Int) (scale : Nat)
  | str (s : String)
  | arr (items : List Json)
  | obj (fields : List (String × Json))

namespace Json

/-- `isinstance(value, dict)`. -/
def isDict : Json → Bool
  | obj _ => true
  | _ => false

/-- `ctx.get(key)`: Python's `None` stands for an absent key and for JSON `null`. -/
def get (key : String) : Json → Json
  | obj fields => (fields.lookup key).getD null
  | _ => null

/-- `type(value) is int`, with the integer. -/
def int? : Json → Option Int
  | int n => some n
  | _ => none

/-- Python's `value == n` for an integer `n`: booleans are the integers 0 and 1,
and a float may equal an integer. -/
def eqInt (n : Int) : Json → Bool
  | int m => m == n
  | bool b => (if b then 1 else 0) == n
  | float m s => m == n * 10 ^ s
  | _ => false

/-- Python's `value == s` for a string `s`. -/
def eqStr (s : String) : Json → Bool
  | str t => t == s
  | _ => false

/-- `value is not None`. -/
def isSome : Json → Bool
  | null => false
  | _ => true

end Json

end QueryCraft
