import AstSchema.Decimal.Shortest
import AstSchema.Lox.Syntax

/-!
# Values of Lox programs

How values are tested, compared and shown. A number is shown by the shortest decimal that reads
back, without an exponent and with a point only in front of a fraction.
-/

namespace AstSchema.Lox

/-- The text of a number: no exponent, and a sign in front of every negative number and of the
negative zero. -/
def numberText (x : Float) : String :=
  let sign (negative : Bool) : String := if negative then "-" else ""
  match FloatShape.of x with
  | .nan => "NaN"
  | .infinity negative => sign negative ++ "inf"
  | .zero negative => sign negative ++ "0"
  | .finite negative size => sign negative ++ String.ofList (size.shortest .away).positional

namespace Value

/-- Everything but `nil` and the false truth value counts as true. -/
def isTruthy : Value → Bool
  | nil => false
  | boolean b => b
  | _ => true

/-- Values are equal if they are of one type and equal as such. -/
def equals : Value → Value → Bool
  | number x, number y => x == y
  | text s, text t => s == t
  | boolean b, boolean c => b == c
  | nil, nil => true
  | _, _ => false

/-- How a value is shown. -/
def display : Value → String
  | number x => numberText x
  | text s => s
  | boolean b => if b then "true" else "false"
  | nil => "nil"

@[simp] theorem isTruthy_nil : nil.isTruthy = false := rfl

@[simp] theorem isTruthy_boolean (b : Bool) : (boolean b).isTruthy = b := rfl

end Value

end AstSchema.Lox
