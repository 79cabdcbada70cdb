import GoalFlight.Library.Json
import Mathlib.Algebra.Group.Nat.Defs

/-!
# JSON values as a dynamic language sees them

Whether a value counts as true, a field of a value that need not be an object, the value
`a or b` stands for, and the integer a value is converted to.
-/

namespace Json

namespace Value

/-- The value is an object. -/
def isDict : Value → Bool
  | .obj _ => true
  | _ => false

/-- `value.get(key, default)`; what is not an object has no fields. -/
def getD : Value → String → Value → Value
  | .obj fields, key, default => (fields.lookup key).getD default
  | _, _, default => default

/-- `value.get(key)`. -/
def get (v : Value) (key : String) : Value := v.getD key .null

/-- A float is zero when no digit before its exponent is another one. -/
def FloatText.isZero (t : FloatText) : Bool :=
  (t.1.takeWhile fun c => c ≠ 'e' && c ≠ 'E').all fun c => !c.isDigit || c = '0'

/-- The value counts as true. -/
def truthy : Value → Bool
  | .null => false
  | .bool b => b
  | .int n => n ≠ 0
  | .float t => !FloatText.isZero t
  | .nonFinite _ => true
  | .str s => s ≠ ""
  | .arr items => !items.isEmpty
  | .obj fields => !fields.isEmpty

/-- `a or b`. -/
def orElse (a b : Value) : Value := if a.truthy then a else b

/-- `value in (None, "")`. -/
def isAbsent (v : Value) : Bool := v = .null || v = .str ""

/-! ### The integer of a value -/

/-- The number a digit sequence writes. -/
def digitsValue (digits : List Char) : ℕ :=
  digits.foldl (fun n c => 10 * n + (c.toNat - '0'.toNat)) 0

/-- `text.strip()`. -/
def trim (text : List Char) : List Char :=
  ((text.dropWhile isBlank).reverse.dropWhile isBlank).reverse

/-- `int(text)`: blanks around a sign and digits, with single underscores between digits. -/
def textInt? (text : List Char) : Option ℤ :=
  let trimmed := trim text
  let digits := match trimmed with
    | '+' :: rest => rest
    | rest => dropSign rest
  if (digits.splitOn '_').all fun group => group ≠ [] && group.all Char.isDigit then
    let n : ℤ := digitsValue (digits.filter (· ≠ '_'))
    some (if trimmed.head? = some '-' then -n else n)
  else none

/-- The integer part of a float's text. -/
def FloatText.truncate (t : FloatText) : ℤ :=
  let body := dropSign t.1
  let mantissa := body.takeWhile fun c => c ≠ 'e' && c ≠ 'E'
  let fraction := (mantissa.dropWhile Char.isDigit).drop 1
  let exponent : ℤ := (textInt? ((body.drop mantissa.length).drop 1)).getD 0 - fraction.length
  let digits := digitsValue (mantissa.filter Char.isDigit)
  let size : ℕ :=
    if 0 ≤ exponent then digits * 10 ^ exponent.toNat else digits / 10 ^ (-exponent).toNat
  if t.1.head? = some '-' then -size else size

/-- `number.is_integer()`, of a float's text. -/
def FloatText.isInteger (t : FloatText) : Bool :=
  let body := dropSign t.1
  let mantissa := body.takeWhile fun c => c ≠ 'e' && c ≠ 'E'
  let fraction := (mantissa.dropWhile Char.isDigit).drop 1
  let exponent : ℤ := (textInt? ((body.drop mantissa.length).drop 1)).getD 0 - fraction.length
  0 ≤ exponent || digitsValue (mantissa.filter Char.isDigit) % 10 ^ (-exponent).toNat = 0

/-- `int(value)`, where it does not raise. -/
def int? : Value → Option ℤ
  | .bool b => some (if b then 1 else 0)
  | .int n => some n
  | .float t => some (FloatText.truncate t)
  | .str s => textInt? s.toList
  | _ => none

/-! ### Their equations -/

theorem orElse_of_truthy {a : Value} (h : a.truthy = true) (b : Value) : a.orElse b = a :=
  if_pos h

theorem orElse_of_not_truthy {a : Value} (h : a.truthy = false) (b : Value) :
    a.orElse b = b := by
  rw [orElse, h]
  rfl

theorem isAbsent_iff {v : Value} : v.isAbsent = true ↔ v = .null ∨ v = .str "" := by
  simp [isAbsent]

theorem truthy_of_isAbsent {v : Value} (h : v.isAbsent = true) : v.truthy = false := by
  obtain rfl | rfl := isAbsent_iff.mp h
  · rfl
  · rfl

example : int? (.str " 1_024 ") = some 1024 := by decide

end Value

end Json
