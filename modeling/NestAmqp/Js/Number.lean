/-
# NestAmqp.Js.Number — numbers read from values, and the little the code computes with them.

A retry counter comes out of a message header, an expiration out of a token: whatever is there goes
through `Number(v)`, is raised by one or multiplied, and compared.  A number that is no integer stays the
text it prints as, and is read again where the code computes with it.  Decimals are exact here; a double
rounds them.
-/
import NestAmqp.Js.Thrown

namespace NestAmqp.Js

/-! ## What a numeric text says -/

/-- What a number amounts to: `finite m k` is `m / 10 ^ k`. -/
inductive Quantity where
  | nan
  | infinite (negative : Bool)
  | finite (mantissa : Int) (scale : Nat)
  deriving DecidableEq, Repr

/-- The value of a digit in a base, up to sixteen. -/
def digitIn (base : Nat) (c : Char) : Option Nat :=
  let value :=
    if c.isDigit then c.toNat - '0'.toNat
    else if 'a' ≤ c ∧ c ≤ 'f' then c.toNat - 'a'.toNat + 10
    else if 'A' ≤ c ∧ c ≤ 'F' then c.toNat - 'A'.toNat + 10
    else base
  if value < base then some value else none

/-- The value of one or more digits. -/
def digitsIn (base : Nat) (cs : List Char) : Option Nat :=
  if cs.isEmpty then none
  else cs.foldlM (fun value c => (digitIn base c).map fun digit => value * base + digit) 0

/-- `m * 10 ^ e`. -/
def Quantity.shifted (m : Nat) (e : Int) : Quantity :=
  if 0 ≤ e then .finite (m * 10 ^ e.toNat) 0 else .finite m (-e).toNat

/-- The exponent behind the digits: nothing, or an `e` with signed digits. -/
def exponentOf : List Char → Option Int
  | [] => some 0
  | _ :: '-' :: cs => (digitsIn 10 cs).map fun n => -(n : Int)
  | _ :: '+' :: cs => (digitsIn 10 cs).map fun n => (n : Int)
  | _ :: cs => (digitsIn 10 cs).map fun n => (n : Int)

/-- A decimal without a sign: digits with at most one point, and an exponent. -/
def unsignedDecimal (cs : List Char) : Quantity :=
  let (significand, exponent) := cs.span fun c => c != 'e' && c != 'E'
  let (whole, fraction) := significand.span fun c => c != '.'
  match digitsIn 10 (whole ++ fraction.drop 1), exponentOf exponent with
  | some m, some e => .shifted m (e - (fraction.drop 1).length)
  | _, _ => .nan

def Quantity.negated : Quantity → Quantity
  | .nan => .nan
  | .infinite negative => .infinite (!negative)
  | .finite m k => .finite (-m) k

/-- A number without a sign. -/
def unsignedNumber (cs : List Char) : Quantity :=
  if cs = "Infinity".toList then .infinite false else unsignedDecimal cs

/-- A whole number written in another base. -/
def wholeIn (base : Nat) (cs : List Char) : Quantity :=
  ((digitsIn base cs).map fun n => Quantity.finite n 0).getD .nan

/-- What the text of a number says; a blank text says zero. -/
def quantityOf (s : String) : Quantity :=
  match (trim s).toList with
  | [] => .finite 0 0
  | '0' :: 'x' :: cs | '0' :: 'X' :: cs => wholeIn 16 cs
  | '0' :: 'o' :: cs | '0' :: 'O' :: cs => wholeIn 8 cs
  | '0' :: 'b' :: cs | '0' :: 'B' :: cs => wholeIn 2 cs
  | '-' :: cs => (unsignedNumber cs).negated
  | '+' :: cs => unsignedNumber cs
  | cs => unsignedNumber cs

/-- From here on a double is infinite. -/
def beyondDoubles (m : Int) (k : Nat) : Bool := (2 ^ 1024 - 2 ^ 970) * 10 ^ k ≤ m.natAbs

/-- The decimal notation of `m / 10 ^ k`. -/
def decimalText (m : Int) (k : Nat) : String :=
  let digits := (toString m.natAbs).toList
  let padded := List.replicate (k + 1 - digits.length) '0' ++ digits
  let fraction := ((padded.drop (padded.length - k)).reverse.dropWhile fun c => c == '0').reverse
  (if m < 0 then "-" else "") ++ String.ofList (padded.take (padded.length - k)) ++ "." ++
    String.ofList fraction

/-! ## Numbers -/

/-- A number, as a `Value` carries it. -/
inductive JsNumber where
  | num (n : Int)
  | real (text : String)
  deriving DecidableEq, Repr

namespace JsNumber

def toValue : JsNumber → Value
  | .num n => .num n
  | .real text => .real text

/-- `NaN`. -/
def nan : JsNumber := .real "NaN"

/-- What the number amounts to. -/
def quantity : JsNumber → Quantity
  | .num n => .finite n 0
  | .real text => quantityOf text

/-- The number of a quantity. -/
def ofQuantity : Quantity → JsNumber
  | .nan => nan
  | .infinite negative => .real (if negative then "-Infinity" else "Infinity")
  | .finite m k =>
      if beyondDoubles m k then .real (if m < 0 then "-Infinity" else "Infinity")
      else if m % 10 ^ k = 0 then .num (m / 10 ^ k)
      else .real (decimalText m k)

/-- `n + 1`. -/
def addOne : JsNumber → JsNumber
  | .num n => .num (n + 1)
  | .real text =>
      ofQuantity <| match quantityOf text with
        | .nan => .nan
        | .infinite negative => .infinite negative
        | .finite m k => .finite (m + 10 ^ k) k

/-- `n < limit`: false of `NaN`. -/
def below (n : JsNumber) (limit : Int) : Bool :=
  match n.quantity with
  | .nan => false
  | .infinite negative => negative
  | .finite m k => m < limit * 10 ^ k

/-- `bound >= n * factor`, for a positive factor: false of `NaN`. -/
def timesAtMost (n : JsNumber) (factor : Nat) (bound : Int) : Bool :=
  match n.quantity with
  | .nan => false
  | .infinite negative => negative
  | .finite m k => m * factor ≤ bound * 10 ^ k

/-- What is within a bound is within a larger one. -/
theorem timesAtMost_mono {n : JsNumber} {factor : Nat} {bound bound' : Int} (hle : bound ≤ bound')
    (h : n.timesAtMost factor bound = true) : n.timesAtMost factor bound' = true := by
  unfold timesAtMost at h ⊢
  split at h
  next => cases h
  next => exact h
  next m k _ =>
    rw [decide_eq_true_eq] at h ⊢
    exact h.trans (Int.mul_le_mul_of_nonneg_right hle (Int.pow_nonneg (by decide)))

@[simp] theorem toValue_num (n : Int) : (num n).toValue = .num n := rfl

@[simp] theorem addOne_num (n : Int) : (num n).addOne = .num (n + 1) := rfl

@[simp] theorem below_num (n limit : Int) : (num n).below limit = decide (n < limit) := by
  simp [below, quantity]

end JsNumber

/-! ## `Number(v)` -/

/-- `Number(s)` of a text. -/
def stringToNumber (s : String) : JsNumber := .ofQuantity (quantityOf s)

/-- `Number(v)`: a list or an object is read as what it prints, and throws where it does not print. -/
def Number : Value → Except Thrown JsNumber
  | .undefined => .ok .nan
  | .null => .ok (.num 0)
  | .bool b => .ok (.num (if b then 1 else 0))
  | .num n => .ok (.num n)
  | .real text => .ok (.real text)
  | .str s => .ok (stringToNumber s)
  | .arr items => (printed (.arr items)).map stringToNumber
  | .obj fields => (printed (.obj fields)).map stringToNumber

theorem failsReadably_Number (v : Value) : FailsReadably (Number v) := by
  unfold Number
  split
  case h_7 | h_8 => exact (failsReadably_printed _).map _
  all_goals exact failsReadably_ok _

/-- A number reads as itself. -/
@[simp] theorem Number_toValue (n : JsNumber) : Number n.toValue = .ok n := by
  cases n <;> rfl

example : ["1.0", " 0x10 ", "-.5e1", "1e3", "Infinity", "1.2.3", "0b12", ""].map stringToNumber =
    [.num 1, .num 16, .num (-5), .num 1000, .real "Infinity", .nan, .nan, .num 0] := by
  decide +kernel

example : (stringToNumber "0.5").addOne = .real "1.5" ∧ (stringToNumber "-1.25").addOne = .real "-0.25" := by
  decide +kernel

end NestAmqp.Js
