import Clearance.Yaml.Tag

/-!
# What YAML scalars are

A plain scalar is null, a boolean or a number if it looks like one, and everything else
is a string (`plainData`). A tag can demand that a scalar is of one kind, however it is
written (`scalarData`); what does not look like it is then refused. An integer has up
to 128 bits, signed or unsigned, and what looks like a greater one is a double.
-/

namespace Clearance.Yaml

/-- Exactly the words for null. -/
def isNull (s : String) : Bool := s == "null" || s == "Null" || s == "NULL" || s == "~"

/-- Exactly the words for the truth values. -/
def boolean? (s : String) : Option Bool :=
  if s == "true" || s == "True" || s == "TRUE" then some true
  else if s == "false" || s == "False" || s == "FALSE" then some false
  else none

/-- The value of a digit below `base`. -/
def digit? (base : Nat) (c : Char) : Option Nat :=
  (Json.hexValue? c).bind fun n => if n < base then some n else none

/-- The number that `s` writes in `base`; at least one digit and nothing else. -/
def natural? (base : Nat) (s : List Char) : Option Nat :=
  if s.isEmpty then none
  else s.foldlM (fun n c => (digit? base c).map (base * n + ·)) 0

/-- Whether decimal digits are no number because they start with a needless zero. -/
def hasNeedlessZero (s : List Char) : Bool :=
  let s := match s with
    | '-' :: rest => rest
    | '+' :: rest => rest
    | s => s
  match s with
  | '0' :: rest => !rest.isEmpty && rest.all Char.isDigit
  | _ => false

/-- A natural number in base 16, 8 or 2 after `0x`, `0o` or `0b`. -/
def based? : List Char → Option Nat
  | '0' :: 'x' :: rest => natural? 16 rest
  | '0' :: 'o' :: rest => natural? 8 rest
  | '0' :: 'b' :: rest => natural? 2 rest
  | _ => none

/-- An integer of any size. -/
def integer? (s : List Char) : Option Int :=
  match s with
  | '-' :: rest =>
      match based? rest with
      | some n => some (-(n : Int))
      | none =>
          if hasNeedlessZero s then none
          else (natural? 10 rest).map fun n => -(n : Int)
  | _ =>
      let rest := match s with
        | '+' :: rest => rest
        | s => s
      match based? rest with
      | some n => some n
      | none => if hasNeedlessZero s then none else (natural? 10 rest).map Int.ofNat

/-- Digits with an optional point among or around them, and an optional exponent. -/
def decimal? (s : List Char) : Option Double := do
  let (negative, s) := match s with
    | '-' :: rest => (true, rest)
    | '+' :: rest => (false, rest)
    | s => (false, s)
  let whole := s.takeWhile Char.isDigit
  let (fraction, rest) := match s.dropWhile Char.isDigit with
    | '.' :: rest => (rest.takeWhile Char.isDigit, rest.dropWhile Char.isDigit)
    | rest => ([], rest)
  if whole.isEmpty ∧ fraction.isEmpty then none
  else
    let (exponent, rest) ← Json.exponent? rest
    if rest.isEmpty then
      let e : Int := exponent.getD 0 - (fraction.length : Int)
      let d := Double.ofDecimal negative (Json.decimalValue (whole ++ fraction)) e
      if d.isInfinite then none else some d
    else none

/-- A number with a fraction or an exponent, or one of the names of infinity and of
no number. -/
def float? (s : String) : Option Double :=
  if [".inf", ".Inf", ".INF", "+.inf", "+.Inf", "+.INF"].contains s then
    some (.infinity false)
  else if ["-.inf", "-.Inf", "-.INF"].contains s then some (.infinity true)
  else if [".nan", ".NaN", ".NAN"].contains s then some .nan
  else decimal? s.toList

/-- Whether an integer fits 128 bits, signed or unsigned. -/
def isWide (n : Int) : Bool :=
  decide (-0x80000000000000000000000000000000 ≤ n) &&
    decide (n < 0x100000000000000000000000000000000)

/-- The integer that a text looks like, as data. A zero with a minus is a double, since
no integer has that sign. -/
def integerData? (s : String) : Option Json :=
  ((integer? s.toList).filter isWide).map fun n =>
    if n = 0 ∧ s.toList.head? = some '-' then .float (.zero true) else .integer n

/-- The double that a text looks like, unless it could be a word of digits with a
needless zero. -/
def plainFloat? (s : String) : Option Double :=
  if hasNeedlessZero s.toList then none else float? s

def plainData (s : String) : Json :=
  if s.isEmpty || isNull s then .null
  else
    (((boolean? s).map Json.bool).or
      ((integerData? s).or ((plainFloat? s).map Json.float))).getD (.string s)

/-- The reading of a scalar that must be what `demand` says. -/
def scalarData (demand : Demand) (s : String) (plain : Bool) : Option Json :=
  match demand with
  | .free => some (if plain then plainData s else .string s)
  | .bool => (boolean? s).map .bool
  | .int => integerData? s
  | .float => (float? s).map .float
  | .null => if isNull s then some .null else none
  | .string => some (.string s)

end Clearance.Yaml
