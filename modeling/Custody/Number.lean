/-!
# Number formats

A number is unsigned, signed or a float, and has a width in bits. `NumberFormat.parse?` reads the
formats that a literal may name.
-/

set_option autoImplicit false

namespace Custody

/-- The three families of numbers. -/
inductive NumberKind where
  | unsigned | signed | float
  deriving DecidableEq, Repr, Inhabited

/-- The letter that a format starts with. -/
def NumberKind.letter : NumberKind → Char
  | .unsigned => 'u'
  | .signed => 'i'
  | .float => 'f'

/-- The family that a format's first letter stands for. -/
def NumberKind.ofLetter? : Char → Option NumberKind
  | 'u' => some .unsigned
  | 'i' => some .signed
  | 'f' => some .float
  | _ => none

/-- A family and a width in bits. -/
structure NumberFormat where
  kind : NumberKind
  width : Nat
  deriving DecidableEq, Repr, Inhabited

/-- The value of a run of decimal digits, read from the left. -/
def decimalValue (digits : List Char) : Nat :=
  digits.foldl (fun n d => 10 * n + (d.toNat - '0'.toNat)) 0

/-- Reads a number below `limit`: at least one decimal digit, behind an optional plus sign. -/
def readBelow? (limit : Nat) (text : List Char) : Option Nat :=
  let digits := match text with
    | '+' :: ds => ds
    | ds => ds
  if digits.isEmpty || !digits.all Char.isDigit then none
  else if decimalValue digits < limit then some (decimalValue digits)
  else none

namespace NumberFormat

/-- A format as it is written: `u8`, `i64`, `f32`. -/
def text (format : NumberFormat) : String :=
  format.kind.letter.toString ++ toString format.width

/-- Whether a literal may name the format: floats have 32 or 64 bits, the others also 8 or 16. -/
def isStandard (format : NumberFormat) : Bool :=
  match format.kind with
  | .float => format.width == 32 || format.width == 64
  | _ => format.width == 8 || format.width == 16 || format.width == 32 || format.width == 64

/-- Reads a format that a literal may name. -/
def parse? (text : List Char) : Option NumberFormat :=
  match text with
  | [] => none
  | c :: digits => do
    let kind ← NumberKind.ofLetter? c
    let width ← readBelow? 256 digits
    let format : NumberFormat := ⟨kind, width⟩
    if format.isStandard then some format else none

end NumberFormat

end Custody
