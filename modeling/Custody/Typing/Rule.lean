import Custody.Ty.Relation
import Custody.Typing.Resolve

/-!
# Typing rules

For each form of expression, its type from the types of its parts. A part that does not fit is
reported, and the type goes on as `any` or as what the form always gives. Nothing is reported about
a part of type `any`.
-/

set_option autoImplicit false

namespace Custody

variable {σ : Type}

/-- A part of an expression: where it stands, and its type. -/
structure Typed where
  span : Span
  type : Ty
  deriving DecidableEq, Repr

namespace Typing

open Checking

/-- Reports a part whose type does not coerce to the expected one. -/
def expectType (part : Typed) (expected : Ty) : Checking σ Unit :=
  if part.type.coerces expected then pure ()
  else report part.span (.typeMismatch expected part.type)

/-- Reports an operand that the operator does not take, and says whether it takes it. -/
def expectOperand (op : String) (part : Typed) (accepts : Ty → Bool) : Checking σ Bool := do
  if part.type.isAny || accepts part.type then return true
  else
    report part.span (.invalidOperand op part.type)
    return false

/-! ## Classes of operands -/

/-- Truth values. -/
def isBool : Ty → Bool
  | .bool => true
  | _ => false

/-- Numbers. -/
def isNumber : Ty → Bool
  | .number _ => true
  | _ => false

/-- Integers. -/
def isInteger : Ty → Bool
  | .number format => format.isInteger
  | _ => false

/-- Numbers with a sign. -/
def isSigned : Ty → Bool
  | .number format => format.kind != .unsigned
  | _ => false

/-- What can be compared for equality. -/
def isComparable : Ty → Bool
  | .number _ | .bool | .string | .pointer _ _ => true
  | _ => false

/-! ## Rules -/

/-- A number without a format is `f64` if it has a fraction and `i64` otherwise. -/
def numberType (literal : NumberLiteral) : Ty :=
  match literal.format with
  | some format => .number format
  | none => if literal.isDecimal then .number ⟨.float, 64⟩ else .number ⟨.signed, 64⟩

/-- A name is a local, or else a function of the unit, or else an alias. -/
def identType (place : Place) (locals : ScopeStack) (name : Ident) : Checking σ Ty :=
  match (locals.lookup name.name).or
      ((place.unit.functions.get? name.name).or (place.unit.namespaces.get? name.name)) with
  | some type => pure type
  | none => do
    report name.span (.unknownIdentifier name.name)
    return .any

/-- The common type of two operands that the operator takes. -/
def commonType (left right : Typed) : Checking σ Ty :=
  match left.type.unify right.type with
  | some type => pure type
  | none => do
    report right.span (.typeMismatch left.type right.type)
    return .any

/-- Logical operators take truth values; the others take operands of one type, numbers unless they
compare for equality. Only arithmetic gives a number. -/
def binaryType (op : BinaryOp) (left right : Typed) : Checking σ Ty := do
  if op.isLogical then
    let _ ← expectOperand op.text left isBool
    let _ ← expectOperand op.text right isBool
    return .bool
  else
    let accepts := if op.isEquality then isComparable else isNumber
    let leftFits ← expectOperand op.text left accepts
    let rightFits ← expectOperand op.text right accepts
    let common ← if leftFits && rightFits then commonType left right else pure .any
    return if op.isArithmetic then common else .bool

/-- Operators in front of an operand. -/
def unaryType (op : UnaryOp) (operand : Typed) : Checking σ Ty := do
  match op with
  | .not =>
    let _ ← expectOperand op.name operand isBool
    return .bool
  | .negate =>
    if ← expectOperand op.name operand isSigned then return operand.type else return .any
  | .addressOf => return .pointer .weak operand.type
  | .own => return .pointer .owned operand.type
  | .deref =>
    match operand.type with
    | .pointer _ pointee => return pointee
    | .any => return .any
    | other =>
      report operand.span (.derefNonPointer other)
      return .any

/-- The name of a function in a message about its type arguments. -/
def calleeName : Expr → String
  | .ident _ name => name.name
  | .get _ _ member => member.name
  | _ => "function"

/-- The signature of a call with its type arguments put in; missing ones are `any`. -/
def callSignature (builder : InstanceBuilder σ) (callee : Expr) (signature : Signature)
    (typeArgs : List Ty) : Checking σ Signature := do
  if typeArgs.length ≠ signature.arity then
    report callee.span (.genericArity (calleeName callee) signature.arity typeArgs.length)
    build (builder.fn signature (Ty.fitArgs typeArgs signature.arity))
  else if signature.arity = 0 then return signature
  else build (builder.fn signature typeArgs)

/-- Reports the arguments that do not coerce to their parameters. -/
def expectAll : List Typed → List Ty → Checking σ Unit
  | part :: parts, expected :: rest => do
    expectType part expected
    expectAll parts rest
  | _, _ => pure ()

/-- A call has as many arguments as the function has parameters, and each coerces to its one. -/
def callType (place : Place) (builder : InstanceBuilder σ) (span : Span) (callee : Expr)
    (calleeType : Ty) (typeArgs : List TypeExpr) (args : List Typed) : Checking σ Ty := do
  match calleeType with
  | .fn arity params result =>
    let types ← place.resolveAll builder typeArgs
    let signature ← callSignature builder callee ⟨arity, params, result⟩ types
    if signature.params.length ≠ args.length then
      report span (.argumentCount signature.params.length args.length)
    expectAll args signature.params
    return signature.result
  | .any => return .any
  | other =>
    report callee.span (.notCallable other)
    return .any

/-- A member of a struct, of what a pointer points to, or of an imported unit. -/
def getType (place : Place) (object : Typed) (member : Ident) : Checking σ Ty := do
  match object.type with
  | .unit target =>
    match (place.bundle.get? target).bind fun u => u.functions.get? member.name with
    | some type => return type
    | none =>
      report member.span (.unknownMember object.type member.name)
      return .any
  | .pointer _ pointee => ofValue pointee
  | other => ofValue other
where
  /-- A member of a value that is no unit. -/
  ofValue (target : Ty) : Checking σ Ty := do
    match target with
    | .any => return .any
    | .struct .. | .inst .. =>
      match place.bundle.member? target member.name with
      | some type => return type
      | none =>
        report member.span (.unknownMember target member.name)
        return .any
    | other =>
      report object.span (.notAStruct other)
      return .any

/-- Reports the fields of a new struct that have another name than the member in their place, or a
value that does not coerce to it. -/
def expectFields : List (Ident × Typed) → List (String × Ty) → Checking σ Unit
  | (name, value) :: fields, (expected, type) :: members => do
    if name.name ≠ expected then report name.span (.fieldOrder expected name.name)
    else expectType value type
    expectFields fields members
  | _, _ => pure ()

/-- A new struct lists all members in the order of their declaration; it is owned. -/
def newType (place : Place) (span typeSpan : Span) (type : Ty) (fields : List (Ident × Typed)) :
    Checking σ Ty := do
  if type.isAny then return .pointer .owned .any
  else
    match place.bundle.members? type with
    | none =>
      report typeSpan (.notAStruct type)
      return .any
    | some members =>
      if members.length ≠ fields.length then
        report span (.fieldCount type.text members.length fields.length)
      expectFields fields members
      return .pointer .owned type

/-- An array has as many elements as its type says, and each coerces to the element type. -/
def staticArrayType (span : Span) (type : Ty) (elements : List Typed) : Checking σ Ty := do
  match type with
  | .array length element =>
    if length ≠ elements.length then report span (.arrayLength length elements.length)
    expectAll elements (elements.map fun _ => element)
    return type
  | _ => return .any

/-- An element of an array or slice, or the slice of a range of them. -/
def subscriptType (object index : Typed) : Checking σ Ty := do
  match object.type with
  | .array _ element => ofElement element
  | .slice element => ofElement element
  | .any => return .any
  | other =>
    report object.span (.notIndexable other)
    return .any
where
  /-- What the index picks from values of type `element`. -/
  ofElement (element : Ty) : Checking σ Ty := do
    match index.type with
    | .range _ => return .slice element
    | .any => return element
    | other =>
      if isInteger other then return element
      else
        report index.span (.typeMismatch (.number ⟨.unsigned, 64⟩) other)
        return element

/-- A range of integers. -/
def rangeType (first last : Typed) : Checking σ Ty := do
  let firstFits ← expectOperand ".." first isInteger
  let lastFits ← expectOperand ".." last isInteger
  if firstFits && lastFits then
    match first.type.unify last.type with
    | some (.number format) => return .range format
    | some _ => return .range ⟨.signed, 64⟩
    | none =>
      report last.span (.typeMismatch first.type last.type)
      return .any
  else return .any

/-- The elements that a loop goes over. -/
def elementType (iterable : Typed) : Checking σ Ty :=
  match iterable.type with
  | .array _ element => pure element
  | .slice element => pure element
  | .range format => pure (.number format)
  | .any => pure .any
  | other => do
    report iterable.span (.notIterable other)
    return .any

/-- Whether a value can be assigned to the expression. -/
def isAssignable : Expr → Bool
  | .ident .. | .get .. | .subscript .. | .unary _ .deref _ => true
  | _ => false

end Typing

end Custody
