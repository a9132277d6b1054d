import Custody.Ty

/-!
# Agreement, coercion and joins

* `Ty.agrees` compares the shape of two types; `any` agrees with everything, and structs and generic
  parameters are compared without their names.
* `Ty.coerces` says whether a value of one type may be stored where another is wanted: numbers
  widen within their family, and `null` fits every pointer.
* `Ty.unify` is the common type of two operands.
-/

set_option autoImplicit false

namespace Custody.Ty

mutual
/-- Whether two types have the same shape. -/
def agrees : Ty → Ty → Bool
  | any, _ => true
  | _, any => true
  | void, void => true
  | bool, bool => true
  | string, string => true
  | number a, number b => a == b
  | range a, range b => a == b
  | pointer k a, pointer l b => k == l && agrees a b
  | array m a, array n b => m == n && agrees a b
  | slice a, slice b => agrees a b
  | fn m ps a, fn n qs b => m == n && allAgree ps qs && agrees a b
  | struct i _ _, struct k _ _ => i == k
  | inst i _ as, inst k _ bs => i == k && allAgree as bs
  | unit a, unit b => a == b
  | generic i _, generic j _ => i == j
  | _, _ => false

/-- Whether two lists of types agree one by one. -/
def allAgree : List Ty → List Ty → Bool
  | [], [] => true
  | a :: as, b :: bs => agrees a b && allAgree as bs
  | _, _ => false
end

/-- Whether a number of one format may be stored in another. -/
def widens (a b : NumberFormat) : Bool :=
  a.kind == b.kind && a.width ≤ b.width

/-- Whether a value of type `actual` may be stored where `expected` is wanted. -/
def coerces (actual expected : Ty) : Bool :=
  actual.agrees expected ||
    match actual, expected with
    | number a, number e => widens a e
    | pointer .weak t, pointer _ _ => t.isAny
    | _, _ => false

/-- The common type of two operands: the wider of two numbers of one family, or the one that the
other coerces to, the left one first. -/
def unify (a b : Ty) : Option Ty :=
  match a, b with
  | any, b => some b
  | a, any => some a
  | number x, number y =>
    if x.kind = y.kind then some (if y.width ≤ x.width then number x else number y)
    else none
  | a, b => if b.coerces a then some a else if a.coerces b then some b else none

end Custody.Ty
