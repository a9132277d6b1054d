import Custody.Number
import Custody.Tree

/-!
# Types

What a type expression stands for, once its names are looked up. A struct is known by the place of
its declaration, not by its name. `Ty.any` takes part in every relation; it is the type of `zero`
and of whatever failed to check.
-/

set_option autoImplicit false

namespace Custody

/-- The declaration of a struct: the number of its unit, and its place among the unit's structs. -/
structure StructId where
  unit : Nat
  index : Nat
  deriving DecidableEq, Repr, Inhabited

/-- Types. -/
inductive Ty where
  | any
  | void
  | bool
  | string
  | number (format : NumberFormat)
  | range (format : NumberFormat)
  | pointer (kind : PointerKind) (pointee : Ty)
  | array (length : Nat) (element : Ty)
  | slice (element : Ty)
  | fn (arity : Nat) (params : List Ty) (result : Ty)
  | struct (id : StructId) (name : String) (arity : Nat)
  | inst (id : StructId) (name : String) (args : List Ty)
  | unit (unit : Nat)
  | generic (index : Nat) (name : String)
  deriving Repr, Inhabited

/-- The signature of a function with `arity` generic parameters. -/
structure Signature where
  arity : Nat
  params : List Ty
  result : Ty
  deriving Repr, Inhabited

/-- The type of a function with the signature. -/
def Signature.ty (s : Signature) : Ty := .fn s.arity s.params s.result

namespace Ty

/-! ## Equality -/

mutual
/-- Whether two types are the same, names included. -/
def beq : Ty → Ty → Bool
  | any, any => true
  | void, void => true
  | bool, bool => true
  | string, string => true
  | number a, number b => a == b
  | range a, range b => a == b
  | pointer k a, pointer l b => k == l && beq a b
  | array m a, array n b => m == n && beq a b
  | slice a, slice b => beq a b
  | fn m ps a, fn n qs b => m == n && beqList ps qs && beq a b
  | struct i m j, struct k n l => i == k && m == n && j == l
  | inst i m as, inst k n bs => i == k && m == n && beqList as bs
  | unit a, unit b => a == b
  | generic i m, generic j n => i == j && m == n
  | _, _ => false

/-- Whether two lists of types are the same. -/
def beqList : List Ty → List Ty → Bool
  | [], [] => true
  | a :: as, b :: bs => beq a b && beqList as bs
  | _, _ => false
end

mutual
theorem beq_refl : ∀ t : Ty, beq t t = true
  | any | void | bool | string => rfl
  | number _ => by simp [beq]
  | range _ => by simp [beq]
  | pointer _ t => by simp [beq, beq_refl t]
  | array _ t => by simp [beq, beq_refl t]
  | slice t => by simp [beq, beq_refl t]
  | fn _ ps r => by simp [beq, beqList_refl ps, beq_refl r]
  | struct _ _ _ => by simp [beq]
  | inst _ _ as => by simp [beq, beqList_refl as]
  | unit _ => by simp [beq]
  | generic _ _ => by simp [beq]

theorem beqList_refl : ∀ ts : List Ty, beqList ts ts = true
  | [] => rfl
  | t :: ts => by simp [beqList, beq_refl t, beqList_refl ts]
end

mutual
theorem eq_of_beq : ∀ {a b : Ty}, beq a b = true → a = b
  | any, b, h => by cases b <;> simp_all [beq]
  | void, b, h => by cases b <;> simp_all [beq]
  | bool, b, h => by cases b <;> simp_all [beq]
  | string, b, h => by cases b <;> simp_all [beq]
  | number _, b, h => by cases b <;> simp_all [beq]
  | range _, b, h => by cases b <;> simp_all [beq]
  | pointer _ t, b, h => by
    cases b <;> simp [beq] at h
    rw [h.1, eq_of_beq h.2]
  | array _ t, b, h => by
    cases b <;> simp [beq] at h
    rw [h.1, eq_of_beq h.2]
  | slice t, b, h => by
    cases b <;> simp [beq] at h
    rw [eq_of_beq h]
  | fn _ ps r, b, h => by
    cases b <;> simp [beq] at h
    rw [h.1.1, eq_of_beqList h.1.2, eq_of_beq h.2]
  | struct _ _ _, b, h => by cases b <;> simp_all [beq]
  | inst _ _ as, b, h => by
    cases b <;> simp [beq] at h
    rw [h.1.1, h.1.2, eq_of_beqList h.2]
  | unit _, b, h => by cases b <;> simp_all [beq]
  | generic _ _, b, h => by cases b <;> simp_all [beq]

theorem eq_of_beqList : ∀ {as bs : List Ty}, beqList as bs = true → as = bs
  | [], [], _ => rfl
  | [], _ :: _, h => by simp [beqList] at h
  | _ :: _, [], h => by simp [beqList] at h
  | a :: as, b :: bs, h => by
    simp [beqList] at h
    rw [eq_of_beq h.1, eq_of_beqList h.2]
end

instance : DecidableEq Ty := fun a b =>
  if h : beq a b = true then isTrue (eq_of_beq h)
  else isFalse fun e => h (e ▸ beq_refl a)

/-! ## Views -/

/-- The type of `null`. -/
def nullPointer : Ty := pointer .weak any

/-- Whether the type is `any`. -/
def isAny : Ty → Bool
  | any => true
  | _ => false

/-- Whether a value of the type owns what it points to. -/
def isOwnedPointer : Ty → Bool
  | pointer .owned _ => true
  | _ => false

/-- The format of a number type. -/
def number? : Ty → Option NumberFormat
  | number format => some format
  | _ => none

/-- The declaration of a struct type. -/
def structId? : Ty → Option StructId
  | struct id _ _ => some id
  | inst id _ _ => some id
  | _ => none

/-- The declaration of a struct type, or of the struct type that a pointer points to. -/
def structBase? : Ty → Option StructId
  | pointer _ t => t.structId?
  | t => t.structId?

mutual
/-- Whether a generic parameter occurs in the type. -/
def hasGenerics : Ty → Bool
  | generic _ _ => true
  | pointer _ t => hasGenerics t
  | array _ t => hasGenerics t
  | slice t => hasGenerics t
  | fn _ ps r => anyHasGenerics ps || hasGenerics r
  | inst _ _ as => anyHasGenerics as
  | _ => false

/-- Whether a generic parameter occurs in one of the types. -/
def anyHasGenerics : List Ty → Bool
  | [] => false
  | t :: ts => hasGenerics t || anyHasGenerics ts
end

mutual
/-- A type as messages write it. -/
def text : Ty → String
  | any => "any"
  | void => "void"
  | bool => "bool"
  | string => "str"
  | number format => format.text
  | range format => "range[" ++ format.text ++ "]"
  | pointer kind t => kind.sign ++ text t
  | array length t => "[" ++ toString length ++ "]" ++ text t
  | slice t => "[]" ++ text t
  | fn _ ps r => "fn(" ++ listText ps ++ ") " ++ text r
  | struct _ name _ => name
  | inst _ name as => name ++ "[" ++ listText as ++ "]"
  | unit n => "namespace(unit " ++ toString n ++ ")"
  | generic _ name => name

/-- Types with commas between them. -/
def listText : List Ty → String
  | [] => ""
  | t :: ts => text t ++ tailText ts

/-- The types behind the first one. -/
def tailText : List Ty → String
  | [] => ""
  | t :: ts => ", " ++ text t ++ tailText ts
end

/-- The types that every unit knows by name. -/
def builtins : List (String × Ty) :=
  [("void", void), ("bool", bool), ("str", string),
    ("u8", number ⟨.unsigned, 8⟩), ("u16", number ⟨.unsigned, 16⟩),
    ("u32", number ⟨.unsigned, 32⟩), ("u64", number ⟨.unsigned, 64⟩),
    ("i8", number ⟨.signed, 8⟩), ("i16", number ⟨.signed, 16⟩),
    ("i32", number ⟨.signed, 32⟩), ("i64", number ⟨.signed, 64⟩),
    ("f32", number ⟨.float, 32⟩), ("f64", number ⟨.float, 64⟩)]

end Ty

instance : DecidableEq Signature := fun a b =>
  match a, b with
  | ⟨_, _, _⟩, ⟨_, _, _⟩ => decidable_of_iff _ (Signature.mk.injEq ..).symm.to_iff

/-- Whether the format is one of integers. -/
def NumberFormat.isInteger (format : NumberFormat) : Bool :=
  format.kind != .float

end Custody
