import Custody.Proofs.Records
import Custody.Proofs.Refiling
import Custody.Proofs.WellFormed

/-!
# Relabelled units and structs

A struct is known by the number of its unit and its place there, so the order of units and of
declarations can be seen in types and findings. A `Relabelling` gives units new numbers and structs
new places, each one its own. It acts on types and on all that holds types.

The relations between types do not look at labels: they are the same before and after (`agrees_ty`,
`coerces_ty`, `unify_ty`), and substitution commutes with relabelling (`substitute_ty`). Nor does
the text of a plain type show any (`text_ty`).
-/

set_option autoImplicit false

namespace Custody

/-- New numbers for units, and new places for the structs of each unit. -/
structure Relabelling where
  unit : Nat → Nat
  index : Nat → Nat → Nat
  unit_bijective : Function.Bijective unit
  index_bijective : ∀ i, Function.Bijective (index i)

namespace Relabelling

variable (τ : Relabelling)

/-- The new label of a struct. -/
def struct (id : StructId) : StructId := ⟨τ.unit id.unit, τ.index id.unit id.index⟩

/-- Different structs have different new labels. -/
theorem struct_injective : Function.Injective τ.struct := by
  rintro ⟨i, k⟩ ⟨j, l⟩ h
  obtain ⟨hunit, hindex⟩ := StructId.mk.inj h
  obtain rfl : i = j := τ.unit_bijective.1 hunit
  obtain rfl : k = l := (τ.index_bijective i).1 hindex
  rfl

theorem beq_struct (a b : StructId) : (τ.struct a == τ.struct b) = (a == b) := by
  rw [Bool.eq_iff_iff, beq_iff_eq, beq_iff_eq, τ.struct_injective.eq_iff]

/-- Different units have different new labels. -/
theorem beq_unit (a b : Nat) : (τ.unit a == τ.unit b) = (a == b) := by
  rw [Bool.eq_iff_iff, beq_iff_eq, beq_iff_eq, τ.unit_bijective.1.eq_iff]

/-! ## Types -/

mutual
/-- The type with new labels. -/
def ty : Ty → Ty
  | .pointer kind t => .pointer kind (ty t)
  | .array length t => .array length (ty t)
  | .slice t => .slice (ty t)
  | .fn arity params result => .fn arity (tys params) (ty result)
  | .struct id name arity => .struct (τ.struct id) name arity
  | .inst id name args => .inst (τ.struct id) name (tys args)
  | .unit i => .unit (τ.unit i)
  | .any => .any
  | .void => .void
  | .bool => .bool
  | .string => .string
  | .number format => .number format
  | .range format => .range format
  | .generic index name => .generic index name

/-- Types with new labels. -/
def tys : List Ty → List Ty
  | [] => []
  | t :: ts => ty t :: tys ts
end

theorem tys_eq_map (ts : List Ty) : τ.tys ts = ts.map τ.ty := by
  induction ts with
  | nil => rfl
  | cons t ts ih => rw [tys, ih, List.map_cons]

theorem length_tys (ts : List Ty) : (τ.tys ts).length = ts.length := by
  rw [tys_eq_map, List.length_map]

mutual
/-- Types agree under new labels iff they agreed before. -/
theorem agrees_ty : ∀ a b : Ty, (τ.ty a).agrees (τ.ty b) = a.agrees b
  | .any, b => by simp only [ty, Ty.agrees]
  | .void, b | .bool, b | .string, b | .number _, b | .range _, b | .generic _ _, b => by
    cases b <;> simp only [ty, Ty.agrees]
  | .pointer _ a, b | .array _ a, b | .slice a, b => by
    cases b <;> simp only [ty, Ty.agrees, agrees_ty a]
  | .fn _ ps a, b => by cases b <;> simp only [ty, Ty.agrees, agrees_ty a, allAgree_tys ps]
  | .struct _ _ _, b => by
    cases b <;> simp only [ty, Ty.agrees, beq_struct]
  | .inst _ _ as, b => by
    cases b <;> simp only [ty, Ty.agrees, beq_struct, allAgree_tys as]
  | .unit _, b => by
    cases b <;> simp only [ty, Ty.agrees, beq_unit]

theorem allAgree_tys : ∀ as bs : List Ty, Ty.allAgree (τ.tys as) (τ.tys bs) = Ty.allAgree as bs
  | [], bs => by cases bs <;> simp only [tys, Ty.allAgree]
  | a :: as, bs => by cases bs <;> simp only [tys, Ty.allAgree, agrees_ty a, allAgree_tys as]
end

theorem isAny_ty (t : Ty) : (τ.ty t).isAny = t.isAny := by
  cases t <;> rfl

/-- A type fits another one under new labels iff it did before. -/
theorem coerces_ty (a b : Ty) : (τ.ty a).coerces (τ.ty b) = a.coerces b := by
  unfold Ty.coerces
  rw [agrees_ty]
  refine congrArg (a.agrees b || ·) ?_
  cases a with
  | number x => cases b <;> rfl
  | pointer kind t =>
    have hany := τ.isAny_ty t
    cases kind <;> cases b <;> first | rfl | exact hany
  | _ => rfl

/-- Only `any` becomes `any`. -/
theorem ty_eq_any {t : Ty} : τ.ty t = .any ↔ t = .any := by
  cases t <;> simp [ty]

theorem ty_eq_number {t : Ty} {format : NumberFormat} :
    τ.ty t = .number format ↔ t = .number format := by
  cases t <;> simp [ty]

/-- The common type of relabelled types is the relabelled common type. -/
theorem unify_ty (a b : Ty) : (τ.ty a).unify (τ.ty b) = (a.unify b).map τ.ty := by
  -- Only `any` and numbers are told apart from other types, and they have no labels.
  by_cases ha : a = .any
  · subst ha
    rfl
  by_cases hb : b = .any
  · subst hb
    rw [ty, Ty.unify.eq_2 a ha, Ty.unify.eq_2 _ (mt τ.ty_eq_any.1 ha), Option.map_some]
  by_cases hnumbers : ∃ x y, a = .number x ∧ b = .number y
  · obtain ⟨x, y, rfl, rfl⟩ := hnumbers
    simp only [ty, Ty.unify]
    split
    · split <;> rfl
    · rfl
  have hneither : ∀ x y, a = .number x → b = .number y → False :=
    fun x y hx hy => hnumbers ⟨x, y, hx, hy⟩
  rw [Ty.unify.eq_4 a b ha hb hneither,
    Ty.unify.eq_4 _ _ (mt τ.ty_eq_any.1 ha) (mt τ.ty_eq_any.1 hb)
    fun x y hx hy => hneither x y (τ.ty_eq_number.1 hx) (τ.ty_eq_number.1 hy),
    coerces_ty, coerces_ty]
  split
  · rfl
  · split <;> rfl

mutual
/-- It does not matter whether type arguments are put in first or labels. -/
theorem substitute_ty (args : List Ty) : ∀ t : Ty,
    τ.ty (t.substitute args) = (τ.ty t).substitute (τ.tys args)
  | .pointer _ t | .array _ t | .slice t => by
    rw [Ty.substitute, ty, ty, Ty.substitute, substitute_ty args t]
  | .fn _ ps r => by
    rw [Ty.substitute, ty, ty, Ty.substitute, substitute_ty args r, substituteList_ty args ps]
  | .inst _ _ as => by rw [Ty.substitute, ty, ty, Ty.substitute, substituteList_ty args as]
  | .generic index _ => by
    rw [ty, Ty.substitute, Ty.substitute, tys_eq_map, List.getElem?_map]
    cases args[index]? <;> rfl
  | .struct _ _ _ | .unit _ | .any | .void | .bool | .string | .number _ | .range _ => rfl

theorem substituteList_ty (args : List Ty) : ∀ ts : List Ty,
    τ.tys (Ty.substituteList args ts) = Ty.substituteList (τ.tys args) (τ.tys ts)
  | [] => rfl
  | t :: ts => by
    rw [Ty.substituteList, tys, tys, Ty.substituteList, substitute_ty args t,
      substituteList_ty args ts]
end

/-- Type arguments are filled up or cut off alike. -/
theorem fitArgs_tys (args : List Ty) (arity : Nat) :
    τ.tys (Ty.fitArgs args arity) = Ty.fitArgs (τ.tys args) arity := by
  simp only [Ty.fitArgs, tys_eq_map, List.map_append, List.map_take, List.map_replicate,
    List.length_map, ty]

section Text

variable {strict : Bool} {shape : Shape} {generics : List String}

mutual
/-- A plain type has no unit inside, so no label is part of its text. -/
theorem text_ty : ∀ t : Ty, t.Plain strict shape generics → (τ.ty t).text = t.text
  | .pointer kind t, h => congrArg (kind.sign ++ ·) (text_ty t h)
  | .array length t, h => congrArg ("[" ++ toString length ++ "]" ++ ·) (text_ty t h)
  | .slice t, h => congrArg ("[]" ++ ·) (text_ty t h)
  | .fn _ _ _, h => h.elim
  | .inst _ name as, h => congrArg (name ++ "[" ++ · ++ "]") (listText_tys as h.2)
  | .generic _ _, _ | .struct _ _ _, _ | .any, _ | .void, _ | .bool, _ | .string, _ | .number _, _
  | .range _, _ => rfl
  | .unit _, h => h.elim

theorem listText_tys : ∀ ts : List Ty, Ty.AllPlain strict shape generics ts →
    Ty.listText (τ.tys ts) = Ty.listText ts
  | [], _ => rfl
  | t :: ts, h => congrArg₂ (· ++ ·) (text_ty t h.1) (tailText_tys ts h.2)

theorem tailText_tys : ∀ ts : List Ty, Ty.AllPlain strict shape generics ts →
    Ty.tailText (τ.tys ts) = Ty.tailText ts
  | [], _ => rfl
  | t :: ts, h => congrArg₂ (", " ++ · ++ ·) (text_ty t h.1) (tailText_tys ts h.2)
end

end Text

/-! ## What holds types -/

/-- The signature with new labels. -/
def signature (s : Signature) : Signature := ⟨s.arity, τ.tys s.params, τ.ty s.result⟩

/-- The struct with new labels. -/
def structDef (d : StructDef) : StructDef :=
  { d with
    id := τ.struct d.id
    span := d.span.refile τ.unit
    members := d.members.map fun m => (m.1, τ.ty m.2) }

/-- The scope with new labels. -/
def scope (s : Scope) : Scope := ⟨s.entries.map fun e => (e.1, τ.ty e.2)⟩

/-- The scopes with new labels. -/
def scopes (s : ScopeStack) : ScopeStack := ⟨τ.scope s.inner, s.outer.map τ.scope⟩

/-- The fault with new labels. -/
def fault : Fault → Fault
  | .typeMismatch expected found => .typeMismatch (τ.ty expected) (τ.ty found)
  | .notCallable type => .notCallable (τ.ty type)
  | .notIndexable type => .notIndexable (τ.ty type)
  | .notIterable type => .notIterable (τ.ty type)
  | .derefNonPointer type => .derefNonPointer (τ.ty type)
  | .invalidOperand op type => .invalidOperand op (τ.ty type)
  | .notAStruct type => .notAStruct (τ.ty type)
  | .unknownMember type member => .unknownMember (τ.ty type) member
  | fault => fault

/-- The finding with new labels, in the renumbered file. -/
def finding (f : Finding) : Finding := ⟨f.span.refile τ.unit, τ.fault f.fault⟩

/-- The report with new labels, in the renumbered file. -/
def report (r : Report) : Report :=
  { r with
    span := r.span.refile τ.unit
    fault := τ.fault r.fault
    notes := r.notes.map fun n => { n with span := n.span.refile τ.unit } }

/-- The log with new labels. -/
def log (l : Log) : Log := ⟨l.types.map fun e => (e.1, τ.ty e.2), l.findings.map τ.finding⟩

/-- A name stands for the relabelled type in a relabelled scope. -/
theorem get?_scope (s : Scope) (name : String) :
    (τ.scope s).get? name = (s.get? name).map τ.ty := by
  unfold scope NameMap.get?
  induction s.entries with
  | nil => rfl
  | cons e entries ih =>
    obtain ⟨key, t⟩ := e
    rw [List.map_cons, List.lookup_cons, List.lookup_cons, ih]
    cases name == key <;> rfl

end Relabelling

end Custody
