import Custody.Proofs.BuiltTypes
import Custody.Proofs.FirstDeclarations

/-!
# Members of struct types

A struct type is taken apart in two ways: `new` asks for all its members in order, and an access
asks for one member by its name. Behind the declare stage no struct has two members of one name,
whatever the stage reported, so the two agree (`Bundle.Undeclared.membersAgree`): the type that
`new` demands for a field is the type that reading the field gives.

`Ty.Replaced` says, without `Ty.substitute`, what a member of an instance is: the declared type with
every generic parameter replaced by the argument at its place.
-/

set_option autoImplicit false

namespace Custody

/-! ## Names that are declared once -/

/-- Elements that count have keys of their own, none of them taken before. -/
theorem nodup_firsts {α : Type} (key : α → String) (taken : List String) (as : List α) :
    ((firsts key taken as).map key).Nodup ∧ ∀ a ∈ firsts key taken as, key a ∉ taken := by
  induction as generalizing taken with
  | nil => exact ⟨List.nodup_nil, fun a ha => absurd ha List.not_mem_nil⟩
  | cons a as ih =>
    by_cases hmem : key a ∈ taken
    · rw [firsts_cons_of_mem key hmem]
      exact ih taken
    · rw [firsts_cons_of_not_mem key hmem]
      obtain ⟨hnodup, hnew⟩ := ih (taken ++ [key a])
      constructor
      · rw [List.map_cons, List.nodup_cons]
        refine ⟨fun hrepeat => ?_, hnodup⟩
        obtain ⟨a', ha', heq⟩ := List.mem_map.1 hrepeat
        apply hnew a' ha'
        rw [heq]
        exact List.mem_append_right taken List.mem_cons_self
      · intro a' ha'
        rcases List.mem_cons.1 ha' with rfl | ha'
        · exact hmem
        · exact fun htaken => hnew a' ha' (List.mem_append_left _ htaken)

/-- Where no name comes twice, looking a name up finds its only entry. -/
theorem lookup_eq_some_iff_mem {β : Type} {entries : List (String × β)}
    (hnodup : (entries.map Prod.fst).Nodup) {name : String} {b : β} :
    entries.lookup name = some b ↔ (name, b) ∈ entries := by
  induction entries with
  | nil => simp
  | cons e entries ih =>
    obtain ⟨name', b'⟩ := e
    rw [List.map_cons, List.nodup_cons] at hnodup
    obtain ⟨hnew, hnodup⟩ := hnodup
    by_cases hname : name = name'
    · subst hname
      have hrest : (name, b) ∉ entries := fun hmem => hnew (List.mem_map.2 ⟨_, hmem, rfl⟩)
      rw [List.lookup_cons_self, List.mem_cons, or_iff_left hrest, Option.some.injEq, Prod.mk.injEq,
        and_iff_right rfl, eq_comm]
    · have hhead : (name, b) ≠ (name', b') := fun heq => hname (congrArg Prod.fst heq)
      rw [NameMap.lookup_cons_of_ne hname, ih hnodup, List.mem_cons, or_iff_right hhead]

/-- Behind the declare stage the members of a struct have names of their own. -/
theorem Bundle.Undeclared.members_nodup {b : Bundle} (h : b.Undeclared) {id : StructId}
    {d : StructDef} (hd : b.declare.1.struct? id = some d) : (d.members.map Prod.fst).Nodup := by
  obtain ⟨u', hu', hslot⟩ := Option.bind_eq_some_iff.1 hd
  rw [Bundle.get?_declare] at hu'
  obtain ⟨u, hu, rfl⟩ := Option.map_eq_some_iff.1 hu'
  have hfirsts := SourceUnit.Undeclared.firstsCount h hu
  rw [hfirsts.structs, List.getElem?_map] at hslot
  obtain ⟨p, -, rfl⟩ := Option.map_eq_some_iff.1 hslot
  rw [List.map_map]
  exact (nodup_firsts (fun m : TypedName => m.name.name) [] p.1.members).1

/-! ## Replacing generic parameters -/

/-- What a type becomes when every generic parameter in it is replaced by the argument at its place.
There is an argument for each parameter, and there is no function and no unit in the type. -/
inductive Ty.Replaced (args : List Ty) : Ty → Ty → Prop
  | any : Replaced args .any .any
  | void : Replaced args .void .void
  | bool : Replaced args .bool .bool
  | string : Replaced args .string .string
  | number (format : NumberFormat) : Replaced args (.number format) (.number format)
  | range (format : NumberFormat) : Replaced args (.range format) (.range format)
  | pointer (kind : PointerKind) {t u : Ty} (h : Replaced args t u) :
      Replaced args (.pointer kind t) (.pointer kind u)
  | array (length : Nat) {t u : Ty} (h : Replaced args t u) :
      Replaced args (.array length t) (.array length u)
  | slice {t u : Ty} (h : Replaced args t u) : Replaced args (.slice t) (.slice u)
  | struct (id : StructId) (name : String) (arity : Nat) :
      Replaced args (.struct id name arity) (.struct id name arity)
  | inst (id : StructId) (name : String) {ts us : List Ty}
      (h : List.Forall₂ (Replaced args) ts us) :
      Replaced args (.inst id name ts) (.inst id name us)
  | generic {index : Nat} (name : String) {arg : Ty} (h : args[index]? = some arg) :
      Replaced args (.generic index name) arg

namespace Ty

variable {strict : Bool} {shape : Shape} {generics : List String} {args : List Ty}

mutual
/-- In a type of a member every parameter has its argument, so substitution replaces them all. -/
theorem Plain.replaced_substitute (hlength : generics.length = args.length) :
    ∀ t : Ty, t.Plain strict shape generics → t.Replaced args (t.substitute args)
  | any, _ => .any
  | void, _ => .void
  | bool, _ => .bool
  | string, _ => .string
  | number format, _ => .number format
  | range format, _ => .range format
  | pointer kind t, h => .pointer kind (Plain.replaced_substitute hlength t h)
  | array length t, h => .array length (Plain.replaced_substitute hlength t h)
  | slice t, h => .slice (Plain.replaced_substitute hlength t h)
  | fn _ _ _, h => h.elim
  | struct id name arity, _ => .struct id name arity
  | inst id name ts, h => .inst id name (AllPlain.replaced_substituteList hlength ts h.2)
  | unit _, h => h.elim
  | generic index name, h => by
    obtain ⟨hindex, -⟩ := List.getElem?_eq_some_iff.1 h
    have harg : args[index]? = some args[index] := List.getElem?_eq_getElem (hlength ▸ hindex)
    rw [Ty.substitute, harg]
    exact .generic name harg

theorem AllPlain.replaced_substituteList (hlength : generics.length = args.length) :
    ∀ ts : List Ty, AllPlain strict shape generics ts →
      List.Forall₂ (Replaced args) ts (substituteList args ts)
  | [], _ => .nil
  | t :: ts, h =>
    .cons (Plain.replaced_substitute hlength t h.1)
      (AllPlain.replaced_substituteList hlength ts h.2)
end

end Ty

/-! ## Fields -/

namespace Typing

variable {σ : Type}

/-- What is wrong with a field of a new struct that stands in the place of the member `expected`, if
reading the member `name` of the struct gives the type `read name`. -/
def fieldFinding? (read : Ident → Ty) (field : Ident × Typed) (expected : String) :
    Option Finding :=
  if field.1.name ≠ expected then some ⟨field.1.span, .fieldOrder expected field.1.name⟩
  else if field.2.type.coerces (read field.1) then none
  else some ⟨field.2.span, .typeMismatch (read field.1) field.2.type⟩

/-- The type that reading a member of a value of type `object` gives. -/
def typeRead (place : Place) (object : Ty) (member : Ident) : Ty :=
  ((getType place ⟨default, object⟩ member : Checking Unit Ty) ()).value

theorem findings_expectFields {read : Ident → Ty} {members : List (String × Ty)}
    (h : ∀ m ∈ members, ∀ name : Ident, name.name = m.1 → read name = m.2)
    (fields : List (Ident × Typed)) (s : σ) :
    (expectFields fields members s).log.findings =
      (fields.zip members).filterMap fun p => fieldFinding? read p.1 p.2.1 := by
  induction fields generalizing members s with
  | nil => rfl
  | cons field fields ih =>
    cases members with
    | nil => rfl
    | cons m members =>
      obtain ⟨name, value⟩ := field
      obtain ⟨expected, type⟩ := m
      obtain ⟨hread, hmembers⟩ := List.forall_mem_cons.1 h
      rw [List.zip_cons_cons, List.filterMap_cons, expectFields]
      by_cases hname : name.name = expected
      · -- The field stands in its place, so its value is compared.
        rw [if_neg (not_not_intro hname), Checking.bind_eq, Log.findings_append,
          ih hmembers, fieldFinding?, if_neg (not_not_intro hname), hread name hname, expectType]
        by_cases hfits : value.type.coerces type = true
        · rw [if_pos hfits, if_pos hfits]
          rfl
        · rw [if_neg hfits, if_neg hfits]
          rfl
      · rw [if_pos hname, Checking.bind_eq, Log.findings_append, ih hmembers,
          fieldFinding?, if_pos hname]
        rfl

variable {place : Place} {type : Ty} {id : StructId} {args : List Ty}

/-- Reading a member of a struct, or of what a pointer to it points to, looks the member up. -/
theorem getType_eq (htype : Bundle.structArgs? type = some (id, args)) {object : Ty}
    (hobject : object = type ∨ ∃ kind, object = .pointer kind type) (span : Span) (name : Ident)
    (s : σ) : getType place ⟨span, object⟩ name s =
      match place.bundle.member? type name.name with
      | some t => ⟨t, s, .empty⟩
      | none => ⟨.any, s, ⟨[], [⟨name.span, .unknownMember type name.name⟩]⟩⟩ := by
  cases type with
  | struct id' name' arity | inst id' name' arity =>
    rcases hobject with rfl | ⟨kind, rfl⟩ <;> simp only [getType, getType.ofValue]
    all_goals
      generalize place.bundle.member? _ _ = found
      cases found <;> rfl
  | _ => cases htype

/-- What `new` gives and reports, told by the types that reading the members gives. -/
theorem newType_eq (htype : Bundle.structArgs? type = some (id, args))
    {members : List (String × Ty)} (hmembers : place.bundle.members? type = some members)
    {read : Ident → Ty} (hread : ∀ m ∈ members, ∀ name : Ident, name.name = m.1 → read name = m.2)
    (span typeSpan : Span) (fields : List (Ident × Typed)) (s : σ) :
    (newType place span typeSpan type fields s).value = .pointer .owned type ∧
      (newType place span typeSpan type fields s).log.findings =
        (if members.length ≠ fields.length then
          [⟨span, .fieldCount type.text members.length fields.length⟩] else []) ++
        (fields.zip members).filterMap fun p => fieldFinding? read p.1 p.2.1 := by
  have hany : ¬ type.isAny = true := by
    cases type with
    | any => cases htype
    | _ => exact Bool.false_ne_true
  rw [newType, if_neg hany, hmembers]
  dsimp only
  by_cases hlength : members.length = fields.length
  · rw [if_neg (not_not_intro hlength), if_neg (not_not_intro hlength), Checking.bind_eq,
      Log.findings_append, findings_expectFields hread]
    exact ⟨rfl, List.append_nil _⟩
  · rw [if_pos hlength, if_pos hlength, Checking.bind_eq, Checking.bind_eq, Log.findings_append,
      Log.findings_append, findings_expectFields hread]
    exact ⟨rfl, congrArg (_ ++ ·) (List.append_nil _)⟩

end Typing

/-! ## Construction and access -/

namespace Bundle

/-- What a bundle says about the members of a struct type with the definition `d` and the arguments
`args`.

Looking up one member finds what the list of all members has. With one argument for each generic
parameter, the members are the declared ones in order, with all parameters replaced. A member of a
value, or of what a pointer points to, can be read iff it is in the list, and has the type that it
has there. What `new` demands of the fields is that each stands in its place and coerces to the type
that reading it gives. The check of a body may have filled tables in between. -/
structure MembersAgree (b : Bundle) (type : Ty) (args : List Ty) (d : StructDef)
    (members : List (String × Ty)) : Prop where
  all : b.members? type = some members
  names : members.map Prod.fst = d.members.map Prod.fst
  nodup : (members.map Prod.fst).Nodup
  one : ∀ name t, b.member? type name = some t ↔ (name, t) ∈ members
  replaced : args.length = d.generics.length →
    List.Forall₂ (fun declared m => m.1 = declared.1 ∧ declared.2.Replaced args m.2)
      d.members members
  read : ∀ place : Place, place.bundle.untyped = b.untyped →
    ∀ object, (object = type ∨ ∃ kind, object = .pointer kind type) →
    ∀ (span : Span) (name : Ident) (t : Ty),
      (Typing.getType place ⟨span, object⟩ name : Checking Unit Ty) () = ⟨t, (), .empty⟩ ↔
        (name.name, t) ∈ members
  demanded : ∀ place : Place, place.bundle.untyped = b.untyped →
    ∀ (span typeSpan : Span) (fields : List (Ident × Typed)),
    ((Typing.newType place span typeSpan type fields : Checking Unit Ty) ()).value =
    .pointer .owned type ∧
      ((Typing.newType place span typeSpan type fields : Checking Unit Ty) ()).log.findings =
        (if members.length ≠ fields.length then
          [⟨span, .fieldCount type.text members.length fields.length⟩] else []) ++
        (fields.zip members).filterMap fun p =>
          Typing.fieldFinding? (Typing.typeRead place (.pointer .owned type)) p.1 p.2.1

variable {b : Bundle} {type : Ty} {id : StructId} {args : List Ty}

/-- Tables do not matter for members. -/
theorem members?_of_untyped {b' : Bundle} (hb : b'.untyped = b.untyped) (type : Ty) :
    b'.members? type = b.members? type := by
  rw [← members?_untyped, hb, members?_untyped]

theorem member?_of_untyped {b' : Bundle} (hb : b'.untyped = b.untyped) (type : Ty) (name : String) :
    b'.member? type name = b.member? type name := by
  rw [← member?_untyped, hb, member?_untyped]

/-- A struct type has members iff its definition is there. -/
theorem members?_eq (htype : structArgs? type = some (id, args)) :
    b.members? type = (b.struct? id).map fun d => d.members.map fun m =>
      (m.1, m.2.substitute args) := by
  simp only [members?, htype, Option.bind_eq_bind, Option.bind_some, Option.pure_def]
  cases b.struct? id <;> rfl

theorem member?_eq (htype : structArgs? type = some (id, args)) {d : StructDef}
    (hd : b.struct? id = some d)
    (name : String) : b.member? type name = (d.members.lookup name).map (Ty.substitute args) := by
  simp only [member?, htype, hd, Option.bind_eq_bind, Option.bind_some, Option.pure_def,
    StructDef.member?]
  cases d.members.lookup name <;> rfl

/-- Substitution commutes with looking up a member. -/
theorem member?_eq_lookup (htype : structArgs? type = some (id, args)) {d : StructDef}
    (hd : b.struct? id = some d) (name : String) :
    b.member? type name = (d.members.map fun m => (m.1, m.2.substitute args)).lookup name := by
  rw [member?_eq htype hd]
  induction d.members with
  | nil => rfl
  | cons m members ih =>
    by_cases hname : name = m.1
    · subst hname
      rw [List.map_cons, List.lookup_cons_self, List.lookup_cons_self]
      rfl
    · rw [List.map_cons, NameMap.lookup_cons_of_ne hname, NameMap.lookup_cons_of_ne hname, ih]

theorem Undeclared.membersAgree (h : b.Undeclared) (htype : structArgs? type = some (id, args))
    {d : StructDef} (hd : b.declare.1.struct? id = some d) :
    b.declare.1.MembersAgree type args d (d.members.map fun m => (m.1, m.2.substitute args)) := by
  have hall : b.declare.1.members? type =
      some (d.members.map fun m => (m.1, m.2.substitute args)) := by
    rw [members?_eq htype, hd]
    rfl
  have hnames : (d.members.map fun m => (m.1, m.2.substitute args)).map Prod.fst =
      d.members.map Prod.fst := by
    rw [List.map_map]
    rfl
  have hnodup : ((d.members.map fun m => (m.1, m.2.substitute args)).map Prod.fst).Nodup := by
    rw [hnames]
    exact h.members_nodup hd
  have hone : ∀ name t, b.declare.1.member? type name = some t ↔
      (name, t) ∈ d.members.map fun m => (m.1, m.2.substitute args) := by
    intro name t
    rw [member?_eq_lookup htype hd]
    exact lookup_eq_some_iff_mem hnodup
  refine ⟨hall, hnames, hnodup, hone, ?_, ?_, ?_⟩
  · intro hlength
    -- A member has no parameters but those of its struct, so each of them has an argument.
    obtain ⟨hsound, -⟩ := h.declare_sound_false
    obtain ⟨-, hplain⟩ := hsound.struct? hd
    rw [List.forall₂_map_right_iff, List.forall₂_same]
    intro m hm
    exact ⟨rfl, (hplain m hm).replaced_substitute hlength.symm⟩
  · intro place hplace object hobject span name t
    rw [Typing.getType_eq htype hobject, member?_of_untyped hplace, ← hone]
    cases b.declare.1.member? type name.name with
    | none => simp [Log.empty]
    | some t' => simp
  · intro place hplace span typeSpan fields
    refine Typing.newType_eq htype ((members?_of_untyped hplace type).trans hall)
      ?_ span typeSpan fields ()
    rintro ⟨name', t⟩ hm name rfl
    rw [Typing.typeRead, Typing.getType_eq htype (.inr ⟨.owned, rfl⟩), member?_of_untyped hplace,
      (hone _ _).2 hm]

/-- Behind the declare stage, whatever it reported, a struct type has members iff its definition
exists. The names of its members are then different, and construction and access agree on them. -/
theorem members_agree (h : b.Undeclared) (htype : structArgs? type = some (id, args)) :
    ((b.declare.1.members? type).isSome = true ↔ ∃ d, b.declare.1.struct? id = some d) ∧
      ∀ d, b.declare.1.struct? id = some d →
        ∃ members, b.declare.1.MembersAgree type args d members := by
  constructor
  · rw [members?_eq htype, Option.isSome_map, Option.isSome_iff_exists]
  · intro d hd
    exact ⟨_, h.membersAgree htype hd⟩

/-- A generic struct with a member of its own type and a member that is declared twice. -/
def cells : List (String × String) :=
  [("main", "struct Cell[T] { v: T, n: ^Cell[T], v: u8 }")]

/-- A cell of cells of truth values: the declare stage reports the repeated member, and the members
that count are a cell and a pointer to a cell of cells. -/
theorem members_agree_cells :
    ∃ (b : Bundle) (d : StructDef) (members : List (String × Ty)), b.Undeclared ∧
      b.declare.2.map Report.fault = [.duplicateDeclaration "v"] ∧
      b.declare.1.struct? ⟨0, 0⟩ = some d ∧ d.generics.length = 1 ∧
      b.declare.1.MembersAgree (.inst ⟨0, 0⟩ "Cell" [.inst ⟨0, 0⟩ "Cell" [.bool]])
        [.inst ⟨0, 0⟩ "Cell" [.bool]] d members ∧
      members = [("v", .inst ⟨0, 0⟩ "Cell" [.bool]),
        ("n", .pointer .weak (.inst ⟨0, 0⟩ "Cell" [.inst ⟨0, 0⟩ "Cell" [.bool]]))] := by
  have htexts : ((ofTexts cells).any fun b =>
      b.declare.2.map Report.fault == [.duplicateDeclaration "v"] &&
        (b.declare.1.struct? ⟨0, 0⟩).any fun d => d.generics.length == 1 &&
          b.declare.1.members? (.inst ⟨0, 0⟩ "Cell" [.inst ⟨0, 0⟩ "Cell" [.bool]]) ==
            some [("v", .inst ⟨0, 0⟩ "Cell" [.bool]),
              ("n", .pointer .weak (.inst ⟨0, 0⟩ "Cell" [.inst ⟨0, 0⟩ "Cell" [.bool]]))]) = true :=
    any_ofTexts (.cons rfl .nil) (by decide +kernel)
  simp only [Option.any_eq_true, Bool.and_eq_true, beq_iff_eq] at htexts
  obtain ⟨b, hb, hfaults, d, hd, hgenerics, hmembers⟩ := htexts
  have hundeclared := (parsed_of_ofTexts hb).undeclared
  have htype : structArgs? (.inst ⟨0, 0⟩ "Cell" [.inst ⟨0, 0⟩ "Cell" [.bool]]) =
      some (⟨0, 0⟩, [.inst ⟨0, 0⟩ "Cell" [.bool]]) := rfl
  obtain ⟨members, hagree⟩ := (members_agree hundeclared htype).2 d hd
  exact ⟨b, d, members, hundeclared, hfaults, hd, hgenerics, hagree,
    Option.some.inj (hagree.all.symm.trans hmembers)⟩

end Bundle

end Custody
