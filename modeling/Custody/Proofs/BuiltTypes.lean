import Custody.Proofs.NodeTypes
import Custody.Proofs.Outlines
import Custody.Proofs.Resemblance

/-!
# Types that the stages build

`Ty.WellFormed b generics t` says of a type that everything in it exists: its structs are declared
in the bundle under the names that it has for them and get as many arguments as they have
parameters, its generic parameters are among `generics`, its units are units of the bundle. A
function type has parameters of its own.

Whatever the declare stage reports, the members and signatures that it leaves are well formed, and
aliases lead to units. If it reports nothing, the check of a function records only types that are
well formed over the parameters of that function (`Bundle.types_well_formed`).
-/

set_option autoImplicit false

namespace Custody

/-! ## Well-formed types -/

/-- A type in which everything exists, over generic parameters. -/
inductive Ty.WellFormed (b : Bundle) : List String → Ty → Prop
  | any {generics : List String} : WellFormed b generics .any
  | void {generics : List String} : WellFormed b generics .void
  | bool {generics : List String} : WellFormed b generics .bool
  | string {generics : List String} : WellFormed b generics .string
  | number {generics : List String} (format : NumberFormat) : WellFormed b generics (.number format)
  | range {generics : List String} (format : NumberFormat) : WellFormed b generics (.range format)
  | pointer {generics : List String} (kind : PointerKind) {t : Ty} (h : WellFormed b generics t) :
      WellFormed b generics (.pointer kind t)
  | array {generics : List String} (length : Nat) {t : Ty} (h : WellFormed b generics t) :
      WellFormed b generics (.array length t)
  | slice {generics : List String} {t : Ty} (h : WellFormed b generics t) :
      WellFormed b generics (.slice t)
  /-- A function has its own parameters, none if its arity is zero. -/
  | fn {generics : List String} {params : List Ty} {result : Ty} (own : List String)
      (hparams : ∀ t ∈ params, WellFormed b own t) (hresult : WellFormed b own result) :
      WellFormed b generics (.fn own.length params result)
  | struct {generics : List String} {id : StructId} {d : StructDef} (hd : b.struct? id = some d)
      (hgenerics : d.generics = []) : WellFormed b generics (.struct id d.name 0)
  | inst {generics : List String} {id : StructId} {d : StructDef} {args : List Ty}
      (hd : b.struct? id = some d) (hlength : args.length = d.generics.length)
      (hargs : ∀ t ∈ args, WellFormed b generics t) : WellFormed b generics (.inst id d.name args)
  | unit {generics : List String} {target : Nat} {u : SourceUnit} (hu : b.get? target = some u) :
      WellFormed b generics (.unit target)
  | generic {generics : List String} {index : Nat} {name : String}
      (h : generics[index]? = some name) :
      WellFormed b generics (.generic index name)

section WellFormed

variable {b b' : Bundle} {generics : List String}

/-- What the shape of a bundle tells about a struct. -/
theorem Bundle.struct?_of_shape {id : StructId} {name : String} {arity : Nat}
    (h : b.shape id = some (name, arity)) :
    ∃ d, b.struct? id = some d ∧ d.name = name ∧ d.generics.length = arity := by
  obtain ⟨d, hd, hshape⟩ := Option.map_eq_some_iff.1 h
  obtain ⟨hname, hlength⟩ := Prod.mk.inj hshape
  exact ⟨d, hd, hname, hlength⟩

mutual
theorem Ty.Plain.wellFormed : ∀ t : Ty, t.Plain false b.shape generics → t.WellFormed b generics
  | .any, _ => .any
  | .void, _ => .void
  | .bool, _ => .bool
  | .string, _ => .string
  | .number format, _ => .number format
  | .range format, _ => .range format
  | .pointer kind t, h => .pointer kind (Plain.wellFormed t h)
  | .array length t, h => .array length (Plain.wellFormed t h)
  | .slice t, h => .slice (Plain.wellFormed t h)
  | .fn _ _ _, h => h.elim
  | .struct id name arity, h => by
    obtain ⟨rfl, hshape⟩ := h
    obtain ⟨d, hd, rfl, hlength⟩ := Bundle.struct?_of_shape hshape
    exact .struct hd (List.length_eq_zero_iff.1 hlength)
  | .inst id name args, h => by
    obtain ⟨hshape, hargs⟩ := h
    obtain ⟨d, hd, rfl, hlength⟩ := Bundle.struct?_of_shape hshape
    exact .inst hd hlength.symm (AllPlain.wellFormed args hargs)
  | .unit _, h => h.elim
  | .generic _ _, h => .generic h

theorem Ty.AllPlain.wellFormed :
    ∀ ts : List Ty, Ty.AllPlain false b.shape generics ts → ∀ t ∈ ts, t.WellFormed b generics
  | [], _ => fun _ ht => absurd ht List.not_mem_nil
  | t :: ts, h => List.forall_mem_cons.2 ⟨Plain.wellFormed t h.1, AllPlain.wellFormed ts h.2⟩
end

/-- The type of a value is well formed if the units that may be values exist. -/
theorem Ty.Fits.wellFormed {units : Nat → Prop} (hunits : ∀ n, units n → ∃ u, b.get? n = some u) :
    ∀ t : Ty, t.Fits false b.shape units generics → t.WellFormed b generics
  | .pointer kind t, h => .pointer kind (Fits.wellFormed hunits t h)
  | .array length t, h => .array length (Fits.wellFormed hunits t h)
  | .slice t, h => .slice (Fits.wellFormed hunits t h)
  | .fn _ _ _, h => by
    obtain ⟨own, rfl, hparams, hresult⟩ := h
    exact .fn own (fun t ht => (hparams t ht).wellFormed) hresult.wellFormed
  | .unit target, h => by
    obtain ⟨u, hu⟩ := hunits target h
    exact .unit hu
  | .any, h | .void, h | .bool, h | .string, h | .number _, h | .range _, h | .struct _ _ _, h
  | .inst _ _ _, h
  | .generic _ _, h => Plain.wellFormed _ h

theorem Bundle.exists_get?_of_untyped (hb : b'.untyped = b.untyped) {id : Nat} {u : SourceUnit}
    (hu : b.get? id = some u) : ∃ u', b'.get? id = some u' := by
  have hget := get?_of_untyped hb id
  rw [hu] at hget
  obtain ⟨u', hu', -⟩ := Option.map_eq_some_iff.1 hget
  exact ⟨u', hu'⟩

/-- Tables do not matter for what exists. -/
theorem Ty.WellFormed.of_untyped (hb : b'.untyped = b.untyped) {t : Ty}
    (h : t.WellFormed b generics) : t.WellFormed b' generics := by
  induction h with
  | any => exact .any
  | void => exact .void
  | bool => exact .bool
  | string => exact .string
  | number format => exact .number format
  | range format => exact .range format
  | pointer kind _ ih => exact .pointer kind ih
  | array length _ ih => exact .array length ih
  | slice _ ih => exact .slice ih
  | fn own _ _ ihparams ihresult => exact .fn own ihparams ihresult
  | struct hd hgenerics => exact .struct ((Bundle.struct?_of_untyped hb _).trans hd) hgenerics
  | inst hd hlength _ ih => exact .inst ((Bundle.struct?_of_untyped hb _).trans hd) hlength ih
  | unit hu =>
    obtain ⟨u', hu'⟩ := Bundle.exists_get?_of_untyped hb hu
    exact .unit hu'
  | generic h => exact .generic h

end WellFormed

/-! ## What the declare stage leaves -/

/-- The type of a function: it has as many generic parameters and parameters as the head says, and
is well formed over the generic parameters. -/
def FnHead.TypedBy (b : Bundle) (head : FnHead) (t : Ty) : Prop :=
  ∃ params result, t = .fn head.generics.length params result ∧ params.length = head.params.length ∧
    (∀ p ∈ params, p.WellFormed b (head.generics.map (·.name))) ∧
    result.WellFormed b (head.generics.map (·.name))

/-- A unit in whose structs and scopes everything exists. -/
structure SourceUnit.Formed (b : Bundle) (u : SourceUnit) : Prop where
  members : ∀ d ∈ u.structs, ∀ m ∈ d.members, m.2.WellFormed b d.generics
  /-- Under each name stands the type of the first function of that name, and nothing else. -/
  functions : ∀ name, Option.Rel (FnHead.TypedBy b)
    (u.fnHeads.find? fun head => head.name.name == name) (u.functions.get? name)
  namespaces : ∀ name t, u.namespaces.get? name = some t →
    ∃ target v, t = .unit target ∧ b.get? target = some v

/-- Whether imports that lead somewhere lead to units of the bundle. -/
def Bundle.Linked (b : Bundle) : Prop :=
  ∀ u ∈ b.units, ∀ link ∈ u.imports, ∀ target ∈ link.target, target < b.size

instance (b : Bundle) : Decidable b.Linked :=
  inferInstanceAs
    (Decidable (∀ u ∈ b.units, ∀ link ∈ u.imports, ∀ target ∈ link.target, target < b.size))

section Untyped

variable {b b' : Bundle} (hb : b'.untyped = b.untyped)
include hb

theorem FnHead.TypedBy.of_untyped {head : FnHead} {t : Ty} (h : head.TypedBy b t) :
    head.TypedBy b' t := by
  obtain ⟨params, result, ht, hlength, hparams, hresult⟩ := h
  exact ⟨params, result, ht, hlength, fun p hp => (hparams p hp).of_untyped hb,
    hresult.of_untyped hb⟩

/-- What a check writes down changes nothing of what exists. -/
theorem SourceUnit.Formed.withRecords {u : SourceUnit} (h : u.Formed b)
    (records : List (Nat × Ty)) : (u.withRecords records).Formed b' := by
  refine ⟨fun d hd m hm => (h.members d hd m hm).of_untyped hb,
    fun name => rel_imp (fun _ _ ht => ht.of_untyped hb) (h.functions name), fun name t ht => ?_⟩
  obtain ⟨target, v, rfl, hv⟩ := h.namespaces name t ht
  obtain ⟨v', hv'⟩ := Bundle.exists_get?_of_untyped hb hv
  exact ⟨target, v', rfl, hv'⟩

end Untyped

namespace SourceUnit

/-- The alias of an import is the only one that it adds. -/
theorem namespaces_declareAlias {u : SourceUnit} {link : ImportLink} {name : String} {t : Ty}
    (h : (u.declareAlias link).1.namespaces.get? name = some t) :
    u.namespaces.get? name = some t ∨ ∃ target ∈ link.target, t = .unit target := by
  unfold declareAlias at h
  split at h
  · exact .inl h
  · next target htarget =>
      split at h
      · next namespaces hinsert =>
          rw [(NameMap.get?_of_insertNew hinsert).2] at h
          split at h
          · exact .inr ⟨target, htarget, (Option.some.inj h).symm⟩
          · exact .inl h
      · exact .inl h

theorem namespaces_declareAliases {u : SourceUnit} {links : List ImportLink} {name : String}
    {t : Ty} (h : (u.declareAliases links).1.namespaces.get? name = some t) :
    u.namespaces.get? name = some t ∨ ∃ link ∈ links, ∃ target ∈ link.target, t = .unit target := by
  induction links generalizing u with
  | nil => exact .inl h
  | cons link links ih =>
    rcases ih h with h | ⟨link', hlink', htarget⟩
    · rcases namespaces_declareAlias h with h | htarget
      · exact .inl h
      · exact .inr ⟨link, List.mem_cons_self, htarget⟩
    · exact .inr ⟨link', List.mem_cons_of_mem link hlink', htarget⟩

/-- Only the first round declares aliases. -/
theorem namespaces_declared (b : Bundle) (u : SourceUnit) :
    (u.declared b).1.namespaces = u.aliased.1.namespaces := by
  have hsigned : (u.declared b).1.namespaces = u.shelled.1.namespaces :=
    (congrArg SourceUnit.namespaces (skeleton_signed b.shelled u.shelled.1 u.shelled.2.1) :)
  obtain ⟨types, structs, hshelled⟩ := declareStructs_eq u.aliased.1 u.structDecls
  rw [hsigned, shelled, hshelled]

end SourceUnit

namespace Bundle

variable {b : Bundle}

/-- The aliases of a declared unit lead to units, if its imports do. -/
theorem Linked.namespaces_declare (h : b.Undeclared) (hlinked : b.Linked) {i : Nat} {u : SourceUnit}
    (hu : b.declare.1.get? i = some u) {name : String} {t : Ty}
    (ht : u.namespaces.get? name = some t) :
    ∃ target v, t = .unit target ∧ b.declare.1.get? target = some v := by
  rw [get?_declare] at hu
  obtain ⟨u₀, hu₀, rfl⟩ := Option.map_eq_some_iff.1 hu
  rw [SourceUnit.namespaces_declared] at ht
  rcases SourceUnit.namespaces_declareAliases ht with hold | ⟨link, hlink, target, htarget, rfl⟩
  · rw [(h i u₀ hu₀).namespaces] at hold
    cases hold
  · have hlt : target < b.declare.1.size := by
      rw [size_declare]
      exact hlinked u₀ (mem_units_of_get? hu₀) link hlink target htarget
    exact ⟨target, _, rfl, List.getElem?_eq_getElem hlt⟩

/-- A signature that was resolved in a sound bundle types its function. -/
theorem typedBy_of_signature (hb : b.Sound false) {u : SourceUnit} (hu : u ∈ b.units)
    (head : FnHead) :
    head.TypedBy b ((b.placeOf u head.generics).signature .direct head ()).value.ty := by
  have hforms : Checking.Forms false (fun _ => True) (head.Signs false b.shape)
      ((b.placeOf u head.generics).signature .direct head) :=
        signature_forms hb (hb.units u hu) head
  obtain ⟨hsigns, -⟩ := hforms () fun hs => absurd hs Bool.false_ne_true
  refine ⟨_, _, ?_, hsigns.length, fun p hp => (hsigns.params p hp).wellFormed,
    hsigns.result.wellFormed⟩
  rw [Signature.ty, hsigns.arity]

/-- With `any` allowed, the declare stage makes a sound bundle whatever it reports. -/
theorem Undeclared.declare_sound_false (h : b.Undeclared) :
    b.declare.1.Sound false ∧ (b.declare.2 = [] → ∀ i u, b.declare.1.get? i = some u →
      Signed false b.declare.1.shape u) :=
  h.declare_sound fun hs => absurd hs Bool.false_ne_true

/-- Whatever the declare stage reports, everything exists in the units that it leaves. -/
theorem Undeclared.formed (h : b.Undeclared) (hlinked : b.Linked) {i : Nat} {u : SourceUnit}
    (hu : b.declare.1.get? i = some u) : u.Formed b.declare.1 := by
  obtain ⟨hsound, -⟩ := h.declare_sound_false
  have hempty : ∀ v ∈ b.units, v.functions = .empty := by
    intro v hv
    obtain ⟨k, hk⟩ := List.mem_iff_getElem?.1 hv
    exact (h k v hk).functions
  have hmem := mem_units_of_get? hu
  refine ⟨fun d hd m hm => ?_, fun name => ?_, fun name t ht => hlinked.namespaces_declare h hu ht⟩
  · exact ((hsound.units u hmem).members d hd m hm).wellFormed
  · rw [functions_declare hu hempty name]
    cases u.fnHeads.find? fun head => head.name.name == name with
    | none => exact .none
    | some head => exact .some (typedBy_of_signature hsound hmem head)

end Bundle

/-! ## What the type check records -/

/-- Types that were recorded for an item, one for each of its nodes. Those of a function are well
formed over the generic parameters of the function. -/
structure Stmt.RecordsFormed (b : Bundle) (item : Stmt) (records : List (Nat × Ty)) : Prop where
  nodes : records.map Prod.fst = item.nodes
  formed : ∀ mark head body, item = .fnDecl mark head body →
    ∀ e ∈ records, e.2.WellFormed b (head.generics.map (·.name))

theorem Stmt.RecordsFormed.of_untyped {b b' : Bundle} (hb : b'.untyped = b.untyped) {item : Stmt}
    {records : List (Nat × Ty)} (h : item.RecordsFormed b records) :
    item.RecordsFormed b' records :=
  ⟨h.nodes, fun mark head body hfn e he => (h.formed mark head body hfn e he).of_untyped hb⟩

/-- A table of what was recorded for the items of a unit, one after the other. -/
def SourceUnit.TableFormed (b : Bundle) (u : SourceUnit) : Prop :=
  ∃ records : Stmt → List (Nat × Ty), u.table = .ofRecords (u.file.items.flatMap records) ∧
    ∀ item ∈ u.file.items, item.RecordsFormed b (records item)

/-- A check of items that gets through records what the checks of the items record. -/
theorem Typing.checkItems_records {b : Bundle} {u : SourceUnit} {items : List Stmt}
    (hok : ((checkItems b u .direct items).run ()).value = .ok ()) :
    ((checkItems b u .direct items).run ()).log.types =
        items.flatMap (fun item => ((checkItem b u .direct item).run ()).log.types) ∧
      ∀ item ∈ items, ((checkItem b u .direct item).run ()).value = .ok () := by
  induction items with
  | nil => exact ⟨rfl, fun item hitem => absurd hitem List.not_mem_nil⟩
  | cons item items ih =>
    obtain ⟨_, hitem, hrest, hlog⟩ := Walking.bind_ok hok
    obtain ⟨hrecords, hall⟩ := ih hrest
    refine ⟨?_, List.forall_mem_cons.2 ⟨hitem, hall⟩⟩
    rw [List.flatMap_cons, ← hrecords, ← Log.types_append]
    exact congrArg Log.types hlog

namespace Bundle

variable {b : Bundle} {u : SourceUnit}

/-- The check of a function records types in which everything exists. -/
theorem Sound.recordsFormed (hb : b.Sound false) (hu : u ∈ b.units)
    (hsigned : Signed false b.shape u)
    (haliases : ∀ target, u.Aliases target → ∃ v, b.get? target = some v) {item : Stmt}
    (hitem : item ∈ u.file.items)
    (hok : ((Typing.checkItem b u .direct item).run ()).value = .ok ()) :
    item.RecordsFormed b ((Typing.checkItem b u .direct item).run ()).log.types := by
  refine ⟨Typing.checkItem_writes b u .direct item () () hok, ?_⟩
  rintro mark head body rfl e he
  have hhead : head ∈ u.fnHeads := List.mem_filterMap.2 ⟨_, hitem, rfl⟩
  have hfirm : false = true → body.every Expr.isFirm = true :=
    fun hs => absurd hs Bool.false_ne_true
  have hforms := Typing.checkFn_forms hb (hb.units u hu) mark hfirm
    (fun _ _ _ => hsigned.params hhead) () () hok fun hs => absurd hs Bool.false_ne_true
  exact (hforms.2 e he).wellFormed haliases

end Bundle

/-- Where no two nodes have one number, the table has each type of a function. -/
theorem SourceUnit.TableFormed.get? {b : Bundle} {u : SourceUnit} (h : u.TableFormed b)
    (hnodup : (stmtsNodes u.file.items).Nodup) {mark : Mark} {head : FnHead} {body : Block}
    (hfn : .fnDecl mark head body ∈ u.file.items) :
    ∀ id ∈ (Stmt.fnDecl mark head body).nodes,
      ∃ t, u.table.get? id = some t ∧ t.WellFormed b (head.generics.map (·.name)) := by
  obtain ⟨records, htable, hrecords⟩ := h
  have hkeys : (u.file.items.flatMap records).map Prod.fst = stmtsNodes u.file.items := by
    rw [List.map_flatMap, stmtsNodes_eq_flatMap]
    exact List.flatMap_congr fun item hitem => (hrecords item hitem).nodes
  intro id hid
  have hitem := hrecords _ hfn
  rw [← hitem.nodes] at hid
  obtain ⟨⟨_, t⟩, he, rfl⟩ := List.mem_map.1 hid
  refine ⟨t, ?_, hitem.formed mark head body rfl _ he⟩
  rw [htable]
  exact TypeTable.get?_ofRecords_of_mem (hkeys ▸ hnodup) (List.mem_flatMap.2 ⟨_, hfn, he⟩)

namespace Bundle

variable {b : Bundle}

/-- A check that gets through leaves units with tables in which everything exists. -/
theorem Sound.tableFormed (hb : b.Sound false)
    (hsigned : ∀ i u, b.get? i = some u → Signed false b.shape u)
    (hformed : ∀ i u, b.get? i = some u → u.Formed b) (hfault : b.check.fault = none)
    {u' : SourceUnit} (hu' : u' ∈ b.check.bundle.units) :
    u'.Formed b.check.bundle ∧ u'.TableFormed b.check.bundle := by
  have huntyped : b.check.bundle.untyped = b.untyped := b.untyped_checkUnits .direct _ ()
  obtain ⟨i, hi⟩ := List.mem_iff_getElem?.1 hu'
  obtain ⟨u, hu, -⟩ := get?_of_check hi
  obtain ⟨hok, hget⟩ := (checkedUpTo_of_ok hfault).checked i (List.getElem?_eq_some_iff.1 hu).1 u hu
  obtain rfl := Option.some.inj (hi.symm.trans hget)
  refine ⟨(hformed i u hu).withRecords huntyped _, ?_⟩
  obtain ⟨hrecords, hitems⟩ := Typing.checkItems_records hok
  refine ⟨_, congrArg TypeTable.ofRecords hrecords, fun item hitem => ?_⟩
  have haliases : ∀ target, u.Aliases target → ∃ v, b.get? target = some v := by
    rintro target ⟨name, hname⟩
    obtain ⟨_, v, heq, hv⟩ := (hformed i u hu).namespaces name _ hname
    cases heq
    exact ⟨v, hv⟩
  exact (hb.recordsFormed (mem_units_of_get? hu) (hsigned i u hu) haliases hitem
    (hitems item hitem)).of_untyped huntyped

/-- In every bundle of which nothing is declared yet, and whose imports lead to its units, the
declare stage leaves members, signatures and aliases in which everything exists, whatever it
reports. If it reports nothing and the type check gets through, the same is true of the types that
the check records in a function. -/
theorem types_well_formed (h : b.Undeclared) (hlinked : b.Linked) :
    (∀ u ∈ b.declare.1.units, u.Formed b.declare.1) ∧
      (b.declare.2 = [] → b.declare.1.check.fault = none →
        ∀ u ∈ b.declare.1.check.bundle.units,
          u.Formed b.declare.1.check.bundle ∧ u.TableFormed b.declare.1.check.bundle ∧
          ((stmtsNodes u.file.items).Nodup →
            ∀ mark head body, .fnDecl mark head body ∈ u.file.items →
            ∀ id ∈ (Stmt.fnDecl mark head body).nodes, ∃ t, u.table.get? id = some t ∧
              t.WellFormed b.declare.1.check.bundle (head.generics.map (·.name)))) := by
  have hformed : ∀ i u, b.declare.1.get? i = some u → u.Formed b.declare.1 :=
    fun i u hu => h.formed hlinked hu
  constructor
  · intro u hu
    obtain ⟨i, hi⟩ := List.mem_iff_getElem?.1 hu
    exact hformed i u hi
  · intro hclean hfault u hu
    obtain ⟨hsound, hsigned⟩ := h.declare_sound_false
    obtain ⟨hunit, htable⟩ := hsound.tableFormed (hsigned hclean) hformed hfault hu
    exact ⟨hunit, htable, fun hnodup mark head body hfn => htable.get? hnodup hfn⟩

section Texts

-- The characters of a text make a deep list.
set_option maxRecDepth 2000

/-- Two files in which nothing fits: names that are declared twice, that nothing has, and structs
with the wrong number of arguments. -/
def strays : List (String × String) :=
  [("main", "import \"cell\" c; import \"cell\" c;
struct P { l: c.Cell, r: [2]c.Cell[P, Q], l: u8 }
fn pick[T](p: P[T]) Q { }
fn pick() { }"),
    ("cell", "struct Cell[T] { v: T } struct Cell { }")]

/-- Two files with a generic struct and generic functions. The bodies need not be free of
mistakes. -/
def picks : List (String × String) :=
  [("main", "import \"cell\" c;
fn pick[A, B](a: A) ~c.Cell[B] {
let p := pick;
c;
return c.make:[A](a);
}"),
    ("cell", "struct Cell[T] { v: T, n: ^Cell[T] }
fn make[T](v: T) ~Cell[T] { return new Cell[T]{ v: v }; }")]

theorem types_well_formed_picks :
    (∃ b : Bundle, b.Undeclared ∧ b.Linked ∧ b.declare.2 ≠ [] ∧
      ∀ u ∈ b.declare.1.units, u.Formed b.declare.1) ∧
    ∃ b : Bundle, ∃ u, b.Undeclared ∧ b.Linked ∧ b.declare.2 = [] ∧ b.declare.1.check.fault = none ∧
      u ∈ b.declare.1.check.bundle.units ∧ (stmtsNodes u.file.items).Nodup ∧
      ∃ mark head body, .fnDecl mark head body ∈ u.file.items ∧ head.generics.length = 2 ∧
        ∀ id ∈ (Stmt.fnDecl mark head body).nodes, ∃ t, u.table.get? id = some t ∧
          t.WellFormed b.declare.1.check.bundle (head.generics.map (·.name)) := by
  constructor
  · have htexts : ((ofTexts strays).any fun b => decide b.Linked && !b.declare.2.isEmpty) = true :=
      any_ofTexts (.cons rfl (.cons rfl .nil)) (by decide +kernel)
    simp only [Option.any_eq_true, Bool.and_eq_true, decide_eq_true_eq, Bool.not_eq_true',
      List.isEmpty_eq_false_iff] at htexts
    obtain ⟨b, hb, hlinked, hreports⟩ := htexts
    have hparsed := parsed_of_ofTexts hb
    exact ⟨b, hparsed.undeclared, hlinked, hreports,
      (types_well_formed hparsed.undeclared hlinked).1⟩
  · have htexts : ((ofTexts picks).any fun b => decide b.Linked && b.declare.2.isEmpty &&
        b.declare.1.check.fault.isNone && (b.declare.1.check.bundle.get? 0).any fun u =>
          u.anyFn fun _ head _ => head.generics.length == 2) = true :=
      any_ofTexts (.cons rfl (.cons rfl .nil)) (by decide +kernel)
    simp only [Option.any_eq_true, Bool.and_eq_true, decide_eq_true_eq, List.isEmpty_iff,
      Option.isNone_iff_eq_none] at htexts
    obtain ⟨b, hb, ⟨⟨hlinked, hclean⟩, hfault⟩, u, hu, hfn⟩ := htexts
    obtain ⟨mark, head, body, hitem, hlength⟩ := SourceUnit.exists_of_anyFn hfn
    have hparsed := parsed_of_ofTexts hb
    have hnodup := stmtsNodes_nodup (hparsed.file_of_check hu).ids_nodup
    have hmem := mem_units_of_get? hu
    obtain ⟨-, hchecked⟩ := types_well_formed hparsed.undeclared hlinked
    obtain ⟨-, -, htypes⟩ := hchecked hclean hfault u hmem
    exact ⟨b, u, hparsed.undeclared, hlinked, hclean, hfault, hmem, hnodup, mark, head, body, hitem,
      eq_of_beq hlength, htypes hnodup mark head body hitem⟩

end Texts

end Bundle

end Custody
