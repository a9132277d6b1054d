import Custody.Proofs.Items
import Custody.Proofs.MirroredChecks
import Custody.Proofs.NodeTypes
import Custody.Proofs.Rearrangement

/-!
# The order of declarations does not matter

A bundle of parsed files with distinct names may be rearranged: its units get other numbers, and the
declarations of each unit another order. Declaring and checking the rearranged bundle gives the same
outcome, with new labels for units and structs (`Bundle.declare_check_of_rearranged`).

The declare stage is dealt with in `Custody.Proofs.Rearrangement`. The check goes through all items
of both bundles, because what was parsed has the shape that it asks for. So it writes for each item
what it writes for the same item in the other bundle, and each node has the same type in the end.
-/

set_option autoImplicit false
set_option maxRecDepth 2000

namespace Custody

/-! ## Records and items in another order -/

/-- Types recorded in another order make the same table, if each node has one. -/
theorem TypeTable.get?_ofRecords_of_perm {records records' : List (Nat × Ty)} {f : Ty → Ty}
    (h : records'.Perm (records.map fun e => (e.1, f e.2))) (hnodup : (records.map Prod.fst).Nodup)
    (id : Nat) : (ofRecords records').get? id = ((ofRecords records).get? id).map f := by
  have hids : (records'.map Prod.fst).Perm (records.map Prod.fst) := by
    have hmap := h.map Prod.fst
    rwa [List.map_map] at hmap
  cases hget : (ofRecords records).get? id with
  | some t =>
    have hmem := List.mem_map_of_mem (f := fun e => (e.1, f e.2)) (mem_of_get?_ofRecords hget)
    exact get?_ofRecords_of_mem (hids.nodup_iff.2 hnodup) (h.symm.subset hmem)
  | none =>
    refine get?_ofRecords_eq_none fun hid => ?_
    obtain ⟨t, ht⟩ := exists_get?_ofRecords (hids.subset hid)
    rw [hget] at ht
    cases ht

namespace Typing

variable {b : Bundle} {u : SourceUnit}

/-- What the check writes about one item. -/
def itemLog (b : Bundle) (u : SourceUnit) (s : Stmt) : Log :=
  ((checkItem b u .direct s).run ()).log

/-- A check that gets through every item writes what it writes about each, in order. -/
theorem checkItems_of_ok {items : List Stmt}
    (h : ∀ s ∈ items, ((checkItem b u .direct s).run ()).value = .ok ()) :
    ((checkItems b u .direct items).run ()).value = .ok () ∧
      ((checkItems b u .direct items).run ()).log.types =
        items.flatMap (fun s => (itemLog b u s).types) ∧
      ((checkItems b u .direct items).run ()).log.findings =
        items.flatMap fun s => (itemLog b u s).findings := by
  induction items with
  | nil => exact ⟨rfl, rfl, rfl⟩
  | cons s items ih =>
    obtain ⟨hs, hitems⟩ := List.forall_mem_cons.1 h
    obtain ⟨hvalue, htypes, hfindings⟩ := ih hitems
    obtain ⟨hrun, hlog⟩ := Walking.run_bind_of_ok (f := fun _ => checkItems b u .direct items) hs
    rw [checkItems, hrun, hlog, Log.types_append, Log.findings_append, List.flatMap_cons,
      List.flatMap_cons, ← htypes, ← hfindings]
    exact ⟨hvalue, rfl, rfl⟩

end Typing

namespace Bundle

variable {σ : Type} {b : Bundle} {builder : InstanceBuilder σ} {s : σ}

/-- A unit behind a check that ends without a fault. -/
theorem get?_check_of_ok {i : Nat} {u : SourceUnit} (h : b.check.fault = none)
    (hu : b.get? i = some u) :
    b.check.bundle.get? i = some (u.withRecords (b.unitRun .direct () i u).log.types) :=
  ((checkedUpTo_of_ok h).checked i (List.getElem?_eq_some_iff.1 hu).1 u hu).2

theorem get?_check_of_none {i : Nat} (h : b.check.fault = none) (hu : b.get? i = none) :
    b.check.bundle.get? i = none :=
  ((checkedUpTo_of_ok h).kept i (List.getElem?_eq_none_iff.1 hu)).trans hu

/-- A check that gets through the items of every unit ends without a fault. -/
theorem fault_of_ok (b : Bundle) (h : ∀ i u, b.get? i = some u →
    ((Typing.checkItems b u .direct u.file.items).run ()).value = .ok ()) :
    b.check.fault = none := by
  cases hfault : b.check.fault with
  | none => rfl
  | some fault =>
    obtain ⟨i, u, hu, hvalue, -⟩ := checkedUpTo_of_fault hfault
    have hok : (b.unitRun .direct () i u).value = .ok () := h i u hu
    rw [hok] at hvalue
    cases hvalue

end Bundle

/-- Tables do not matter for what names stand for. -/
theorem Bundle.Mirrors.of_untyped {τ : Relabelling} {b b' c c' : Bundle} (h : b.Mirrors τ b')
    (hc : c.untyped = b.untyped) (hc' : c'.untyped = b'.untyped) : c.Mirrors τ c' := by
  refine ⟨fun i => ?_, fun id => ?_⟩
  · have hu := get?_of_untyped hc i
    have hu' := get?_of_untyped hc' (τ.unit i)
    have hi := h.units i
    revert hu hu' hi
    generalize b.get? i = unit
    generalize b'.get? (τ.unit i) = unit'
    rintro hu hu' (hmirrors | _)
    · obtain ⟨v, hv, hsame⟩ := Option.map_eq_some_iff.1 hu
      obtain ⟨v', hv', hsame'⟩ := Option.map_eq_some_iff.1 hu'
      rw [hv, hv']
      have hv₀ : v.untyped.Mirrors τ v'.untyped := by
        rw [hsame, hsame']
        exact ⟨hmirrors.types, hmirrors.functions, hmirrors.namespaces⟩
      exact .some ⟨hv₀.types, hv₀.functions, hv₀.namespaces⟩
    · rw [Option.map_eq_none_iff.1 hu, Option.map_eq_none_iff.1 hu']
      exact .none
  · rw [struct?_of_untyped hc, struct?_of_untyped hc']
    exact h.structs id

/-! ## The check of the declared bundle -/

namespace SourceUnit

variable {i : Nat} {u : SourceUnit}

/-- Every function of a unit with distinct names is declared with its signature. -/
theorem Undeclared.get?_functions (hu : u.Undeclared i) (h : u.NamesApart) (b : Bundle)
    {head : FnHead} (hhead : head ∈ u.fnHeads) : (u.declared b).1.functions.get? head.name.name =
      some (u.signatureIn b.shelled head).value.ty := by
  rw [hu.declared_eq h]
  refine NameMap.get?_of_mem ?_ (List.mem_map.2 ⟨head, hhead, rfl⟩)
  rw [List.map_map]
  exact h.functions

theorem Undeclared.file_declared (hu : u.Undeclared i) (h : u.NamesApart) (b : Bundle) :
    (u.declared b).1.file = u.file ∧ (u.declared b).1.path = u.path := by
  rw [hu.declared_eq h]
  exact ⟨rfl, rfl⟩

/-- The check gets through the items of a parsed file with distinct names. -/
theorem Undeclared.checkItem_ok (hu : u.Undeclared i) (h : u.NamesApart) (hfile : u.file.Parsed)
    (b : Bundle) {s : Stmt} (hs : s ∈ u.file.items) :
    ((Typing.checkItem b.declare.1 (u.declared b).1 .direct s).run ()).value = .ok () := by
  obtain ⟨value, hvalue⟩ := Typing.checkItem_succeeds b.declare.1 (u.declared b).1 .direct s
    (hfile.items s hs) (by
      rintro mark head block rfl
      exact ⟨_, hu.get?_functions h b (List.mem_filterMap.2 ⟨_, hs, rfl⟩)⟩) ()
  exact hvalue

end SourceUnit

namespace Bundle.Paired

variable {τ : Relabelling} {b b' : Bundle} {i : Nat} {u u' : SourceUnit}

/-- The check of an item gets through in both bundles and writes the same. -/
theorem checkItem_mirrors (h : b.Paired τ b') (hb : b.Undeclared) (hget : b.get? i = some u)
    (hu : u.Paired τ i u') (hfile : u.file.Parsed) {s : Stmt} (hs : s ∈ u.file.items) :
    ((Typing.checkItem b'.declare.1 (u'.declared b').1 .direct (s.refile τ.unit)).run
      ()).value = .ok () ∧ Typing.itemLog b'.declare.1 (u'.declared b').1 (s.refile τ.unit) =
        τ.log (Typing.itemLog b.declare.1 (u.declared b).1 s) := by
  have hsound : b.declare.1.Sound false := (hb.declare_sound fun hstrict => by cases hstrict).1
  have hmem : (u.declared b).1 ∈ b.declare.1.units := by
    rw [declare_eq]
    exact List.mem_map_of_mem (mem_units_of_get? hget)
  have hplaces : Typing.PlacesMirror τ.coupling .direct .direct b.declare.1 b'.declare.1
      (u.declared b).1 (u'.declared b').1 :=
    Typing.placesMirror_of_names h.declare_mirrors.names (h.declared_mirrors hu)
      (InstanceBuilder.direct_mirrors (fun _ _ => trivial) h.declare_mirrors.names)
      fun _ => Place.Sound.legible ⟨hsound, hsound.units _ hmem⟩ τ
  have hmirrors := Typing.checkItem_mirrors hplaces (h.declared_mirrors hu) s.resembles_refile
    () () trivial
  have hok := hu.undeclared.checkItem_ok hu.apart hfile b hs
  refine ⟨?_, hmirrors.log.eq_log⟩
  have hvalue := hmirrors.value
  rw [hok] at hvalue
  generalize ((Typing.checkItem b'.declare.1 (u'.declared b').1 .direct
    (s.refile τ.unit)).run ()).value =
    value at hvalue ⊢
  cases hvalue
  rfl

/-- The check of a unit gets through in both bundles and writes the same, in some order. -/
theorem unitRun_mirrors (h : b.Paired τ b') (hb : b.Parsed) (hget : b.get? i = some u)
    (hu : u.Paired τ i u') :
    let run := b.declare.1.unitRun .direct () i (u.declared b).1
    let run' := b'.declare.1.unitRun .direct () (τ.unit i) (u'.declared b').1
    run.value = .ok () ∧ run'.value = .ok () ∧
      run'.log.types.Perm (run.log.types.map fun e => (e.1, τ.ty e.2)) ∧
      run'.log.findings.Perm (run.log.findings.map τ.finding) := by
  have hfile := hb.files u.file (List.mem_map_of_mem (mem_units_of_get? hget))
  have hitem {s : Stmt} (hs : s ∈ u.file.items) :=
    h.checkItem_mirrors hb.undeclared hget hu hfile hs
  have hok : ∀ s ∈ u.file.items,
      ((Typing.checkItem b.declare.1 (u.declared b).1 .direct s).run ()).value = .ok () :=
    fun s hs => hu.undeclared.checkItem_ok hu.apart hfile b hs
  have hok' : ∀ s ∈ u'.file.items,
      ((Typing.checkItem b'.declare.1 (u'.declared b').1 .direct s).run ()).value = .ok () := by
    intro s hs
    obtain ⟨s₀, hs₀, rfl⟩ := List.mem_map.1 (hu.rearranged.items.subset hs)
    exact (hitem hs₀).1
  -- What is written for all items of the second unit, read off the items of the first.
  have hflat {α : Type} (part : Log → List α) (f : α → α)
      (hpart : ∀ l, part (τ.log l) = (part l).map f) :
      (u'.file.items.flatMap fun s =>
          part (Typing.itemLog b'.declare.1 (u'.declared b').1 s)).Perm
        ((u.file.items.flatMap fun s =>
          part (Typing.itemLog b.declare.1 (u.declared b).1 s)).map f) := by
    refine perm_flatMap_of_perm hu.rearranged.items fun s hs => .of_eq ?_
    rw [(hitem hs).2, hpart]
  obtain ⟨hvalue, htypes, hfindings⟩ := Typing.checkItems_of_ok hok
  obtain ⟨hvalue', htypes', hfindings'⟩ := Typing.checkItems_of_ok hok'
  dsimp only [unitRun]
  rw [(hu.undeclared.file_declared hu.apart b).1,
    (hu.undeclared'.file_declared hu.apart' b').1, htypes, htypes', hfindings, hfindings']
  exact ⟨hvalue, hvalue', hflat Log.types _ fun _ => rfl, hflat Log.findings _ fun _ => rfl⟩

/-- Neither check stops. -/
theorem check_fault (h : b.Paired τ b') (hb : b.Parsed) :
    b.declare.1.check.fault = none ∧ b'.declare.1.check.fault = none := by
  refine ⟨fault_of_ok _ fun i v hv => ?_, fault_of_ok _ fun j v hv => ?_⟩
  · rw [get?_declare] at hv
    obtain ⟨u, hu, rfl⟩ := Option.map_eq_some_iff.1 hv
    rcases h.unit_or_none i with ⟨u₁, u', hu₁, -, hpaired⟩ | ⟨hnone, -⟩
    · cases hu.symm.trans hu₁
      exact (h.unitRun_mirrors hb hu hpaired).1
    · cases hu.symm.trans hnone
  · rw [get?_declare] at hv
    obtain ⟨u', hu', rfl⟩ := Option.map_eq_some_iff.1 hv
    -- A unit of the rearrangement has a number that was given to a unit of the bundle.
    have hj := h.range.symm.subset (List.mem_range.2 (List.getElem?_eq_some_iff.1 hu').1)
    obtain ⟨i, -, rfl⟩ := List.mem_map.1 hj
    rcases h.unit_or_none i with ⟨u, u₁, hu, hu₁, hpaired⟩ | ⟨-, hnone⟩
    · cases hu'.symm.trans hu₁
      exact (h.unitRun_mirrors hb hu hpaired).2.1
    · cases hu'.symm.trans hnone

/-- The check reports the same about the two bundles. -/
theorem check_reports (h : b.Paired τ b') (hb : b.Parsed) :
    b'.declare.1.check.reports.Perm (b.declare.1.check.reports.map τ.report) := by
  obtain ⟨hfault, hfault'⟩ := h.check_fault hb
  have hreports := reports_of_ok (b := b.declare.1) hfault
  have hreports' := reports_of_ok (b := b'.declare.1) hfault'
  rw [size_declare] at hreports hreports'
  rw [check, checkWith, check, checkWith, size_declare, size_declare, hreports, hreports']
  refine perm_flatMap_of_perm h.range.symm fun i _ => ?_
  rw [get?_declare, get?_declare]
  rcases h.unit_or_none i with ⟨u, u', hu, hu', hpaired⟩ | ⟨hu, hu'⟩
  · rw [hu, hu']
    obtain ⟨-, -, -, hfindings⟩ := h.unitRun_mirrors hb hu hpaired
    have hpath := (hpaired.undeclared.file_declared hpaired.apart b).2
    have hpath' := (hpaired.undeclared'.file_declared hpaired.apart' b').2
    have hperm := hfindings.map (Report.ofFinding .typeCheck u.path)
    rw [List.map_map] at hperm
    rw [Option.map_some, Option.map_some, Option.elim_some, Option.elim_some, hpath, hpath',
      hpaired.rearranged.path, List.map_map]
    exact hperm
  · rw [hu, hu']
    exact .nil

/-- Every node has the same type in the two bundles. -/
theorem check_types (h : b.Paired τ b') (hb : b.Parsed) (i : Nat) :
    Option.Rel (fun u u' => ∀ id, u'.table.get? id = (u.table.get? id).map τ.ty)
      (b.declare.1.check.bundle.get? i) (b'.declare.1.check.bundle.get? (τ.unit i)) := by
  obtain ⟨hfault, hfault'⟩ := h.check_fault hb
  rcases h.unit_or_none i with ⟨u, u', hu, hu', hpaired⟩ | ⟨hu, hu'⟩
  · obtain ⟨hvalue, -, htypes, -⟩ := h.unitRun_mirrors hb hu hpaired
    have hfile := hb.files u.file (List.mem_map_of_mem (mem_units_of_get? hu))
    -- Every node is recorded once, so the order of the records does not show in the table.
    have hwrites := Typing.checkItems_writes b.declare.1 (u.declared b).1 .direct
      (u.declared b).1.file.items () () hvalue
    have hnodes : (stmtsNodes (u.declared b).1.file.items).Nodup := by
      rw [(hpaired.undeclared.file_declared hpaired.apart b).1]
      exact stmtsNodes_nodup hfile.ids_nodup
    have hget : b.declare.1.get? i = some (u.declared b).1 := by
      rw [get?_declare, hu, Option.map_some]
    have hget' : b'.declare.1.get? (τ.unit i) = some (u'.declared b').1 := by
      rw [get?_declare, hu', Option.map_some]
    rw [get?_check_of_ok hfault hget, get?_check_of_ok hfault' hget']
    exact .some (TypeTable.get?_ofRecords_of_perm htypes ((congrArg List.Nodup hwrites).mpr hnodes))
  · have hget : b.declare.1.get? i = none := by rw [get?_declare, hu, Option.map_none]
    have hget' : b'.declare.1.get? (τ.unit i) = none := by rw [get?_declare, hu', Option.map_none]
    rw [get?_check_of_none hfault hget, get?_check_of_none hfault' hget']
    exact .none

/-- Behind both stages the two bundles have the same names and structs. -/
theorem check_mirrors (h : b.Paired τ b') :
    b.declare.1.check.bundle.Mirrors τ b'.declare.1.check.bundle :=
  h.declare_mirrors.of_untyped (b.declare.1.untyped_checkUnits .direct _ ())
    (b'.declare.1.untyped_checkUnits .direct _ ())

end Bundle.Paired

namespace Bundle

/-- Declaring and checking a bundle of parsed files with distinct names has the same outcome
whatever the order of its units and of the declarations in them, up to the numbers of units and the
places of structs. Both checks get through; each name stands for the same, with the same members or
the same signature; each node has the same type; and the reports are the same, in some order. -/
theorem declare_check_of_rearranged {π : Equiv.Perm Nat} {b b' : Bundle} (hb : b.Parsed)
    (hapart : ∀ u ∈ b.units, u.NamesApart) (h : b.Rearranged π b') :
    ∃ τ : Relabelling, τ.unit = π ∧
      b.declare.1.Mirrors τ b'.declare.1 ∧
      b'.declare.2.Perm (b.declare.2.map τ.report) ∧
      b.declare.1.check.fault = none ∧ b'.declare.1.check.fault = none ∧
      b.declare.1.check.bundle.Mirrors τ b'.declare.1.check.bundle ∧
      (∀ i, Option.Rel (fun u u' => ∀ id, u'.table.get? id = (u.table.get? id).map τ.ty)
        (b.declare.1.check.bundle.get? i) (b'.declare.1.check.bundle.get? (π i))) ∧
      b'.declare.1.check.reports.Perm (b.declare.1.check.reports.map τ.report) := by
  obtain ⟨τ, hunit, hpaired⟩ := h.exists_paired hb.undeclared hapart
  obtain ⟨hfault, hfault'⟩ := hpaired.check_fault hb
  refine ⟨τ, hunit, hpaired.declare_mirrors, hpaired.declare_reports, hfault, hfault',
    hpaired.check_mirrors, fun i => ?_, hpaired.check_reports hb⟩
  rw [← hunit]
  exact hpaired.check_types hb i

end Bundle

/-- The unit under its new number, with its declarations in reverse order. -/
def SourceUnit.turned (π : Nat → Nat) (u : SourceUnit) : SourceUnit :=
  { u with
    id := π u.id
    file := ⟨(u.file.items.map (Stmt.refile π)).reverse, u.file.span.refile π⟩
    imports := (u.imports.map (ImportLink.renumber π)).reverse }

theorem SourceUnit.Undeclared.turned {i : Nat} {u : SourceUnit} (h : u.Undeclared i)
    (π : Nat → Nat) : (u.turned π).Undeclared (π i) :=
  ⟨congrArg π h.id, h.types, h.functions, h.namespaces, h.structs⟩

namespace Bundle

/-- A bundle of two units, turned around. -/
def turned (b : Bundle) : Bundle := ⟨(b.units.map (SourceUnit.turned (Equiv.swap 0 1))).reverse⟩

theorem rearranged_turned {b : Bundle} (hb : b.Undeclared) (hsize : b.size = 2) :
    b.Rearranged (Equiv.swap 0 1) b.turned := by
  obtain ⟨units⟩ := b
  obtain ⟨u, v, rfl⟩ := List.length_eq_two.1 hsize
  refine ⟨rfl, fun i w hw => ?_, fun i w hw => ?_⟩
  · rcases i with _ | _ | i
    · cases hw
      exact (hb 1 v rfl).turned (Equiv.swap 0 1)
    · cases hw
      exact (hb 0 u rfl).turned (Equiv.swap 0 1)
    · cases hw
  · rcases i with _ | _ | i
    · cases hw
      exact ⟨_, rfl, rfl, List.reverse_perm _, List.reverse_perm _⟩
    · cases hw
      exact ⟨_, rfl, rfl, List.reverse_perm _, List.reverse_perm _⟩
    · cases hw

/-- Two files that lead to each other, with a lost import and a wrong `return`. -/
def crates : List (String × String) :=
  [("shape.liam", "import \"main.liam\" m;
struct Crate { b: Box[u64], l: m.Label }
struct Box[T] { v: T }"),
    ("main.liam", "fn main(c: s.Crate) bool { return c.b; } import \"shape.liam\" s;
struct Label { c: s.Crate } import \"x\" w;")]

/-- Turned around, the two files still give one report of the declare stage and one of the check. -/
theorem declare_check_of_rearranged_crates :
    ∃ b : Bundle, b.Parsed ∧ (∀ u ∈ b.units, u.NamesApart) ∧
      b.Rearranged (Equiv.swap 0 1) b.turned ∧ b.declare.2.length = 1 ∧
      b.declare.1.check.reports.length = 1 ∧
      ∃ τ : Relabelling, τ.unit = Equiv.swap 0 1 ∧
        b.declare.1.Mirrors τ b.turned.declare.1 ∧
        b.turned.declare.2.Perm (b.declare.2.map τ.report) ∧
        b.turned.declare.1.check.reports.Perm (b.declare.1.check.reports.map τ.report) := by
  have htexts : ((ofTexts crates).any fun b => decide (∀ u ∈ b.units, u.NamesApart) &&
      b.size == 2 && b.declare.2.length == 1 && b.declare.1.check.reports.length == 1) = true :=
    any_ofTexts (.cons rfl (.cons rfl .nil)) (by decide +kernel)
  simp only [Option.any_eq_true, Bool.and_eq_true, decide_eq_true_eq, beq_iff_eq] at htexts
  obtain ⟨b, hb, ⟨⟨hapart, hsize⟩, hdeclare⟩, hcheck⟩ := htexts
  have hparsed := parsed_of_ofTexts hb
  have hturned := rearranged_turned hparsed.undeclared hsize
  obtain ⟨τ, hunit, hnames, hreports, -, -, -, -, hreports'⟩ :=
    declare_check_of_rearranged hparsed hapart hturned
  exact ⟨b, hparsed, hapart, hturned, hdeclare, hcheck, τ, hunit, hnames, hreports, hreports'⟩

end Bundle

end Custody
