import Custody.Proofs.Accepted
import Custody.Proofs.Visits

/-!
# Every node has one type

A check of a bundle goes through the units in order. Each unit that it gets through has a new table,
with one type for each expression and each statement of the file and for nothing else, and the type
of an expression is the one that the check of that expression gave. The first structural fault ends
the check: the units from there on keep their tables. Nothing but tables ever changes
(`Bundle.checkWith_types_every_node`).
-/

set_option autoImplicit false
set_option maxRecDepth 2000

namespace Custody

variable {σ : Type}

namespace Bundle

variable {b : Bundle} {builder : InstanceBuilder σ} {s : σ}

/-! ## The table of a unit -/

/-- The unit `u`, with a table of one type for each node of the file: the table that a check with
the instances `s` gives. -/
structure NodesTyped (b : Bundle) (builder : InstanceBuilder σ) (s : σ) (u₀ u : SourceUnit) :
    Prop where
  /-- The check gets through, and only the table of the unit is new. -/
  unit : ((Typing.checkItems b u₀ builder u₀.file.items).run s).value = .ok () ∧
    u = u₀.withRecords ((Typing.checkItems b u₀ builder u₀.file.items).run s).log.types
  /-- Expressions and statements have a type, and nothing else has one. -/
  nodes : ∀ id, (∃ t, u.table.get? id = some t) ↔ id ∈ stmtsNodes u₀.file.items
  typeNodes : (stmtsIds u₀.file.items).Nodup →
    ∀ id ∈ stmtsTypeNodes u₀.file.items, u.table.get? id = none
  /-- The check visits all expressions, each once. -/
  visits : (Typing.itemsVisits b u₀ builder u₀.file.items s).map Typing.Visit.expr =
    stmtsExprs u₀.file.items
  /-- The type of an expression is the value of its check. -/
  types : ∀ v ∈ Typing.itemsVisits b u₀ builder u₀.file.items s,
    u.table.get? v.expr.id = some (v.type builder)

theorem nodesTyped_of_ok {u : SourceUnit} (hnodup : (stmtsNodes u.file.items).Nodup)
    (hok : ((Typing.checkItems b u builder u.file.items).run s).value = .ok ()) :
    NodesTyped b builder s u
      (u.withRecords ((Typing.checkItems b u builder u.file.items).run s).log.types) := by
  have hwrites := Typing.checkItems_writes b u builder u.file.items s () hok
  obtain ⟨hexprs, hsub⟩ := Typing.checkItems_traces b u builder u.file.items s () hok
  have hnodes : ∀ id, (∃ t, (TypeTable.ofRecords
      ((Typing.checkItems b u builder u.file.items).run s).log.types).get? id = some t) ↔
        id ∈ stmtsNodes u.file.items := by
    intro id
    rw [← hwrites]
    constructor
    · rintro ⟨t, ht⟩
      exact List.mem_map_of_mem (f := Prod.fst) (TypeTable.mem_of_get?_ofRecords ht)
    · exact TypeTable.exists_get?_ofRecords
  refine ⟨⟨hok, rfl⟩, hnodes, fun hids id hid => ?_, hexprs, fun v hv => ?_⟩
  · have hnone : ¬ ∃ t, _ := (hnodes id).not.2 (not_mem_stmtsNodes_of_typeNode hids hid)
    exact Option.eq_none_iff_forall_ne_some.2 fun t ht => hnone ⟨t, ht⟩
  · refine TypeTable.get?_ofRecords_of_mem (hwrites ▸ hnodup) (hsub.subset ?_)
    exact List.mem_map_of_mem (f := Typing.Visit.entry builder) hv

/-- A check of a bundle, with or without reports, gives every expression and every statement exactly
one type, the type of an expression being the value of its own check. A structural fault in unit `k`
leaves the tables from `k` on as they were. Nothing but tables changes. -/
theorem checkWith_types_every_node (b : Bundle) (builder : InstanceBuilder σ) (s : σ)
    (hnodup : ∀ u ∈ b.units, (stmtsNodes u.file.items).Nodup) :
    (b.checkWith builder s).bundle.untyped = b.untyped ∧
      ((b.checkWith builder s).fault = none → ∀ i u, b.get? i = some u →
        ∃ u', (b.checkWith builder s).bundle.get? i = some u' ∧
          NodesTyped b builder (b.instancesAt builder s i) u u') ∧
      ∀ fault, (b.checkWith builder s).fault = some fault → ∃ k u, b.get? k = some u ∧
        (b.unitRun builder s k u).value = .error fault ∧
        (∀ i < k, ∀ u, b.get? i = some u →
          ∃ u', (b.checkWith builder s).bundle.get? i = some u' ∧
            NodesTyped b builder (b.instancesAt builder s i) u u') ∧
        ∀ i, k ≤ i → (b.checkWith builder s).bundle.get? i = b.get? i := by
  -- Units before the place where the check ended have a table as it should be.
  have htyped : ∀ {k b'}, CheckedUpTo b builder s k b' → ∀ i < k, ∀ u, b.get? i = some u →
      ∃ u', b'.get? i = some u' ∧ NodesTyped b builder (b.instancesAt builder s i) u u' := by
    intro k b' hchecked i hi u hu
    obtain ⟨hok, hget⟩ := hchecked.checked i hi u hu
    exact ⟨_, hget, nodesTyped_of_ok (hnodup u (mem_units_of_get? hu)) hok⟩
  refine ⟨b.untyped_checkUnits builder _ s, fun hfault i u hu => ?_, fun fault hfault => ?_⟩
  · have hi : i < b.size := (List.getElem?_eq_some_iff.1 hu).1
    exact htyped (checkedUpTo_of_ok hfault) i hi u hu
  · obtain ⟨k, u, hu, hvalue, hchecked⟩ := checkedUpTo_of_fault hfault
    exact ⟨k, u, hu, hvalue, htyped hchecked, hchecked.kept⟩

theorem nodes_nodup_of_files {b : Bundle} (h : ∀ f ∈ b.files, f.Parsed) :
    ∀ u ∈ b.units, (stmtsNodes u.file.items).Nodup :=
  fun _ hu => stmtsNodes_nodup (h _ (List.mem_map_of_mem hu)).ids_nodup

/-- A file without functions and one with a function full of mistakes. -/
def misfits : List (String × String) :=
  [("shape.liam", "struct Box[T] { v: T }"),
    ("main.liam", "import \"shape.liam\" s;
fn main(n: u64) bool {
let b := new s.Box[u64]{ w: n, v: true };
for x : b.v { nope(n(x))[true]; }
return b;
}")]

/-- When the files are declared, the check reports mistakes and types every node all the same. When
they are not, the check stops in the file with the function and leaves it as it is. -/
theorem checkWith_types_every_node_misfits :
    ∃ b : Bundle, ∃ u fault,
      (∀ v ∈ b.declare.1.units, (stmtsNodes v.file.items).Nodup) ∧
      (∀ v ∈ b.units, (stmtsNodes v.file.items).Nodup) ∧
      b.declare.1.check.fault = none ∧ b.declare.1.check.reports ≠ [] ∧
      b.declare.1.get? 1 = some u ∧ b.check.fault = some fault ∧
      (∃ u', b.declare.1.check.bundle.get? 1 = some u' ∧
        NodesTyped b.declare.1 .direct (b.declare.1.instancesAt .direct () 1) u u') ∧
      ∃ k u, b.get? k = some u ∧ (b.unitRun .direct () k u).value = .error fault ∧
        ∀ i, k ≤ i → b.check.bundle.get? i = b.get? i := by
  have htexts : ((ofTexts misfits).any fun b =>
      b.declare.1.check.fault.isNone && !b.declare.1.check.reports.isEmpty &&
        (b.declare.1.get? 1).isSome && b.check.fault.isSome) = true :=
    any_ofTexts (.cons rfl (.cons rfl .nil)) (by decide +kernel)
  simp only [Option.any_eq_true, Bool.and_eq_true, Option.isNone_iff_eq_none, Bool.not_eq_true',
    Option.isSome_iff_exists] at htexts
  obtain ⟨b, hb, ⟨⟨hnone, hreports⟩, u, hu⟩, fault, hfault⟩ := htexts
  have hfiles := (parsed_of_ofTexts hb).files
  have hdeclared := nodes_nodup_of_files (b.files_declare.symm ▸ hfiles)
  obtain ⟨-, hchecked, -⟩ := checkWith_types_every_node b.declare.1 .direct () hdeclared
  obtain ⟨-, -, hstopped⟩ := checkWith_types_every_node b .direct () (nodes_nodup_of_files hfiles)
  obtain ⟨k, v, hv, hvalue, -, hkept⟩ := hstopped fault hfault
  refine ⟨b, u, fault, hdeclared, nodes_nodup_of_files hfiles, hnone, ?_, hu, hfault,
    hchecked hnone 1 u hu, k, v, hv, hvalue, hkept⟩
  rintro hempty
  rw [hempty] at hreports
  cases hreports

end Bundle

end Custody
