import Custody.Proofs.Declaring
import Custody.Proofs.MirroredChecks
import Mathlib.Data.List.Nodup

/-!
# Type tables of a bundle

A type check does not look at the tables that it fills (`checkItem_untyped`), so what it finds in an
item does not depend on the units that were checked before, and the check can be followed unit by
unit (`CheckedUpTo`). Behind a check of a bundle without a structural fault, the table of every unit
holds what was recorded for it (`table_of_check`).
-/

set_option autoImplicit false

namespace Custody

variable {σ : Type}

variable {u : SourceUnit} {i : Nat} {records : List (Nat × Ty)} {id : Nat} {k : Nat}
  {fault : StructuralFault}

/-! ## Checks do not look at tables -/

/-- A unit without its type table. -/
def SourceUnit.untyped (u : SourceUnit) : SourceUnit := { u with table := .empty }

/-- A bundle without type tables. -/
def Bundle.untyped (b : Bundle) : Bundle := ⟨b.units.map SourceUnit.untyped⟩

/-- A place in a bundle without type tables. -/
def Place.untyped (p : Place) : Place := ⟨p.bundle.untyped, p.unit.untyped, p.generics⟩

namespace Bundle

variable (b : Bundle)

theorem get?_untyped (id : Nat) : b.untyped.get? id = (b.get? id).map SourceUnit.untyped :=
  List.getElem?_map

theorem struct?_untyped (id : StructId) : b.untyped.struct? id = b.struct? id := by
  rw [struct?, struct?, get?_untyped, Option.bind_map]
  rfl

theorem get?_of_untyped {b b' : Bundle} (h : b'.untyped = b.untyped) (id : Nat) :
    (b'.get? id).map SourceUnit.untyped = (b.get? id).map SourceUnit.untyped := by
  rw [← get?_untyped, h, get?_untyped]

theorem struct?_of_untyped {b b' : Bundle} (h : b'.untyped = b.untyped) (id : StructId) :
    b'.struct? id = b.struct? id := by
  rw [← struct?_untyped, h, struct?_untyped]

theorem members?_untyped (type : Ty) : b.untyped.members? type = b.members? type := by
  simp only [members?, struct?_untyped]

theorem member?_untyped (type : Ty) (name : String) :
    b.untyped.member? type name = b.member? type name := by
  simp only [member?, struct?_untyped]

end Bundle

theorem SourceUnit.mirrors_untyped (u : SourceUnit) : u.Mirrors .same u.untyped :=
  ⟨fun _ => (Relabelling.map_ty_same _).symm, fun _ => (Relabelling.map_ty_same _).symm,
    fun _ => (Relabelling.map_ty_same _).symm⟩

theorem Bundle.mirrors_untyped (b : Bundle) : b.NamesMirror .same b.untyped := by
  refine ⟨fun i => ?_, fun id => ?_⟩
  · change Option.Rel _ (b.get? i) (b.untyped.get? i)
    rw [get?_untyped]
    cases b.get? i with
    | none => exact .none
    | some u => exact .some u.mirrors_untyped
  · change Option.Rel _ (b.struct? id) (b.untyped.struct? id)
    rw [struct?_untyped]
    cases b.struct? id with
    | none => exact .none
    | some d => exact .some ⟨rfl, rfl, rfl, (Relabelling.relabelMembers_same d.members).symm⟩

theorem InstanceBuilder.mirrors_untyped (builder : InstanceBuilder σ) (b : Bundle) :
    builder.Mirrors (.same σ) b b.untyped builder := by
  refine ⟨fun id d d' hd hd' args => ?_, fun signature args => ?_⟩
  · obtain rfl : d' = d := by
      have hsame : b.struct? id = some d' := (b.struct?_untyped id).symm.trans hd'
      exact Option.some.inj (hsame.symm.trans hd)
    change Checking.MirrorsTo _ _ _ (Checking.build (builder.struct d' (Relabelling.same.tys args)))
    rw [Relabelling.tys_same]
    rintro s _ rfl
    exact ⟨(Relabelling.ty_same _).symm, rfl, rfl, .nil⟩
  · change Checking.MirrorsTo _ _ _
        (Checking.build (builder.fn (Relabelling.same.signature signature)
      (Relabelling.same.tys args)))
    rw [Relabelling.tys_same, Relabelling.signature_same]
    rintro s _ rfl
    exact ⟨(Relabelling.signature_same _).symm, rfl, rfl, .nil⟩

namespace Typing

/-- A check of an item does not look at type tables. -/
theorem checkItem_untyped (b : Bundle) (u : SourceUnit) (builder : InstanceBuilder σ) (s : Stmt) :
    checkItem b.untyped u.untyped builder s = checkItem b u builder s := by
  have hplaces : PlacesMirror (.same σ) builder builder b b.untyped u u.untyped :=
    placesMirror_of_names b.mirrors_untyped u.mirrors_untyped (builder.mirrors_untyped b)
      fun _ _ _ => congrArg Ty.text (Relabelling.ty_same _)
  have hs : s.Resembles (.refile fun i => i) (s.refile fun i => i) := s.resembles_refile
  rw [Stmt.refile_self] at hs
  exact (checkItem_mirrors hplaces u.mirrors_untyped hs).eq

theorem checkItems_untyped (b : Bundle) (u : SourceUnit) (builder : InstanceBuilder σ)
    (items : List Stmt) :
    checkItems b.untyped u.untyped builder items = checkItems b u builder items := by
  induction items with
  | nil => rfl
  | cons s ss ih => rw [checkItems, checkItems, checkItem_untyped, ih]

/-- Units of bundles that differ in tables only are checked alike. -/
theorem checkItems_congr {b b' : Bundle} (h : b'.untyped = b.untyped) (u : SourceUnit)
    (builder : InstanceBuilder σ) (items : List Stmt) :
    checkItems b' u builder items = checkItems b u builder items := by
  rw [← checkItems_untyped b', h, checkItems_untyped]

/-! ## The records of an item -/

theorem checkItems_writes (b : Bundle) (u : SourceUnit) (builder : InstanceBuilder σ)
    (items : List Stmt) : (checkItems b u builder items).Writes (stmtsNodes items) := by
  induction items with
  | nil => exact .pure _
  | cons s ss ih => exact (checkItem_writes b u builder s).bind fun _ => ih

theorem ids_subset_stmtsIds {s : Stmt} {ss : List Stmt} (h : s ∈ ss) : s.ids ⊆ stmtsIds ss := by
  rw [stmtsIds_eq_flatMap]
  exact fun id hid => List.mem_flatMap.2 ⟨s, h, hid⟩

/-- In a check that gets through, every item gets through, and what is recorded for the other items
has other numbers. -/
theorem checkItems_ok {b : Bundle} {builder : InstanceBuilder σ}
    {items : List Stmt} {s : σ} (hok : ((checkItems b u builder items).run s).value = .ok ())
    (hnodup : (stmtsIds items).Nodup) {x : Stmt} (hx : x ∈ items) :
    ∃ s' before after, ((checkItem b u builder x).run s').value = .ok () ∧
      ((checkItems b u builder items).run s).log =
        before ++ ((checkItem b u builder x).run s').log ++ after ∧
      ∀ id ∈ x.ids, id ∉ before.types.map Prod.fst ∧ id ∉ after.types.map Prod.fst := by
  induction items generalizing s with
  | nil => exact absurd hx List.not_mem_nil
  | cons item items ih =>
    obtain ⟨_, hitem, hrest, hlog⟩ := Walking.bind_ok hok
    have hwrites := checkItem_writes b u builder item s () hitem
    have hwrites' := checkItems_writes b u builder items _ () hrest
    -- Each item records under its own numbers, which no other item has.
    obtain ⟨-, hnodup', hdisj⟩ := List.nodup_append'.1 hnodup
    rcases List.mem_cons.1 hx with rfl | hx
    · refine ⟨s, .empty, _, hitem, hlog, fun id hid => ⟨List.not_mem_nil, fun hafter => ?_⟩⟩
      rw [hwrites'] at hafter
      exact hdisj hid (stmtsNodes_subset_stmtsIds items hafter)
    · obtain ⟨s', before, after, hx', hlog', hfresh⟩ := ih hrest hnodup' hx
      refine ⟨s', ((checkItem b u builder item).run s).log ++ before, after, hx', ?_,
        fun id hid => ⟨?_, (hfresh id hid).2⟩⟩
      · rw [Log.append_assoc, Log.append_assoc, ← Log.append_assoc before, ← hlog']
        exact hlog
      · rw [Log.types_append, List.map_append, List.mem_append, not_or, hwrites]
        exact ⟨fun hbefore => hdisj (Stmt.nodes_subset_ids item hbefore)
          (ids_subset_stmtsIds hx hid), (hfresh id hid).1⟩

end Typing

/-! ## Tables -/

namespace TypeTable

theorem get?_ofRecords_append (first second : List (Nat × Ty)) (id : Nat) :
    (ofRecords (first ++ second)).get? id =
      ((ofRecords second).get? id).or ((ofRecords first).get? id) := by
  simp only [ofRecords, get?, List.reverse_append, List.lookup_append]

theorem get?_ofRecords_eq_none
    (h : id ∉ records.map Prod.fst) : (ofRecords records).get? id = none := by
  simp only [ofRecords, get?, List.lookup_eq_none_iff, List.mem_reverse, bne_iff_ne]
  exact fun r hr heq => h (heq ▸ List.mem_map_of_mem hr)

/-- A number under which something was recorded has a type. -/
theorem exists_get?_ofRecords
    (h : id ∈ records.map Prod.fst) : ∃ t, (ofRecords records).get? id = some t := by
  cases hget : (ofRecords records).get? id with
  | some t => exact ⟨t, rfl⟩
  | none =>
    obtain ⟨r, hr, rfl⟩ := List.mem_map.1 h
    have hne := List.lookup_eq_none_iff.1 hget r (List.mem_reverse.2 hr)
    simp at hne

theorem mem_of_get?_ofRecords {type : Ty}
    (h : (ofRecords records).get? id = some type) : (id, type) ∈ records := by
  obtain ⟨before, after, hentries, -⟩ := List.lookup_eq_some_iff.1 h
  have hmem : (id, type) ∈ (ofRecords records).entries :=
    hentries ▸ List.mem_append_right _ List.mem_cons_self
  exact List.mem_reverse.1 hmem

/-- Where nothing is recorded twice under one number, every record counts. -/
theorem get?_ofRecords_of_mem (hnodup : (records.map Prod.fst).Nodup)
    {id : Nat} {type : Ty} (h : (id, type) ∈ records) :
    (ofRecords records).get? id = some type := by
  obtain ⟨t, ht⟩ := exists_get?_ofRecords (List.mem_map_of_mem (f := Prod.fst) h)
  have hsame := List.inj_on_of_nodup_map hnodup (mem_of_get?_ofRecords ht) h rfl
  rw [ht, (Prod.mk.inj hsame).2]

end TypeTable

/-- The unit with the table of what was recorded. -/
def SourceUnit.withRecords (u : SourceUnit) (records : List (Nat × Ty)) : SourceUnit :=
  { u with table := .ofRecords records }

namespace Bundle

/-- A new table makes no difference for what does not look at tables. -/
theorem untyped_modify (b : Bundle) (id : Nat) (table : TypeTable) :
    (b.modify id fun u => { u with table }).untyped = b.untyped := by
  refine congrArg Bundle.mk (List.ext_getElem? fun i => ?_)
  rw [List.getElem?_map, List.getElem?_map, modify, List.getElem?_modify]
  cases b.units[i]? with
  | none => rfl
  | some u =>
    change some (SourceUnit.untyped (if id = i then _ else u)) = some u.untyped
    split
    · rfl
    · rfl

/-- A check changes tables only. -/
theorem untyped_checkUnits (b : Bundle) (builder : InstanceBuilder σ) (ids : List Nat) (s : σ) :
    (b.checkUnits builder ids s).bundle.untyped = b.untyped := by
  induction ids generalizing b s with
  | nil => rfl
  | cons id ids ih =>
    unfold checkUnits
    split
    · exact ih b s
    · dsimp only
      split
      · rfl
      · exact (ih _ _).trans (b.untyped_modify id _)

variable {b : Bundle} {builder : InstanceBuilder σ} {s : σ}

/-! ## Units in order -/

section Cons

variable {id : Nat} {u : SourceUnit} (ids : List Nat)

theorem checkUnits_cons_of_none (hget : b.get? id = none) :
    b.checkUnits builder (id :: ids) s = b.checkUnits builder ids s := by
  simp only [checkUnits, hget]

theorem checkUnits_cons_of_fault (hget : b.get? id = some u)
    (hvalue : ((Typing.checkItems b u builder u.file.items).run s).value = .error fault) :
    b.checkUnits builder (id :: ids) s =
      let run := (Typing.checkItems b u builder u.file.items).run s
      ⟨b, run.log.findings.map (.ofFinding .typeCheck u.path), some fault, run.instances⟩ := by
  simp only [checkUnits, hget, hvalue]

theorem checkUnits_cons_of_ok (hget : b.get? id = some u)
    (hvalue : ((Typing.checkItems b u builder u.file.items).run s).value = .ok ()) :
    b.checkUnits builder (id :: ids) s =
      let run := (Typing.checkItems b u builder u.file.items).run s
      let rest := (b.modify id (·.withRecords run.log.types)).checkUnits builder ids run.instances
      { rest with
        reports := run.log.findings.map (.ofFinding .typeCheck u.path) ++ rest.reports } := by
  simp only [checkUnits, hget, hvalue, SourceUnit.withRecords]

end Cons

theorem checkUnits_append_of_ok {xs : List Nat} (ys : List Nat)
    (h : (b.checkUnits builder xs s).fault = none) :
    b.checkUnits builder (xs ++ ys) s =
      let first := b.checkUnits builder xs s
      let rest := first.bundle.checkUnits builder ys first.instances
      { rest with reports := first.reports ++ rest.reports } := by
  induction xs generalizing b s with
  | nil => rfl
  | cons id xs ih =>
    rw [List.cons_append]
    cases hget : b.get? id with
    | none =>
      rw [checkUnits_cons_of_none _ hget] at h ⊢
      rw [checkUnits_cons_of_none _ hget]
      exact ih h
    | some u =>
      cases hvalue : ((Typing.checkItems b u builder u.file.items).run s).value with
      | error fault =>
        rw [checkUnits_cons_of_fault _ hget hvalue] at h
        cases h
      | ok _ =>
        rw [checkUnits_cons_of_ok _ hget hvalue] at h ⊢
        rw [checkUnits_cons_of_ok _ hget hvalue]
        dsimp only
        rw [ih h]
        simp only [List.append_assoc]

theorem checkUnits_append_of_fault {xs : List Nat} (ys : List Nat) {fault : StructuralFault}
    (h : (b.checkUnits builder xs s).fault = some fault) :
    b.checkUnits builder (xs ++ ys) s = b.checkUnits builder xs s := by
  induction xs generalizing b s with
  | nil => cases h
  | cons id xs ih =>
    rw [List.cons_append]
    cases hget : b.get? id with
    | none =>
      rw [checkUnits_cons_of_none _ hget] at h ⊢
      rw [checkUnits_cons_of_none _ hget]
      exact ih h
    | some u =>
      cases hvalue : ((Typing.checkItems b u builder u.file.items).run s).value with
      | error fault =>
        rw [checkUnits_cons_of_fault _ hget hvalue, checkUnits_cons_of_fault _ hget hvalue]
      | ok _ =>
        rw [checkUnits_cons_of_ok _ hget hvalue] at h ⊢
        rw [checkUnits_cons_of_ok _ hget hvalue]
        dsimp only
        rw [ih h]

/-- The instances that the check of a unit starts with: what the units before it left. -/
def instancesAt (b : Bundle) (builder : InstanceBuilder σ) (s : σ) (i : Nat) : σ :=
  (b.checkUnits builder (List.range i) s).instances

/-- The check of the items of a unit. -/
def unitRun (b : Bundle) (builder : InstanceBuilder σ) (s : σ) (i : Nat) (u : SourceUnit) :
    Checked σ (Except StructuralFault Unit) :=
  (Typing.checkItems b u builder u.file.items).run (b.instancesAt builder s i)

/-- The check of a unit is the same in front of the units and behind those that come before it. -/
theorem run_checkItems (k : Nat) (u : SourceUnit) :
    (Typing.checkItems (b.checkUnits builder (List.range k) s).bundle u builder u.file.items).run
      (b.checkUnits builder (List.range k) s).instances = b.unitRun builder s k u := by
  rw [Typing.checkItems_congr (b.untyped_checkUnits builder _ s), unitRun, instancesAt]

/-- What a bundle looks like when its first `k` units are checked. -/
structure CheckedUpTo (b : Bundle) (builder : InstanceBuilder σ) (s : σ) (k : Nat) (b' : Bundle) :
    Prop where
  checked : ∀ i < k, ∀ u, b.get? i = some u → (b.unitRun builder s i u).value = .ok () ∧
    b'.get? i = some (u.withRecords (b.unitRun builder s i u).log.types)
  kept : ∀ i, k ≤ i → b'.get? i = b.get? i

/-- What the check of one more unit does: it ends the check, or it changes one table. -/
theorem checkUnits_range_succ
    (h : (b.checkUnits builder (List.range k) s).fault = none)
    (hk : CheckedUpTo b builder s k (b.checkUnits builder (List.range k) s).bundle) :
    (∃ u fault, b.get? k = some u ∧ (b.unitRun builder s k u).value = .error fault ∧
      (b.checkUnits builder (List.range (k + 1)) s).fault = some fault ∧
      (b.checkUnits builder (List.range (k + 1)) s).bundle =
        (b.checkUnits builder (List.range k) s).bundle) ∨
    ((b.checkUnits builder (List.range (k + 1)) s).fault = none ∧
      CheckedUpTo b builder s (k + 1) (b.checkUnits builder (List.range (k + 1)) s).bundle) := by
  -- The units from `k` on are as they were, so unit `k` is checked as it was given.
  have hget := hk.kept k (Nat.le_refl k)
  rw [List.range_succ, checkUnits_append_of_ok [k] h]
  dsimp only
  cases hu : b.get? k with
  | none =>
    rw [checkUnits_cons_of_none [] (hget.trans hu)]
    refine .inr ⟨rfl, fun i hi u hiu => ?_, fun i hi => hk.kept i (by omega)⟩
    have hne : i ≠ k := by
      rintro rfl
      rw [hu] at hiu
      cases hiu
    exact hk.checked i (by omega) u hiu
  | some u =>
    have hrun : _ = b.unitRun builder s k u := run_checkItems k u
    cases hvalue : (b.unitRun builder s k u).value with
    | error fault =>
      rw [checkUnits_cons_of_fault [] (hget.trans hu) (hrun ▸ hvalue)]
      exact .inl ⟨u, fault, rfl, hvalue, rfl, rfl⟩
    | ok _ =>
      rw [checkUnits_cons_of_ok [] (hget.trans hu) (hrun ▸ hvalue), hrun]
      refine .inr ⟨rfl, fun i hi v hiv => ?_, fun i hi => ?_⟩
      · change _ ∧ (modify _ k _).get? i = _
        rcases Nat.lt_succ_iff_lt_or_eq.1 hi with hi | rfl
        · rw [get?_modify_of_ne (Nat.ne_of_gt hi)]
          exact hk.checked i hi v hiv
        · obtain rfl : u = v := Option.some.inj (hu.symm.trans hiv)
          rw [get?_modify_self (hget.trans hu)]
          exact ⟨hvalue, rfl⟩
      · change (modify _ k _).get? i = _
        rw [get?_modify_of_ne (by omega)]
        exact hk.kept i (by omega)

/-- A check of the first units that ends without a fault has filled their tables. -/
theorem checkedUpTo_of_ok (h : (b.checkUnits builder (List.range k) s).fault = none) :
    CheckedUpTo b builder s k (b.checkUnits builder (List.range k) s).bundle := by
  induction k with
  | zero => exact ⟨fun i hi => absurd hi (Nat.not_lt_zero i), fun i _ => rfl⟩
  | succ k ih =>
    cases hk : (b.checkUnits builder (List.range k) s).fault with
    | none =>
      rcases checkUnits_range_succ hk (ih hk) with ⟨u, fault, -, -, hfault, -⟩ | ⟨-, hchecked⟩
      · rw [h] at hfault
        cases hfault
      · exact hchecked
    | some fault =>
      rw [List.range_succ, checkUnits_append_of_fault [k] hk, hk] at h
      cases h

/-- A fault of a check is the fault of one unit, and the check ends there. -/
theorem checkedUpTo_of_fault
    (h : (b.checkUnits builder (List.range k) s).fault = some fault) :
    ∃ m u, b.get? m = some u ∧ (b.unitRun builder s m u).value = .error fault ∧
      CheckedUpTo b builder s m (b.checkUnits builder (List.range k) s).bundle := by
  induction k with
  | zero => cases h
  | succ k ih =>
    cases hk : (b.checkUnits builder (List.range k) s).fault with
    | none =>
      rcases checkUnits_range_succ hk (checkedUpTo_of_ok hk) with
        ⟨u, fault', hu, hvalue, hfault, hbundle⟩ | ⟨hnone, -⟩
      · rw [h] at hfault
        cases hfault
        exact ⟨k, u, hu, hvalue, hbundle ▸ checkedUpTo_of_ok hk⟩
      · rw [h] at hnone
        cases hnone
    | some fault' =>
      rw [List.range_succ, checkUnits_append_of_fault [k] hk] at h ⊢
      exact ih h

/-- A check of the first units that ends without a fault reports what it finds in each, in order. -/
theorem reports_of_ok (h : (b.checkUnits builder (List.range k) s).fault = none) :
    (b.checkUnits builder (List.range k) s).reports = (List.range k).flatMap fun i =>
      (b.get? i).elim [] fun u =>
        (b.unitRun builder s i u).log.findings.map (.ofFinding .typeCheck u.path) := by
  induction k with
  | zero => rfl
  | succ k ih =>
    cases hk : (b.checkUnits builder (List.range k) s).fault with
    | some fault =>
      rw [List.range_succ, checkUnits_append_of_fault [k] hk, hk] at h
      cases h
    | none =>
      have hget := (checkedUpTo_of_ok hk).kept k (Nat.le_refl k)
      rw [List.range_succ, checkUnits_append_of_ok [k] hk, List.flatMap_append, ← ih hk,
        List.flatMap_singleton]
      dsimp only
      refine congrArg (_ ++ ·) ?_
      cases hu : b.get? k with
      | none =>
        rw [checkUnits_cons_of_none [] (hget.trans hu)]
        rfl
      | some u =>
        have hrun : _ = b.unitRun builder s k u := run_checkItems k u
        cases hvalue : (b.unitRun builder s k u).value with
        | error fault =>
          rw [checkUnits_cons_of_fault [] (hget.trans hu) (hrun ▸ hvalue), hrun]
          rfl
        | ok _ =>
          rw [checkUnits_cons_of_ok [] (hget.trans hu) (hrun ▸ hvalue), hrun]
          exact List.append_nil _

/-! ## The table of a unit -/

/-- A unit that was checked is as it was before, but for its table. -/
theorem get?_of_check {b : Bundle}
    (hget : b.check.bundle.get? i = some u) :
    ∃ u₀, b.get? i = some u₀ ∧ u₀.untyped = u.untyped := by
  have huntyped := congrArg (Bundle.get? · i) (b.untyped_checkUnits .direct (List.range b.size) ())
  simp only [get?_untyped] at huntyped
  have hget' : (b.checkUnits .direct (List.range b.size) ()).bundle.get? i = some u := hget
  rw [hget', Option.map_some] at huntyped
  exact Option.map_eq_some_iff.1 huntyped.symm

/-- A type check keeps units well formed. -/
theorem Sound.unit_of_check {b : Bundle} {strict : Bool} (h : b.Sound strict) {i : Nat}
    {u : SourceUnit} (hu : b.check.bundle.get? i = some u) : u.Sound strict b.shape := by
  obtain ⟨u₀, hu₀, hsame⟩ := get?_of_check hu
  have hsound := h.units u₀ (mem_units_of_get? hu₀)
  have huntyped : u₀.untyped.Sound strict b.shape :=
    ⟨hsound.types, hsound.functions, hsound.namespaces, hsound.members⟩
  rw [hsame] at huntyped
  exact ⟨huntyped.types, huntyped.functions, huntyped.namespaces, huntyped.members⟩

/-- A type check keeps the signatures of a unit. -/
theorem signed_of_check {b : Bundle} {strict : Bool} {shape : Shape}
    (h : ∀ i u, b.get? i = some u → Signed strict shape u) {i : Nat} {u : SourceUnit}
    (hu : b.check.bundle.get? i = some u) : Signed strict shape u := by
  obtain ⟨u₀, hu₀, hsame⟩ := get?_of_check hu
  have huntyped : Signed strict shape u₀.untyped := h i u₀ hu₀
  rw [hsame] at huntyped
  exact huntyped

/-- Behind a check of a bundle without a structural fault, the check of each function got through,
the table of its unit holds what was recorded for it, and its findings are reported. -/
theorem table_of_check {b : Bundle} (hfault : b.check.fault = none)
    (hget : b.check.bundle.get? i = some u) (hnodup : (stmtsIds u.file.items).Nodup) {mark : Mark}
    {head : FnHead} {body : Block} (hfn : .fnDecl mark head body ∈ u.file.items) :
    let run := (Typing.checkFn b u .direct mark head body).run ()
    run.value = .ok () ∧
      (∀ id ∈ (Stmt.fnDecl mark head body).ids,
        u.table.get? id = (TypeTable.ofRecords run.log.types).get? id) ∧
      ∀ f ∈ run.log.findings, Report.ofFinding .typeCheck u.path f ∈ b.check.reports := by
  obtain ⟨u₀, hu₀, -⟩ := get?_of_check hget
  have hi : i < b.size := (List.getElem?_eq_some_iff.1 hu₀).1
  obtain ⟨hok, hget₀⟩ := (checkedUpTo_of_ok hfault).checked i hi u₀ hu₀
  obtain rfl := Option.some.inj (hget.symm.trans hget₀)
  obtain ⟨s', before, after, hrun, hlog, hfresh⟩ := Typing.checkItems_ok hok hnodup hfn
  -- The check ran before the table was filled in, which it does not look at.
  have hfun : Typing.checkItem b u₀ .direct (.fnDecl mark head body) =
      Typing.checkItem b (u₀.withRecords (b.unitRun .direct () i u₀).log.types) .direct
        (.fnDecl mark head body) :=
    (Typing.checkItem_untyped b u₀ _ _).symm.trans
      (Typing.checkItem_untyped b (u₀.withRecords (b.unitRun .direct () i u₀).log.types) _ _)
  intro run
  have hrun' : (Typing.checkItem b u₀ .direct (.fnDecl mark head body)).run s' = run := by
    rw [hfun]
    rfl
  rw [hrun'] at hrun hlog
  refine ⟨hrun, fun id hid => ?_, fun f hf => ?_⟩
  -- No other item records anything under the numbers of the function.
  · obtain ⟨hbefore, hafter⟩ := hfresh id hid
    change (TypeTable.ofRecords (b.unitRun .direct () i u₀).log.types).get? id = _
    rw [unitRun, instancesAt, hlog, Log.types_append, Log.types_append,
      TypeTable.get?_ofRecords_append,
      TypeTable.get?_ofRecords_append, TypeTable.get?_ofRecords_eq_none hbefore,
      TypeTable.get?_ofRecords_eq_none hafter, Option.or_none, Option.none_or]
  · have hreports : b.check.reports = _ := reports_of_ok hfault
    rw [hreports]
    refine List.mem_flatMap.2 ⟨i, List.mem_range.2 hi, ?_⟩
    rw [hu₀]
    refine List.mem_map_of_mem ?_
    rw [unitRun, instancesAt, hlog]
    exact List.mem_append_left _ (List.mem_append_right _ hf)

/-- Where nothing is reported, no check of a function found anything. -/
theorem findings_of_check {b : Bundle} (hfault : b.check.fault = none)
    (hreports : b.check.reports = []) (hget : b.check.bundle.get? i = some u)
    (hnodup : (stmtsIds u.file.items).Nodup) {mark : Mark} {head : FnHead} {body : Block}
    (hfn : .fnDecl mark head body ∈ u.file.items) :
    ((Typing.checkFn b u .direct mark head body).run ()).log.findings = [] := by
  obtain ⟨-, -, hfindings⟩ := table_of_check hfault hget hnodup hfn
  refine List.eq_nil_iff_forall_not_mem.2 fun f hf => ?_
  have hreported := hfindings f hf
  rw [hreports] at hreported
  cases hreported

end Bundle

end Custody
