import Custody.Proofs.Items
import Custody.Proofs.NodeTypes

/-!
# Structural faults

The check of types stops at a statement among the items of a file, at a declaration inside a
function and at a function whose name was never declared. None of the three comes from a text. A
file that was read has only items at its top and only local statements inside
(`SourceFile.Parsed.items`), and the declare stage leaves a signature under the name of every
function, be its own declaration rejected or not (`Bundle.Undeclared.declareWith_signed`). So the
check of declared files always gets through (`Bundle.fault_check_of_parsed`).
-/

set_option autoImplicit false
set_option maxRecDepth 2000

namespace Custody

variable {σ τ : Type}

/-! ## Every function has a signature -/

namespace SourceUnit

/-- The scope of functions has a signature under the name of every function of the file. -/
def FnsSigned (u : SourceUnit) : Prop :=
  ∀ head ∈ u.fnHeads, ∃ signature : Signature, u.functions.get? head.name.name = some signature.ty

/-- Functions that are declared in an empty scope have signatures under all their names. A duplicate
is rejected only where its name has an entry already. -/
theorem signature_of_declareFns {u : SourceUnit} (hempty : u.functions = .empty)
    (fns : List (Ident × Signature)) {e : Ident × Signature} (he : e ∈ fns) :
    ∃ signature : Signature, (u.declareFns fns).1.functions.get? e.1.name = some signature.ty := by
  have hfound : (fns.find? fun e' => e'.1.name == e.1.name).isSome :=
    List.find?_isSome.2 ⟨e, he, beq_self_eq_true _⟩
  obtain ⟨first, hfirst⟩ := Option.isSome_iff_exists.1 hfound
  refine ⟨first.2, ?_⟩
  rw [u.functions_declareFns_eq, hempty, hfirst]
  rfl

end SourceUnit

namespace Bundle

variable {b : Bundle} {id : Nat}

/-- Each function gets a signature under its own name. -/
theorem names_resolveFns (b : Bundle) (builder : InstanceBuilder σ) (u : SourceUnit)
    (heads : List FnHead) (s : σ) :
    (b.resolveFns builder u heads s).value.map Prod.fst = heads.map FnHead.name := by
  induction heads generalizing s with
  | nil => rfl
  | cons head heads ih => exact congrArg (List.cons head.name) (ih _)

/-- The third round signs the functions of one unit and leaves the other units alone. -/
theorem declareSignatures_signed (builder : InstanceBuilder σ) (s : σ)
    (hempty : ∀ u, b.get? id = some u → u.functions = .empty) (slots : List (Option Nat)) :
    (∀ u, (b.declareSignatures builder id slots s).1.get? id = some u → u.FnsSigned) ∧
      ∀ i, id ≠ i → (b.declareSignatures builder id slots s).1.get? i = b.get? i := by
  unfold declareSignatures
  cases hget : b.get? id with
  | none =>
    refine ⟨fun u hu => ?_, fun _ _ => rfl⟩
    rw [hget] at hu
    cases hu
  | some u =>
    refine ⟨fun u' hu' head hhead => ?_, fun i hi => get?_modify_of_ne hi _⟩
    dsimp only at hu'
    rw [get?_modify_self hget] at hu'
    obtain rfl := Option.some.inj hu'
    -- The round keeps the file, so the heads are those that the signatures were made for.
    have hheads : head ∈ u.fnHeads := by
      rw [SourceUnit.fnHeads, SourceUnit.file_declareFns] at hhead
      exact hhead
    obtain ⟨e, he, hname⟩ : ∃ e ∈ (b.resolveFns builder u u.fnHeads
        (b.resolveStructs builder u (u.structDecls.zip slots) s).instances).value,
          e.1 = head.name := by
      have hmem := List.mem_map_of_mem (f := FnHead.name) hheads
      rw [← names_resolveFns b builder u u.fnHeads] at hmem
      exact List.mem_map.1 hmem
    rw [← hname]
    refine SourceUnit.signature_of_declareFns ?_ _ he
    exact hempty u hget

theorem declareSignaturesFrom_signed (builder : InstanceBuilder σ)
    (slots : List (List (Option Nat))) (b : Bundle) (id : Nat) (s : σ)
    (hempty : ∀ i u, id ≤ i → b.get? i = some u → u.functions = .empty) :
    (∀ i u, id ≤ i → i < id + slots.length →
      (b.declareSignaturesFrom builder id slots s).1.get? i = some u → u.FnsSigned) ∧
      ∀ i, i < id → (b.declareSignaturesFrom builder id slots s).1.get? i = b.get? i := by
  induction slots generalizing b id s with
  | nil => exact ⟨fun i u hle hlt => absurd hlt (Nat.not_lt.2 hle), fun _ _ => rfl⟩
  | cons places slots ih =>
    obtain ⟨hsigned, hother⟩ := declareSignatures_signed builder s
      (fun u => hempty id u (Nat.le_refl id)) places
    obtain ⟨hrest, hbefore⟩ := ih (b.declareSignatures builder id places s).1 (id + 1)
      (b.declareSignatures builder id places s).2.2 fun i u hle hu =>
        hempty i u (by omega) ((hother i (by omega)).symm.trans hu)
    refine ⟨fun i u hle hlt hu => ?_, fun i hi => ?_⟩
    · rw [List.length_cons] at hlt
      rcases Nat.eq_or_lt_of_le hle with rfl | hlt'
      · exact hsigned u ((hbefore id (Nat.lt_succ_self id)).symm.trans hu)
      · exact hrest i u hlt' (by omega) hu
    · exact (hbefore i (by omega)).trans (hother i (by omega))

/-- Behind the declare stage every function of every unit has a signature under its name. -/
theorem Undeclared.declareWith_signed (h : b.Undeclared) (builder : InstanceBuilder σ) (s : σ)
    {i : Nat}
    {u : SourceUnit} (hu : (b.declareWith builder s).1.get? i = some u) : u.FnsSigned := by
  have hempty : ∀ j v, 0 ≤ j → b.declareAliases.1.declareStructs.1.get? j = some v →
      v.functions = .empty := by
    intro j v _ hv
    rw [declareStructs_eq] at hv
    exact (h.bare_shelled (mem_units_of_get? hv)).functions
  have hsigned :=
    (declareSignaturesFrom_signed builder b.declareAliases.1.declareStructs.2.1 _ 0 s hempty).1
  refine hsigned i u (Nat.zero_le i) ?_ hu
  -- The round goes through all units: there are as many slots as files.
  have hi := (List.getElem?_eq_some_iff.1 hu).1
  have hfiles := congrArg List.length (files_declareSignaturesFrom
    b.declareAliases.1.declareStructs.1 builder 0 b.declareAliases.1.declareStructs.2.1 s)
  rw [files, files, List.length_map, List.length_map] at hfiles
  have hslots : b.declareAliases.1.declareStructs.2.1.length =
      b.declareAliases.1.declareStructs.1.units.length := by
    rw [declareStructs_eq, shelled, List.length_map, List.length_map]
  rw [hslots, ← hfiles, Nat.zero_add]
  exact hi

theorem files_declareWith (b : Bundle) (builder : InstanceBuilder σ) (s : σ) :
    (b.declareWith builder s).1.files = b.files :=
  (files_declareSignaturesFrom _ _ _ _ _).trans
    ((files_declareStructs _).trans b.files_declareAliases)

end Bundle

/-! ## The check gets through -/

namespace Typing

open Walking

/-- The check gets through the items of a parsed file whose functions are signed. -/
theorem checkItems_succeeds (bundle : Bundle) {unit : SourceUnit} (builder : InstanceBuilder σ)
    (hsigned : unit.FnsSigned) {items : List Stmt} (hsub : items ⊆ unit.file.items)
    (hitems : ∀ s ∈ items, s.isItem = true) : (checkItems bundle unit builder items).Succeeds := by
  induction items with
  | nil => exact .pure _
  | cons s items ih =>
    obtain ⟨hmem, hsub⟩ := List.cons_subset.1 hsub
    obtain ⟨hitem, hitems⟩ := List.forall_mem_cons.1 hitems
    refine (checkItem_succeeds bundle unit builder s hitem ?_).bind fun _ => ih hsub hitems
    rintro mark head block rfl
    exact hsigned head (List.mem_filterMap.2 ⟨_, hmem, rfl⟩)

end Typing

namespace Bundle

/-- The check of declared files gets through, whatever the texts that they were read from, wherever
their imports lead and whatever the declare stage reported. The two stages may make their instances
in different ways. -/
theorem fault_check_of_parsed {b : Bundle} (h : b.Parsed) (builder : InstanceBuilder σ) (s : σ)
    (builder' : InstanceBuilder τ) (s' : τ) :
    ((b.declareWith builder s).1.checkWith builder' s').fault = none := by
  cases hfault : ((b.declareWith builder s).1.checkWith builder' s').fault with
  | none => rfl
  | some fault =>
    obtain ⟨i, u, hu, hvalue, -⟩ := checkedUpTo_of_fault hfault
    have hfile : u.file ∈ b.files := by
      rw [← files_declareWith b builder s]
      exact List.mem_map_of_mem (mem_units_of_get? hu)
    have hitems := (h.files _ hfile).items
    obtain ⟨value, hok⟩ := Typing.checkItems_succeeds _ builder'
      (h.undeclared.declareWith_signed builder s hu) (List.Subset.refl _) hitems
      ((b.declareWith builder s).1.instancesAt builder' s' i)
    rw [unitRun, hok] at hvalue
    cases hvalue

/-- Two files with mistakes of every sort that the declare stage reports. -/
def clashes : List (String × String) :=
  [("shape.liam", "struct Box[T] { v: T, v: Nope[T] }
struct Box { w: u64 }
struct u8 { }"),
    ("main.liam", "import \"shape.liam\" s; import \"lost.liam\" s;
fn f(a: s.Box[u64, u64]) nope.T { for let i: Box = 1; i; i = f { f(a); } }
fn f[T](a: T, a: T) T { if f:[bool](a, a) { return 1; } else if a { break; } else { { } } }
fn f() { }")]

/-- The declare stage reports nine mistakes about these files, and the check gets through them, with
instances made anew or kept. -/
theorem fault_check_of_parsed_clashes :
    ∃ b : Bundle, b.Parsed ∧ b.declare.2.length = 9 ∧
      ((b.declareWith .direct ()).1.checkWith .direct ()).fault = none ∧
      ((b.declareWith .memo .empty).1.checkWith .memo (b.declareWith .memo .empty).2.2).fault =
        none := by
  have htexts : ((ofTexts clashes).any fun b => b.declare.2.length == 9) = true :=
    any_ofTexts (.cons rfl (.cons rfl .nil)) (by decide +kernel)
  obtain ⟨b, hb, hreports⟩ := (Option.any_eq_true _ _).1 htexts
  have hparsed := parsed_of_ofTexts hb
  exact ⟨b, hparsed, beq_iff_eq.1 hreports, fault_check_of_parsed hparsed _ _ _ _,
    fault_check_of_parsed hparsed _ _ _ _⟩

end Bundle

end Custody
