import Custody.Proofs.Accepted

/-!
# No silent `any`

`any` takes part in every relation between types, so a type check that lets it slip in would accept
anything from there on. In a bundle of parsed files in which neither the declare stage nor the type
check reports anything, `any` occurs in no member and no signature, and a function without `zero`
and `null` has no type with `any` in it (`anyFree_of_no_reports`).
-/

set_option autoImplicit false
set_option maxRecDepth 2000

namespace Custody

variable {b : Bundle} {i : Nat} {u : SourceUnit} {strict : Bool}

/-- A function of a sound unit whose check got through has a type for each of its nodes, and each
fits the function's generic parameters. With `strict`, the check must have found nothing, and the
function must not have a `zero` or a `null`. -/
theorem fits_of_checked {mark : Mark} {head : FnHead} {body : Block} (hb : b.Sound strict)
    (hsigned : ∀ i u, b.get? i = some u → Bundle.Signed strict b.shape u)
    (hfile : u.file.Parsed) (hfault : b.check.fault = none)
    (hu : b.check.bundle.get? i = some u) (hfn : .fnDecl mark head body ∈ u.file.items)
    (hclean : strict = true → b.check.reports = [] ∧ body.every Expr.isDefinite = true) :
    ∀ id ∈ (Stmt.fnDecl mark head body).nodes, ∃ t, u.table.get? id = some t ∧
      t.Fits strict b.shape u.Aliases (head.generics.map (·.name)) := by
  obtain ⟨hok, htable, -⟩ := Bundle.table_of_check hfault hu hfile.ids_nodup hfn
  have hnone : strict = true →
      ((Typing.checkFn b u .direct mark head body).run ()).log.findings = [] :=
    fun hs => Bundle.findings_of_check hfault (hclean hs).1 hu hfile.ids_nodup hfn
  have hhead : head ∈ u.fnHeads := List.mem_filterMap.2 ⟨_, hfn, rfl⟩
  have hfirm : strict = true → body.every Expr.isFirm = true := by
    intro hs
    have hsized : body.every Expr.isSized = true := (hfile.shapes hfn).2.2
    change body.every (fun e => e.isSized && e.isDefinite) = true
    rw [body.every_and, hsized, (hclean hs).2]
    rfl
  have hforms := Typing.checkFn_forms hb (hb.unit_of_check hu) mark hfirm
    (fun _ _ _ => (Bundle.signed_of_check hsigned hu).params hhead) () () hok hnone
  intro id hid
  have hrecorded : id ∈
      ((Typing.checkFn b u .direct mark head body).run ()).log.types.map Prod.fst :=
    Typing.checkFn_writes b u .direct mark head body () () hok ▸ hid
  obtain ⟨t, ht⟩ := TypeTable.exists_get?_ofRecords hrecorded
  refine ⟨t, (htable id (Stmt.nodes_subset_ids _ hid)).trans ht, ?_⟩
  exact hforms.2 _ (TypeTable.mem_of_get?_ofRecords ht)

/-- If the stages report nothing about a bundle of parsed files, `any` occurs in no member and no
signature, and every node of a function without `zero` and `null` has a type in which `any` does not
occur. -/
theorem anyFree_of_no_reports (hparsed : b.Parsed) (hdeclare : b.declare.2 = [])
    (hfault : b.declare.1.check.fault = none) (hcheck : b.declare.1.check.reports = [])
    (hu : b.declare.1.check.bundle.get? i = some u) :
    (∀ d ∈ u.structs, ∀ m ∈ d.members, m.2.anyFree = true) ∧
      (∀ name t, u.functions.get? name = some t → t.anyFree = true) ∧
      ∀ mark head body, .fnDecl mark head body ∈ u.file.items →
        body.every Expr.isDefinite = true → ∀ id ∈ (Stmt.fnDecl mark head body).nodes,
          ∃ t, u.table.get? id = some t ∧ t.anyFree = true := by
  -- With `strict` everything well formed is free of `any`; a stage without reports keeps it so.
  obtain ⟨hsound, hsigned⟩ : b.declare.1.Sound true ∧ _ :=
    hparsed.undeclared.declare_sound fun _ => hdeclare
  have hunit := hsound.unit_of_check hu
  refine ⟨fun d hd m hm => (hunit.members d hd m hm).anyFree, fun name t ht => ?_,
    fun mark head body hfn hdefinite id hid => ?_⟩
  · obtain ⟨s, rfl, hs⟩ := hunit.functions name t ht
    have hfits : s.ty.Fits true b.declare.1.shape u.Aliases [] := hs
    exact hfits.anyFree
  · obtain ⟨t, ht, hfits⟩ := fits_of_checked hsound (hsigned hdeclare) (hparsed.file_of_check hu)
      hfault hu hfn (fun _ => ⟨hcheck, hdefinite⟩) id hid
    exact ⟨t, ht, hfits.anyFree⟩

/-- Two files, of which the first one uses a generic struct and a generic function of the other. -/
def boxes : List (String × String) :=
  [("main.liam", "import \"box.liam\" b;
fn main(xs: [2]u64) u64 {
let p := b.make:[u64](xs[0u64]);
for x : xs { p.v = x; }
return p.v;
}"),
    ("box.liam", "struct Box[T] { v: T }
fn make[T](v: T) ~Box[T] { return new Box[T]{ v: v }; }")]

/-- Every node of `main` has a type in which `any` does not occur. -/
theorem anyFree_of_no_reports_boxes :
    ∃ b u, Bundle.Parsed b ∧ b.declare.2 = [] ∧ b.declare.1.check.fault = none ∧
      b.declare.1.check.reports = [] ∧ b.declare.1.check.bundle.get? 0 = some u ∧
      ∃ mark head body, .fnDecl mark head body ∈ u.file.items ∧
        body.every Expr.isDefinite = true ∧
        ∀ id ∈ (Stmt.fnDecl mark head body).nodes, ∃ t, u.table.get? id = some t ∧
          t.anyFree = true := by
  have haccepts : Bundle.acceptsTexts boxes 0
      (fun u => u.anyFn fun _ _ body => body.every Expr.isDefinite) = true :=
    Bundle.acceptsTexts_of_chars (.cons rfl (.cons rfl .nil)) (by decide +kernel)
  obtain ⟨b, u, hparsed, hdeclare, hfault, hreports, hu, h⟩ :=
    Bundle.exists_of_acceptsTexts haccepts
  obtain ⟨mark, head, body, hitem, h⟩ := SourceUnit.exists_of_anyFn h
  exact ⟨b, u, hparsed, hdeclare, hfault, hreports, hu, mark, head, body, hitem, h,
    (anyFree_of_no_reports hparsed hdeclare hfault hreports hu).2.2 mark head body hitem h⟩

end Custody
