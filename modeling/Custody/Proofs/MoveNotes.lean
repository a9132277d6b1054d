import Custody.Proofs.Accepted

/-!
# What the notes of a misuse tell

A report of the move check has two notes: where the value was owned, and where it was moved. The
second one is there only if the state of the binding says where the value went; in the tables of a
walk, all states are accounted for in that way (`Table.Accounted`). The places of all reports of a
unit are different (`Bundle.checkMoves_notes`).
-/

set_option autoImplicit false
set_option maxRecDepth 2000

namespace Custody

/-! ## Reports -/

open Ownership

/-- What a report about a function tells. It stands at a place that the walk through the function
visits, and says what is wrong there with a name. Its two notes stand where a local of that name is
declared, and where the name was moved at another place that the walk visited before. -/
def Report.TellsMove (typeOf : Nat → Option Ty) (mark : Mark) (head : FnHead) (body : Block)
    (r : Report) : Prop :=
  ∃ before o after d m,
    (flowFn typeOf mark head body).visits = before ++ o :: after ∧ r.span = o.place ∧
    r.fault = o.fault ∧
      d ∈ fnLocals head body ∧ d.name = o.name.name ∧
      m ∈ before ∧ m.manner = .move ∧ m.name.name = o.name.name ∧ m.place ≠ o.place ∧
      r.notes = [⟨d.span, "value owned here"⟩, ⟨m.place, "value moved here"⟩]

namespace Ownership

theorem tellsMove_of_mem_checkItem (typeOf : Nat → Option Ty) {mark : Mark} {head : FnHead}
    {body : Block} (hnames : ((Stmt.fnDecl mark head body).names.map Ident.span).Nodup)
    (path : Path) {x : Misuse} (hx : x ∈ checkItem typeOf (.fnDecl mark head body)) :
    (x.report path).TellsMove typeOf mark head body := by
  obtain ⟨before, o, after, hvisits, htold⟩ := (found_checkItem typeOf hnames).exists_told hx
  obtain ⟨d, hd, hdname, m, hm, hmanner, hmname, hnotes⟩ := htold.notes
  refine ⟨before, o, after, d, m, hvisits, htold.span, htold.fault, hd, hdname, hm,
    hmanner, hmname, ?_, hnotes⟩
  -- The walk does not come by a place twice.
  have hnodup := (visits_flowFn_sublist typeOf mark head body).nodup hnames
  rw [hvisits, List.map_append, List.map_cons] at hnodup
  intro heq
  exact (List.nodup_middle.1 hnodup).notMem
    (List.mem_append_left _ (heq ▸ List.mem_map_of_mem hm))

theorem spans_flatMap_checkItem_sublist (typeOf : Nat → Option Ty) (ss : List Stmt)
    (hnames : ((stmtsNames ss).map Ident.span).Nodup) :
    ((ss.flatMap (checkItem typeOf)).map Misuse.span).Sublist ((stmtsNames ss).map Ident.span) := by
  induction ss with
  | nil => exact .slnil
  | cons s ss ih =>
    rw [stmtsNames, List.map_append] at hnames ⊢
    rw [List.flatMap_cons, List.map_append]
    obtain ⟨hs, hss, -⟩ := List.nodup_append'.1 hnames
    exact (spans_checkItem_sublist typeOf hs).append (ih hss)

end Ownership

/-- Every report of the move check on parsed files, whatever the types of their nodes, tells about a
function of a unit where a value was owned and where it was moved before (`Report.TellsMove`). No
two reports of a unit stand at the same place: no two of the whole check for the same file, if the
units have files of their own. -/
theorem Bundle.checkMoves_notes {b : Bundle} (h : ∀ f ∈ b.files, f.Parsed) :
    (∀ r ∈ b.checkMoves, r.stage = .borrowCheck ∧ ∃ u ∈ b.units, r.file = u.path ∧
      ∃ mark head body, .fnDecl mark head body ∈ u.file.items ∧
        r.TellsMove u.table.get? mark head body) ∧
    (∀ u ∈ b.units, ((u.misuses.map (Misuse.report u.path)).map Report.span).Nodup) ∧
    ((b.units.map SourceUnit.path).Nodup →
      b.checkMoves.Pairwise fun r r' => r.file = r'.file → r.span ≠ r'.span) := by
  have hnames : ∀ u ∈ b.units, ((stmtsNames u.file.items).map Ident.span).Nodup := by
    intro u hu
    exact (h u.file (List.mem_map_of_mem hu)).names_nodup
  have hplaces : ∀ u ∈ b.units, ((u.misuses.map (Misuse.report u.path)).map Report.span).Nodup := by
    intro u hu
    rw [List.map_map]
    exact (spans_flatMap_checkItem_sublist u.table.get? u.file.items (hnames u hu)).nodup
      (hnames u hu)
  refine ⟨fun r hr => ?_, hplaces, fun hpaths => ?_⟩
  · obtain ⟨u, hu, hr⟩ := List.mem_flatMap.1 hr
    obtain ⟨x, hx, rfl⟩ := List.mem_map.1 hr
    obtain ⟨item, hitem, hx⟩ := List.mem_flatMap.1 hx
    refine ⟨rfl, u, hu, rfl, ?_⟩
    have hnodup := ((names_sublist_stmtsNames hitem).map Ident.span).nodup (hnames u hu)
    cases item with
    | fnDecl mark head body =>
      exact ⟨mark, head, body, hitem, tellsMove_of_mem_checkItem u.table.get? hnodup u.path hx⟩
    | _ => exact absurd hx List.not_mem_nil
  · refine List.pairwise_flatMap.2 ⟨fun u hu => ?_, ?_⟩
    · refine (List.pairwise_map.1 (hplaces u hu)).imp ?_
      exact fun hne _ => hne
    · refine (List.pairwise_map.1 hpaths).imp fun hne r hr r' hr' hfile => ?_
      obtain ⟨x, -, rfl⟩ := List.mem_map.1 hr
      obtain ⟨x', -, rfl⟩ := List.mem_map.1 hr'
      exact absurd hfile hne

/-- A pointer that both branches move, one of them behind another local of its name. -/
def movedInBranches : String :=
  "struct T { v: u64 }
fn f(c: bool, t: ~T) {
if c { let a := t; } else { let a := t; let t := a; }
let n := t.v;
let b := t;
}"

/-- The two uses behind the branches are reported. -/
theorem Bundle.checkMoves_notes_movedInBranches :
    ∃ b : Bundle, (∀ f ∈ b.files, f.Parsed) ∧ (b.units.map SourceUnit.path).Nodup ∧
      b.checkMoves.map (fun r => (r.fault, r.line, r.character)) =
        [(.movedMemberAccess "t" "v", 4, 10), (.useAfterMove "t", 5, 10)] ∧
      (∀ r ∈ b.checkMoves, r.stage = .borrowCheck ∧ ∃ u ∈ b.units, r.file = u.path ∧
        ∃ mark head body, .fnDecl mark head body ∈ u.file.items ∧
          r.TellsMove u.table.get? mark head body) ∧
      b.checkMoves.Pairwise fun r r' => r.file = r'.file → r.span ≠ r'.span := by
  have htexts : ((Bundle.ofTexts [("main.liam", movedInBranches)]).any fun b =>
      (b.declare.1.check.bundle.units.map SourceUnit.path).length == 1 &&
        b.declare.1.check.bundle.checkMoves.map (fun r => (r.fault, r.line, r.character)) ==
          [(.movedMemberAccess "t" "v", 4, 10), (.useAfterMove "t", 5, 10)]) = true :=
    Bundle.any_ofTexts (.cons rfl .nil) (by decide +kernel)
  simp only [Option.any_eq_true, Bool.and_eq_true, beq_iff_eq] at htexts
  obtain ⟨b, hb, hlength, hreports⟩ := htexts
  have hfiles : ∀ f ∈ b.declare.1.check.bundle.files, f.Parsed := by
    intro f hf
    obtain ⟨u, hu, rfl⟩ := List.mem_map.1 hf
    obtain ⟨i, hi⟩ := List.getElem?_of_mem hu
    exact (Bundle.parsed_of_ofTexts hb).file_of_check hi
  have hpaths : (b.declare.1.check.bundle.units.map SourceUnit.path).Nodup := by
    obtain ⟨path, hpath⟩ := List.length_eq_one_iff.1 hlength
    rw [hpath]
    exact List.nodup_singleton path
  obtain ⟨htells, -, hapart⟩ := Bundle.checkMoves_notes hfiles
  exact ⟨_, hfiles, hpaths, hreports, htells, hapart hpaths⟩

end Custody
