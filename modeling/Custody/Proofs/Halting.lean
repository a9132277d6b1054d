import Custody.Command.Run
import Custody.FileTree
import Custody.Proofs.NodeTypes
import Custody.Proofs.Outlines

/-!
# Halting at the first stage that reports

A run of the stages halts at the first one that reports something. The stages are run against a
world `τ`: reading files and handing over a bundle may change the world and depend on it in any way,
and so may the files themselves.

`StageEffect` says what a stage can do to a compilation: it enters reports of its own stage, and a
check of types that enters none leaves a type at every node. What a whole run does follows from that
by induction on the stages (`runStages_halts`). A run of some stages and then others goes on behind
the first ones only if these reported nothing (`runStages_append`), so a backend gets one bundle at
most, and one in which everything was checked (`runWith_halts_at_first_report`).
-/

set_option autoImplicit false

namespace Custody

/-! ## What each stage reports -/

theorem LoadFault.stage_report (f : LoadFault) : f.report.stage = .load := by
  cases f <;> rfl

namespace Bundle

theorem stage_of_mem_declare {b : Bundle} {r : Report} (h : r ∈ b.declare.2) :
    r.stage = .declare := by
  have hreport {u : SourceUnit} {found : List Finding} (h : r ∈ found.map u.declareReport) :
      r.stage = .declare := by
    obtain ⟨f, -, rfl⟩ := List.mem_map.1 h
    rfl
  rw [declare_eq] at h
  rcases List.mem_append.1 h with h | h
  · rcases List.mem_append.1 h with h | h
    · obtain ⟨u, -, hu⟩ := List.mem_flatMap.1 h
      exact hreport hu
    · obtain ⟨u, -, hu⟩ := List.mem_flatMap.1 h
      exact hreport hu
  · obtain ⟨u, -, hu⟩ := List.mem_flatMap.1 h
    exact hreport hu

theorem stage_of_mem_checkUnits {σ : Type} {b : Bundle} {builder : InstanceBuilder σ}
    {ids : List Nat}
    {s : σ} {r : Report} (h : r ∈ (b.checkUnits builder ids s).reports) : r.stage = .typeCheck := by
  have hreport {u : SourceUnit} {found : List Finding}
      (h : r ∈ found.map (.ofFinding .typeCheck u.path)) : r.stage = .typeCheck := by
    obtain ⟨f, -, rfl⟩ := List.mem_map.1 h
    rfl
  induction ids generalizing b s with
  | nil => cases h
  | cons id ids ih =>
    cases hget : b.get? id with
    | none =>
      rw [checkUnits_cons_of_none ids hget] at h
      exact ih h
    | some u =>
      cases hvalue : ((Typing.checkItems b u builder u.file.items).run s).value with
      | error fault =>
        rw [checkUnits_cons_of_fault ids hget hvalue] at h
        exact hreport h
      | ok _ =>
        rw [checkUnits_cons_of_ok ids hget hvalue] at h
        rcases List.mem_append.1 h with h | h
        · exact hreport h
        · exact ih h

theorem stage_of_mem_checkMoves {b : Bundle} {r : Report} (h : r ∈ b.checkMoves) :
    r.stage = .borrowCheck := by
  obtain ⟨u, -, hu⟩ := List.mem_flatMap.1 h
  obtain ⟨m, -, rfl⟩ := List.mem_map.1 hu
  rfl

/-- Every statement and every expression of every unit has a type. -/
def FullyTyped (b : Bundle) : Prop :=
  ∀ u ∈ b.units, ∀ id ∈ stmtsNodes u.file.items, ∃ t, u.table.get? id = some t

/-- A check without a structural fault leaves a type at every node. -/
theorem fullyTyped_check {b : Bundle} (h : b.check.fault = none) : b.check.bundle.FullyTyped := by
  intro u' hu' id hid
  obtain ⟨i, hi⟩ := List.getElem?_of_mem hu'
  have hchecked := checkedUpTo_of_ok h
  cases hu : b.get? i with
  | none =>
    have hlength : b.units.length ≤ i := List.getElem?_eq_none_iff.1 hu
    cases ((hchecked.kept i hlength).trans hu).symm.trans hi
  | some u =>
    obtain ⟨hok, hget⟩ := hchecked.checked i (List.getElem?_eq_some_iff.1 hu).1 u hu
    obtain rfl := Option.some.inj (hget.symm.trans hi)
    refine TypeTable.exists_get?_ofRecords ?_
    rw [unitRun, Typing.checkItems_writes b u .direct u.file.items _ () hok]
    exact hid

end Bundle

namespace Compilation

variable {τ : Type} {access : FileAccess (StateM τ)} {stopAfter : Option Stage}
  {backend : Option (Backend (StateM τ))} {entry : Path} {c d : Compilation} {stage : Stage}

theorem bind_apply {α β : Type} (x : StateM τ α) (f : α → StateM τ β) (w : τ) :
    (x >>= f) w = f (x w).1 (x w).2 := rfl

/-! ## One stage -/

/-- What a stage can do to a compilation. -/
structure StageEffect (stage : Stage) (c d : Compilation) : Prop where
  stages : d.stages = c.stages
  haltedAt : d.haltedAt = c.haltedAt
  /-- Reports are only added, and name the stage. -/
  reports : ∃ added, d.journal.reports = c.journal.reports ++ added ∧ ∀ r ∈ added, r.stage = stage
  /-- A check of types that reports nothing leaves a type at every node. -/
  typed : stage = .typeCheck → d.journal.reports = c.journal.reports → d.bundle.FullyTyped
  /-- The stages behind the check of types do not change the bundle. -/
  bundle : stage = .borrowCheck ∨ stage = .backend → d.bundle = c.bundle

theorem runStage_effect (access : FileAccess (StateM τ)) (backend : Option (Backend (StateM τ)))
    (entry : Path) (stage : Stage) (c : Compilation) (w : τ) :
    StageEffect stage c (runStage access backend entry stage c w).1 := by
  cases stage with
  | load =>
    simp only [runStage, bind, StateT.bind]
    generalize Loading.load access entry w = loaded
    obtain ⟨⟨bundle, result⟩, w'⟩ := loaded
    cases result with
    | ok id => exact ⟨rfl, rfl, ⟨[], (List.append_nil _).symm, nofun⟩, nofun, nofun⟩
    | error faults =>
      refine ⟨rfl, rfl, ⟨_, rfl, fun r hr => ?_⟩, nofun, nofun⟩
      obtain ⟨f, -, rfl⟩ := List.mem_map.1 hr
      exact f.stage_report
  | declare =>
    exact ⟨rfl, rfl, ⟨_, rfl, fun r => Bundle.stage_of_mem_declare⟩, nofun, nofun⟩
  | typeCheck =>
    refine ⟨rfl, rfl, ⟨_, rfl, fun r hr => ?_⟩, fun _ hsame => ?_, nofun⟩
    · rcases List.mem_append.1 hr with hr | hr
      · exact Bundle.stage_of_mem_checkUnits hr
      · obtain ⟨f, -, rfl⟩ := List.mem_map.1 hr
        rfl
    -- A fault would have been reported.
    · refine Bundle.fullyTyped_check ?_
      have hnone := List.append_eq_nil_iff.1 (List.append_right_eq_self.1 hsame)
      exact Option.toList_eq_nil_iff.1 (List.map_eq_nil_iff.1 hnone.2)
  | borrowCheck =>
    exact ⟨rfl, rfl, ⟨_, rfl, fun r => Bundle.stage_of_mem_checkMoves⟩, nofun, fun _ => rfl⟩
  | backend =>
    cases backend with
    | none => exact ⟨rfl, rfl, ⟨[], (List.append_nil _).symm, nofun⟩, nofun, fun _ => rfl⟩
    | some backend =>
      refine ⟨rfl, rfl, ⟨_, rfl, fun r hr => ?_⟩, nofun, fun _ => rfl⟩
      obtain ⟨message, -, rfl⟩ := List.mem_map.1 hr
      rfl

/-- A compilation behind the stages `done`, none of which reported anything. -/
structure Passed (done : List Stage) (c : Compilation) : Prop where
  stages : c.stages = done
  haltedAt : c.haltedAt = none
  reports : c.journal.reports = []
  typed : .typeCheck ∈ done → c.bundle.FullyTyped

/-- A compilation that halted behind the stages `done` at a stage that reported something. -/
structure Halted (done : List Stage) (stage : Stage) (c : Compilation) : Prop where
  stages : c.stages = done ++ [stage]
  haltedAt : c.haltedAt = some stage
  reports : c.journal.reports ≠ []
  own : ∀ r ∈ c.journal.reports, r.stage = stage

theorem passed_start : Passed [] start := ⟨rfl, rfl, rfl, nofun⟩

/-- The stages behind the check of types leave the bundle alone. -/
def KeepsTypes (stages : List Stage) : Prop :=
  stages.Pairwise fun a b => a = .typeCheck → b = .borrowCheck ∨ b = .backend

instance (stages : List Stage) : Decidable (KeepsTypes stages) :=
  inferInstanceAs (Decidable (stages.Pairwise _))

variable {done rest : List Stage}

/-- A stage starts with its name entered. -/
def entering (c : Compilation) (stage : Stage) : Compilation :=
  { c with stages := c.stages ++ [stage] }

theorem Passed.next (h : Passed done c) (hkeeps : KeepsTypes (done ++ stage :: rest)) (w : τ)
    (hreports : (runStage access backend entry stage (c.entering stage) w).1.journal.reports = []) :
    Passed (done ++ [stage]) (runStage access backend entry stage (c.entering stage) w).1 := by
  have heffect := runStage_effect access backend entry stage (c.entering stage) w
  refine ⟨heffect.stages.trans (congrArg (· ++ [stage]) h.stages),
    heffect.haltedAt.trans h.haltedAt, hreports, fun hmem => ?_⟩
  rcases List.mem_append.1 hmem with hmem | hmem
  · have hbehind := (List.pairwise_append.1 hkeeps).2.2 _ hmem stage List.mem_cons_self rfl
    rw [heffect.bundle hbehind]
    exact h.typed hmem
  · exact heffect.typed (List.mem_singleton.1 hmem).symm (hreports.trans h.reports.symm)

theorem Passed.halted (h : Passed done c) (w : τ)
    (hreports : (runStage access backend entry stage (c.entering stage) w).1.journal.reports ≠ []) :
    Halted done stage { (runStage access backend entry stage (c.entering stage) w).1 with
      haltedAt := some stage } := by
  have heffect := runStage_effect access backend entry stage (c.entering stage) w
  obtain ⟨added, hadded, hown⟩ := heffect.reports
  refine ⟨heffect.stages.trans (congrArg (· ++ [stage]) h.stages), rfl, hreports, fun r hr => ?_⟩
  dsimp only at hr
  rw [hadded, show (c.entering stage).journal.reports = [] from h.reports, List.nil_append] at hr
  exact hown r hr

/-! ## Stages in a row -/

/-- What one more stage does: it ends the run by its reports or by request, or the run goes on. -/
theorem runStages_cons (h : Passed done c) (w : τ) :
    runStages access stopAfter backend entry (stage :: rest) c w =
      let r := runStage access backend entry stage (c.entering stage) w
      if r.1.journal.reports = [] then
        if stopAfter = some stage then r else runStages access stopAfter backend entry rest r.1 r.2
      else ({ r.1 with haltedAt := some stage }, r.2) := by
  simp only [runStages, bind, StateT.bind]
  change (if Journal.grewSince (runStage access backend entry stage (c.entering stage) w).1.journal
    c.journal.checkpoint then _ else _ : StateM τ Compilation) _ = _
  rw [Journal.checkpoint, h.reports, Journal.grewSince, List.length_nil]
  by_cases hreports :
      (runStage access backend entry stage (c.entering stage) w).1.journal.reports = []
  · rw [if_pos hreports, hreports, List.length_nil, if_neg (by simp)]
    split <;> rfl
  · rw [if_neg hreports, if_pos (decide_eq_true (List.length_pos_iff.2 hreports))]
    rfl

/-- Whether a run goes on behind its last stage: it reported nothing and is not the one to stop
after. -/
def goesOn (stopAfter : Option Stage) (c : Compilation) : Prop :=
  c.journal.reports = [] ∧ (stopAfter = none ∨ c.stages.getLast? ≠ stopAfter)

instance (stopAfter : Option Stage) (c : Compilation) : Decidable (c.goesOn stopAfter) :=
  inferInstanceAs (Decidable (_ ∧ _))

theorem Passed.goesOn_iff (h : Passed (done ++ [stage]) c) :
    c.goesOn stopAfter ↔ stopAfter ≠ some stage := by
  rw [goesOn, h.stages, List.getLast?_concat, and_iff_right h.reports]
  cases stopAfter with
  | none => simp
  | some s => simp [eq_comm]

section Runs

variable (access : FileAccess (StateM τ)) (stopAfter : Option Stage)
  (backend : Option (Backend (StateM τ))) (entry : Path)

/-- A run gets through all its stages or stops behind the one that it is asked to stop after, or it
halts. -/
theorem runStages_halts (h : Passed done c) (hkeeps : KeepsTypes (done ++ rest)) (w : τ) :
    (∃ done', done' <+: done ++ rest ∧
      Passed done' (runStages access stopAfter backend entry rest c w).1 ∧
      (done' = done ++ rest ∨
        ¬ (runStages access stopAfter backend entry rest c w).1.goesOn stopAfter)) ∨
    ∃ done' stage, done' ++ [stage] <+: done ++ rest ∧
      Halted done' stage (runStages access stopAfter backend entry rest c w).1 := by
  induction rest generalizing done c w with
  | nil => exact .inl ⟨done, ⟨[], rfl⟩, h, .inl (List.append_nil done).symm⟩
  | cons stage rest ih =>
    have hsofar : done ++ [stage] <+: done ++ stage :: rest := ⟨rest, by simp⟩
    rw [runStages_cons h]
    dsimp only
    split
    · next hreports =>
        have hpassed := h.next hkeeps w hreports
        split
        · next hstop =>
            exact .inl ⟨_, hsofar, hpassed, .inr (hpassed.goesOn_iff.not_left.2 hstop)⟩
        · rw [List.append_cons] at hkeeps ⊢
          exact ih hpassed hkeeps _
    · next hreports => exact .inr ⟨done, stage, hsofar, h.halted w hreports⟩

/-- Stages in a row are run up to some point, and then on from there if the run goes on. -/
theorem runStages_append (h : Passed done c) (hgoes : c.goesOn stopAfter) {first : List Stage}
    (hkeeps : KeepsTypes (done ++ first)) (rest : List Stage) (w : τ) :
    runStages access stopAfter backend entry (first ++ rest) c w =
      let r := runStages access stopAfter backend entry first c w
      if r.1.goesOn stopAfter then runStages access stopAfter backend entry rest r.1
        r.2 else r := by
  induction first generalizing done c w with
  | nil => exact (if_pos hgoes).symm
  | cons stage first ih =>
    rw [List.cons_append, runStages_cons h, runStages_cons h]
    dsimp only
    split
    · next hreports =>
        have hpassed := h.next hkeeps w hreports
        split
        · next hstop => rw [if_neg (hpassed.goesOn_iff.not_left.2 hstop)]
        · next hstop =>
            rw [List.append_cons] at hkeeps
            exact ih hpassed (hpassed.goesOn_iff.2 hstop) hkeeps _
    · next hreports =>
        rw [if_neg]
        exact fun hgoes => hreports hgoes.1

/-- A backend is out of play before its stage. -/
theorem runStages_without_backend {stages : List Stage} (hnone : .backend ∉ stages)
    (c : Compilation) : runStages access stopAfter backend entry stages c =
      runStages access stopAfter none entry stages c := by
  induction stages generalizing c with
  | nil => rfl
  | cons stage stages ih =>
    rw [List.mem_cons, not_or] at hnone
    have hrun : runStage access backend entry stage = runStage access none entry stage := by
      cases stage with
      | backend => exact absurd rfl hnone.1
      | _ => rfl
    simp only [runStages, hrun, ih hnone.2]

end Runs

/-! ## Whole runs -/

/-- The stages that a run goes through. -/
abbrev planned (backend : Option (Backend (StateM τ))) : List Stage :=
  if backend.isSome then Stage.order else Stage.checks

theorem keepsTypes_planned (backend : Option (Backend (StateM τ))) :
    KeepsTypes (planned backend) := by
  cases backend with
  | none => exact (by decide : KeepsTypes Stage.checks)
  | some backend => exact (by decide : KeepsTypes Stage.order)

theorem planned_in_order (backend : Option (Backend (StateM τ))) :
    planned backend <+: Stage.order := by
  cases backend with
  | none => exact ⟨[.backend], rfl⟩
  | some backend => exact ⟨[], rfl⟩

/-- A compilation that keeps to the order of the stages and halted at the first one that
reported. -/
structure InOrder (c : Compilation) : Prop where
  stages : c.stages <+: Stage.order
  halted_iff : (∃ s, c.haltedAt = some s) ↔ c.journal.reports ≠ []
  /-- The stage that it halted at is the last one, and all reports are of that stage. -/
  last : ∀ s, c.haltedAt = some s → c.stages.getLast? = some s ∧
    ∀ r ∈ c.journal.reports, r.stage = s
  /-- Moves are not checked behind a stage that reported something. -/
  moves : (∃ r ∈ c.journal.reports, r.stage ∈ [.load, .declare, .typeCheck]) →
    .borrowCheck ∉ c.stages

theorem Passed.inOrder (h : Passed done c) (hdone : done <+: Stage.order) : c.InOrder where
  stages := h.stages ▸ hdone
  halted_iff := by simp [h.haltedAt, h.reports]
  last := by simp [h.haltedAt]
  moves := by simp [h.reports]

theorem Halted.inOrder (h : Halted done stage c) (hdone : done ++ [stage] <+: Stage.order) :
    c.InOrder where
  stages := h.stages ▸ hdone
  halted_iff := by simp [h.haltedAt, h.reports]
  last := by
    intro s hs
    obtain rfl : stage = s := Option.some.inj (h.haltedAt.symm.trans hs)
    exact ⟨h.stages ▸ List.getLast?_concat, h.own⟩
  moves := by
    rintro ⟨r, hr, hstage⟩
    rw [h.own r hr] at hstage
    -- Only the backend comes behind the check of moves, and it is not the stage that reported.
    have horder : Stage.order.Pairwise fun a b => a = .borrowCheck → b = .backend := by decide
    have hbehind := (List.pairwise_append.1 (horder.sublist hdone.sublist)).2.2
    rw [h.stages, List.mem_append, not_or, List.mem_singleton]
    constructor
    · intro hmem
      rw [hbehind _ hmem stage (List.mem_singleton.2 rfl) rfl] at hstage
      simp at hstage
    · rintro rfl
      simp at hstage

/-- What a run comes to when a backend has taken its bundle. -/
def handedOver (c : Compilation) (entry : Path) (result : String × Option String) : Compilation :=
  { { c with stages := Stage.order }.received entry result with
    haltedAt := result.2.map fun _ => .backend }

theorem runStages_backend (h : Passed Stage.checks c) (backend : Backend (StateM τ)) (w : τ) :
    runStages access stopAfter (some backend) entry [.backend] c w =
      (c.handedOver entry (backend c.bundle w).1, (backend c.bundle w).2) := by
  have hrun : runStage access (some backend) entry .backend (c.entering .backend) w =
      ((c.entering .backend).received entry (backend c.bundle w).1, (backend c.bundle w).2) := rfl
  have hstages : c.entering .backend = { c with stages := Stage.order } := by
    rw [entering, h.stages]
    rfl
  rw [runStages_cons h, hrun, hstages]
  dsimp only
  generalize backend c.bundle w = given
  obtain ⟨⟨output, failure⟩, w'⟩ := given
  cases failure with
  | none =>
    have hreports :
        ({ c with stages := Stage.order }.received entry (output, none)).journal.reports =
        [] := by
      simp [received, enter, Journal.append, h.reports]
    have hsame : c.handedOver entry (output, none) =
        { c with stages := Stage.order }.received entry (output, none) := by
      simp [handedOver, received, enter, h.haltedAt]
    rw [if_pos hreports, hsame]
    split <;> rfl
  | some message =>
    have hreports : ({ c with stages := Stage.order }.received entry
        (output, some message)).journal.reports ≠ [] := by
      simp [received, enter, Journal.append]
    rw [if_neg hreports]
    rfl

theorem goesOn_start (stopAfter : Option Stage) : start.goesOn stopAfter := by
  refine ⟨rfl, ?_⟩
  cases stopAfter <;> simp [start]

/-- A run that may go on behind the checks got through all of them. -/
theorem goesOn_iff_passed (access : FileAccess (StateM τ)) (stopAfter : Option Stage) (entry : Path)
    (w : τ) : (runWith access stopAfter none entry w).1.goesOn stopAfter ↔
      Passed Stage.checks (runWith access stopAfter none entry w).1 ∧
        stopAfter ≠ some .borrowCheck := by
  have hchecks {c : Compilation} (h : Passed ([.load, .declare, .typeCheck] ++ [.borrowCheck]) c) :
      c.goesOn stopAfter ↔ stopAfter ≠ some .borrowCheck := h.goesOn_iff
  refine ⟨fun hgoes => ?_, fun h => (hchecks h.1).2 h.2⟩
  rcases runStages_halts access stopAfter none entry passed_start
    (by decide : KeepsTypes ([] ++ Stage.checks)) w with ⟨done, -, hpassed, hall⟩ | ⟨done,
      stage, -, hhalted⟩
  · rcases hall with rfl | hstop
    · exact ⟨hpassed, (hchecks hpassed).1 hgoes⟩
    · exact absurd hgoes hstop
  · exact absurd hgoes.1 hhalted.reports

/-- Hands the bundle of a run over to a backend, if there is one and the run goes on behind the
checks. -/
def handOver (stopAfter : Option Stage) (backend : Option (Backend (StateM τ))) (entry : Path)
    (c : Compilation) : StateM τ Compilation :=
  match backend with
  | none => return c
  | some backend => do
    if c.goesOn stopAfter then return c.handedOver entry (← backend c.bundle)
    else return c

/-- With a backend, a run is the run without one and then at most one call of the backend. -/
theorem runWith_eq_handOver (access : FileAccess (StateM τ)) (stopAfter : Option Stage)
    (backend : Option (Backend (StateM τ))) (entry : Path) :
    runWith access stopAfter backend entry =
      runWith access stopAfter none entry >>= handOver stopAfter backend entry := by
  cases backend with
  | none => rfl
  | some backend =>
    funext w
    have hnone : runStages access stopAfter (some backend) entry Stage.checks start =
        runWith access stopAfter none entry :=
      runStages_without_backend access stopAfter (some backend) entry (by decide) start
    have hsplit := runStages_append access stopAfter (some backend) entry passed_start
      (goesOn_start stopAfter) (by decide : KeepsTypes ([] ++ Stage.checks)) [.backend] w
    rw [hnone] at hsplit
    refine hsplit.trans ?_
    rw [bind_apply, handOver]
    dsimp only
    by_cases hgoes : (runWith access stopAfter none entry w).1.goesOn stopAfter
    · rw [if_pos hgoes, if_pos hgoes]
      exact runStages_backend ((goesOn_iff_passed access stopAfter entry w).1 hgoes).1 backend _
    · rw [if_neg hgoes, if_neg hgoes]
      rfl

theorem inOrder_runWith (access : FileAccess (StateM τ)) (stopAfter : Option Stage)
    (backend : Option (Backend (StateM τ))) (entry : Path) (w : τ) :
    (runWith access stopAfter backend entry w).1.InOrder := by
  rcases runStages_halts access stopAfter backend entry passed_start
    (keepsTypes_planned backend) w with
    ⟨done, hdone, hpassed, -⟩ | ⟨done, stage, hdone, hhalted⟩
  · exact hpassed.inOrder (hdone.trans (planned_in_order backend))
  · exact hhalted.inOrder (hdone.trans (planned_in_order backend))

/-- The exit code tells whether the run halted. -/
theorem exitCode_outcome (c : Compilation) (access : FileAccess (StateM τ)) (w : τ) :
    (c.outcome access w).1.exitCode = if c.haltedAt.isSome then 1 else 0 := by
  rw [outcome, bind_apply]
  cases c.haltedAt <;> rfl

/-- A run halts at the first stage that reports something. Moves are checked only behind three
stages that reported nothing. A backend is called once at most, with a bundle that got through all
four checks without a report and has a type at every statement and expression. The command fails
exactly if something was reported. All this holds in every world, however files and backend behave
in it. -/
theorem runWith_halts_at_first_report (access : FileAccess (StateM τ)) (stopAfter : Option Stage)
    (backend : Option (Backend (StateM τ))) (entry : Path) :
    (∀ w, (runWith access stopAfter backend entry w).1.InOrder) ∧
    (runWith access stopAfter backend entry = do
      let c ← runStages access stopAfter backend entry [.load, .declare, .typeCheck] start
      if c.goesOn stopAfter then
        runStages access stopAfter backend entry ((planned backend).drop 3) c
      else return c) ∧
    runWith access stopAfter backend entry =
      runWith access stopAfter none entry >>= handOver stopAfter backend entry ∧
    (∀ w, (runWith access stopAfter none entry w).1.goesOn stopAfter →
      (runWith access stopAfter none entry w).1.stages = Stage.checks ∧
      (runWith access stopAfter none entry w).1.journal.reports = [] ∧
      (runWith access stopAfter none entry w).1.bundle.FullyTyped) ∧
    ∀ w w', ((runWith access stopAfter backend entry w).1.outcome access w').1.exitCode =
      if (runWith access stopAfter backend entry w).1.journal.reports = [] then 0 else 1 := by
  refine ⟨inOrder_runWith access stopAfter backend entry, ?_,
    runWith_eq_handOver access stopAfter backend entry, fun w hgoes => ?_, fun w w' => ?_⟩
  · funext w
    -- With a backend or without one, the plan starts with the same three stages.
    have hplanned : planned backend = [.load, .declare, .typeCheck] ++
        (planned backend).drop 3 := by
      cases backend <;> rfl
    have hsplit :=
      runStages_append access stopAfter backend entry passed_start (goesOn_start stopAfter)
      (by decide : KeepsTypes ([] ++ [.load, .declare, .typeCheck])) ((planned backend).drop 3) w
    rw [← hplanned] at hsplit
    refine hsplit.trans ?_
    rw [bind_apply]
    dsimp only
    split <;> rfl
  · obtain ⟨hpassed, -⟩ := (goesOn_iff_passed access stopAfter entry w).1 hgoes
    exact ⟨hpassed.stages, hpassed.reports, hpassed.typed (by decide)⟩
  · have hiff := (inOrder_runWith access stopAfter backend entry w).halted_iff
    rw [exitCode_outcome]
    cases hhalted : (runWith access stopAfter backend entry w).1.haltedAt with
    | none =>
      have hnone : (runWith access stopAfter backend entry w).1.journal.reports = [] := by
        by_contra hreports
        obtain ⟨s, hs⟩ := hiff.2 hreports
        rw [hhalted] at hs
        cases hs
      rw [if_pos hnone]
      rfl
    | some s =>
      rw [if_neg (hiff.1 ⟨s, hhalted⟩)]
      rfl

/-- The files of a tree, in a world that does not change them. -/
def unchanging (access : FileAccess Id) : FileAccess (StateM τ) where
  isFile p := pure (access.isFile p)
  canonical p := pure (access.canonical p)
  read p := pure (access.read p)
  chainLimit := access.chainLimit

/-- A backend that counts its calls and fails. -/
def countedFailure : Backend (StateM Nat) := fun _ => do
  modify (· + 1)
  return ("", some "full")

/-- A program without mistakes and one whose types are wrong and that uses a moved pointer. -/
def cleanAndWrong : FileTree where
  files := [
    (["w", "clean.liam"], "import \"lib\" l; fn main() { l.half(6u64); }".toUTF8),
    (["w", "lib.liam"], "fn half(a: u64) u64 { return a / 2u64; }".toUTF8),
    (["w", "wrong.liam"], "fn f(p: ~u64) bool { let q := p; return p; }".toUTF8)]
  dirs := []
  workingDir := ["w"]

/-- The stages of a run, where it halted, and how many reports it has. -/
def course (c : Compilation) : List Stage × Option Stage × Nat :=
  (c.stages, c.haltedAt, c.journal.reports.length)

theorem runWith_halts_at_first_report_countedFailure :
    let access := unchanging cleanAndWrong.access
    let clean := runWith access none (some countedFailure) ⟨"clean.liam"⟩
    let wrong := runWith access none (some countedFailure) ⟨"wrong.liam"⟩
    (clean 0).map course id = ((Stage.order, some .backend, 1), 1) ∧
    (wrong 0).map course id = (([.load, .declare, .typeCheck], some .typeCheck, 1), 0) ∧
    (clean 0).1.InOrder ∧ (wrong 0).1.InOrder ∧
    (runWith access none none ⟨"clean.liam"⟩ 0).1.goesOn none ∧
    (runWith access none none ⟨"clean.liam"⟩ 0).1.bundle.FullyTyped := by
  have hclean := runWith_halts_at_first_report (unchanging cleanAndWrong.access) none
    (some countedFailure) ⟨"clean.liam"⟩
  have hwrong := runWith_halts_at_first_report (unchanging cleanAndWrong.access) none
    (some countedFailure) ⟨"wrong.liam"⟩
  have hgoes :
      (runWith (unchanging cleanAndWrong.access) none none ⟨"clean.liam"⟩ 0).1.goesOn none := by
    decide +kernel
  exact ⟨by decide +kernel, by decide +kernel, hclean.1 0, hwrong.1 0, hgoes,
    (hclean.2.2.2.1 0 hgoes).2.2⟩

end Compilation

end Custody
