import Custody.Proofs.Ledger

/-!
# What concerns one local

`Flow.only` leaves of a flow the events that concern the local declared at a place. Following what
is left gives that local the same state and finds its misuses (`Flow.follow_only`).

A walk follows the flow in which names leak from the body of a loop to its update. To a local that
no name in an update is mistaken for, and that no such name is taken away from, that flow is the
lexical one (`updatesAgree`).
-/

set_option autoImplicit false

namespace Custody.Ownership

variable {place : Span}

/-! ## Flows for one local -/

/-- Whether an event concerns the local declared at `place`. -/
def Event.concerns (place : Span) : Event → Bool
  | declare b => b.place == place
  | assign b => b.place == place
  | examine _ target => target.any (·.place == place)

namespace Flow

/-- What of a flow concerns the local declared at `place`. -/
def only (place : Span) : Flow → Flow
  | idle => idle
  | event e => if e.concerns place then event e else idle
  | seq f g => seq (f.only place) (g.only place)
  | either f g => either (f.only place) (g.only place)
  | loop head body again => loop (head.only place) (body.only place) (again.only place)

theorem examined_only (f : Flow) :
    (f.only place).examined = f.examined.filter fun e => e.2.any (·.place == place) := by
  induction f with
  | idle => rfl
  | event e =>
    cases e with
    | declare b | assign b =>
      by_cases h : b.place = place <;> simp [only, Event.concerns, examined, h]
    | examine o target =>
      by_cases h : target.any (·.place == place) = true <;>
        simp [only, Event.concerns, examined, h]
  | seq f g ihf ihg | either f g ihf ihg | loop f g _ ihf ihg _ =>
    simp only [only, examined, ihf, ihg, List.filter_append]

end Flow

/-- An event that does not concern a local leaves its state alone and finds no misuse of it. -/
theorem Event.apply_of_not_concerns {e : Event} (h : e.concerns place = false) {m : Ledger}
    (hm : m.Sound) : (e.apply m).1 place = m place ∧
      (e.apply m).2.filter (fun x => x.previous.declaredAt == place) = [] := by
  cases e with
  | declare b | assign b =>
    exact ⟨Ledger.put_of_ne m _ (Ne.symm (beq_eq_false_iff_ne.1 h)), rfl⟩
  | examine o target =>
    cases target with
    | none => exact ⟨rfl, rfl⟩
    | some b =>
      have hne : b.place ≠ place := by simpa [concerns] using h
      simp only [apply]
      split
      · refine ⟨rfl, ?_⟩
        split <;> simp [hm.placed, hne]
      · split
        · exact ⟨Ledger.put_of_ne m _ (Ne.symm hne), rfl⟩
        · exact ⟨rfl, rfl⟩

/-- An event that concerns a local does the same to its state in any ledger. -/
theorem Event.apply_of_concerns {e : Event} (h : e.concerns place = true) {m m' : Ledger}
    (hm : m.Sound) (hsame : m' place = m place) : (e.apply m').1 place = (e.apply m).1 place ∧
      (e.apply m').2 = (e.apply m).2.filter fun x => x.previous.declaredAt == place := by
  cases e with
  | declare b =>
    obtain rfl : b.place = place := beq_iff_eq.1 h
    exact ⟨(Ledger.put_self ..).trans (Ledger.put_self ..).symm, rfl⟩
  | assign b =>
    obtain rfl : b.place = place := beq_iff_eq.1 h
    simp [apply, hsame]
  | examine o target =>
    obtain ⟨b, rfl, hb⟩ := (Option.any_eq_true _ _).1 h
    obtain rfl : b.place = place := beq_iff_eq.1 hb
    simp only [apply, hsame]
    split
    · refine ⟨hsame, ?_⟩
      split <;> simp [hm.placed]
    · split
      · exact ⟨(Ledger.put_self ..).trans (Ledger.put_self ..).symm, rfl⟩
      · exact ⟨hsame, rfl⟩

/-- Following what concerns a local gives it the same state, and finds its misuses. -/
theorem Flow.follow_only (f : Flow) {m m' : Ledger} (hm : m.Sound) (hsame : m' place = m place) :
    ((f.only place).follow m').1 place = (f.follow m).1 place ∧
      ((f.only place).follow m').2 =
        (f.follow m).2.filter fun x => x.previous.declaredAt == place := by
  induction f generalizing m m' with
  | idle => exact ⟨hsame, rfl⟩
  | event e =>
    cases hconcerns : e.concerns place with
    | true =>
      rw [only, if_pos hconcerns]
      exact e.apply_of_concerns hconcerns hm hsame
    | false =>
      obtain ⟨hstate, hnone⟩ := e.apply_of_not_concerns hconcerns hm
      rw [only, if_neg (by simp [hconcerns])]
      exact ⟨hsame.trans hstate.symm, hnone.symm⟩
  | seq f g ihf ihg =>
    obtain ⟨hf, hfound⟩ := ihf hm hsame
    obtain ⟨hg, hfound'⟩ := ihg (f.sound_follow hm) hf
    refine ⟨hg, ?_⟩
    simp only [only, follow, hfound, hfound', List.filter_append]
  | either f g ihf ihg =>
    obtain ⟨hf, hfound⟩ := ihf hm hsame
    obtain ⟨hg, hfound'⟩ := ihg hm hsame
    simp only [only, follow, Ledger.join, hf, hg, hsame, hfound, hfound', List.filter_append,
      and_self]
  | loop head body again ihh ihb =>
    obtain ⟨hh, hfound⟩ := ihh hm hsame
    obtain ⟨-, hfound'⟩ := ihb (head.sound_follow hm) hh
    refine ⟨hsame, ?_⟩
    simp only [only, follow, hfound, hfound', List.filter_append]

/-- A place that names a local is reported iff it is reported by what concerns the local. -/
theorem Flow.reportedAt_only {f : Flow} {o : Occurrence} {d : Binding}
    (ho : (o, some d) ∈ f.examined) (hnodup : f.sites.Nodup) :
    ReportedAt o.place ((f.only d.place).follow .start).2 ↔
      ReportedAt o.place (f.follow .start).2 := by
  rw [(f.follow_only Ledger.sound_start rfl).2]
  constructor
  · rintro ⟨x, hx, hspan⟩
    exact ⟨x, List.mem_of_mem_filter hx, hspan⟩
  · rintro ⟨x, hx, hspan⟩
    obtain ⟨o', d', ho', -, hspan', -, hplace⟩ := mem_follow hx
    have heq := examined_inj hnodup ho ho' (hspan.symm.trans hspan')
    simp only [Prod.mk.injEq, Option.some.injEq] at heq
    refine ⟨x, List.mem_filter.2 ⟨hx, ?_⟩, hspan⟩
    rw [hplace Ledger.sound_start, heq.2, beq_self_eq_true]

/-! ## Names in updates -/

/-- Whether the updates of the loops in a function agree with lexical scoping about the local
declared at `place`: where a name in an update stands for the local, it does so too in sight of what
the loop's body declares, and nowhere else. -/
def updatesAgree (typeOf : Nat → Option Ty) (mark : Mark) (head : FnHead) (body : Block)
    (place : Span) : Bool :=
  (fnFlow typeOf true mark head body).only place == (flowFn typeOf mark head body).only place

section LoopFree

variable (typeOf : Nat → Option Ty)

mutual
/-- Without loops there is no update that names could leak to. -/
theorem flowStmt_of_loopFree (sight : Sight) : ∀ s : Stmt, s.loopFree = true →
    flowStmt typeOf true sight s = flowStmt typeOf false sight s
  | .importDecl _ _, _ | .structDecl _ _, _ | .fnDecl _ _ _, _ | .breakStmt _, _
  | .continueStmt _, _ | .letDecl _ _ _ _, _ | .assign _ _ _, _ | .returnStmt _ none, _
  | .returnStmt _ (some _), _ | .expr _ _, _ => rfl
  | .scope _ block, h => flowBlock_of_loopFree sight block h
  | .forEach .., h => by cases h
  | .forCounted .., h => by cases h
  | .ifElse _ condition thenBlock elseBranch, h => by
    obtain ⟨hthen, helse⟩ := Bool.and_eq_true_iff.1 h
    rw [flowStmt, flowStmt, flowBlock_of_loopFree sight thenBlock hthen,
      flowElse_of_loopFree sight elseBranch helse]

theorem flowElse_of_loopFree (sight : Sight) : ∀ s : Option Stmt, elseLoopFree s = true →
    flowElse typeOf true sight s = flowElse typeOf false sight s
  | none, _ => rfl
  | some s, h => flowStmt_of_loopFree sight s h

theorem flowBlock_of_loopFree (sight : Sight) : ∀ b : Block, b.loopFree = true →
    flowBlock typeOf true sight b = flowBlock typeOf false sight b
  | .mk _ stmts, h => flowStmts_of_loopFree sight stmts h

theorem flowStmts_of_loopFree (sight : Sight) : ∀ ss : List Stmt, stmtsLoopFree ss = true →
    flowStmts typeOf true sight ss = flowStmts typeOf false sight ss
  | [], _ => rfl
  | s :: ss, h => by
    obtain ⟨hs, hss⟩ := Bool.and_eq_true_iff.1 h
    rw [flowStmts, flowStmts, flowStmt_of_loopFree sight s hs, flowStmts_of_loopFree _ ss hss]
end

theorem updatesAgree_of_loopFree (mark : Mark) (head : FnHead) {body : Block}
    (h : body.loopFree = true) (place : Span) :
    updatesAgree typeOf mark head body place = true := by
  rw [updatesAgree, flowFn, fnFlow, fnFlow, flowBlock_of_loopFree typeOf _ body h]
  exact beq_self_eq_true _

end LoopFree

end Custody.Ownership
