import Custody.Proofs.Ledger

/-!
# Paths around loops

A flow is followed around its loops, while its paths run through them. This module compares the two.

* Without loops there is no difference: `Runs.skimsTo`.
* A way around the loops is as good as a path through their heads if the heads leave a local alone,
  which `Flow.spares` decides (`SkimsTo.exists_runs`).
* `Flow.surelyAt` decides whether the value of a local is gone at a site on every path
  (`movedBy_of_surelyAt`).
-/

set_option autoImplicit false

namespace Custody.Ownership

namespace Flow

variable {f g : Flow} {es before after : List Event} {place : Span} {o : Occurrence}
  {target : Option Binding}

/-! ## Paths through loops -/

theorem exists_runs : ∀ f : Flow, ∃ es, f.Runs es
  | idle => ⟨[], .idle⟩
  | event e => ⟨[e], .event e⟩
  | seq f g => by
    obtain ⟨es, hf⟩ := exists_runs f
    obtain ⟨es', hg⟩ := exists_runs g
    exact ⟨es ++ es', .seq hf hg⟩
  | either f _ => by
    obtain ⟨es, hf⟩ := exists_runs f
    exact ⟨es, .left hf⟩
  | loop head _ _ => by
    obtain ⟨es, hhead⟩ := exists_runs head
    exact ⟨es, .enter hhead⟩

/-- A path passes events of its flow only. -/
theorem Runs.subset_events (h : f.Runs es) : es ⊆ f.events := by
  induction h with
  | idle => exact List.nil_subset _
  | event e => exact List.Subset.refl _
  | seq _ _ ihf ihg =>
    exact List.append_subset.2 ⟨List.subset_append_of_subset_left _ ihf,
      List.subset_append_of_subset_right _ ihg⟩
  | left _ ih => exact List.subset_append_of_subset_left _ ih
  | right _ ih => exact List.subset_append_of_subset_right _ ih
  | enter _ ih => exact List.subset_append_of_subset_left _ (List.subset_append_of_subset_left _ ih)
  | round _ _ _ ihloop ihbody ihagain =>
    refine List.append_subset.2 ⟨ihloop, List.append_subset.2 ⟨?_, ?_⟩⟩
    · exact List.subset_append_of_subset_left _ (List.subset_append_of_subset_right _ ihbody)
    · exact List.subset_append_of_subset_right _ ihagain

/-- Without loops, every path leaves all loops out. -/
theorem Runs.skims (h : f.Runs es) (hf : f.straight = true) : f.Skims es := by
  induction h with
  | idle => exact .idle
  | event e => exact .event e
  | seq _ _ ihf ihg =>
    obtain ⟨hf, hg⟩ := Bool.and_eq_true_iff.1 hf
    exact .seq (ihf hf) (ihg hg)
  | left _ ih => exact .left (ih (Bool.and_eq_true_iff.1 hf).1)
  | right _ ih => exact .right (ih (Bool.and_eq_true_iff.1 hf).2)
  | enter _ _ => cases hf
  | round _ _ _ _ _ _ => cases hf

/-- An event on two paths in a row is on the first or on the second. -/
theorem split_append {es' : List Event} {e : Event} (h : before ++ e :: after = es ++ es') :
    (∃ rest, es = before ++ e :: rest) ∨
      ∃ front, before = es ++ front ∧ es' = front ++ e :: after := by
  rcases List.append_eq_append_iff.1 h with ⟨rest, hes, hrest⟩ | ⟨front, hbefore, hes'⟩
  · cases rest with
    | nil => exact Or.inr ⟨[], by simpa using hes.symm, by simpa using hrest.symm⟩
    | cons e' rest =>
      obtain ⟨rfl, -⟩ := List.cons.inj hrest
      exact Or.inl ⟨rest, hes⟩
  · exact Or.inr ⟨front, hbefore, hes'⟩

/-- Without loops, the part of a path in front of an event is a path to the event. -/
theorem Runs.skimsTo {e : Event} (h : f.Runs (before ++ e :: after)) (hf : f.straight = true) :
    f.SkimsTo before e := by
  generalize hes : before ++ e :: after = es at h
  induction h generalizing before after with
  | idle => simp at hes
  | event e' =>
    obtain ⟨rfl, rfl, rfl⟩ : before = [] ∧ e = e' ∧ after = [] := by
      cases before with
      | nil => simpa using hes
      | cons _ before => simp at hes
    exact .event e
  | seq hrun hrun' ihf ihg =>
    obtain ⟨hf, hg⟩ := Bool.and_eq_true_iff.1 hf
    rcases split_append hes with ⟨rest, hfirst⟩ | ⟨front, rfl, hsecond⟩
    · exact .first (ihf hf hfirst.symm)
    · exact .second (hrun.skims hf) (ihg hg hsecond.symm)
  | left _ ih => exact .left (ih (Bool.and_eq_true_iff.1 hf).1 hes)
  | right _ ih => exact .right (ih (Bool.and_eq_true_iff.1 hf).2 hes)
  | enter _ _ => cases hf
  | round _ _ _ _ _ _ => cases hf

/-- Whether the loops of a flow leave a local alone in their heads. The head of a loop is run
whenever the loop is passed. -/
def passable (place : Span) : Flow → Bool
  | idle => true
  | event _ => true
  | seq f g => f.passable place && g.passable place
  | either f g => f.passable place && g.passable place
  | loop head _ _ => head.events.all fun e => !e.decides place

/-- Whether the loops in front of a site leave a local alone in their heads. The loops around the
site, those behind it and those in another branch do not matter. -/
def spares (place site : Span) : Flow → Bool
  | idle => true
  | event _ => true
  | seq f g =>
    if f.sites.contains site then f.spares place site
    else f.passable place && g.spares place site
  | either f g =>
    if f.sites.contains site then f.spares place site else g.spares place site
  | loop head body _ =>
    if head.sites.contains site then head.spares place site
    else head.passable place && body.spares place site

theorem passable_of_straight (h : f.straight = true) (place : Span) :
    f.passable place = true := by
  induction f with
  | idle => rfl
  | event e => rfl
  | seq f g ihf ihg | either f g ihf ihg =>
    obtain ⟨hf, hg⟩ := Bool.and_eq_true_iff.1 h
    exact Bool.and_eq_true_iff.2 ⟨ihf hf, ihg hg⟩
  | loop head body again _ _ _ => cases h

theorem spares_of_straight (h : f.straight = true) (place site : Span) :
    f.spares place site = true := by
  induction f with
  | idle => rfl
  | event e => rfl
  | seq f g ihf ihg | either f g ihf ihg =>
    obtain ⟨hf, hg⟩ := Bool.and_eq_true_iff.1 h
    simp only [spares, ihf hf, ihg hg, passable_of_straight hf, Bool.and_self, ite_self]
  | loop head body again _ _ _ => cases h

/-- A way around the loops is as good as a path that enters their heads, if those leave a local
alone. -/
theorem Skims.exists_runs (h : f.Skims es) (hpass : f.passable place = true) :
    ∃ es', f.Runs es' ∧ ∀ gone, movedBy place gone es' = movedBy place gone es := by
  induction h with
  | idle => exact ⟨[], .idle, fun _ => rfl⟩
  | event e => exact ⟨[e], .event e, fun _ => rfl⟩
  | seq _ _ ihf ihg =>
    obtain ⟨hf, hg⟩ := Bool.and_eq_true_iff.1 hpass
    obtain ⟨es₁, hrun₁, hmoved₁⟩ := ihf hf
    obtain ⟨es₂, hrun₂, hmoved₂⟩ := ihg hg
    exact ⟨es₁ ++ es₂, .seq hrun₁ hrun₂, fun gone => by
      rw [movedBy_append, movedBy_append, hmoved₁, hmoved₂]⟩
  | left _ ih =>
    obtain ⟨es', hrun, hmoved⟩ := ih (Bool.and_eq_true_iff.1 hpass).1
    exact ⟨es', .left hrun, hmoved⟩
  | right _ ih =>
    obtain ⟨es', hrun, hmoved⟩ := ih (Bool.and_eq_true_iff.1 hpass).2
    exact ⟨es', .right hrun, hmoved⟩
  | loop head body again =>
    -- A loop on the way is passed by its head, which leaves the local alone.
    obtain ⟨es', hrun⟩ := head.exists_runs
    refine ⟨es', .enter hrun, movedBy_of_not_decides fun e he => ?_⟩
    simpa using List.all_eq_true.1 hpass e (hrun.subset_events he)

/-- What is asked of a flow whose first part leads to a site is asked of that part. -/
theorem SkimsTo.of_first {a c : Bool} (h : f.SkimsTo es (.examine o target))
    (hnodup : (seq f g).sites.Nodup)
    (hspares : (if f.sites.contains o.place then a else c) = true) :
    a = true ∧ f.sites.Nodup := by
  rw [if_pos (List.contains_iff_mem.2 (mem_sites h.mem_examined))] at hspares
  rw [sites, examined, List.map_append] at hnodup
  exact ⟨hspares, hnodup.of_append_left⟩

/-- The sites of the second part of a flow are none of the first part. -/
theorem SkimsTo.of_second {a c : Bool} (h : g.SkimsTo es (.examine o target))
    (hnodup : (seq f g).sites.Nodup)
    (hspares : (if f.sites.contains o.place then a else c) = true) :
    c = true ∧ g.sites.Nodup := by
  rw [sites, examined, List.map_append, List.nodup_append'] at hnodup
  have hsite : o.place ∉ f.sites := fun hmem => hnodup.2.2 hmem (mem_sites h.mem_examined)
  rw [if_neg (mt List.contains_iff_mem.1 hsite)] at hspares
  exact ⟨hspares, hnodup.2.1⟩

/-- A way to a place around the loops is as good as a path that enters the heads of the loops on the
way, if those leave a local alone. -/
theorem SkimsTo.exists_runs (h : f.SkimsTo es (.examine o target))
    (hspares : f.spares place o.place = true) (hnodup : f.sites.Nodup) :
    ∃ before after, f.Runs (before ++ .examine o target :: after) ∧
      ∀ gone, movedBy place gone before = movedBy place gone es := by
  generalize he : Event.examine o target = e at h
  induction h with
  | event e => exact ⟨[], [], .event e, fun _ => rfl⟩
  | @first f g es e hto ih =>
    subst he
    obtain ⟨hspares, hnodup⟩ := hto.of_first hnodup hspares
    obtain ⟨before, after, hrun, hmoved⟩ := ih hspares hnodup rfl
    -- Some path goes on behind the site; it does not matter which.
    obtain ⟨es', hrun'⟩ := g.exists_runs
    refine ⟨before, after ++ es', ?_, hmoved⟩
    have hseq := Runs.seq hrun hrun'
    rwa [List.append_assoc, List.cons_append] at hseq
  | second hskims hto ih =>
    subst he
    obtain ⟨hspares, hnodup⟩ := hto.of_second hnodup hspares
    obtain ⟨hpass, hspares⟩ := Bool.and_eq_true_iff.1 hspares
    obtain ⟨es₁, hrun₁, hmoved₁⟩ := hskims.exists_runs hpass
    obtain ⟨before, after, hrun, hmoved⟩ := ih hspares hnodup rfl
    refine ⟨es₁ ++ before, after, ?_, fun gone => ?_⟩
    · rw [List.append_assoc]
      exact .seq hrun₁ hrun
    · rw [movedBy_append, movedBy_append, hmoved₁, hmoved]
  | left hto ih =>
    subst he
    obtain ⟨hspares, hnodup⟩ := hto.of_first hnodup hspares
    obtain ⟨before, after, hrun, hmoved⟩ := ih hspares hnodup rfl
    exact ⟨before, after, .left hrun, hmoved⟩
  | right hto ih =>
    subst he
    obtain ⟨hspares, hnodup⟩ := hto.of_second hnodup hspares
    obtain ⟨before, after, hrun, hmoved⟩ := ih hspares hnodup rfl
    exact ⟨before, after, .right hrun, hmoved⟩
  | head hto ih =>
    subst he
    obtain ⟨hspares, hnodup⟩ := hto.of_first hnodup hspares
    obtain ⟨before, after, hrun, hmoved⟩ := ih hspares hnodup rfl
    exact ⟨before, after, .enter hrun, hmoved⟩
  | @body head body again es es' e hskims hto ih =>
    subst he
    obtain ⟨hspares, hnodup⟩ := hto.of_second hnodup hspares
    obtain ⟨hpass, hspares⟩ := Bool.and_eq_true_iff.1 hspares
    obtain ⟨es₁, hrun₁, hmoved₁⟩ := hskims.exists_runs hpass
    obtain ⟨before, after, hrun, hmoved⟩ := ih hspares hnodup rfl
    -- The site is reached in the first round, which any path through `again` completes.
    obtain ⟨es₂, hrun₂⟩ := again.exists_runs
    refine ⟨es₁ ++ before, after ++ es₂, ?_, fun gone => ?_⟩
    · have hround := Runs.round (.enter hrun₁) hrun hrun₂
      rwa [List.append_assoc, List.cons_append, ← List.append_assoc] at hround
    · rw [movedBy_append, movedBy_append, hmoved₁, hmoved]

/-! ## Deciding what holds on every path -/

/-- Whether the value of a local is gone behind a flow on every path, if `gone` says so before
it. -/
def surely (place : Span) : Flow → Bool → Bool
  | idle, gone => gone
  | event e, gone => if e.decides place then e.moves place else gone
  | seq f g, gone => g.surely place (f.surely place gone)
  | either f g, gone => f.surely place gone && g.surely place gone
  | loop head body again, gone =>
    head.surely place gone && again.surely place (body.surely place true)

/-- Whether the value of a local is gone at a site on every path to the site. -/
def surelyAt (place site : Span) : Flow → Bool → Bool
  | idle, _ => true
  | event (.examine o _), gone => o.place != site || gone
  | event _, _ => true
  | seq f g, gone => f.surelyAt place site gone && g.surelyAt place site (f.surely place gone)
  | either f g, gone => f.surelyAt place site gone && g.surelyAt place site gone
  | loop head body again, gone =>
    let behind := head.surely place gone && again.surely place (body.surely place true)
    head.surelyAt place site gone && body.surelyAt place site behind &&
      again.surelyAt place site (body.surely place behind)

theorem movedBy_of_surely (hrun : f.Runs es) {gone gone' : Bool} (h : f.surely place gone = true)
    (hgone : gone = true → gone' = true) : movedBy place gone' es = true := by
  induction hrun generalizing gone gone' with
  | idle => exact hgone h
  | event e =>
    rw [movedBy_cons, movedBy_nil]
    unfold surely at h
    split at h
    · rename_i hdecides
      rwa [if_pos hdecides]
    · rename_i hdecides
      rw [if_neg hdecides]
      exact hgone h
  | seq _ _ ihf ihg =>
    rw [movedBy_append]
    exact ihg h fun hf => ihf hf hgone
  | left _ ih | enter _ ih => exact ih (Bool.and_eq_true_iff.1 h).1 hgone
  | right _ ih => exact ih (Bool.and_eq_true_iff.1 h).2 hgone
  -- `surely` takes the body from a state in which the value is gone: the induction gives that state
  -- behind all earlier rounds.
  | round _ _ _ ihloop ihbody ihagain =>
    rw [movedBy_append, movedBy_append]
    exact ihagain (Bool.and_eq_true_iff.1 h).2 fun hbody => ihbody hbody fun _ => ihloop h hgone

/-- What `surelyAt` says holds on every path to the site. -/
theorem movedBy_of_surelyAt (hrun : f.Runs (before ++ .examine o target :: after))
    {gone gone' : Bool} (h : f.surelyAt place o.place gone = true)
    (hgone : gone = true → gone' = true) : movedBy place gone' before = true := by
  generalize hes : before ++ Event.examine o target :: after = es at hrun
  induction hrun generalizing before after gone gone' with
  | idle => simp at hes
  | event e =>
    cases before with
    | nil =>
      obtain ⟨rfl, -⟩ := List.cons.inj hes
      simp only [surelyAt, bne_self_eq_false, Bool.false_or] at h
      exact hgone h
    | cons _ before => simp at hes
  | seq hrun _ ihf ihg =>
    obtain ⟨hf, hg⟩ := Bool.and_eq_true_iff.1 h
    rcases split_append hes with ⟨rest, hfirst⟩ | ⟨front, rfl, hsecond⟩
    · exact ihf hf hgone hfirst.symm
    · rw [movedBy_append]
      exact ihg hg (fun hsure => movedBy_of_surely hrun hsure hgone) hsecond.symm
  | left _ ih => exact ih (Bool.and_eq_true_iff.1 h).1 hgone hes
  | right _ ih => exact ih (Bool.and_eq_true_iff.1 h).2 hgone hes
  | enter _ ih => exact ih (Bool.and_eq_true_iff.1 (Bool.and_eq_true_iff.1 h).1).1 hgone hes
  | @round head body again es _ _ hloop hbody _ ihloop ihbody ihagain =>
    -- the site is in an earlier round, in the body of the last one, or behind that body
    obtain ⟨⟨-, hb⟩, ha⟩ : (_ ∧ _) ∧ _ := by
      simpa only [surelyAt, Bool.and_eq_true] using h
    have hloop' : (loop head body again).surely place gone = true →
        movedBy place gone' es = true := fun hsure => movedBy_of_surely hloop hsure hgone
    rcases split_append hes with ⟨rest, hfirst⟩ | ⟨front, rfl, hlast⟩
    · exact ihloop h hgone hfirst.symm
    · rw [movedBy_append]
      rcases split_append hlast.symm with ⟨rest, hinbody⟩ | ⟨front', rfl, hbehind⟩
      · exact ihbody hb hloop' hinbody.symm
      · rw [movedBy_append]
        exact ihagain ha (fun hsure => movedBy_of_surely hbody hsure hloop') hbehind.symm

end Flow

/-! ## Bodies without loops -/

theorem straight_declares (bs : List Binding) : (Flow.declares bs).straight = true := by
  induction bs with
  | nil => rfl
  | cons b bs ih => exact ih

mutual
theorem straight_flowExpr (sight : Sight) (consuming : Bool) (e : Expr) :
    (flowExpr sight consuming e).straight = true := by
  cases e with
  | ident | number | string | bool | null | zero => rfl
  | get mark object member =>
    rw [flowExpr]
    split
    · rfl
    · exact straight_flowExpr sight false object
  | _ =>
    simp only [flowExpr, Flow.straight, straight_flowExpr sight, straight_flowExprs sight,
      straight_flowFields sight, Bool.and_self]

theorem straight_flowExprs (sight : Sight) :
    ∀ es : List Expr, (flowExprs sight es).straight = true
  | [] => rfl
  | e :: es => Bool.and_eq_true_iff.2 ⟨straight_flowExpr sight true e, straight_flowExprs sight es⟩

theorem straight_flowFields (sight : Sight) :
    ∀ fields : List (Ident × Expr), (flowFields sight fields).straight = true
  | [] => rfl
  | (_, e) :: fields => Bool.and_eq_true_iff.2
      ⟨straight_flowExpr sight true e, straight_flowFields sight fields⟩
end

theorem straight_flowTarget (sight : Sight) (target : Expr) :
    (flowTarget sight target).straight = true := by
  unfold flowTarget
  split
  · split
    · rfl
    · rfl
  · exact straight_flowExpr sight false target

mutual
/-- The flow of a statement without loops has none. -/
theorem straight_flowStmt (typeOf : Nat → Option Ty) (sight : Sight) :
    ∀ s : Stmt, s.loopFree = true → (flowStmt typeOf false sight s).straight = true
  | .importDecl _ _, _ | .structDecl _ _, _ | .fnDecl _ _ _, _ | .breakStmt _, _
  | .continueStmt _, _
  | .returnStmt _ none, _ => rfl
  | .letDecl _ _ _ init, _ => Bool.and_eq_true_iff.2 ⟨straight_flowExpr sight true init, rfl⟩
  | .scope _ block, h => straight_flowBlock typeOf sight block h
  | .assign _ target value, _ => Bool.and_eq_true_iff.2
      ⟨straight_flowExpr sight true value, straight_flowTarget sight target⟩
  | .returnStmt _ (some value), _ | .expr _ value, _ => straight_flowExpr sight true value
  | .forEach _ _ _ _, h => by cases h
  | .forCounted _ _ _ _ _, h => by cases h
  | .ifElse _ condition thenBlock elseBranch, h => by
    obtain ⟨hthen, helse⟩ := Bool.and_eq_true_iff.1 h
    exact Bool.and_eq_true_iff.2 ⟨straight_flowExpr sight true condition, Bool.and_eq_true_iff.2
      ⟨straight_flowBlock typeOf sight thenBlock hthen,
        straight_flowElse typeOf sight elseBranch helse⟩⟩

theorem straight_flowElse (typeOf : Nat → Option Ty) (sight : Sight) :
    ∀ s : Option Stmt, elseLoopFree s = true → (flowElse typeOf false sight s).straight = true
  | none, _ => rfl
  | some s, h => straight_flowStmt typeOf sight s h

theorem straight_flowBlock (typeOf : Nat → Option Ty) (sight : Sight) :
    ∀ b : Block, b.loopFree = true → (flowBlock typeOf false sight b).straight = true
  | .mk _ stmts, h => straight_flowStmts typeOf sight stmts h

theorem straight_flowStmts (typeOf : Nat → Option Ty) (sight : Sight) :
    ∀ ss : List Stmt, stmtsLoopFree ss = true → (flowStmts typeOf false sight ss).straight = true
  | [], _ => rfl
  | s :: ss, h => by
    obtain ⟨hs, hss⟩ := Bool.and_eq_true_iff.1 h
    exact Bool.and_eq_true_iff.2
      ⟨straight_flowStmt typeOf sight s hs, straight_flowStmts typeOf _ ss hss⟩
end

end Custody.Ownership
