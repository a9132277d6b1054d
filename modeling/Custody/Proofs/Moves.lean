import Custody.Proofs.Accepted
import Custody.Proofs.Runs

/-!
# Exactness of the move check

What the move check reports in an accepted function, told by the paths through its flow.

* Without loops, a place that names an owned pointer is reported iff the pointer is gone on every
  path to the place (`reported_iff_moved_on_every_path`).
* With loops, a place where the pointer is gone on every path is reported, unless the pointer goes
  in the head of a loop in front of the place, or in the update of a loop its name is taken for
  another local (`reported_of_moved_on_every_path`). In both of these cases a place can be missed
  (`missed_moves`).
-/

set_option autoImplicit false
set_option maxRecDepth 2000

namespace Custody.Ownership

/-! ## Without loops -/

section Straight

variable {b : Bundle} {i : Nat} {u : SourceUnit} {mark : Mark} {head : FnHead} {body : Block}
  {o : Occurrence} {d : Binding}

/-- In an accepted function without loops, a place that names an owned pointer is reported iff on
every path to the place the last event that decides about the pointer is a move. A place that names
something else is never reported. -/
theorem reported_iff_moved_on_every_path (h : Accepted b i u mark head body)
    (hloops : body.loopFree = true)
    (ho : (o, some d) ∈ (flowFn u.table.get? mark head body).examined) :
    (d.owned = true →
      ((∃ x ∈ u.misuses, x.span = o.place ∧ x.fault = o.fault) ↔
        ∀ before after,
          (flowFn u.table.get? mark head body).Runs (before ++ .examine o (some d) :: after) →
            movedAway d.place before = true)) ∧
      (d.owned = false → ∀ x ∈ u.misuses, x.span ≠ o.place) := by
  have hagree := updatesAgree_of_loopFree u.table.get? mark head hloops d.place
  have hstraight : (flowFn u.table.get? mark head body).straight = true := Bool.and_eq_true_iff.2
    ⟨straight_declares _, straight_flowBlock _ _ body hloops⟩
  refine ⟨fun howned => ?_, fun howned x hx hspan => ?_⟩
  -- Without loops, the paths that the check follows are the paths to the place.
  · rw [h.reported_iff ho hagree, Flow.reports_follow_iff howned _ _ ho h.sites_nodup]
    simp only [movedAway_eq_movedBy]
    constructor
    · intro hall before after hrun
      exact hall before (hrun.skimsTo hstraight)
    · intro hall es hto
      obtain ⟨before, after, hrun, hmoved⟩ :=
        hto.exists_runs (Flow.spares_of_straight hstraight d.place o.place) h.sites_nodup
      rw [← hmoved]
      exact hall before after hrun
  · obtain ⟨x', hx', hspan₀⟩ := (h.reportedAt_iff ho hagree).1.1 ⟨x, hx, hspan⟩
    obtain ⟨o', d', ho', howned', hspan', -⟩ := Flow.mem_follow hx'
    have heq := Flow.examined_inj h.sites_nodup ho ho' (hspan₀.symm.trans hspan')
    simp only [Prod.mk.injEq, Option.some.injEq] at heq
    rw [heq.2, howned'] at howned
    cases howned

end Straight

/-- A pointer that one branch moves, hides by another of its name and assigns to. -/
def branchingMoves : String :=
  "struct T { v: u64 }
fn f(t: ~T) { }
fn g(c: bool, t: ~T) {
if c { f(t); } else { let t := t; f(t); }
f(t);
t = new T{ v: 0u64 };
f(t);
}"

/-- Of the four places that name the parameter `t`, the one behind the branches is reported. -/
theorem reported_iff_moved_on_every_path_branchingMoves :
    ∃ b u mark head body o d, Accepted b 0 u mark head body ∧ body.loopFree = true ∧
      (o, some d) ∈ (flowFn u.table.get? mark head body).examined ∧ d.owned = true ∧
      (∃ x ∈ u.misuses, x.span = o.place ∧ x.fault = o.fault) ∧
      ∀ before after,
        (flowFn u.table.get? mark head body).Runs (before ++ .examine o (some d) :: after) →
          movedAway d.place before = true := by
  have haccepts : acceptsFn branchingMoves (fun u mark head body => body.loopFree &&
      (flowFn u.table.get? mark head body).examined.any fun e => e.2.any fun d => d.owned &&
        u.misuses.any fun x => x.span == e.1.place && x.fault == e.1.fault) = true :=
    Bundle.acceptsTexts_of_chars (.cons rfl .nil) (by decide +kernel)
  obtain ⟨b, u, mark, head, body, -, -, haccepted, h⟩ := exists_accepted haccepts
  simp only [Bool.and_eq_true, List.any_eq_true, Option.any_eq_true, beq_iff_eq] at h
  obtain ⟨hloops, ⟨o, target⟩, ho, d, rfl, howned, hreported⟩ := h
  exact ⟨_, u, mark, head, body, o, d, haccepted, hloops, ho, howned, hreported,
    ((reported_iff_moved_on_every_path haccepted hloops ho).1 howned).1 hreported⟩

/-! ## Loops -/

section Loops

variable {b : Bundle} {i : Nat} {u : SourceUnit} {mark : Mark} {head : FnHead} {body : Block}
  {o : Occurrence} {d : Binding}

/-- In an accepted function, loops included, a place that names an owned pointer is reported if the
pointer is moved on every path to the place. That is so as long as the updates of loops agree with
lexical scoping about the pointer, and no head of a loop in front of the place decides about it. -/
theorem reported_of_moved_on_every_path (h : Accepted b i u mark head body)
    (ho : (o, some d) ∈ (flowFn u.table.get? mark head body).examined) (howned : d.owned = true)
    (hagree : updatesAgree u.table.get? mark head body d.place = true)
    (hspares : (flowFn u.table.get? mark head body).spares d.place o.place = true)
    (hmoved : ∀ before after,
      (flowFn u.table.get? mark head body).Runs (before ++ .examine o (some d) :: after) →
        movedAway d.place before = true) :
    ∃ x ∈ u.misuses, x.span = o.place ∧ x.fault = o.fault := by
  rw [h.reported_iff ho hagree, Flow.reports_follow_iff howned _ _ ho h.sites_nodup]
  -- The check follows a way around the loops; a path through their heads does the same to the
  -- pointer.
  intro es hto
  obtain ⟨before, after, hrun, hsame⟩ := hto.exists_runs hspares h.sites_nodup
  have hbefore := hmoved before after hrun
  rw [movedAway_eq_movedBy, hsame] at hbefore
  exact hbefore

end Loops

/-- A pointer that is moved in front of two loops and used in the second one, whose update mentions
another name that its body declares. A third loop moves the pointer in its head. -/
def moveBeforeLoops : String :=
  "struct T { v: u64 }
fn f(t: ~T) u64 { return 0u64; }
fn g(t: ~T) {
f(t);
for i : 0u64..2u64 { }
for let i := 0u64; i < 3u64; i = i + t.v { let i := 1u64; }
t = new T{ v: 1u64 };
for i : 0u64..f(t) { }
}"

/-- The use of the pointer in the update of the second loop is reported. -/
theorem reported_of_moved_on_every_path_moveBeforeLoops :
    ∃ b u mark head body o d, Accepted b 0 u mark head body ∧
      (o, some d) ∈ (flowFn u.table.get? mark head body).examined ∧ d.owned = true ∧
      updatesAgree u.table.get? mark head body d.place = true ∧
      (flowFn u.table.get? mark head body).spares d.place o.place = true ∧
      (∀ before after,
        (flowFn u.table.get? mark head body).Runs (before ++ .examine o (some d) :: after) →
          movedAway d.place before = true) ∧
      ∃ x ∈ u.misuses, x.span = o.place ∧ x.fault = o.fault := by
  have haccepts : acceptsFn moveBeforeLoops (fun u mark head body =>
      (flowFn u.table.get? mark head body).examined.any fun e => e.2.any fun d => d.owned &&
        updatesAgree u.table.get? mark head body d.place &&
        (flowFn u.table.get? mark head body).spares d.place e.1.place &&
        (flowFn u.table.get? mark head body).surelyAt d.place e.1.place false) = true :=
    Bundle.acceptsTexts_of_chars (.cons rfl .nil) (by decide +kernel)
  obtain ⟨b, u, mark, head, body, -, -, haccepted, h⟩ := exists_accepted haccepts
  simp only [Bool.and_eq_true, List.any_eq_true, Option.any_eq_true] at h
  obtain ⟨⟨o, target⟩, ho, d, rfl, ⟨⟨howned, hagree⟩, hspares⟩, hsurely⟩ := h
  have hmoved : ∀ before after,
      (flowFn u.table.get? mark head body).Runs (before ++ .examine o (some d) :: after) →
        movedAway d.place before = true := by
    intro before after hrun
    rw [movedAway_eq_movedBy]
    exact Flow.movedBy_of_surelyAt hrun hsurely id
  exact ⟨_, u, mark, head, body, o, d, haccepted, ho, howned, hagree, hspares, hmoved,
    reported_of_moved_on_every_path haccepted ho howned hagree hspares hmoved⟩

/-- A place is missed: it names an owned pointer that is moved on every path to the place, and it is
not reported. -/
def Missed (u : SourceUnit) (mark : Mark) (head : FnHead) (body : Block) (o : Occurrence)
    (d : Binding) : Prop :=
  (o, some d) ∈ (flowFn u.table.get? mark head body).examined ∧ d.owned = true ∧
    (∀ before after,
      (flowFn u.table.get? mark head body).Runs (before ++ .examine o (some d) :: after) →
        movedAway d.place before = true) ∧
    ∀ x ∈ u.misuses, x.span ≠ o.place

/-- Whether some place in a function is missed, while the updates of loops agree about its pointer
and the heads of loops leave it alone as `agreed` and `spared` say. -/
def misses (agreed spared : Bool) (u : SourceUnit) (mark : Mark) (head : FnHead) (body : Block) :
    Bool :=
  let flow := flowFn u.table.get? mark head body
  flow.examined.any fun e => e.2.any fun d => d.owned &&
    flow.surelyAt d.place e.1.place false &&
    updatesAgree u.table.get? mark head body d.place == agreed &&
    flow.spares d.place e.1.place == spared && u.misuses.all fun x => x.span != e.1.place

theorem exists_missed {source : String} {agreed spared : Bool}
    (h : acceptsFn source (misses agreed spared) = true) :
    ∃ b u mark head body o d, Accepted b 0 u mark head body ∧
      updatesAgree u.table.get? mark head body d.place = agreed ∧
      (flowFn u.table.get? mark head body).spares d.place o.place = spared ∧
      Missed u mark head body o d := by
  obtain ⟨b, u, mark, head, body, -, -, haccepted, h⟩ := exists_accepted h
  simp only [misses, Bool.and_eq_true, List.any_eq_true, Option.any_eq_true, beq_iff_eq,
    List.all_eq_true, bne_iff_ne] at h
  obtain ⟨⟨o, target⟩, ho, d, rfl, ⟨⟨⟨howned, hsurely⟩, hagree⟩, hspares⟩, hnone⟩ := h
  refine ⟨_, u, mark, head, body, o, d, haccepted, hagree, hspares, ho, howned,
    fun before after hrun => ?_, hnone⟩
  rw [movedAway_eq_movedBy]
  exact Flow.movedBy_of_surelyAt hrun hsurely id

/-- A pointer that the head of a loop moves, and that is used behind the loop. -/
def moveInLoopHead : String :=
  "struct T { v: u64 }
fn foo(t: ~T) u64 { return 0u64; }
fn main() {
let a := new T{ v: 1u64 };
for x : 0u64..foo(a) { }
foo(a);
}"

/-- A moved pointer that the update of a loop uses, whose name the loop's body declares anew. -/
def moveBeforeUpdate : String :=
  "struct T { v: u64 }
fn foo(t: ~T) u64 { return 0u64; }
fn main() {
let a := new T{ v: 1u64 };
foo(a);
for let i := 0u64; i < 3u64; i = i + foo(a) {
let a := new T{ v: 2u64 };
}
}"

/-- What the head of a loop moves is forgotten behind the loop, and in the update of a loop a name
stands for what the loop's body declares. In both ways a use of a value that is gone on every path
is missed. -/
theorem missed_moves :
    (∃ b u mark head body o d, Accepted b 0 u mark head body ∧
      updatesAgree u.table.get? mark head body d.place = true ∧
      (flowFn u.table.get? mark head body).spares d.place o.place = false ∧
      Missed u mark head body o d) ∧
    ∃ b u mark head body o d, Accepted b 0 u mark head body ∧
      updatesAgree u.table.get? mark head body d.place = false ∧
      (flowFn u.table.get? mark head body).spares d.place o.place = true ∧
      Missed u mark head body o d := by
  have hhead : acceptsFn moveInLoopHead (misses true false) = true :=
    Bundle.acceptsTexts_of_chars (.cons rfl .nil) (by decide +kernel)
  have hupdate : acceptsFn moveBeforeUpdate (misses false true) = true :=
    Bundle.acceptsTexts_of_chars (.cons rfl .nil) (by decide +kernel)
  exact ⟨exists_missed hhead, exists_missed hupdate⟩

end Custody.Ownership
