import Custody.Ownership.Table
import Custody.Proofs.NameMap
import Mathlib.Data.List.Induction

/-!
# Tables along a run

States of bindings are made by `Status.fresh`, changed by moves and new values, hidden, copied from
table to table and joined. `Table.Every` says that all states of a table have a property, those out
of sight too, and there is one lemma for each operation that says what the property has to be closed
under.

`Step` is an operation on one of any number of tables, which may take in others or the same one.
After any steps a state is moved iff it says where (`run_sound`): a merge then finds in each table
all it needs, and to merge a table with itself changes nothing.
-/

set_option autoImplicit false

namespace Custody.Ownership

/-! ## Properties of all states -/

/-- Every state in a table has a property: those in sight under their own names, the others under
some name. -/
structure Table.Every (P : String → Status → Prop) (t : Table) : Prop where
  visible : ∀ name s, t.get? name = some s → P name s
  hidden : ∀ s ∈ t.hidden, ∃ name, P name s

namespace Table

variable {P : String → Status → Prop} {t inner thenTable elseTable : Table} {name : String}
  {place : Span}

namespace Every

theorem empty : Table.empty.Every P := by
  constructor
  · intro name s hs
    cases hs
  · intro s hs
    exact absurd hs List.not_mem_nil

theorem mono {P' : String → Status → Prop} (h : t.Every P) (himp : ∀ name s, P name s → P' name s) :
    t.Every P' := by
  constructor
  · intro name s hs
    exact himp name s (h.visible name s hs)
  · intro s hs
    obtain ⟨name, hs⟩ := h.hidden s hs
    exact ⟨name, himp name s hs⟩

/-- A state that goes out of sight is kept as it is. -/
theorem hide (h : t.Every P) : ∀ s ∈ t.hide (t.get? name) place, ∃ name, P name s := by
  intro s hs
  unfold Table.hide at hs
  cases hget : t.get? name with
  | none =>
    rw [hget] at hs
    exact h.hidden s hs
  | some previous =>
    rw [hget] at hs
    dsimp only at hs
    split at hs
    · exact h.hidden s hs
    · rcases List.mem_cons.1 hs with rfl | hs
      · exact ⟨name, h.visible name s hget⟩
      · exact h.hidden s hs

/-- A new state of a name takes the place of the old one. -/
theorem set (h : t.Every P) {s : Status} (hs : P name s) {hidden : List Status}
    (hhidden : ∀ s ∈ hidden, ∃ name, P name s) : Table.Every P ⟨t.entries.set name s, hidden⟩ := by
  refine ⟨?_, hhidden⟩
  intro x s' hs'
  rw [Table.get?, NameMap.get?_set] at hs'
  split at hs'
  · next hx =>
      cases hs'
      rw [hx]
      exact hs
  · exact h.visible x s' hs'

theorem own (h : t.Every P) {type : Ty} (hfresh : P name (.fresh type place)) :
    (t.own name type place).Every P :=
  h.set hfresh h.hide

theorem release (h : t.Every P) : (t.release name place).Every P := by
  refine ⟨?_, h.hide⟩
  intro x s hs
  rw [Table.release, Table.get?, NameMap.get?_erase] at hs
  split at hs
  · cases hs
  · exact h.visible x s hs

theorem reown (h : t.Every P) (hrefill : ∀ s, P name s → P name s.refill) :
    (t.reown name).Every P := by
  unfold Table.reown
  cases hget : t.get? name with
  | none => exact h
  | some s => exact h.set (hrefill s (h.visible name s hget)) h.hidden

/-- The last state of a binding is found by the place of its declaration alone, perhaps under
another name. -/
theorem finalState (hinner : inner.Every P)
    (hsame : ∀ name name' s s', P name s → P name' s' → s'.declaredAt = s.declaredAt → P name s')
    {s : Status} (hs : P name s) : ∀ after ∈ inner.finalState name s, P name after := by
  intro after hafter
  unfold Table.finalState at hafter
  cases hvisible : (inner.get? name).filter (·.sameBinding s) with
  | some s' =>
    rw [hvisible] at hafter
    cases hafter
    exact hinner.visible name after (Option.filter_eq_some_iff.1 hvisible).1
  | none =>
    rw [hvisible] at hafter
    obtain ⟨name', hname'⟩ := hinner.hidden after (List.mem_of_find?_eq_some hafter)
    exact hsame name name' s after hs hname'
      (by simpa [Status.sameBinding] using List.find?_some hafter)

theorem mergeBlock (h : t.Every P) (hinner : inner.Every P)
    (hsame : ∀ name name' s s', P name s → P name' s' → s'.declaredAt = s.declaredAt → P name s') :
    (t.mergeBlock inner).Every P := by
  refine ⟨?_, h.hidden⟩
  intro name s hs
  rw [Table.mergeBlock, Table.get?, NameMap.get?_mapEntries] at hs
  obtain ⟨s₀, hs₀, rfl⟩ := Option.map_eq_some_iff.1 hs
  have hold := h.visible name s₀ hs₀
  cases hfinal : inner.finalState name s₀ with
  | none => exact hold
  | some after => exact hinner.finalState hsame hold after hfinal

theorem mergeBranches (h : t.Every P) (hthen : thenTable.Every P)
    (hsame : ∀ name name' s s', P name s → P name' s' → s'.declaredAt = s.declaredAt → P name s')
    (hjoin : ∀ name s thenState elseState, P name s → (∀ s' ∈ thenState, P name s') →
      P name (joinState s thenState elseState)) (elseTable : Table) :
    (t.mergeBranches thenTable elseTable).Every P := by
  refine ⟨?_, h.hidden⟩
  intro name s hs
  rw [Table.mergeBranches, Table.get?, NameMap.get?_mapEntries] at hs
  obtain ⟨s₀, hs₀, rfl⟩ := Option.map_eq_some_iff.1 hs
  have hold := h.visible name s₀ hs₀
  exact hjoin name s₀ _ _ hold (hthen.finalState hsame hold)

end Every

/-- What `consume` does: nothing to a name that owns nothing, an error for a value that is gone, and
else a move. -/
theorem consume_cases (t : Table) (name : String) (span : Span) :
    t.get? name = none ∧ t.consume name span = .ok t ∨
    (∃ s, t.get? name = some s ∧ s.isMoved = true ∧ t.consume name span = .error s) ∨
    ∃ s, t.get? name = some s ∧ s.isMoved = false ∧
      t.consume name span = .ok { t with entries := t.entries.set name (s.move (some span)) } := by
  unfold consume
  cases hget : t.get? name with
  | none => exact .inl ⟨rfl, rfl⟩
  | some s =>
    cases hmoved : s.isMoved with
    | true => exact .inr (.inl ⟨s, rfl, hmoved, by simp only [hmoved, if_true]⟩)
    | false => exact .inr (.inr ⟨s, rfl, hmoved, by simp [hmoved]⟩)

/-! ## Merges and bindings -/

theorem declaredAt_of_finalState {s after : Status} (h : t.finalState name s = some after) :
    after.declaredAt = s.declaredAt := by
  unfold finalState at h
  cases hvisible : (t.get? name).filter (·.sameBinding s) with
  | some s' =>
    rw [hvisible] at h
    cases h
    simpa [Status.sameBinding] using (Option.filter_eq_some_iff.1 hvisible).2
  | none =>
    rw [hvisible] at h
    simpa [Status.sameBinding] using List.find?_some h

/-- A block adds no name and takes none away, and each name keeps its binding. -/
theorem declaredAt_mergeBlock (t inner : Table) (name : String) :
    ((t.mergeBlock inner).get? name).map Status.declaredAt =
      (t.get? name).map Status.declaredAt := by
  rw [mergeBlock, get?, NameMap.get?_mapEntries, Option.map_map]
  refine Option.map_congr fun s _ => ?_
  cases hfinal : inner.finalState name s with
  | none => simp [hfinal]
  | some after => simpa [hfinal] using declaredAt_of_finalState hfinal

theorem declaredAt_joinState (s : Status) (thenState elseState : Option Status) :
    (joinState s thenState elseState).declaredAt = s.declaredAt := by
  unfold joinState
  dsimp only
  split <;> rfl

theorem declaredAt_mergeBranches (t thenTable elseTable : Table) (name : String) :
    ((t.mergeBranches thenTable elseTable).get? name).map Status.declaredAt =
      (t.get? name).map Status.declaredAt := by
  rw [mergeBranches, get?, NameMap.get?_mapEntries, Option.map_map]
  exact Option.map_congr fun s _ => declaredAt_joinState s _ _

theorem finalState_self {s : Status} (h : t.get? name = some s) : t.finalState name s = some s := by
  rw [finalState, h, Option.filter_some, if_pos (by simp [Status.sameBinding])]

theorem get?_mergeBlock_self (t : Table) (name : String) :
    (t.mergeBlock t).get? name = t.get? name := by
  rw [mergeBlock, get?]
  refine NameMap.get?_mapEntries_of_eq fun s hs => ?_
  rw [finalState_self hs, Option.getD_some]

end Table

/-! ## States that say where they were moved -/

/-- A state is moved iff it says where. -/
def Status.Settled (s : Status) : Prop := s.owner = .moved ↔ s.movedAt.isSome = true

theorem Status.isMoved_iff (s : Status) : s.isMoved = true ↔ s.owner = .moved := beq_iff_eq

theorem Status.settled_fresh (type : Ty) (place : Span) :
    (fresh type place).Settled := by simp [Settled, fresh]

theorem Status.settled_move (s : Status) (span : Span) :
    (s.move (some span)).Settled := by simp [Settled, move]

theorem Status.settled_refill (s : Status) : s.refill.Settled := by simp [Settled, refill]

/-- Where both branches end with the value gone, the first of them says where, or the state before
them. -/
theorem Status.Settled.joinState {s : Status} {thenState elseState : Option Status} (h : s.Settled)
    (hthen : ∀ s' ∈ thenState, s'.Settled) : (Table.joinState s thenState elseState).Settled := by
  unfold Table.joinState
  dsimp only
  split
  · next hmoved =>
      obtain ⟨hmoved, -⟩ := Bool.and_eq_true_iff.1 hmoved
      refine ⟨fun _ => ?_, fun _ => rfl⟩
      cases thenState with
      | none => exact h.1 ((isMoved_iff s).1 hmoved)
      | some s' =>
        have hplace := (hthen s' rfl).1 ((isMoved_iff s').1 hmoved)
        obtain ⟨place, hplace⟩ := Option.isSome_iff_exists.1 hplace
        simp [Status.move, hplace]
  · exact settled_refill s

/-- To join a state with itself changes nothing. -/
theorem Status.Settled.joinState_self {s : Status} (h : s.Settled) :
    Table.joinState s (some s) (some s) = s := by
  unfold Table.joinState
  simp only [Option.map_some, Option.getD_some, Bool.and_self, Option.bind_some, Option.or_self]
  split
  · next hmoved =>
      rw [Status.move, ← (isMoved_iff s).1 hmoved]
  · next hmoved =>
      obtain ⟨owner, type, place, movedAt⟩ := s
      cases owner with
      | moved => exact absurd rfl hmoved
      | scope =>
        cases movedAt with
        | none => rfl
        | some span => exact absurd (h.2 rfl) (by simp)

theorem Table.Every.get?_mergeBranches_self {t : Table} (h : t.Every fun _ s => s.Settled)
    (name : String) : (t.mergeBranches t t).get? name = t.get? name := by
  rw [Table.mergeBranches, get?]
  refine NameMap.get?_mapEntries_of_eq fun s hs => ?_
  rw [finalState_self hs, (h.visible name s hs).joinState_self]

/-! ## Runs -/

/-- An operation on the table with the number `target`. What it takes from other tables it takes
from them as they are before it, and they may be the same one. -/
inductive Step where
  | own (target : Nat) (name : String) (type : Ty) (place : Span)
  | release (target : Nat) (name : String) (place : Span)
  | consume (target : Nat) (name : String) (span : Span)
  | reown (target : Nat) (name : String)
  | copy (target source : Nat)
  | mergeBlock (target inner : Nat)
  | mergeBranches (target thenTable elseTable : Nat)

namespace Step

/-- The table that a step changes. -/
def target : Step → Nat
  | own n _ _ _ | release n _ _ | consume n _ _ | reown n _ | copy n _ | mergeBlock n _
  | mergeBranches n _ _ => n

/-- What becomes of the table that a step changes. -/
def result (tables : Nat → Table) : Step → Table
  | own n name type place => (tables n).own name type place
  | release n name place => (tables n).release name place
  | consume n name span =>
    match (tables n).consume name span with
    | .ok after => after
    | .error _ => tables n
  | reown n name => (tables n).reown name
  | copy _ source => tables source
  | mergeBlock n inner => (tables n).mergeBlock (tables inner)
  | mergeBranches n thenTable elseTable =>
    (tables n).mergeBranches (tables thenTable) (tables elseTable)

/-- The tables behind a step. -/
def apply (tables : Nat → Table) (step : Step) : Nat → Table :=
  fun n => if n = step.target then step.result tables else tables n

/-- Whether a step leaves the binding of a name in a table alone, but for attempts to move it. -/
def spares (n : Nat) (name : String) : Step → Bool
  | own m x _ _ | release m x _ | reown m x => m != n || x != name
  | consume _ _ _ => true
  | copy m _ | mergeBlock m _ | mergeBranches m _ _ => m != n

end Step

/-- The tables behind some steps, which start with empty ones. -/
def run (steps : List Step) : Nat → Table := steps.foldl Step.apply fun _ => .empty

theorem run_append (steps later : List Step) :
    run (steps ++ later) = later.foldl Step.apply (run steps) :=
  List.foldl_append

namespace Step

variable {tables : Nat → Table} {n : Nat} {name : String} {s : Status}

/-- A step leaves all states of all tables settled. -/
theorem settled_apply (h : ∀ n, (tables n).Every fun _ s => s.Settled) (step : Step) (n : Nat) :
    (step.apply tables n).Every fun _ s => s.Settled := by
  unfold apply
  split
  · cases step with
    | own m name type place => exact (h m).own (Status.settled_fresh type place)
    | release m name place => exact (h m).release
    | consume m name span =>
      rcases (tables m).consume_cases name span with
        ⟨-, hrun⟩ | ⟨s, -, -, hrun⟩ | ⟨s, -, -, hrun⟩ <;>
        rw [result, hrun]
      · exact h m
      · exact h m
      · exact (h m).set (s.settled_move span) (h m).hidden
    | reown m name => exact (h m).reown fun s _ => s.settled_refill
    | copy m source => exact h source
    | mergeBlock m inner => exact (h m).mergeBlock (h inner) fun _ _ _ _ _ hs _ => hs
    | mergeBranches m thenTable elseTable =>
      exact (h m).mergeBranches (h thenTable) (fun _ _ _ _ _ hs _ => hs)
        (fun _ _ _ _ hs hthen => hs.joinState hthen) _
  · exact h n

/-- An attempt to move what is gone changes nothing. -/
theorem apply_consume_of_error {span : Span} (h : (tables n).consume name span = .error s) :
    (consume n name span).apply tables = tables := by
  funext m
  rw [apply, result, h]
  split
  · next hm => rw [hm]; rfl
  · rfl

theorem get?_consume_of_ne {t after : Table} {x : String} {span : Span} (hx : name ≠ x)
    (h : t.consume x span = .ok after) : after.get? name = t.get? name := by
  rcases t.consume_cases x span with
    ⟨-, hrun⟩ | ⟨s, -, -, hrun⟩ | ⟨s, -, -, hrun⟩ <;> rw [hrun] at h <;> cases h
  · rfl
  · rw [Table.get?, Table.get?, NameMap.get?_set, if_neg hx]

/-- A value that is gone stays so, with the place where it went, as long as no step gives its name a
new value or another binding. -/
theorem get?_apply_of_spares (step : Step) (hspares : step.spares n name = true)
    (h : (tables n).get? name = some s)
    (hmoved : s.isMoved = true) : (step.apply tables n).get? name = some s := by
  unfold apply
  split
  · next hn =>
      subst hn
      cases step with
      | own m x type place =>
        have hx : name ≠ x := by rintro rfl; simp [spares, target] at hspares
        rw [result, Table.own, Table.get?, NameMap.get?_set, if_neg hx]
        exact h
      | release m x place =>
        have hx : name ≠ x := by rintro rfl; simp [spares, target] at hspares
        rw [result, Table.release, Table.get?, NameMap.get?_erase, if_neg hx]
        exact h
      | reown m x =>
        have hx : name ≠ x := by rintro rfl; simp [spares, target] at hspares
        rw [result, Table.reown]
        cases hget : (tables m).get? x with
        | none => exact h
        | some s' =>
          rw [Table.get?, NameMap.get?_set, if_neg hx]
          exact h
      | consume m x span =>
        rw [result]
        cases hrun : (tables m).consume x span with
        | error s' => exact h
        | ok after =>
          by_cases hx : name = x
          · subst hx
            -- Only a value that is there can be moved, and this one is gone.
            rcases (tables m).consume_cases name span with
              ⟨hget, -⟩ | ⟨s', -, -, herror⟩ | ⟨s', hget, hs', -⟩
            · exact absurd (hget.symm.trans h) (by simp)
            · rw [hrun] at herror
              cases herror
            · obtain rfl : s' = s := Option.some.inj (hget.symm.trans h)
              rw [hmoved] at hs'
              cases hs'
          · exact (get?_consume_of_ne hx hrun).trans h
      | copy | mergeBlock | mergeBranches => simp [spares, target] at hspares
  · exact h

theorem get?_foldl_of_spares {later : List Step}
    (hspares : ∀ step ∈ later, step.spares n name = true) (h : (tables n).get? name = some s)
    (hmoved : s.isMoved = true) :
    (later.foldl apply tables n).get? name = some s := by
  induction later generalizing tables with
  | nil => exact h
  | cons step later ih =>
    obtain ⟨hstep, hlater⟩ := List.forall_mem_cons.1 hspares
    exact ih hlater (step.get?_apply_of_spares hstep h hmoved)

end Step

theorem settled_run (steps : List Step) (n : Nat) : (run steps n).Every fun _ s => s.Settled := by
  induction steps using List.reverseRecOn generalizing n with
  | nil => exact .empty
  | append_singleton steps step ih =>
    rw [run_append]
    exact step.settled_apply ih n

theorem Table.consume_of_moved {t : Table} {name : String} {s : Status} (h : t.get? name = some s)
    (hmoved : s.isMoved = true) (span : Span) : t.consume name span = .error s := by
  rw [consume, h]
  exact if_pos hmoved

/-- Any number of tables, behind any steps. In each of them a state, in sight or hidden, is moved
iff it says where. Merges add no name, take none away and leave each name its binding. An attempt to
move what is gone changes nothing and gives back the state with the first move: that move stays on
record through all later attempts, until its name has a new value or another binding. To merge a
table with itself leaves all that is in sight as it is. -/
theorem run_sound (steps : List Step) (n : Nat) :
    ((run steps n).Every fun _ s => s.owner = .moved ↔ s.movedAt.isSome = true) ∧
    (∀ inner name, ((run (steps ++ [.mergeBlock n inner]) n).get? name).map Status.declaredAt =
      ((run steps n).get? name).map Status.declaredAt) ∧
    (∀ thenTable elseTable name,
      ((run (steps ++ [.mergeBranches n thenTable elseTable]) n).get? name).map Status.declaredAt =
        ((run steps n).get? name).map Status.declaredAt) ∧
    (∀ name span s, (run steps n).consume name span = .error s →
      run (steps ++ [.consume n name span]) = run steps ∧ (run steps n).get? name = some s ∧
        s.owner = .moved) ∧
    (∀ name first s later, (run steps n).get? name = some s → s.owner = .scope →
      (∀ step ∈ later, step.spares n name = true) →
      ∀ span, (run (steps ++ .consume n name first :: later) n).consume name span =
        .error { s with owner := .moved, movedAt := some first }) ∧
    (∀ name, (run (steps ++ [.mergeBlock n n]) n).get? name = (run steps n).get? name) ∧
    ∀ name, (run (steps ++ [.mergeBranches n n n]) n).get? name = (run steps n).get? name := by
  have hlast (step : Step) (h : n = step.target) : run (steps ++ [step]) n =
      step.result (run steps) := by
    rw [run_append]
    exact if_pos h
  refine ⟨settled_run steps n, fun inner name => ?_, fun thenTable elseTable name => ?_,
    fun name span s h => ?_,
    fun name first s later hget howner hspares span => ?_, fun name => ?_, fun name => ?_⟩
  · rw [hlast _ rfl]
    exact Table.declaredAt_mergeBlock _ _ name
  · rw [hlast _ rfl]
    exact Table.declaredAt_mergeBranches _ _ _ name
  · refine ⟨?_, ?_⟩
    · rw [run_append]
      exact Step.apply_consume_of_error h
    · rcases (run steps n).consume_cases name span with
        ⟨-, hrun⟩ | ⟨s', hget, hmoved, hrun⟩ | ⟨s', -, -, hrun⟩ <;> rw [hrun] at h <;> cases h
      exact ⟨hget, (Status.isMoved_iff s).1 hmoved⟩
  · -- The first attempt moves the value, and the steps behind it leave that state where it is.
    refine Table.consume_of_moved ?_ rfl span
    rw [List.append_cons, run_append]
    refine Step.get?_foldl_of_spares hspares ?_ rfl
    have hrun : (run steps n).consume name first = .ok
        { run steps n with entries := (run steps n).entries.set name (s.move (some first)) } := by
      rw [Table.consume, hget]
      exact if_neg (by rw [Status.isMoved_iff, howner]; decide)
    rw [hlast _ rfl, Step.result, hrun, Table.get?, NameMap.get?_set, if_pos rfl]
    rfl
  · rw [hlast _ rfl]
    exact Table.get?_mergeBlock_self _ name
  · rw [hlast _ rfl]
    exact (settled_run steps n).get?_mergeBranches_self name

/-- A copy of a table moves the value of `a`, hides its binding behind another one and is merged
back; then two attempts to move `a` fail. -/
def hiddenMove : List Step :=
  [.own 0 "a" .any ⟨0, 1, 1, 1, 0⟩, .copy 1 0, .consume 1 "a" ⟨2, 3, 1, 3, 0⟩,
    .own 1 "a" .any ⟨4, 5, 1, 5, 0⟩, .mergeBlock 0 1, .consume 0 "a" ⟨6, 7, 1, 7, 0⟩]

/-- The first move is on record, and to merge the table with itself changes nothing. -/
theorem run_sound_hiddenMove :
    (run hiddenMove 0).consume "a" ⟨8, 9, 1, 9, 0⟩ =
      .error ⟨.moved, .any, ⟨0, 1, 1, 1, 0⟩, some ⟨2, 3, 1, 3, 0⟩⟩ ∧
      run (hiddenMove ++ [.consume 0 "a" ⟨8, 9, 1, 9, 0⟩]) = run hiddenMove ∧
      (run (hiddenMove ++ [.mergeBranches 0 0 0]) 0).get? "a" = (run hiddenMove 0).get? "a" := by
  have herror : (run hiddenMove 0).consume "a" ⟨8, 9, 1, 9, 0⟩ =
      .error ⟨.moved, .any, ⟨0, 1, 1, 1, 0⟩, some ⟨2, 3, 1, 3, 0⟩⟩ := by
    rfl
  obtain ⟨-, -, -, hfails, -, -, hself⟩ := run_sound hiddenMove 0
  exact ⟨herror, (hfails _ _ _ herror).1, hself "a"⟩

end Custody.Ownership
