import Custody.Proofs.Paths
import Mathlib.Data.List.Induction
import Mathlib.Data.List.Nodup

/-!
# Following a flow

`Flow.follow` goes through a flow once and keeps, for each local, its last known state. It takes
both ways of a branch and joins them, and it goes through the head and one round of a loop and then
forgets what the loop did. What it finds is exactly what holds on every path that passes by the
loops:

* `Flow.Skims` lists the events on the paths through a flow that leave all loops out, and
  `Flow.SkimsTo` those on the paths to a place, which enter only the loops around the place;
* a local counts as moved behind a flow iff it is moved on all those paths (`isMoved_follow_iff`);
* a place is reported iff the local that it names is moved on all those paths to it
  (`reports_follow_iff`).
-/

set_option autoImplicit false

namespace Custody.Ownership

namespace Status

@[simp] theorem isMoved_fresh (type : Ty) (place : Span) : (fresh type place).isMoved = false := rfl
@[simp] theorem isMoved_move (s : Status) (span : Option Span) : (s.move span).isMoved = true := rfl
@[simp] theorem isMoved_refill (s : Status) : s.refill.isMoved = false := rfl

end Status

/-! ## Ledgers -/

/-- The last known state of each local, by the place of its declaration. -/
abbrev Ledger : Type := Span → Status

namespace Ledger

/-- The ledger before anything happened. -/
def start : Ledger := fun place => .fresh .any place

/-- Enters the state of a local. -/
def put (m : Ledger) (place : Span) (s : Status) : Ledger :=
  fun p => if p = place then s else m p

/-- The ledger behind two branches that both start from `m`. -/
def join (m left right : Ledger) : Ledger :=
  fun p => Table.joinState (m p) (some (left p)) (some (right p))

@[simp] theorem put_self (m : Ledger) (place : Span) (s : Status) : m.put place s place = s :=
  if_pos rfl

theorem put_of_ne (m : Ledger) {place p : Span} (s : Status) (h : p ≠ place) :
    m.put place s p = m p :=
  if_neg h

/-- A local is moved behind two branches iff it is moved behind both. -/
@[simp] theorem isMoved_join (m left right : Ledger) (p : Span) :
    (m.join left right p).isMoved = ((left p).isMoved && (right p).isMoved) := by
  unfold join Table.joinState
  cases hl : (left p).isMoved <;> cases hr : (right p).isMoved <;> simp [hl, hr]

end Ledger

/-! ## Following -/

/-- What an event does to a ledger, and the misuse that it is. -/
def Event.apply : Event → Ledger → Ledger × List Misuse
  | .declare b, m => (m.put b.place (.fresh (b.type.getD .any) b.place), [])
  | .assign b, m => (m.put b.place (m b.place).refill, [])
  | .examine _ none, m => (m, [])
  | .examine o (some b), m =>
    if (m b.place).isMoved then
      (m, if b.owned then [⟨o.place, o.fault, m b.place⟩] else [])
    else if o.manner = .move then (m.put b.place ((m b.place).move (some o.place)), [])
    else (m, [])

namespace Flow

/-- Goes through a flow: the ledger behind it, and the misuses on the way. -/
def follow : Flow → Ledger → Ledger × List Misuse
  | idle, m => (m, [])
  | event e, m => e.apply m
  | seq f g, m =>
    let first := f.follow m
    let second := g.follow first.1
    (second.1, first.2 ++ second.2)
  | either f g, m =>
    let first := f.follow m
    let second := g.follow m
    (m.join first.1 second.1, first.2 ++ second.2)
  | loop head body _, m =>
    let first := head.follow m
    (m, first.2 ++ (body.follow first.1).2)

end Flow

/-! ## Sound ledgers -/

namespace Ledger

/-- Every state says where its local is declared, and only a moved one where it was moved. -/
structure Sound (m : Ledger) : Prop where
  placed : ∀ p, (m p).declaredAt = p
  settled : ∀ p, (m p).isMoved = false → (m p).movedAt = none

theorem sound_start : start.Sound := ⟨fun _ => rfl, fun _ _ => rfl⟩

theorem Sound.put {m : Ledger} (h : m.Sound) {place : Span} {s : Status}
    (hplaced : s.declaredAt = place) (hsettled : s.isMoved = false → s.movedAt = none) :
    (m.put place s).Sound := by
  constructor
  · intro p
    by_cases hp : p = place
    · subst hp
      rw [put_self, hplaced]
    · rw [put_of_ne m s hp, h.placed]
  · intro p
    by_cases hp : p = place
    · subst hp
      rw [put_self]
      exact hsettled
    · rw [put_of_ne m s hp]
      exact h.settled p

/-- Branches that leave a state alone are joined to that state. -/
theorem join_eq_self {m left right : Ledger} (h : m.Sound) {p : Span} (hl : left p = m p)
    (hr : right p = m p) : m.join left right p = m p := by
  have hnone := h.settled p
  unfold join Table.joinState
  rw [hl, hr]
  cases hs : m p with
  | mk owner type declaredAt movedAt =>
    rw [hs] at hnone
    cases owner with
    | moved => simp [Status.isMoved, Status.move]
    | scope => simpa [Status.isMoved, Status.refill] using (hnone rfl).symm

theorem Sound.join {m left right : Ledger} (h : m.Sound) : (m.join left right).Sound := by
  constructor
  · intro p
    unfold Ledger.join Table.joinState
    simp only
    split <;> exact h.placed p
  · intro p hp
    rw [isMoved_join] at hp
    simp [Ledger.join, Table.joinState, hp, Status.refill]

end Ledger

theorem Event.sound_apply (e : Event) {m : Ledger} (h : m.Sound) : (e.apply m).1.Sound := by
  cases e with
  | declare b => exact h.put rfl fun _ => rfl
  | assign b => exact h.put (h.placed b.place) fun _ => rfl
  | examine o target =>
    cases target with
    | none => exact h
    | some b =>
      simp only [Event.apply]
      split
      · exact h
      · split
        · exact h.put (h.placed b.place) fun hs => by simp at hs
        · exact h

namespace Flow

theorem sound_follow (f : Flow) {m : Ledger} (h : m.Sound) : (f.follow m).1.Sound := by
  induction f generalizing m with
  | idle => exact h
  | event e => exact e.sound_apply h
  | seq f g ihf ihg => exact ihg (ihf h)
  | either f g _ _ => exact h.join
  | loop head body again _ _ => exact h

/-! ## Paths that pass by the loops -/

/-- The events on the paths through a flow that leave all loops out. -/
inductive Skims : Flow → List Event → Prop
  | idle : Skims .idle []
  | event (e : Event) : Skims (.event e) [e]
  | seq {f g : Flow} {es es' : List Event} :
      Skims f es → Skims g es' → Skims (.seq f g) (es ++ es')
  | left {f g : Flow} {es : List Event} : Skims f es → Skims (.either f g) es
  | right {f g : Flow} {es : List Event} : Skims g es → Skims (.either f g) es
  | loop (head body again : Flow) : Skims (.loop head body again) []

/-- The events on the paths to an event that leave all loops out but those around the event, which
are in their first round. -/
inductive SkimsTo : Flow → List Event → Event → Prop
  | event (e : Event) : SkimsTo (.event e) [] e
  | first {f g : Flow} {es : List Event} {e : Event} : SkimsTo f es e → SkimsTo (.seq f g) es e
  | second {f g : Flow} {es es' : List Event} {e : Event} :
      Skims f es → SkimsTo g es' e → SkimsTo (.seq f g) (es ++ es') e
  | left {f g : Flow} {es : List Event} {e : Event} : SkimsTo f es e → SkimsTo (.either f g) es e
  | right {f g : Flow} {es : List Event} {e : Event} : SkimsTo g es e → SkimsTo (.either f g) es e
  | head {head body again : Flow} {es : List Event} {e : Event} :
      SkimsTo head es e → SkimsTo (.loop head body again) es e
  | body {head body again : Flow} {es es' : List Event} {e : Event} :
      Skims head es → SkimsTo body es' e → SkimsTo (.loop head body again) (es ++ es') e

theorem exists_skims : ∀ f : Flow, ∃ es, f.Skims es
  | idle => ⟨[], .idle⟩
  | event e => ⟨[e], .event e⟩
  | seq f g => by
    obtain ⟨es, hf⟩ := exists_skims f
    obtain ⟨es', hg⟩ := exists_skims g
    exact ⟨es ++ es', .seq hf hg⟩
  | either f _ => by
    obtain ⟨es, hf⟩ := exists_skims f
    exact ⟨es, .left hf⟩
  | loop head body again => ⟨[], .loop head body again⟩

end Flow

/-! ## States along a path -/

/-- Whether the value of a local is gone behind some events, if `gone` says so before them. -/
def movedBy (place : Span) (gone : Bool) (events : List Event) : Bool :=
  events.foldl (fun gone e => if e.decides place then e.moves place else gone) gone

@[simp] theorem movedBy_nil (place : Span) (gone : Bool) : movedBy place gone [] = gone := rfl

@[simp] theorem movedBy_cons (place : Span) (gone : Bool) (e : Event) (es : List Event) :
    movedBy place gone (e :: es) =
      movedBy place (if e.decides place then e.moves place else gone) es := rfl

theorem movedBy_append (place : Span) (gone : Bool) (es es' : List Event) :
    movedBy place gone (es ++ es') = movedBy place (movedBy place gone es) es' :=
  List.foldl_append

/-- Events that do not decide about a local leave it as it was. -/
theorem movedBy_of_not_decides {place : Span} {es : List Event}
    (h : ∀ e ∈ es, e.decides place = false) (gone : Bool) : movedBy place gone es = gone := by
  induction es generalizing gone with
  | nil => rfl
  | cons e es ih =>
    have he : e.decides place = false := h e List.mem_cons_self
    rw [movedBy_cons, he]
    exact ih (fun e' he' => h e' (List.mem_cons_of_mem e he')) gone

/-- `movedAway` is `movedBy` from a state in which nothing is gone. -/
theorem movedAway_eq_movedBy (place : Span) (es : List Event) :
    movedAway place es = movedBy place false es := by
  induction es using List.reverseRecOn with
  | nil => rfl
  | append_singleton es e ih =>
    unfold movedAway at ih ⊢
    rw [List.filter_append, movedBy_append, ← ih]
    cases he : e.decides place with
    | true => simp [he]
    | false => simp [he]

/-- The state behind a path is settled by the path, or else is the state before it. -/
theorem movedBy_const_or_id (place : Span) (es : List Event) :
    (∃ c, ∀ gone, movedBy place gone es = c) ∨ ∀ gone, movedBy place gone es = gone := by
  induction es with
  | nil => exact Or.inr fun _ => rfl
  | cons e es ih =>
    rcases ih with ⟨c, hc⟩ | hid
    · exact Or.inl ⟨c, fun gone => by rw [movedBy_cons, hc]⟩
    · cases he : e.decides place with
      | true => exact Or.inl ⟨e.moves place, fun gone => by simp [he, hid]⟩
      | false => exact Or.inr fun gone => by simp [he, hid]

/-- A path that starts where several paths end is taken from the meet of their states. -/
theorem movedBy_forall {place : Span} {P : List Event → Prop} {gone start : Bool}
    (hne : ∃ es, P es) (hgone : gone = true ↔ ∀ es, P es → movedBy place start es = true)
    (es' : List Event) :
    movedBy place gone es' = true ↔
      ∀ es, P es → movedBy place (movedBy place start es) es' = true := by
  -- The second part of the path either settles the state itself, or hands on what it is given.
  rcases movedBy_const_or_id place es' with ⟨c, hc⟩ | hid
  · obtain ⟨es, hes⟩ := hne
    simp only [hc]
    exact ⟨fun h _ _ => h, fun h => h es hes⟩
  · simp only [hid]
    exact hgone

/-- An event leaves a local moved iff it moves it, or says nothing about it and it was moved. -/
theorem Event.isMoved_apply (e : Event) (m : Ledger) (place : Span) :
    ((e.apply m).1 place).isMoved =
      if e.decides place then e.moves place else (m place).isMoved := by
  cases e with
  | declare b | assign b =>
    by_cases h : place = b.place
    · subst h
      simp [Event.apply, Event.decides, Event.moves]
    · have h' : ¬ b.place = place := fun heq => h heq.symm
      simp [Event.apply, Event.decides, Ledger.put_of_ne _ _ h, h']
  | examine o target =>
    cases target with
    | none => simp [Event.apply, Event.decides, Event.moves]
    | some b =>
      by_cases hmanner : o.manner = .move
      · by_cases h : place = b.place
        · subst h
          cases hm : (m b.place).isMoved <;>
            simp [Event.apply, Event.decides, Event.moves, hmanner, hm]
        · have h' : ¬ b.place = place := fun heq => h heq.symm
          cases hm : (m b.place).isMoved <;>
            simp [Event.apply, Event.decides, Event.moves, hmanner, hm,
              Ledger.put_of_ne _ _ h, h']
      · cases hm : (m b.place).isMoved <;>
          simp [Event.apply, Event.decides, Event.moves, hmanner, hm]

namespace Flow

/-- A local is moved behind a flow iff it is moved on all paths that pass by the loops. -/
theorem isMoved_follow_iff (place : Span) (f : Flow) (m : Ledger) :
    ((f.follow m).1 place).isMoved = true ↔
      ∀ es, f.Skims es → movedBy place (m place).isMoved es = true := by
  induction f generalizing m with
  | idle =>
    refine ⟨fun h es hes => ?_, fun h => h [] .idle⟩
    cases hes
    exact h
  | event e =>
    have key : ((e.apply m).1 place).isMoved = movedBy place (m place).isMoved [e] := by
      rw [Event.isMoved_apply, movedBy_cons, movedBy_nil]
    refine ⟨fun h es hes => ?_, fun h => key.trans (h [e] (.event e))⟩
    cases hes
    exact key.symm.trans h
  | seq f g ihf ihg =>
    -- The ledger between the two flows holds the meet of the states on all ways through the first.
    have key := fun es' => movedBy_forall (exists_skims f) (ihf m) es'
    refine (ihg (f.follow m).1).trans ⟨fun h es hes => ?_, fun h es' hes' => ?_⟩
    · cases hes with
      | seq hf hg =>
        rw [movedBy_append]
        exact (key _).1 (h _ hg) _ hf
    · refine (key es').2 fun es hes => ?_
      rw [← movedBy_append]
      exact h _ (.seq hes hes')
  | either f g ihf ihg =>
    -- A join keeps what both branches say, and a way through the branches is a way through one.
    simp only [follow, Ledger.isMoved_join, Bool.and_eq_true, ihf m, ihg m]
    refine ⟨fun h es hes => ?_, fun h => ⟨fun es hes => h es (.left hes),
      fun es hes => h es (.right hes)⟩⟩
    cases hes with
    | left hf => exact h.1 es hf
    | right hg => exact h.2 es hg
  | loop head body again _ _ =>
    -- Behind a loop the ledger is the one in front of it, and a way around the loop passes nothing.
    refine ⟨fun h es hes => ?_, fun h => h [] (.loop head body again)⟩
    cases hes
    exact h

/-- Every misuse is at an examined place that names an owned pointer whose value is gone. In a sound
ledger it is about that pointer. -/
theorem mem_follow {f : Flow} {m : Ledger} {x : Misuse} (hx : x ∈ (f.follow m).2) :
    ∃ o b, (o, some b) ∈ f.examined ∧ b.owned = true ∧ x.span = o.place ∧ x.fault = o.fault ∧
      (m.Sound → x.previous.declaredAt = b.place) := by
  induction f generalizing m with
  | idle => simp [follow] at hx
  | event e =>
    cases e with
    | declare b => simp [follow, Event.apply] at hx
    | assign b => simp [follow, Event.apply] at hx
    | examine o target =>
      cases target with
      | none => simp [follow, Event.apply] at hx
      | some b =>
        simp only [follow, Event.apply] at hx
        split at hx
        · split at hx
          · rename_i howned
            simp only [List.mem_singleton] at hx
            subst hx
            exact ⟨o, b, List.mem_singleton.2 rfl, howned, rfl, rfl, fun hm => hm.placed b.place⟩
          · simp at hx
        · split at hx <;> simp at hx
  | either f g ihf ihg =>
    simp only [follow, List.mem_append] at hx
    rcases hx with hx | hx
    · obtain ⟨o, b, hmem, h⟩ := ihf hx
      exact ⟨o, b, List.mem_append_left _ hmem, h⟩
    · obtain ⟨o, b, hmem, h⟩ := ihg hx
      exact ⟨o, b, List.mem_append_right _ hmem, h⟩
  | seq f g ihf ihg | loop f g again ihf ihg =>
    simp only [follow, List.mem_append] at hx
    rcases hx with hx | hx
    · obtain ⟨o, b, hmem, h⟩ := ihf hx
      exact ⟨o, b, List.mem_append_left _ hmem, h⟩
    · obtain ⟨o, b, hmem, howned, hspan, hfault, hplace⟩ := ihg hx
      exact ⟨o, b, List.mem_append_right _ hmem, howned, hspan, hfault,
        fun hm => hplace (f.sound_follow hm)⟩

theorem SkimsTo.mem_examined {f : Flow} {es : List Event} {o : Occurrence} {target : Option Binding}
    (h : f.SkimsTo es (.examine o target)) :
    (o, target) ∈ f.examined := by
  generalize he : Event.examine o target = e at h
  induction h with
  | event e =>
    subst he
    exact List.mem_singleton.2 rfl
  | first _ ih | left _ ih | head _ ih => exact List.mem_append_left _ (ih he)
  | second _ _ ih | right _ ih | body _ _ ih => exact List.mem_append_right _ (ih he)

/-- The places that a flow examines. -/
def sites (f : Flow) : List Span := f.examined.map fun e => e.1.place

theorem mem_sites {f : Flow} {o : Occurrence} {target : Option Binding}
    (h : (o, target) ∈ f.examined) : o.place ∈ f.sites :=
  List.mem_map_of_mem h

/-- If no place is examined twice, the place alone says what is examined there. -/
theorem examined_inj {f : Flow} (hnodup : f.sites.Nodup) {o o' : Occurrence}
    {target target' : Option Binding} (h : (o, target) ∈ f.examined)
    (h' : (o', target') ∈ f.examined) (hplace : o.place = o'.place) :
    (o, target) = (o', target') :=
  List.inj_on_of_nodup_map hnodup h h' hplace

/-- A report is at an examined place. -/
theorem span_mem_sites {f : Flow} {m : Ledger} {x : Misuse} (hx : x ∈ (f.follow m).2) :
    x.span ∈ f.sites := by
  obtain ⟨o, b, hmem, -, hspan, -⟩ := mem_follow hx
  exact hspan ▸ mem_sites hmem

/-- Whether some misuse is at a place. -/
def ReportedAt (place : Span) (misuses : List Misuse) : Prop := ∃ x ∈ misuses, x.span = place

theorem reportedAt_append {place : Span} {xs ys : List Misuse} :
    ReportedAt place (xs ++ ys) ↔ ReportedAt place xs ∨ ReportedAt place ys := by
  simp only [ReportedAt, List.mem_append, or_and_right, exists_or]

theorem not_reportedAt {f : Flow} {m : Ledger} {place : Span} (h : place ∉ f.sites) :
    ¬ ReportedAt place (f.follow m).2 := by
  rintro ⟨x, hx, rfl⟩
  exact h (span_mem_sites hx)

section Reports

variable {o : Occurrence} {b : Binding}

/-- The reports in one flow behind another: what holds for each of them holds for both. -/
theorem reportedAt_pair {f g : Flow} {m : Ledger}
    (hf : (o, some b) ∈ f.examined → (ReportedAt o.place (f.follow m).2 ↔
      ∀ es, f.SkimsTo es (.examine o (some b)) → movedBy b.place (m b.place).isMoved es = true))
    (hg : (o, some b) ∈ g.examined → (ReportedAt o.place (g.follow (f.follow m).1).2 ↔
      ∀ es, g.SkimsTo es (.examine o (some b)) →
        movedBy b.place ((f.follow m).1 b.place).isMoved es = true))
    (hmem : (o, some b) ∈ f.examined ++ g.examined) (hdisj : List.Disjoint f.sites g.sites) :
    ReportedAt o.place ((f.follow m).2 ++ (g.follow (f.follow m).1).2) ↔
      (∀ es, f.SkimsTo es (.examine o (some b)) →
        movedBy b.place (m b.place).isMoved es = true) ∧
      (∀ es es', f.Skims es → g.SkimsTo es' (.examine o (some b)) →
        movedBy b.place (m b.place).isMoved (es ++ es') = true) := by
  rw [reportedAt_append]
  -- The place is examined on one side only; the other side neither reports it nor has a way to it.
  rcases List.mem_append.1 hmem with hin | hin
  · have hout : o.place ∉ g.sites := fun h => hdisj (mem_sites hin) h
    rw [hf hin, or_iff_left (not_reportedAt hout)]
    exact ⟨fun h => ⟨h, fun es es' _ hto => absurd (mem_sites hto.mem_examined) hout⟩, And.left⟩
  · have hout : o.place ∉ f.sites := fun h => hdisj h (mem_sites hin)
    rw [hg hin, or_iff_right (not_reportedAt hout)]
    have key := fun es' =>
      movedBy_forall (exists_skims f) (isMoved_follow_iff b.place f m) es'
    refine ⟨fun h => ⟨fun es hto => absurd (mem_sites hto.mem_examined) hout,
      fun es es' hes hto => ?_⟩, fun h es' hto => (key es').2 fun es hes => ?_⟩
    · rw [movedBy_append]
      exact (key es').1 (h es' hto) es hes
    · rw [← movedBy_append]
      exact h.2 es es' hes hto

/-- A place that names an owned pointer is reported iff the pointer is moved on all paths to the
place that pass by the loops. -/
theorem reports_follow_iff (howned : b.owned = true) (f : Flow) (m : Ledger)
    (hmem : (o, some b) ∈ f.examined) (hnodup : f.sites.Nodup) :
    ReportedAt o.place (f.follow m).2 ↔
      ∀ es, f.SkimsTo es (.examine o (some b)) →
        movedBy b.place (m b.place).isMoved es = true := by
  induction f generalizing m with
  | idle => simp [examined] at hmem
  | event e =>
    cases e with
    | declare c => simp [examined] at hmem
    | assign c => simp [examined] at hmem
    | examine o' target =>
      simp only [examined, List.mem_singleton, Prod.mk.injEq] at hmem
      obtain ⟨rfl, rfl⟩ := hmem
      -- There is one way to the place itself, and it passes nothing.
      have hreport : ReportedAt o.place ((event (.examine o (some b))).follow m).2 ↔
          (m b.place).isMoved = true := by
        cases hm : (m b.place).isMoved with
        | true => simp [follow, Event.apply, hm, howned, ReportedAt]
        | false =>
          simp only [follow, Event.apply, hm, Bool.false_eq_true, if_false]
          split <;> simp [ReportedAt]
      refine hreport.trans ⟨fun h es hto => ?_, fun h => h [] (.event _)⟩
      cases hto
      exact h
  | seq f g ihf ihg =>
    simp only [sites, examined, List.map_append, List.nodup_append'] at hnodup
    obtain ⟨hnf, hng, hdisj⟩ := hnodup
    refine (reportedAt_pair (fun h => ihf m h hnf) (fun h => ihg _ h hng) hmem hdisj).trans ?_
    refine ⟨fun h es hto => ?_, fun h => ⟨fun es hto => h es (.first hto),
      fun es es' hes hto => h _ (.second hes hto)⟩⟩
    cases hto with
    | first hf => exact h.1 es hf
    | second hf hg => exact h.2 _ _ hf hg
  | either f g ihf ihg =>
    simp only [sites, examined, List.map_append, List.nodup_append'] at hnodup
    obtain ⟨hnf, hng, hdisj⟩ := hnodup
    simp only [follow, reportedAt_append]
    rcases List.mem_append.1 hmem with hin | hin
    · have hout : o.place ∉ g.sites := fun h => hdisj (mem_sites hin) h
      rw [or_iff_left (not_reportedAt hout), ihf m hin hnf]
      refine ⟨fun h es hto => ?_, fun h es hto => h es (.left hto)⟩
      cases hto with
      | left hf => exact h es hf
      | right hg => exact absurd (mem_sites hg.mem_examined) hout
    · have hout : o.place ∉ f.sites := fun h => hdisj h (mem_sites hin)
      rw [or_iff_right (not_reportedAt hout), ihg m hin hng]
      refine ⟨fun h es hto => ?_, fun h es hto => h es (.right hto)⟩
      cases hto with
      | left hf => exact absurd (mem_sites hf.mem_examined) hout
      | right hg => exact h es hg
  | loop head body again ihh ihb _ =>
    simp only [sites, examined, List.map_append, List.nodup_append'] at hnodup
    obtain ⟨hnh, hnb, hdisj⟩ := hnodup
    refine (reportedAt_pair (fun h => ihh m h hnh) (fun h => ihb _ h hnb) hmem hdisj).trans ?_
    refine ⟨fun h es hto => ?_, fun h => ⟨fun es hto => h es (.head hto),
      fun es es' hes hto => h _ (.body hes hto)⟩⟩
    cases hto with
    | head hh => exact h.1 es hh
    | body hh hb => exact h.2 _ _ hh hb

end Reports

end Flow

end Custody.Ownership
