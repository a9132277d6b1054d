import Custody.Proofs.Ledger
import Custody.Proofs.NameMap

/-!
# Ownership tables keep the states of locals

A walk through a body keeps a table by name, copies it for nested blocks, and finds hidden locals
again by the places of their declarations. Following the flow of the same body keeps a ledger by
place. `Tracks` says that a table holds, for the locals in sight, what a ledger says, and
`Simulates` that a walk keeps a table in step with a ledger and finds the same misuses. Each step of
a walk has its lemma; from those a whole function gives `walkFn_eq_follow`.

The lemmas need locals with distinct places, as every source text gives them.
-/

set_option autoImplicit false

namespace Custody.Ownership

variable {typeOf : Nat → Option Ty} {b : Binding} {x : String} {m : Ledger}

/-! ## Locals in sight -/

namespace Sight

variable {sight : Sight} {b c : Binding} {x : String}

theorem resolve_cons (b : Binding) (sight : Sight) (x : String) :
    resolve (b :: sight) x = if b.name.name = x then some b else resolve sight x := by
  by_cases h : b.name.name = x <;> simp [resolve, h]

theorem mem_of_resolve (h : sight.resolve x = some b) : b ∈ sight :=
  List.mem_of_find?_eq_some h

theorem name_of_resolve (h : sight.resolve x = some b) : b.name.name = x := by
  simpa using List.find?_some h

/-- Locals with distinct places are known by their places. -/
theorem eq_of_place_eq (hnodup : sight.places.Nodup) (hb : b ∈ sight) (hc : c ∈ sight)
    (h : b.place = c.place) : b = c :=
  List.inj_on_of_nodup_map hnodup hb hc h

/-- A local that is hidden stays hidden behind further declarations. -/
theorem hidden_of_suffix {inner : Sight} (hsuffix : sight <:+ inner)
    (hnodup : inner.places.Nodup) (hb : b ∈ sight) (h : sight.resolve x ≠ some b) :
    inner.resolve x ≠ some b := by
  obtain ⟨front, rfl⟩ := hsuffix
  unfold resolve at h ⊢
  rw [List.find?_append]
  intro hfound
  cases hfront : front.find? fun b => b.name.name == x with
  | none =>
    rw [hfront, Option.none_or] at hfound
    exact h hfound
  | some c =>
    rw [hfront, Option.some_or, Option.some.injEq] at hfound
    subst hfound
    -- The local would stand in front and behind, with one place.
    rw [places, List.map_append] at hnodup
    exact List.disjoint_of_nodup_append hnodup
      (List.mem_map_of_mem (List.mem_of_find?_eq_some hfront)) (List.mem_map_of_mem hb)

end Sight

/-! ## Tables and ledgers -/

/-- A table holds what a ledger says about the owned pointers in sight: under its name for one that
can be seen, and aside for a hidden one. -/
structure Tracks (sight : Sight) (t : Table) (m : Ledger) : Prop where
  distinct : sight.places.Nodup
  seen : ∀ x b, sight.resolve x = some b → t.get? x = if b.owned then some (m b.place) else none
  unseen : ∀ x, sight.resolve x = none → t.get? x = none
  hidden : ∀ b ∈ sight, b.owned = true → sight.resolve b.name.name ≠ some b →
    t.hidden.find? (fun s => s.declaredAt == b.place) = some (m b.place)
  sound : m.Sound

namespace Tracks

variable {sight : Sight} {t : Table} {m : Ledger} {b : Binding}

/-- The table finds the last state of every owned pointer in sight, seen or hidden. -/
theorem finalState_eq (h : Tracks sight t m) (hb : b ∈ sight) (ho : b.owned = true) {s : Status}
    (hs : s.declaredAt = b.place) : t.finalState b.name.name s = some (m b.place) := by
  unfold Table.finalState Status.sameBinding
  rw [hs]
  -- Under the name of a hidden local the table has the local that hides it, which has another
  -- place.
  by_cases hseen : sight.resolve b.name.name = some b
  · rw [h.seen _ b hseen, if_pos ho, Option.filter_some, h.sound.placed,
      beq_self_eq_true, if_pos rfl]
  · have hother : (t.get? b.name.name).filter (fun s => s.declaredAt == b.place) = none := by
      cases hc : sight.resolve b.name.name with
      | none => rw [h.unseen _ hc, Option.filter_none]
      | some c =>
        have hne : ¬ c.place = b.place := fun heq =>
          hseen (Sight.eq_of_place_eq h.distinct (Sight.mem_of_resolve hc) hb heq ▸ hc)
        rw [h.seen _ c hc]
        split <;> simp [Option.filter_some, h.sound.placed, hne]
    rw [hother]
    exact h.hidden b hb ho hseen

/-- Another local in sight has another place than the local that a name stands for. -/
theorem place_ne (h : Tracks sight t m) {x : String} {c : Binding} (hb : sight.resolve x = some b)
    (hc : c ∈ sight) (hne : sight.resolve x ≠ some c) : c.place ≠ b.place := by
  intro heq
  obtain rfl := Sight.eq_of_place_eq h.distinct hc (Sight.mem_of_resolve hb) heq
  exact hne hb

theorem place_ne_of_hidden (h : Tracks sight t m) {x : String} {c : Binding}
    (hb : sight.resolve x = some b) (hc : c ∈ sight)
    (hhidden : sight.resolve c.name.name ≠ some c) : c.place ≠ b.place := by
  intro heq
  obtain rfl := Sight.eq_of_place_eq h.distinct hc (Sight.mem_of_resolve hb) heq
  obtain rfl := Sight.name_of_resolve hb
  exact hhidden hb

/-- A new state of an owned pointer goes under its name. -/
theorem set (h : Tracks sight t m) {x : String} (hb : sight.resolve x = some b)
    (ho : b.owned = true) {s : Status} (hs : (m.put b.place s).Sound) :
    Tracks sight { t with entries := t.entries.set x s } (m.put b.place s) := by
  have hget : ∀ y, ({ t with entries := t.entries.set x s } : Table).get? y =
      if y = x then some s else t.get? y := fun y => NameMap.get?_set t.entries x y s
  refine ⟨h.distinct, fun y c hc => ?_, fun y hy => ?_, fun c hc hco hhidden => ?_, hs⟩
  · rw [hget]
    by_cases hyx : y = x
    · subst hyx
      obtain rfl := Option.some.inj (hb.symm.trans hc)
      simp [ho]
    · have hne : sight.resolve x ≠ some c := fun hcx =>
        hyx ((Sight.name_of_resolve hc).symm.trans (Sight.name_of_resolve hcx))
      rw [if_neg hyx, h.seen y c hc,
        Ledger.put_of_ne m s (h.place_ne hb (Sight.mem_of_resolve hc) hne)]
  · have hyx : y ≠ x := by
      rintro rfl
      rw [hb] at hy
      cases hy
    rw [hget, if_neg hyx, h.unseen y hy]
  · rw [Ledger.put_of_ne m s (h.place_ne_of_hidden hb hc hhidden)]
    exact h.hidden c hc hco hhidden

/-- The state of a local that is no owned pointer does not matter to a table. -/
theorem put_of_not_owned (h : Tracks sight t m) (hb : b ∈ sight) (ho : b.owned = false) {s : Status}
    (hs : (m.put b.place s).Sound) : Tracks sight t (m.put b.place s) := by
  have hne : ∀ c ∈ sight, c.owned = true → c.place ≠ b.place := fun c hc hco heq => by
    obtain rfl := Sight.eq_of_place_eq h.distinct hc hb heq
    rw [ho] at hco
    cases hco
  refine ⟨h.distinct, fun y c hc => ?_, h.unseen, fun c hc hco hhidden => ?_, hs⟩
  · rw [h.seen y c hc]
    cases hco : c.owned with
    | false => rfl
    | true => rw [Ledger.put_of_ne m s (hne c (Sight.mem_of_resolve hc) hco)]
  · rw [Ledger.put_of_ne m s (hne c hc hco)]
    exact h.hidden c hc hco hhidden

/-- The local that a new one of its name hides is found aside, and so are those hidden before. -/
theorem find?_hide (h : Tracks sight t m) {x : String} {place : Span}
    (hfresh : place ∉ sight.places) (hb : b ∈ sight) (ho : b.owned = true)
    (hhidden : sight.resolve b.name.name = some b → b.name.name = x) :
    (t.hide (t.get? x) place).find? (fun s => s.declaredAt == b.place) = some (m b.place) := by
  -- The table puts aside what it has under the name; that is the local that the name stands for, if
  -- it is an owned pointer. All other hidden locals are where they were.
  cases hc : sight.resolve x with
  | none =>
    rw [h.unseen x hc]
    refine h.hidden b hb ho fun hseen => ?_
    rw [hhidden hseen, hc] at hseen
    cases hseen
  | some c =>
    have hcmem := Sight.mem_of_resolve hc
    have hcplace : c.place ≠ place := fun heq => hfresh (heq ▸ List.mem_map_of_mem hcmem)
    rw [h.seen x c hc]
    cases hco : c.owned with
    | false =>
      refine h.hidden b hb ho fun hseen => ?_
      rw [hhidden hseen, hc] at hseen
      obtain rfl := Option.some.inj hseen
      rw [ho] at hco
      cases hco
    | true =>
      simp only [if_true, Table.hide, h.sound.placed, if_neg hcplace]
      by_cases hcb : c.place = b.place
      · obtain rfl := Sight.eq_of_place_eq h.distinct hcmem hb hcb
        simp [h.sound.placed]
      · rw [List.find?_cons_of_neg (by simpa [h.sound.placed] using hcb)]
        refine h.hidden b hb ho fun hseen => hcb ?_
        rw [hhidden hseen, hc] at hseen
        rw [Option.some.inj hseen]

/-- A table in which a new local took its name, and which put the one hidden by it aside. -/
theorem declare (h : Tracks sight t m) {t' : Table} (hfresh : b.place ∉ sight.places) {s : Status}
    (hs : (m.put b.place s).Sound)
    (hget : ∀ x, t'.get? x =
      if x = b.name.name then (if b.owned then some s else none) else t.get? x)
    (hhide : t'.hidden = t.hide (t.get? b.name.name) b.place) :
    Tracks (b :: sight) t' (m.put b.place s) := by
  -- The new local has a place of its own, so the states of the others stay theirs.
  have hne : ∀ c ∈ sight, c.place ≠ b.place := fun c hc heq =>
    hfresh (heq ▸ List.mem_map_of_mem hc)
  refine ⟨List.nodup_cons.2 ⟨hfresh, h.distinct⟩, fun x c hc => ?_, fun x hx => ?_,
    fun c hc hco hhidden => ?_, hs⟩
  · rw [Sight.resolve_cons] at hc
    rw [hget]
    by_cases hx : b.name.name = x
    · rw [if_pos hx, Option.some.injEq] at hc
      subst hc
      rw [if_pos hx.symm, Ledger.put_self]
    · rw [if_neg hx] at hc
      rw [if_neg (Ne.symm hx), h.seen x c hc,
        Ledger.put_of_ne m s (hne c (Sight.mem_of_resolve hc))]
  · rw [Sight.resolve_cons] at hx
    split at hx
    · cases hx
    · next hbx => rw [hget, if_neg (Ne.symm hbx), h.unseen x hx]
  · rw [Sight.resolve_cons] at hhidden
    rcases List.mem_cons.1 hc with rfl | hc
    · simp at hhidden
    · rw [hhide, Ledger.put_of_ne m s (hne c hc)]
      refine h.find?_hide hfresh hc hco fun hseen => ?_
      by_contra hname
      rw [if_neg (Ne.symm hname)] at hhidden
      exact hhidden hseen

end Tracks

/-- The states of hidden locals are the same in two ledgers. -/
def Keeps (sight : Sight) (m m' : Ledger) : Prop :=
  ∀ b ∈ sight, sight.resolve b.name.name ≠ some b → m' b.place = m b.place

/-- A walk from `sight` to `after` keeps a table in step with a ledger that follows `f`, finds the
same misuses, and leaves hidden locals alone. -/
def Simulates (sight after : Sight) (w : Walk) (f : Flow) : Prop :=
  ∀ t m, Tracks sight t m →
    (w t).2 = (f.follow m).2 ∧ Tracks after (w t).1 (f.follow m).1 ∧
      Keeps sight m (f.follow m).1

namespace Simulates

variable {sight inner inner' after : Sight} {w w' : Walk} {f g head body again : Flow}

theorem skip (sight : Sight) : Simulates sight sight .skip .idle :=
  fun _ _ h => ⟨rfl, h, fun _ _ _ => rfl⟩

theorem andThen (hsuffix : sight <:+ inner) (hw : Simulates sight inner w f)
    (hw' : Simulates inner after w' g) : Simulates sight after (w.andThen w') (.seq f g) := by
  intro t m h
  obtain ⟨hfound, htracks, hkeeps⟩ := hw t m h
  obtain ⟨hfound', htracks', hkeeps'⟩ := hw' _ _ htracks
  refine ⟨?_, htracks', fun b hb hhidden => ?_⟩
  · show (w t).2 ++ (w' (w t).1).2 = (f.follow m).2 ++ (g.follow (f.follow m).1).2
    rw [hfound, hfound']
  -- What is hidden in front of the first walk is still hidden behind it.
  · have hstill := Sight.hidden_of_suffix hsuffix htracks.distinct hb hhidden
    exact (hkeeps' b (hsuffix.subset hb) hstill).trans (hkeeps b hb hhidden)

/-- The end of a block takes over what the block did to the locals around it. -/
theorem nested (hsuffix : sight <:+ inner) (hw : Simulates sight inner w f) :
    Simulates sight sight (.nested w) f := by
  intro t m h
  obtain ⟨hfound, htracks, hkeeps⟩ := hw t m h
  have hget : ∀ x, (t.mergeBlock (w t).1).get? x =
      (t.get? x).map fun s => ((w t).1.finalState x s).getD s := fun x =>
    NameMap.get?_mapEntries _ t.entries x
  refine ⟨hfound, ⟨h.distinct, fun x b hx => ?_, fun x hx => ?_, fun b hb ho hhidden => ?_,
    htracks.sound⟩, hkeeps⟩
  -- The block may have hidden the local. Then its last state stands aside in the inner table.
  · obtain rfl := Sight.name_of_resolve hx
    have hb := hsuffix.subset (Sight.mem_of_resolve hx)
    show (t.mergeBlock (w t).1).get? b.name.name = _
    rw [hget, h.seen _ b hx]
    cases ho : b.owned with
    | false => rfl
    | true => simp [htracks.finalState_eq hb ho (h.sound.placed b.place)]
  · show (t.mergeBlock (w t).1).get? x = none
    rw [hget, h.unseen x hx, Option.map_none]
  -- A local that is hidden in front of the block cannot be reached in it.
  · rw [hkeeps b hb hhidden]
    exact h.hidden b hb ho hhidden

/-- The end of two branches joins what they did to the locals around them. -/
theorem either (hsuffix : sight <:+ inner) (hsuffix' : sight <:+ inner')
    (hw : Simulates sight inner w f) (hw' : Simulates sight inner' w' g) :
    Simulates sight sight (w.either w') (.either f g) := by
  intro t m h
  obtain ⟨hfound, htracks, hkeeps⟩ := hw t m h
  obtain ⟨hfound', htracks', hkeeps'⟩ := hw' t m h
  -- Hidden locals cannot be reached in the branches, so joining leaves them as they are.
  have hjoin : Keeps sight m (m.join (f.follow m).1 (g.follow m).1) := fun b hb hhidden =>
    Ledger.join_eq_self h.sound (hkeeps b hb hhidden) (hkeeps' b hb hhidden)
  have hget : ∀ x, (t.mergeBranches (w t).1 (w' t).1).get? x = (t.get? x).map fun s =>
      Table.joinState s ((w t).1.finalState x s) ((w' t).1.finalState x s) := fun x =>
    NameMap.get?_mapEntries _ t.entries x
  refine ⟨?_, ⟨h.distinct, fun x b hx => ?_, fun x hx => ?_, fun b hb ho hhidden => ?_,
    h.sound.join⟩, hjoin⟩
  · show (w t).2 ++ (w' t).2 = (f.follow m).2 ++ (g.follow m).2
    rw [hfound, hfound']
  · obtain rfl := Sight.name_of_resolve hx
    have hb := Sight.mem_of_resolve hx
    show (t.mergeBranches (w t).1 (w' t).1).get? b.name.name = _
    rw [hget, h.seen _ b hx]
    cases ho : b.owned with
    | false => rfl
    | true =>
      have hplaced := h.sound.placed b.place
      simp [htracks.finalState_eq (hsuffix.subset hb) ho hplaced,
        htracks'.finalState_eq (hsuffix'.subset hb) ho hplaced, Flow.follow, Ledger.join]
  · show (t.mergeBranches (w t).1 (w' t).1).get? x = none
    rw [hget, h.unseen x hx, Option.map_none]
  · show t.hidden.find? _ = some (m.join (f.follow m).1 (g.follow m).1 b.place)
    rw [hjoin b hb hhidden]
    exact h.hidden b hb ho hhidden

/-- A loop is walked through and then forgotten. -/
theorem aside (hw : Simulates sight inner w (.seq head body)) :
    Simulates sight sight (.aside w) (.loop head body again) := by
  intro t m h
  exact ⟨(hw t m h).1, h, fun _ _ _ => rfl⟩

/-! ## Names -/

/-- A new state of a local that can be seen leaves hidden locals alone. -/
theorem keeps_put {t : Table} (h : Tracks sight t m) {x : String} {b : Binding}
    (hb : sight.resolve x = some b) (s : Status) : Keeps sight m (m.put b.place s) :=
  fun _ hc hhidden => Ledger.put_of_ne m s (h.place_ne_of_hidden hb hc hhidden)

theorem use (sight : Sight) (name : Ident) (consuming : Bool) :
    Simulates sight sight (.use name consuming) (flowUse sight name (mannerOf consuming)) := by
  intro t m h
  simp only [flowUse, Flow.follow]
  cases hx : sight.resolve name.name with
  | none =>
    have hnone := h.unseen _ hx
    cases consuming with
    | true =>
      simp only [Walk.use, Table.consume, hnone, if_true]
      exact ⟨rfl, h, fun _ _ _ => rfl⟩
    | false =>
      simp only [Walk.use, Table.moved?, hnone]
      exact ⟨rfl, h, fun _ _ _ => rfl⟩
  | some b =>
    have hsome := h.seen _ b hx
    have hb := Sight.mem_of_resolve hx
    cases ho : b.owned with
    -- The table does not know the local, but the ledger keeps a state of it.
    | false =>
      rw [ho, if_neg Bool.false_ne_true] at hsome
      have hwalk : Walk.use name consuming t = (t, []) := by
        cases consuming <;> simp [Walk.use, Table.consume, Table.moved?, hsome]
      rw [hwalk]
      simp only [Event.apply, ho]
      split
      · exact ⟨rfl, h, fun _ _ _ => rfl⟩
      · split
        · have hsound := h.sound.put (h.sound.placed b.place)
            (s := (m b.place).move (some name.span)) fun hs => by simp at hs
          exact ⟨rfl, h.put_of_not_owned hb ho hsound, keeps_put h hx _⟩
        · exact ⟨rfl, h, fun _ _ _ => rfl⟩
    | true =>
      rw [ho, if_pos rfl] at hsome
      simp only [Event.apply, ho, if_true]
      cases hm : (m b.place).isMoved with
      | true =>
        cases consuming with
        | true =>
          simp only [Walk.use, Table.consume, hsome, hm, if_true]
          exact ⟨rfl, h, fun _ _ _ => rfl⟩
        | false =>
          simp only [Walk.use, Table.moved?, hsome, Option.filter_some, hm, if_true]
          exact ⟨rfl, h, fun _ _ _ => rfl⟩
      | false =>
        cases consuming with
        | true =>
          have hsound := h.sound.put (h.sound.placed b.place)
            (s := (m b.place).move (some name.span)) fun hs => by simp at hs
          simp only [Walk.use, Table.consume, hsome, hm, mannerOf, if_true]
          exact ⟨rfl, h.set hx ho hsound, keeps_put h hx _⟩
        | false =>
          simp only [Walk.use, Table.moved?, hsome, Option.filter_some, hm]
          exact ⟨rfl, h, fun _ _ _ => rfl⟩

theorem reach (sight : Sight) (name member : Ident) :
    Simulates sight sight (.reach name member) (flowUse sight name (.reach member)) := by
  intro t m h
  simp only [flowUse, Flow.follow, Walk.reach, Table.moved?]
  cases hx : sight.resolve name.name with
  | none =>
    rw [h.unseen _ hx]
    exact ⟨rfl, h, fun _ _ _ => rfl⟩
  | some b =>
    rw [h.seen _ b hx]
    cases ho : b.owned <;> cases hm : (m b.place).isMoved <;>
      simp only [Event.apply, ho, hm, if_true, Option.filter_some] <;>
      exact ⟨rfl, h, fun _ _ _ => rfl⟩

/-- A declaration leaves the states of all locals in sight alone. -/
theorem keeps_put_of_fresh (hfresh : b.place ∉ sight.places) (m : Ledger)
    (s : Status) : Keeps sight m (m.put b.place s) :=
  fun _ hc _ => Ledger.put_of_ne m s fun heq => hfresh (heq ▸ List.mem_map_of_mem hc)

/-- A declaration gives its name to a new local. -/
theorem bind (sight : Sight) (b : Binding) (hfresh : b.place ∉ sight.places) :
    Simulates sight (b :: sight) (.bind b.name b.type) (.event (.declare b)) := by
  intro t m h
  have hsound : (m.put b.place (.fresh (b.type.getD .any) b.place)).Sound :=
    h.sound.put rfl fun _ => rfl
  refine ⟨rfl, h.declare hfresh hsound (fun x => ?_) ?_, keeps_put_of_fresh hfresh m _⟩
  · obtain ⟨name, type⟩ := b
    cases type with
    | none => exact NameMap.get?_erase t.entries name.name x
    | some type =>
      cases ho : type.isOwnedPointer with
      | true =>
        simp only [Walk.bind, Walk.change, Option.filter_some, ho, if_true, Binding.owned,
          Option.any_some, Option.getD_some]
        exact NameMap.get?_set t.entries name.name x _
      | false =>
        simp only [Walk.bind, Walk.change, Option.filter_some, ho, Binding.owned,
          Option.any_some]
        exact NameMap.get?_erase t.entries name.name x
  · simp only [Walk.bind, Walk.change]
    split <;> rfl

/-- A parameter gives its name to a new local; no local has that name yet. -/
theorem bindParam (sight : Sight) (name : Ident) (type : Ty) (hfresh : name.span ∉ sight.places)
    (hname : sight.resolve name.name = none) :
    Simulates sight (⟨name, some type⟩ :: sight) (.bindParam name type)
      (.event (.declare ⟨name, some type⟩)) := by
  intro t m h
  cases ho : type.isOwnedPointer with
  | true =>
    have hwalk : Walk.bindParam name type t = Walk.bind name (some type) t := by
      simp [Walk.bindParam, Walk.bind, Walk.change, ho, Option.filter_some]
    rw [hwalk]
    exact bind sight ⟨name, some type⟩ hfresh t m h
  -- Such a parameter leaves the table as it is. That is right, since nothing has its name yet.
  | false =>
    have hwalk : Walk.bindParam name type t = (t, []) := by
      simp [Walk.bindParam, Walk.change, ho]
    have hsound : (m.put name.span (.fresh type name.span)).Sound := h.sound.put rfl fun _ => rfl
    have hnone := h.unseen _ hname
    have htracks : Tracks (⟨name, some type⟩ :: sight) t
        (m.put name.span (.fresh type name.span)) := by
      refine Tracks.declare (b := ⟨name, some type⟩) h hfresh hsound (fun x => ?_) ?_
      · simp only [Binding.owned, Option.any_some, ho]
        split
        · next hx => rw [hx, hnone]; rfl
        · rfl
      · rw [hnone]
        rfl
    rw [hwalk]
    exact ⟨rfl, htracks, keeps_put_of_fresh (b := ⟨name, some type⟩) hfresh m _⟩

/-- An assignment gives the local that its target names a value again. -/
theorem reown (sight : Sight) (name : Ident) :
    Simulates sight sight (.change (·.reown name.name))
      (match sight.resolve name.name with
      | some b => .event (.assign b)
      | none => .idle) := by
  intro t m h
  simp only [Walk.change, Table.reown]
  cases hx : sight.resolve name.name with
  | none =>
    simp only [h.unseen _ hx]
    exact ⟨rfl, h, fun _ _ _ => rfl⟩
  | some b =>
    have hsome := h.seen _ b hx
    have hsound : (m.put b.place (m b.place).refill).Sound :=
      h.sound.put (h.sound.placed b.place) fun _ => rfl
    cases ho : b.owned with
    | false =>
      rw [ho, if_neg Bool.false_ne_true] at hsome
      simp only [hsome]
      exact ⟨rfl, h.put_of_not_owned (Sight.mem_of_resolve hx) ho hsound, keeps_put h hx _⟩
    | true =>
      rw [ho, if_pos rfl] at hsome
      simp only [hsome]
      exact ⟨rfl, h.set hx ho hsound, keeps_put h hx _⟩

end Simulates

/-! ## Expressions -/

mutual
theorem walkExpr_simulates (sight : Sight) (consuming : Bool) : ∀ e : Expr,
    Simulates sight sight (walkExpr consuming e) (flowExpr sight consuming e)
  | .ident _ name => .use sight name consuming
  | .binary _ op left right =>
    .andThen List.suffix_rfl (walkExpr_simulates sight (binaryConsumes op) left)
      (walkExpr_simulates sight (binaryConsumes op) right)
  | .unary _ op operand => walkExpr_simulates sight (unaryConsumes op) operand
  | .call _ callee _ args =>
    .andThen List.suffix_rfl (walkExpr_simulates sight false callee)
      (walkExprs_simulates sight args)
  | .get _ object member => by
    simp only [walkExpr, flowExpr]
    cases object.ident? with
    | some name => exact .reach sight name member
    | none => exact walkExpr_simulates sight false object
  | .new _ _ fields => walkFields_simulates sight fields
  | .group _ inner => walkExpr_simulates sight consuming inner
  | .staticArray _ _ elements => walkExprs_simulates sight elements
  | .subscript _ object index =>
    .andThen List.suffix_rfl (walkExpr_simulates sight false object)
      (walkExpr_simulates sight true index)
  | .range _ first last =>
    .andThen List.suffix_rfl (walkExpr_simulates sight true first)
      (walkExpr_simulates sight true last)
  | .number _ _ | .string _ _ | .bool _ _ | .null _ | .zero _ => .skip sight

theorem walkExprs_simulates (sight : Sight) : ∀ es : List Expr,
    Simulates sight sight (walkExprs es) (flowExprs sight es)
  | [] => .skip sight
  | e :: es =>
    .andThen List.suffix_rfl (walkExpr_simulates sight true e) (walkExprs_simulates sight es)

theorem walkFields_simulates (sight : Sight) : ∀ fields : List (Ident × Expr),
    Simulates sight sight (walkFields fields) (flowFields sight fields)
  | [] => .skip sight
  | (_, e) :: fields =>
    .andThen List.suffix_rfl (walkExpr_simulates sight true e) (walkFields_simulates sight fields)
end

theorem walkAssign_simulates (sight : Sight) (target value : Expr) :
    Simulates sight sight (walkAssign target value)
      (.seq (flowExpr sight true value) (flowTarget sight target)) := by
  refine .andThen List.suffix_rfl (walkExpr_simulates sight true value) ?_
  unfold flowTarget
  cases target.ident? with
  | some name => exact .reown sight name
  | none => exact walkExpr_simulates sight false target

/-! ## Statements -/

/-- The names of a part of a tree have places of their own, which are not in sight. -/
structure Fresh (names : List Ident) (sight : Sight) : Prop where
  nodup : (names.map Ident.span).Nodup
  disjoint : List.Disjoint (names.map Ident.span) sight.places

namespace Fresh

variable {names names' : List Ident} {sight : Sight}

theorem left (h : Fresh (names ++ names') sight) : Fresh names sight := by
  obtain ⟨hnodup, hdisjoint⟩ := h
  rw [List.map_append] at hnodup hdisjoint
  exact ⟨hnodup.of_append_left, (List.disjoint_append_left.1 hdisjoint).1⟩

theorem right (h : Fresh (names ++ names') sight) : Fresh names' sight := by
  obtain ⟨hnodup, hdisjoint⟩ := h
  rw [List.map_append] at hnodup hdisjoint
  exact ⟨hnodup.of_append_right, (List.disjoint_append_left.1 hdisjoint).2⟩

/-- Later names stay fresh when earlier ones come into sight. -/
theorem extend (h : Fresh (names ++ names') sight) (front : Sight)
    (hfront : ∀ b ∈ front, b.name ∈ names) : Fresh names' (front ++ sight) := by
  refine ⟨h.right.nodup, ?_⟩
  rw [Sight.places, List.map_append]
  refine List.disjoint_append_right.2 ⟨fun p hp hp' => ?_, h.right.disjoint⟩
  have hnodup := h.nodup
  rw [List.map_append] at hnodup
  obtain ⟨b, hb, rfl⟩ := List.mem_map.1 hp'
  exact List.disjoint_of_nodup_append hnodup (List.mem_map_of_mem (hfront b hb)) hp

theorem not_mem_places (h : Fresh names sight) {name : Ident} (hname : name ∈ names) :
    name.span ∉ sight.places :=
  fun hmem => h.disjoint (List.mem_map_of_mem hname) hmem

end Fresh

theorem name_mem_of_letBinding {s : Stmt}
    (h : b ∈ letBinding typeOf s) : b.name ∈ s.declared := by
  cases s with
  | letDecl mark name type init =>
    simp only [letBinding, List.mem_singleton] at h
    subst h
    exact List.mem_singleton.2 rfl
  | _ => cases h

theorem name_mem_of_letBindings {ss : List Stmt}
    (h : b ∈ letBindings typeOf ss) : b.name ∈ ss.flatMap Stmt.declared := by
  induction ss with
  | nil => cases h
  | cons s ss ih =>
    rw [letBindings, List.mem_append] at h
    rw [List.flatMap_cons, List.mem_append]
    rcases h with h | h
    · exact Or.inr (ih h)
    · exact Or.inl (name_mem_of_letBinding h)

theorem Simulates.seq_assoc {sight after : Sight} {w : Walk} {f g h : Flow}
    (hw : Simulates sight after w (.seq f (.seq g h))) :
    Simulates sight after w (.seq (.seq f g) h) := by
  intro t m htracks
  obtain ⟨hfound, hrest⟩ := hw t m htracks
  refine ⟨?_, hrest⟩
  simpa only [Flow.follow, List.append_assoc] using hfound

mutual
/-- The walk through a statement keeps in step with the statement's flow, in which names leak. -/
theorem walkStmt_simulates (typeOf : Nat → Option Ty) (sight : Sight) : ∀ s : Stmt,
    s.regular = true → Fresh s.names sight →
      Simulates sight (letBinding typeOf s ++ sight) (walkStmt typeOf s)
        (flowStmt typeOf true sight s)
  | .importDecl _ _, _, _ | .structDecl _ _, _, _ | .fnDecl _ _ _, _, _ | .breakStmt _, _, _
  | .continueStmt _, _, _ | .returnStmt _ none, _, _ => .skip sight
  | .letDecl mark name _ init, _, hfresh => by
    have hname : name.span ∉ sight.places := hfresh.not_mem_places (by simp [Stmt.names])
    exact .andThen List.suffix_rfl (walkExpr_simulates sight true init)
      (.bind sight ⟨name, typeOf mark.id⟩ hname)
  | .scope _ block, hregular, hfresh =>
    .nested (List.suffix_append _ _) (walkBlock_simulates typeOf sight block hregular hfresh)
  | .assign _ target value, _, _ => walkAssign_simulates sight target value
  | .returnStmt _ (some value), _, _ | .expr _ value, _, _ => walkExpr_simulates sight true value
  | .forEach _ name iterable block, hregular, hfresh => by
    have hname : name.span ∉ sight.places := hfresh.not_mem_places (by simp [Stmt.names])
    have hinner : Fresh ([name] ++ block.names) sight := hfresh.right
    have hblock : Fresh block.names (eachBinding typeOf name iterable :: sight) :=
      hinner.extend [eachBinding typeOf name iterable] (by simp [eachBinding])
    exact .aside (.andThen List.suffix_rfl (walkExpr_simulates sight true iterable)
      (.andThen (List.suffix_cons _ _) (.bind sight (eachBinding typeOf name iterable) hname)
        (walkBlock_simulates typeOf _ block hregular hblock)))
  | .forCounted _ init condition update block, hregular, hfresh => by
    simp only [Stmt.regular, Bool.and_eq_true] at hregular
    obtain ⟨⟨hlet, heffect⟩, hregular⟩ := hregular
    have hinit := walkStmt_simulates typeOf sight init (Stmt.regular_of_isLet hlet)
      hfresh.left.left.left
    -- The head of the loop declares for the condition, the body and the update.
    have hinner : ∀ b ∈ letBinding typeOf init, b.name ∈ init.names := fun b hb =>
      Stmt.declared_subset_names init (name_mem_of_letBinding hb)
    have hbody := walkBlock_simulates typeOf (letBinding typeOf init ++ sight) block hregular
      (hfresh.left.extend _ fun b hb => List.mem_append_left _ (hinner b hb))
    -- The walk goes through the update in sight of what the body declares.
    have hfreshUpdate : Fresh update.names
        (letBindings typeOf block.stmts ++ (letBinding typeOf init ++ sight)) := by
      rw [← List.append_assoc]
      refine hfresh.extend _ fun b hb => ?_
      rcases List.mem_append.1 hb with hb | hb
      · exact List.mem_append_right _ (block.declared_subset_names (name_mem_of_letBindings hb))
      · exact List.mem_append_left _ (List.mem_append_left _ (hinner b hb))
    have hlast := walkStmt_simulates typeOf _ update (Stmt.regular_of_isEffect heffect)
      hfreshUpdate
    exact .aside (.seq_assoc (.andThen (List.suffix_append _ _) hinit
      (.andThen List.suffix_rfl (walkExpr_simulates _ true condition)
        (.andThen (List.suffix_append _ _) hbody hlast))))
  | .ifElse _ condition thenBlock elseBranch, hregular, hfresh => by
    simp only [Stmt.regular, Bool.and_eq_true] at hregular
    exact .andThen List.suffix_rfl (walkExpr_simulates sight true condition)
      (.either (List.suffix_append _ _) List.suffix_rfl
        (walkBlock_simulates typeOf sight thenBlock hregular.1 hfresh.left.right)
        (walkElse_simulates typeOf sight elseBranch hregular.2 hfresh.right))

/-- The walk through an `else` keeps in step with its flow. -/
theorem walkElse_simulates (typeOf : Nat → Option Ty) (sight : Sight) : ∀ e : Option Stmt,
    elseRegular e = true → Fresh (elseNames e) sight →
      Simulates sight sight (walkElse typeOf e) (flowElse typeOf true sight e)
  | none, _, _ => .skip sight
  | some s, hregular, hfresh => by
    simp only [elseRegular, Bool.and_eq_true] at hregular
    -- What follows `else` is a block or an `if`, so it declares nothing for what is behind it.
    have hnone : letBinding typeOf s = [] := by
      cases s with
      | letDecl => cases hregular.1
      | _ => rfl
    have hs := walkStmt_simulates typeOf sight s hregular.2 hfresh
    rw [hnone, List.nil_append] at hs
    exact hs

/-- The walk through a block keeps in step with its flow. -/
theorem walkBlock_simulates (typeOf : Nat → Option Ty) (sight : Sight) : ∀ b : Block,
    b.regular = true → Fresh b.names sight →
      Simulates sight (letBindings typeOf b.stmts ++ sight) (walkBlock typeOf b)
        (flowBlock typeOf true sight b)
  | .mk _ stmts, hregular, hfresh => walkStmts_simulates typeOf sight stmts hregular hfresh

/-- The walk through statements keeps in step with their flow. -/
theorem walkStmts_simulates (typeOf : Nat → Option Ty) (sight : Sight) : ∀ ss : List Stmt,
    stmtsRegular ss = true → Fresh (stmtsNames ss) sight →
      Simulates sight (letBindings typeOf ss ++ sight) (walkStmts typeOf ss)
        (flowStmts typeOf true sight ss)
  | [], _, _ => .skip sight
  | s :: ss, hregular, hfresh => by
    simp only [stmtsRegular, Bool.and_eq_true] at hregular
    have hrest : Fresh (stmtsNames ss) (letBinding typeOf s ++ sight) :=
      hfresh.extend _ fun b hb => Stmt.declared_subset_names s (name_mem_of_letBinding hb)
    rw [letBindings, List.append_assoc]
    exact .andThen (List.suffix_append _ _)
      (walkStmt_simulates typeOf sight s hregular.1 hfresh.left)
      (walkStmts_simulates typeOf _ ss hregular.2 hrest)
end

/-! ## Functions -/

theorem name_mem_of_paramBindings {ps : List TypedName} {ts : List Ty}
    (h : b ∈ paramBindings ps ts) : b.name ∈ ps.map (·.name) := by
  induction ps generalizing ts with
  | nil => simp [paramBindings] at h
  | cons p ps ih =>
    cases ts with
    | nil => simp [paramBindings] at h
    | cons t ts =>
      rw [paramBindings, List.mem_cons] at h
      rcases h with rfl | h
      · exact List.mem_cons_self
      · exact List.mem_cons_of_mem _ (ih h)

theorem name_mem_of_fnParams {mark : Mark} {head : FnHead}
    (h : b ∈ fnParams typeOf mark head) : b.name ∈ head.params.map (·.name) := by
  unfold fnParams at h
  split at h
  · exact name_mem_of_paramBindings h
  · cases h

/-- Binding parameters with different names keeps in step with declaring them. -/
theorem bindParams_simulates : ∀ (ps : List TypedName) (ts : List Ty) (sight : Sight),
    Fresh (ps.map (·.name)) sight → ((paramBindings ps ts).map (·.name.name)).Nodup →
      (∀ b ∈ paramBindings ps ts, sight.resolve b.name.name = none) →
        Simulates sight ((paramBindings ps ts).reverse ++ sight) (bindParams ps ts)
          (.declares (paramBindings ps ts))
  | [], _, sight, _, _, _ => .skip sight
  | _ :: _, [], sight, _, _, _ => .skip sight
  | p :: ps, t :: ts, sight, hfresh, hnodup, hnone => by
    simp only [paramBindings, List.map_cons, List.nodup_cons, List.mem_map, not_exists,
      not_and] at hnodup
    simp only [paramBindings, List.mem_cons, forall_eq_or_imp] at hnone
    have hplace : p.name.span ∉ sight.places := hfresh.not_mem_places List.mem_cons_self
    have hfresh' : Fresh ([p.name] ++ ps.map (·.name)) sight := hfresh
    have hrest := bindParams_simulates ps ts (⟨p.name, some t⟩ :: sight)
      (hfresh'.extend [⟨p.name, some t⟩] (by simp)) hnodup.2 fun b hb => by
        rw [Sight.resolve_cons, if_neg fun heq => hnodup.1 b hb heq.symm]
        exact hnone.2 b hb
    have hfirst := Simulates.bindParam sight p.name t hplace hnone.1
    rw [paramBindings, List.reverse_cons, List.append_assoc]
    exact .andThen (List.suffix_cons _ _) hfirst hrest

theorem tracks_empty : Tracks [] .empty .start :=
  ⟨List.nodup_nil, fun _ _ h => by simp [Sight.resolve] at h, fun _ _ => rfl,
    fun _ h => by simp at h, Ledger.sound_start⟩

/-- The walk that binds the parameters of a function. -/
def walkParams (typeOf : Nat → Option Ty) (mark : Mark) (head : FnHead) : Walk :=
  match typeOf mark.id with
  | some (.fn _ types _) => bindParams head.params types
  | _ => .skip

theorem walkFn_eq_andThen (typeOf : Nat → Option Ty) (mark : Mark) (head : FnHead) (body : Block) :
    walkFn typeOf mark head body = (walkParams typeOf mark head).andThen (walkBlock typeOf body) :=
  rfl

theorem walkParams_simulates {mark : Mark} {head : FnHead}
    (hfresh : Fresh (head.params.map (·.name)) [])
    (hparams : ((fnParams typeOf mark head).map (·.name.name)).Nodup) :
    Simulates [] (fnParams typeOf mark head).reverse (walkParams typeOf mark head)
      (.declares (fnParams typeOf mark head)) := by
  cases htype : typeOf mark.id with
  | none =>
    simp only [walkParams, fnParams, htype]
    exact .skip []
  | some type =>
    cases type with
    | fn arity types result =>
      simp only [walkParams, fnParams, htype] at hparams ⊢
      have h := bindParams_simulates head.params types [] hfresh hparams fun _ _ => rfl
      rwa [List.append_nil] at h
    | _ =>
      simp only [walkParams, fnParams, htype]
      exact .skip []

/-- A walk through a function whose parameters have different names finds what following its flow
finds, if names leak in the flow. -/
theorem walkFn_eq_follow {mark : Mark} {head : FnHead} {body : Block}
    (hregular : body.regular = true) (hfresh : Fresh (head.params.map (·.name) ++ body.names) [])
    (hparams : ((fnParams typeOf mark head).map (·.name.name)).Nodup) :
    (walkFn typeOf mark head body .empty).2 =
      ((fnFlow typeOf true mark head body).follow .start).2 := by
  have hbind := walkParams_simulates hfresh.left hparams
  have hinner : Fresh body.names ((fnParams typeOf mark head).reverse ++ []) :=
    hfresh.extend _ fun b hb => name_mem_of_fnParams (List.mem_reverse.1 hb)
  rw [List.append_nil] at hinner
  have hbody := walkBlock_simulates typeOf _ body hregular hinner
  rw [walkFn_eq_andThen]
  exact ((hbind.andThen List.nil_suffix hbody) _ _ tracks_empty).1

end Custody.Ownership
