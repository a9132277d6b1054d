import Custody.Ownership.Check
import Custody.Proofs.MirroredPasses

/-!
# Moves side by side

Two walks through resembling trees, with the same types of nodes, meet the same bindings in the same
states, and find the same misuses in the same order (`walkStmt_mirrors`, `checkMoves_mirrors`). A
table tells bindings apart by where they were declared, so two places must be the same on one side
exactly if they are on the other (`Correspondence.OneToOne`).
-/

set_option autoImplicit false

namespace Custody

/-- Names at one place on one side are at one place on the other. -/
def Correspondence.OneToOne (ρ : Correspondence) : Prop :=
  ∀ {a a' b b' : Span}, ρ.name a a' → ρ.name b b' → (a = b ↔ a' = b')

/-! ## Name maps -/

namespace NameMap

variable {α β γ δ : Type} {R : α → β → Prop} {S : γ → δ → Prop}

/-- The same names, for things that are related. -/
def Rel (R : α → β → Prop) (m : NameMap α) (m' : NameMap β) : Prop :=
  List.Forall₂ (fun e e' => e'.1 = e.1 ∧ R e.2 e'.2) m.entries m'.entries

/-- Related maps have related values under each name. -/
theorem Rel.get? {m : NameMap α} {m' : NameMap β} (h : m.Rel R m') (name : String) :
    Option.Rel R (m.get? name) (m'.get? name) := by
  obtain ⟨entries⟩ := m
  obtain ⟨entries'⟩ := m'
  change List.Forall₂ _ entries entries' at h
  change Option.Rel R (entries.lookup name) (entries'.lookup name)
  induction h with
  | nil => exact .none
  | cons he _ ih =>
    rw [List.lookup_cons, List.lookup_cons, he.1]
    cases name == _ with
    | true => exact .some he.2
    | false => exact ih

theorem replaceFirst_rel (name : String) {a : α} {b : β} (hab : R a b) {entries : List (String × α)}
    {entries' : List (String × β)}
    (h : List.Forall₂ (fun e e' => e'.1 = e.1 ∧ R e.2 e'.2) entries entries') :
    List.Forall₂ (fun e e' => e'.1 = e.1 ∧ R e.2 e'.2) (replaceFirst name a entries)
      (replaceFirst name b entries') := by
  induction h with
  | nil => exact .nil
  | @cons e e' entries entries' he hrest ih =>
    obtain ⟨n, x⟩ := e
    obtain ⟨n', x'⟩ := e'
    obtain ⟨rfl, hx⟩ := he
    rw [replaceFirst, replaceFirst]
    split
    · exact .cons ⟨rfl, hab⟩ hrest
    · exact .cons ⟨rfl, hx⟩ ih

/-- Related maps stay so when related values are set. -/
theorem Rel.set {m : NameMap α} {m' : NameMap β} (h : m.Rel R m') (name : String) {a : α} {b : β}
    (hab : R a b) : (m.set name a).Rel R (m'.set name b) := by
  have hcontains : m'.contains name = m.contains name := by
    have hget := h.get? name
    rw [contains, contains]
    generalize m.get? name = found at hget
    generalize m'.get? name = found' at hget
    cases hget <;> rfl
  rw [NameMap.set, NameMap.set, hcontains]
  split
  · exact replaceFirst_rel name hab h
  · exact List.rel_append h (.cons ⟨rfl, hab⟩ .nil)

theorem Rel.erase {m : NameMap α} {m' : NameMap β} (h : m.Rel R m') (name : String) :
    (m.erase name).Rel R (m'.erase name) := by
  refine List.rel_filter ?_ h
  rintro ⟨n, x⟩ ⟨n', x'⟩ ⟨rfl, _⟩
  exact Iff.rfl

/-- Related maps stay so when all their values are changed alike. -/
theorem Rel.mapEntries {m : NameMap α} {m' : NameMap β} (h : m.Rel R m') {f : String → α → γ}
    {f' : String → β → δ} (hf : ∀ name a b, R a b → S (f name a) (f' name b)) :
    (m.mapEntries f).Rel S (m'.mapEntries f') := by
  refine List.forall₂_map_left_iff.2 (List.forall₂_map_right_iff.2 (List.Forall₂.imp ?_ h))
  rintro ⟨n, a⟩ ⟨n', b⟩ ⟨rfl, hab⟩
  exact ⟨rfl, hf _ a b hab⟩

end NameMap

namespace Ownership

variable {ρ : Correspondence}

/-! ## Tables -/

/-- The same state of a binding, declared and moved at places that answer to each other. -/
structure Status.Resembles (ρ : Correspondence) (s s' : Status) : Prop where
  owner : s'.owner = s.owner
  type : s'.type = s.type
  declaredAt : ρ.name s.declaredAt s'.declaredAt
  movedAt : Option.Rel ρ.name s.movedAt s'.movedAt

/-- The same bindings in the same states. -/
structure Table.Resembles (ρ : Correspondence) (t t' : Table) : Prop where
  entries : t.entries.Rel (Status.Resembles ρ) t'.entries
  hidden : List.Forall₂ (Status.Resembles ρ) t.hidden t'.hidden

section Status

variable {s s' p p' : Status}

/-- A value is gone on both sides or on neither. -/
theorem Status.Resembles.isMoved (h : s.Resembles ρ s') : s'.isMoved = s.isMoved := by
  rw [Status.isMoved, Status.isMoved, h.owner]

/-- If spans answer one to one, bindings are told apart alike. -/
theorem Status.Resembles.sameBinding (hρ : ρ.OneToOne) (h : s.Resembles ρ s')
    (hp : p.Resembles ρ p') : s'.sameBinding p' = s.sameBinding p := by
  rw [Status.sameBinding, Status.sameBinding, Bool.eq_iff_iff, beq_iff_eq, beq_iff_eq]
  exact (hρ h.declaredAt hp.declaredAt).symm

theorem Status.Resembles.move (h : s.Resembles ρ s') {span span' : Option Span}
    (hspan : Option.Rel ρ.name span span') : (s.move span).Resembles ρ (s'.move span') :=
  ⟨rfl, h.type, h.declaredAt, hspan⟩

theorem Status.Resembles.refill (h : s.Resembles ρ s') : s.refill.Resembles ρ s'.refill :=
  ⟨rfl, h.type, h.declaredAt, .none⟩

/-- What passes a test on one side passes it on the other. -/
theorem rel_filter {α β : Type} {R : α → β → Prop} {p : α → Bool} {q : β → Bool} {x : Option α}
    {y : Option β} (h : Option.Rel R x y) (hpq : ∀ a b, R a b → q b = p a) :
    Option.Rel R (x.filter p) (y.filter q) := by
  cases h with
  | none => exact .none
  | @some a b hab =>
    rw [Option.filter_some, Option.filter_some, hpq a b hab]
    split
    · exact .some hab
    · exact .none

/-- What passes a test first is found on both sides or on neither. -/
theorem rel_find? {α β : Type} {R : α → β → Prop} {p : α → Bool} {q : β → Bool} {xs : List α}
    {ys : List β} (h : List.Forall₂ R xs ys) (hpq : ∀ a b, R a b → q b = p a) :
    Option.Rel R (xs.find? p) (ys.find? q) := by
  induction h with
  | nil => exact .none
  | @cons a b xs ys hab _ ih =>
    rw [List.find?_cons, List.find?_cons, hpq a b hab]
    split
    · exact .some hab
    · exact ih

end Status

namespace Table

variable {t t' : Table}

theorem Resembles.get? (h : t.Resembles ρ t') (name : String) :
    Option.Rel (Status.Resembles ρ) (t.get? name) (t'.get? name) :=
  h.entries.get? name

/-- A name stands for a moved binding in both tables or in neither. -/
theorem Resembles.moved? (h : t.Resembles ρ t') (name : String) :
    Option.Rel (Status.Resembles ρ) (t.moved? name) (t'.moved? name) :=
  rel_filter (h.get? name) fun _ _ hs => hs.isMoved

/-- A new binding hides the same states in both tables. -/
theorem Resembles.hide (hρ : ρ.OneToOne) (h : t.Resembles ρ t') (name : String)
    {place place' : Span} (hplace : ρ.name place place') :
    List.Forall₂ (Status.Resembles ρ) (t.hide (t.get? name) place)
      (t'.hide (t'.get? name) place') := by
  have hget := h.get? name
  generalize t.get? name = found at hget
  generalize t'.get? name = found' at hget
  cases hget with
  | none => exact h.hidden
  | @some s s' hs =>
    have hsame : s'.declaredAt = place' ↔ s.declaredAt = place := (hρ hs.declaredAt hplace).symm
    rw [Table.hide, Table.hide, if_congr hsame rfl rfl]
    split
    · exact h.hidden
    · exact .cons hs h.hidden

/-- Tables stay alike when they take in an owned binding. -/
theorem Resembles.own (hρ : ρ.OneToOne) (h : t.Resembles ρ t') (name : String) (type : Ty)
    {place place' : Span} (hplace : ρ.name place place') :
    (t.own name type place).Resembles ρ (t'.own name type place') :=
  ⟨h.entries.set name ⟨rfl, rfl, hplace, .none⟩, h.hide hρ name hplace⟩

theorem Resembles.release (hρ : ρ.OneToOne) (h : t.Resembles ρ t') (name : String)
    {place place' : Span}
    (hplace : ρ.name place place') : (t.release name place).Resembles ρ (t'.release name place') :=
  ⟨h.entries.erase name, h.hide hρ name hplace⟩

/-- Both tables give the value away, or both say where it went before. -/
theorem Resembles.consume (h : t.Resembles ρ t') (name : String) {place place' : Span}
    (hplace : ρ.name place place') :
    ExceptRel (Status.Resembles ρ) (Table.Resembles ρ) (t.consume name place)
      (t'.consume name place') := by
  have hget := h.get? name
  rw [Table.consume, Table.consume]
  generalize t.get? name = found at hget
  generalize t'.get? name = found' at hget
  cases hget with
  | none => exact .ok h
  | @some s s' hs =>
    dsimp only
    rw [hs.isMoved]
    split
    · exact .error hs
    · exact .ok ⟨h.entries.set name (hs.move (.some hplace)), h.hidden⟩

theorem Resembles.reown (h : t.Resembles ρ t') (name : String) :
    (t.reown name).Resembles ρ (t'.reown name) := by
  have hget := h.get? name
  rw [Table.reown, Table.reown]
  generalize t.get? name = found at hget
  generalize t'.get? name = found' at hget
  cases hget with
  | none => exact h
  | some hs => exact ⟨h.entries.set name hs.refill, h.hidden⟩

/-- Resembling tables have the same last state of a binding. -/
theorem Resembles.finalState (hρ : ρ.OneToOne) (h : t.Resembles ρ t') (name : String)
    {s s' : Status} (hs : s.Resembles ρ s') :
    Option.Rel (Status.Resembles ρ) (t.finalState name s) (t'.finalState name s') := by
  have hsame : ∀ p p' : Status, p.Resembles ρ p' → p'.sameBinding s' = p.sameBinding s :=
    fun p p' hp => hp.sameBinding hρ hs
  have hget := rel_filter (h.get? name) hsame
  rw [Table.finalState, Table.finalState]
  generalize (t.get? name).filter (·.sameBinding s) = found at hget
  generalize (t'.get? name).filter (·.sameBinding s') = found' at hget
  cases hget with
  | none => exact rel_find? h.hidden hsame
  | some hafter => exact .some hafter

/-- Tables stay alike when they take over what a block did. -/
theorem Resembles.mergeBlock (hρ : ρ.OneToOne) (h : t.Resembles ρ t') {inner inner' : Table}
    (hinner : inner.Resembles ρ inner') :
    (t.mergeBlock inner).Resembles ρ (t'.mergeBlock inner') := by
  refine ⟨h.entries.mapEntries fun name s s' hs => ?_, h.hidden⟩
  have hfinal := hinner.finalState hρ name hs
  generalize inner.finalState name s = found at hfinal
  generalize inner'.finalState name s' = found' at hfinal
  cases hfinal with
  | none => exact hs
  | some hafter => exact hafter

theorem joinState_resembles {s s' : Status} (hs : s.Resembles ρ s') {x x' y y' : Option Status}
    (hx : Option.Rel (Status.Resembles ρ) x x') (hy : Option.Rel (Status.Resembles ρ) y y') :
    (joinState s x y).Resembles ρ (joinState s' x' y') := by
  have hmoved : ∀ {z z' : Option Status}, Option.Rel (Status.Resembles ρ) z z' →
      (z'.map Status.isMoved).getD s'.isMoved = (z.map Status.isMoved).getD s.isMoved := by
    intro z z' hz
    cases hz with
    | none => exact hs.isMoved
    | some hz => exact hz.isMoved
  have hplace : Option.Rel ρ.name ((x.bind Status.movedAt).or s.movedAt)
      ((x'.bind Status.movedAt).or s'.movedAt) := by
    cases hx with
    | none => exact hs.movedAt
    | @some p p' hp =>
      have hpmoved := hp.movedAt
      rw [Option.bind_some, Option.bind_some]
      generalize p.movedAt = place at hpmoved
      generalize p'.movedAt = place' at hpmoved
      cases hpmoved with
      | none => exact hs.movedAt
      | some hplace => exact .some hplace
  rw [joinState, joinState, hmoved hx, hmoved hy]
  split
  · exact hs.move hplace
  · exact hs.refill

/-- Tables stay alike when they join what two branches did. -/
theorem Resembles.mergeBranches (hρ : ρ.OneToOne) (h : t.Resembles ρ t') {x x' y y' : Table}
    (hx : x.Resembles ρ x') (hy : y.Resembles ρ y') :
    (t.mergeBranches x y).Resembles ρ (t'.mergeBranches x' y') :=
  ⟨h.entries.mapEntries fun name _ _ hs =>
    joinState_resembles hs (hx.finalState hρ name hs) (hy.finalState hρ name hs), h.hidden⟩

end Table

/-! ## Walks -/

/-- The same misuse of the same binding, at places that answer to each other. -/
structure Misuse.Resembles (ρ : Correspondence) (m m' : Misuse) : Prop where
  span : ρ.name m.span m'.span
  fault : m'.fault = m.fault
  previous : m.previous.Resembles ρ m'.previous

theorem Misuse.Resembles.notes {m m' : Misuse} (h : m.Resembles ρ m') :
    List.Forall₂ (Note.Resembles ρ) m.notes m'.notes := by
  have hmoved := h.previous.movedAt
  refine .cons ⟨rfl, ρ.node_of_name h.previous.declaredAt⟩ ?_
  generalize m.previous.movedAt = place at hmoved
  generalize m'.previous.movedAt = place' at hmoved
  cases hmoved with
  | none => exact .nil
  | some hplace => exact .cons ⟨rfl, ρ.node_of_name hplace⟩ .nil

/-- Resembling misuses are reported alike. -/
theorem Misuse.Resembles.report {m m' : Misuse} (h : m.Resembles ρ m') (path : Path) :
    (m.report path).Resembles ρ (m'.report path) :=
  ⟨rfl, rfl, h.fault, ρ.node_of_name h.span, h.notes⟩

namespace Walk

/-- From resembling tables, the second walk does what the first one does. -/
def Mirrors (ρ : Correspondence) (w w' : Walk) : Prop :=
  ∀ t t', t.Resembles ρ t' →
    (w t).1.Resembles ρ (w' t').1 ∧ List.Forall₂ (Misuse.Resembles ρ) (w t).2 (w' t').2

variable {w w' v v' : Walk}

theorem skip_mirrors : Mirrors ρ skip skip := fun _ _ h => ⟨h, .nil⟩

theorem Mirrors.change {f f' : Table → Table}
    (hf : ∀ t t', t.Resembles ρ t' → (f t).Resembles ρ (f' t')) :
    Mirrors ρ (change f) (change f') :=
  fun t t' h => ⟨hf t t' h, .nil⟩

/-- Walks that follow each other are mirrored one by one. -/
theorem Mirrors.andThen (hw : Mirrors ρ w w') (hv : Mirrors ρ v v') :
    Mirrors ρ (w.andThen v) (w'.andThen v') := by
  intro t t' h
  obtain ⟨hfirst, hfound⟩ := hw t t' h
  obtain ⟨hsecond, hmore⟩ := hv _ _ hfirst
  exact ⟨hsecond, List.rel_append hfound hmore⟩

/-- A block is mirrored if the walk through it is. -/
theorem Mirrors.nested (hρ : ρ.OneToOne) (hw : Mirrors ρ w w') : Mirrors ρ w.nested w'.nested := by
  intro t t' h
  obtain ⟨hinner, hfound⟩ := hw t t' h
  exact ⟨h.mergeBlock hρ hinner, hfound⟩

theorem Mirrors.aside (hw : Mirrors ρ w w') : Mirrors ρ w.aside w'.aside :=
  fun t t' h => ⟨h, (hw t t' h).2⟩

/-- Branches are mirrored if the walks through them are. -/
theorem Mirrors.either (hρ : ρ.OneToOne) (hw : Mirrors ρ w w') (hv : Mirrors ρ v v') :
    Mirrors ρ (w.either v) (w'.either v') := by
  intro t t' h
  obtain ⟨hthen, hfound⟩ := hw t t' h
  obtain ⟨helse, hmore⟩ := hv t t' h
  exact ⟨h.mergeBranches hρ hthen helse, List.rel_append hfound hmore⟩

variable {name name' member member' : Ident}

theorem misuses_of_moved {t t' : Table} (h : t.Resembles ρ t') (hname : name.Resembles ρ name')
    (fault : Fault) :
    List.Forall₂ (Misuse.Resembles ρ)
      ((t.moved? name.name).toList.map fun previous => ⟨name.span, fault, previous⟩)
      ((t'.moved? name.name).toList.map fun previous => ⟨name'.span, fault, previous⟩) := by
  have hmoved := h.moved? name.name
  generalize t.moved? name.name = found at hmoved
  generalize t'.moved? name.name = found' at hmoved
  cases hmoved with
  | none => exact .nil
  | some hs => exact .cons ⟨hname.span, rfl, hs⟩ .nil

/-- A use of a name does the same to both tables. -/
theorem use_mirrors (hname : name.Resembles ρ name') (consuming : Bool) :
    Mirrors ρ (use name consuming) (use name' consuming) := by
  intro t t' h
  rw [use, use, hname.name]
  split
  · have hconsume := h.consume name.name hname.span
    generalize t.consume name.name name.span = after at hconsume
    generalize t'.consume name.name name'.span = after' at hconsume
    cases hconsume with
    | ok hafter => exact ⟨hafter, .nil⟩
    | error hs => exact ⟨h, .cons ⟨hname.span, rfl, hs⟩ .nil⟩
  · exact ⟨h, misuses_of_moved h hname (.useAfterMove name.name)⟩

theorem reach_mirrors (hname : name.Resembles ρ name') (hmember : member.Resembles ρ member') :
    Mirrors ρ (reach name member) (reach name' member') := by
  intro t t' h
  rw [reach, reach, hname.name, hmember.name]
  exact ⟨h, misuses_of_moved h hname (.movedMemberAccess name.name member.name)⟩

/-- A new local does the same to both tables. -/
theorem bind_mirrors (hρ : ρ.OneToOne) (hname : name.Resembles ρ name') (type : Option Ty) :
    Mirrors ρ (bind name type) (bind name' type) := by
  refine .change fun t t' h => ?_
  rw [hname.name]
  cases type.filter Ty.isOwnedPointer with
  | none => exact h.release hρ name.name hname.span
  | some type => exact h.own hρ name.name type hname.span

theorem bindParam_mirrors (hρ : ρ.OneToOne) (hname : name.Resembles ρ name') (type : Ty) :
    Mirrors ρ (bindParam name type) (bindParam name' type) := by
  refine .change fun t t' h => ?_
  rw [hname.name]
  split
  · exact h.own hρ name.name type hname.span
  · exact h

end Walk

/-! ## Trees -/

theorem ident?_of_resembles {e e' : Expr} (h : e.Resembles ρ e') :
    Option.Rel (Ident.Resembles ρ) e.ident? e'.ident? := by
  cases h with
  | ident _ hname => exact .some hname
  | _ => exact .none

mutual
/-- Walks through resembling expressions mirror each other. -/
theorem walkExpr_mirrors (consuming : Bool) : ∀ {e e' : Expr}, e.Resembles ρ e' →
    Walk.Mirrors ρ (walkExpr consuming e) (walkExpr consuming e')
  | .ident _ _, _, h => by
    cases h with
    | ident _ hname => exact Walk.use_mirrors hname consuming
  | .binary _ op _ _, _, h => by
    cases h with
    | binary _ _ hleft hright =>
      exact (walkExpr_mirrors (binaryConsumes op) hleft).andThen
        (walkExpr_mirrors (binaryConsumes op) hright)
  | .unary _ op _, _, h => by
    cases h with
    | unary _ _ hoperand => exact walkExpr_mirrors (unaryConsumes op) hoperand
  | .call _ _ _ _, _, h => by
    cases h with
    | call _ hcallee _ hargs =>
      exact (walkExpr_mirrors false hcallee).andThen (walkExprs_mirrors hargs)
  | .get _ object _, _, h => by
    cases h with
    | @get _ _ _ object' _ _ _ hobject hmember =>
      have hname := ident?_of_resembles hobject
      have hwalk := walkExpr_mirrors false hobject
      rw [walkExpr, walkExpr]
      generalize object.ident? = name at hname
      generalize object'.ident? = name' at hname
      cases hname with
      | none => exact hwalk
      | some hname => exact Walk.reach_mirrors hname hmember
  | .new _ _ _, _, h => by
    cases h with
    | new _ _ hfields => exact walkFields_mirrors hfields
  | .group _ _, _, h => by
    cases h with
    | group _ hinner =>
      rw [walkExpr, walkExpr]
      exact walkExpr_mirrors consuming hinner
  | .staticArray _ _ _, _, h => by
    cases h with
    | staticArray _ _ helements => exact walkExprs_mirrors helements
  | .subscript _ _ _, _, h => by
    cases h with
    | subscript _ hobject hindex =>
      exact (walkExpr_mirrors false hobject).andThen (walkExpr_mirrors true hindex)
  | .range _ _ _, _, h => by
    cases h with
    | range _ hfirst hlast =>
      exact (walkExpr_mirrors true hfirst).andThen (walkExpr_mirrors true hlast)
  | .number _ _, _, h | .string _ _, _, h | .bool _ _, _, h | .null _, _, h | .zero _, _, h => by
    cases h
    exact Walk.skip_mirrors

theorem walkExprs_mirrors : ∀ {es es' : List Expr}, List.Forall₂ (Expr.Resembles ρ) es es' →
    Walk.Mirrors ρ (walkExprs es) (walkExprs es')
  | [], _, h => by
    cases h
    exact Walk.skip_mirrors
  | _ :: _, _, h => by
    cases h with
    | cons he hes => exact (walkExpr_mirrors true he).andThen (walkExprs_mirrors hes)

theorem walkFields_mirrors : ∀ {fields fields' : List (Ident × Expr)},
    Expr.ResembleFields ρ fields fields' → Walk.Mirrors ρ (walkFields fields) (walkFields fields')
  | [], _, h => by
    cases h
    exact Walk.skip_mirrors
  | (_, _) :: _, _, h => by
    cases h with
    | cons _ he hfields => exact (walkExpr_mirrors true he).andThen (walkFields_mirrors hfields)
end

theorem walkAssign_mirrors {target target' value value' : Expr}
    (htarget : target.Resembles ρ target') (hvalue : value.Resembles ρ value') :
    Walk.Mirrors ρ (walkAssign target value) (walkAssign target' value') := by
  have hname := ident?_of_resembles htarget
  refine (walkExpr_mirrors true hvalue).andThen ?_
  generalize target.ident? = name at hname
  generalize target'.ident? = name' at hname
  cases hname with
  | none => exact walkExpr_mirrors false htarget
  | @some name name' hname =>
    dsimp only
    rw [hname.name]
    exact .change fun _ _ h => h.reown name.name

mutual
/-- Walks through resembling statements mirror each other. -/
theorem walkStmt_mirrors (hρ : ρ.OneToOne) (typeOf : Nat → Option Ty) :
    ∀ {s s' : Stmt}, s.Resembles ρ s' → Walk.Mirrors ρ (walkStmt typeOf s) (walkStmt typeOf s')
  | .importDecl _ _, _, h => by
    cases h
    exact Walk.skip_mirrors
  | .structDecl _ _, _, h => by
    cases h
    exact Walk.skip_mirrors
  | .fnDecl _ _ _, _, h => by
    cases h
    exact Walk.skip_mirrors
  | .breakStmt _, _, h => by
    cases h
    exact Walk.skip_mirrors
  | .continueStmt _, _, h => by
    cases h
    exact Walk.skip_mirrors
  | .letDecl _ _ _ _, _, h => by
    cases h with
    | letDecl hmark hname _ hinit =>
      -- Types are looked up by the numbers of nodes, which are the same in both trees.
      rw [walkStmt, walkStmt, hmark.id]
      exact (walkExpr_mirrors true hinit).andThen (Walk.bind_mirrors hρ hname _)
  | .scope _ _, _, h => by
    cases h with
    | scope _ hbody => exact (walkBlock_mirrors hρ typeOf hbody).nested hρ
  | .assign _ _ _, _, h => by
    cases h with
    | assign _ htarget hvalue => exact walkAssign_mirrors htarget hvalue
  | .returnStmt _ none, _, h => by
    cases h with
    | returnStmt _ hvalue =>
      cases hvalue
      exact Walk.skip_mirrors
  | .returnStmt _ (some _), _, h => by
    cases h with
    | returnStmt _ hvalue =>
      cases hvalue with
      | some hvalue => exact walkExpr_mirrors true hvalue
  | .forEach _ _ iterable _, _, h => by
    cases h with
    | @forEach _ _ _ _ _ iterable' _ _ _ hname hiterable hbody =>
      have hid : iterable'.id = iterable.id := hiterable.mark.id
      rw [walkStmt, walkStmt, hid]
      exact ((walkExpr_mirrors true hiterable).andThen
        ((Walk.bind_mirrors hρ hname _).andThen (walkBlock_mirrors hρ typeOf hbody))).aside
  | .forCounted _ _ _ _ _, _, h => by
    cases h with
    | forCounted _ hinit hcondition hupdate hbody =>
      rw [walkStmt, walkStmt]
      exact ((walkStmt_mirrors hρ typeOf hinit).andThen ((walkExpr_mirrors true hcondition).andThen
        ((walkBlock_mirrors hρ typeOf hbody).andThen (walkStmt_mirrors hρ typeOf hupdate)))).aside
  | .ifElse _ _ _ _, _, h => by
    cases h with
    | ifElse _ hcondition hthen helse =>
      rw [walkStmt, walkStmt]
      exact (walkExpr_mirrors true hcondition).andThen
        (.either hρ (walkBlock_mirrors hρ typeOf hthen) (walkElse_mirrors hρ typeOf helse))
  | .expr _ _, _, h => by
    cases h with
    | expr _ hvalue => exact walkExpr_mirrors true hvalue

theorem walkElse_mirrors (hρ : ρ.OneToOne) (typeOf : Nat → Option Ty) :
    ∀ {s s' : Option Stmt}, Option.Rel (Stmt.Resembles ρ) s s' →
      Walk.Mirrors ρ (walkElse typeOf s) (walkElse typeOf s')
  | none, _, h => by
    cases h
    exact Walk.skip_mirrors
  | some _, _, h => by
    cases h with
    | some hs => exact walkStmt_mirrors hρ typeOf hs

theorem walkBlock_mirrors (hρ : ρ.OneToOne) (typeOf : Nat → Option Ty) :
    ∀ {b b' : Block}, b.Resembles ρ b' → Walk.Mirrors ρ (walkBlock typeOf b) (walkBlock typeOf b')
  | .mk _ _, _, h => by
    cases h with
    | mk _ hstmts => exact walkStmts_mirrors hρ typeOf hstmts

theorem walkStmts_mirrors (hρ : ρ.OneToOne) (typeOf : Nat → Option Ty) :
    ∀ {ss ss' : List Stmt}, List.Forall₂ (Stmt.Resembles ρ) ss ss' →
      Walk.Mirrors ρ (walkStmts typeOf ss) (walkStmts typeOf ss')
  | [], _, h => by
    cases h
    exact Walk.skip_mirrors
  | _ :: _, _, h => by
    cases h with
    | cons hs hss => exact (walkStmt_mirrors hρ typeOf hs).andThen (walkStmts_mirrors hρ typeOf hss)
end

/-! ## Functions and units -/

theorem bindParams_mirrors (hρ : ρ.OneToOne) {ps ps' : List TypedName}
    (hps : List.Forall₂ (TypedName.Resembles ρ) ps ps') (ts : List Ty) :
    Walk.Mirrors ρ (bindParams ps ts) (bindParams ps' ts) := by
  induction hps generalizing ts with
  | nil => exact Walk.skip_mirrors
  | cons hp _ ih =>
    cases ts with
    | nil => exact Walk.skip_mirrors
    | cons t ts => exact (Walk.bindParam_mirrors hρ hp.name t).andThen (ih ts)

/-- Walks through resembling functions mirror each other. -/
theorem walkFn_mirrors (hρ : ρ.OneToOne) (typeOf : Nat → Option Ty) {mark mark' : Mark}
    (hmark : mark.Resembles ρ mark') {head head' : FnHead} (hhead : head.Resembles ρ head')
    {body body' : Block} (hbody : body.Resembles ρ body') :
    Walk.Mirrors ρ (walkFn typeOf mark head body) (walkFn typeOf mark' head' body') := by
  rw [walkFn, walkFn, hmark.id]
  refine Walk.Mirrors.andThen ?_ (walkBlock_mirrors hρ typeOf hbody)
  cases typeOf mark.id with
  | none => exact Walk.skip_mirrors
  | some type =>
    cases type with
    | fn _ types _ => exact bindParams_mirrors hρ hhead.params types
    | _ => exact Walk.skip_mirrors

/-- Resembling declarations have the same misuses. -/
theorem checkItem_mirrors (hρ : ρ.OneToOne) (typeOf : Nat → Option Ty) {s s' : Stmt}
    (hs : s.Resembles ρ s') :
    List.Forall₂ (Misuse.Resembles ρ) (checkItem typeOf s) (checkItem typeOf s') := by
  cases hs with
  | fnDecl hmark hhead hbody =>
    exact (walkFn_mirrors hρ typeOf hmark hhead hbody .empty .empty ⟨.nil, .nil⟩).2
  | _ => exact .nil

end Ownership

open Ownership

/-- Two lists made of pieces that are related piece by piece. -/
theorem forall₂_flatMap {α β γ δ : Type} {R : α → β → Prop} {S : γ → δ → Prop} {f : α → List γ}
    {f' : β → List δ} {xs : List α} {ys : List β} (h : List.Forall₂ R xs ys)
    (hf : ∀ a ∈ xs, ∀ b, R a b → List.Forall₂ S (f a) (f' b)) :
    List.Forall₂ S (xs.flatMap f) (ys.flatMap f') := by
  induction h with
  | nil => exact .nil
  | @cons a b xs ys hab _ ih =>
    rw [List.flatMap_cons, List.flatMap_cons]
    exact List.rel_append (hf a List.mem_cons_self b hab)
      (ih fun x hx => hf x (List.mem_cons_of_mem _ hx))

/-- Resembling units have the same misuses. -/
theorem SourceUnit.misuses_mirrors {ρ : Correspondence} (hρ : ρ.OneToOne) {u u' : SourceUnit}
    (h : u.Resembles ρ u') : List.Forall₂ (Misuse.Resembles ρ) u.misuses u'.misuses := by
  rw [misuses, misuses, h.table]
  exact forall₂_flatMap h.file.items fun s _ s' hs => checkItem_mirrors hρ u.table.get? hs

/-- The move check finds the same in resembling bundles. -/
theorem Bundle.checkMoves_mirrors {ρ : Nat → Correspondence} (hρ : ∀ i, (ρ i).OneToOne)
    {b b' : Bundle} (h : b.Resembles ρ b') :
    List.Forall₂ (Report.Answers ρ b.owners) b.checkMoves b'.checkMoves := by
  refine forall₂_flatMap h fun u hu u' huu' => ?_
  rw [huu'.path]
  refine List.forall₂_map_left_iff.2 (List.forall₂_map_right_iff.2 ?_)
  exact (SourceUnit.misuses_mirrors (hρ u.id) huu').imp fun m m' hm =>
    ⟨u.id, b.owner_mem u hu, hm.report u.path⟩

end Custody
