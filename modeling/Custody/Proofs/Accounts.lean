import Custody.Proofs.Sites
import Custody.Proofs.TableRuns

/-!
# Moves on account

A state of a binding says whether its value is gone and where it went, and states are copied,
hidden, refilled and joined on the way of a walk. `Table.Accounted` is the invariant that carries it
through: every state in a table is that of a declared local, and a moved one was moved at a place
that the walk has passed.

A walk passes the places of its function in the order of the flow (`visits`) and reports each at
most once (`found_checkItem`). So every misuse in an item stands at one of the names of the item
(`checkItem_span`), and different items of a file do not report the same place
(`mem_flatMap_checkItem_iff`).
-/

set_option autoImplicit false

namespace Custody

/-! ## Declarations of locals -/

mutual
/-- The locals that a statement declares, at any depth: names of `let` and variables of loops. -/
def Stmt.locals : Stmt → List Ident
  | .importDecl _ _ => []
  | .structDecl _ _ => []
  | .fnDecl _ _ _ => []
  | .letDecl _ name _ _ => [name]
  | .scope _ body => body.locals
  | .assign _ _ _ => []
  | .returnStmt _ _ => []
  | .breakStmt _ => []
  | .continueStmt _ => []
  | .forEach _ binding _ body => binding :: body.locals
  | .forCounted _ init _ update body => init.locals ++ body.locals ++ update.locals
  | .ifElse _ _ thenBlock elseBranch => thenBlock.locals ++ elseLocals elseBranch
  | .expr _ _ => []

/-- The locals that are declared behind an `else`, if there is one. -/
def elseLocals : Option Stmt → List Ident
  | none => []
  | some s => s.locals

/-- The locals that are declared in a block. -/
def Block.locals : Block → List Ident
  | .mk _ stmts => stmtsLocals stmts

/-- The locals that statements declare. -/
def stmtsLocals : List Stmt → List Ident
  | [] => []
  | s :: ss => s.locals ++ stmtsLocals ss
end

/-- The locals of a function: its parameters and those of its body. -/
def fnLocals (head : FnHead) (body : Block) : List Ident := head.params.map (·.name) ++ body.locals

mutual
theorem Stmt.locals_sublist : ∀ s : Stmt, s.locals.Sublist s.names
  | .importDecl _ _ | .structDecl _ _ | .returnStmt _ none | .breakStmt _ | .continueStmt _ =>
    .slnil
  | .fnDecl _ _ _ | .assign _ _ _ | .returnStmt _ (some _) | .expr _ _ => List.nil_sublist _
  | .letDecl _ _ _ _ => List.sublist_append_right _ _
  | .scope _ body => body.locals_sublist
  | .forEach _ binding _ body =>
    (body.locals_sublist.cons_cons binding).trans (List.sublist_append_right _ _)
  | .forCounted _ init _ update body =>
    ((init.locals_sublist.trans (List.sublist_append_left _ _)).append body.locals_sublist).append
      update.locals_sublist
  | .ifElse _ _ thenBlock elseBranch =>
    (thenBlock.locals_sublist.trans (List.sublist_append_right _ _)).append
      (elseLocals_sublist elseBranch)

theorem elseLocals_sublist : ∀ s : Option Stmt, (elseLocals s).Sublist (elseNames s)
  | none => .slnil
  | some s => s.locals_sublist

theorem Block.locals_sublist : ∀ b : Block, b.locals.Sublist b.names
  | .mk _ stmts => stmtsLocals_sublist stmts

theorem stmtsLocals_sublist : ∀ ss : List Stmt, (stmtsLocals ss).Sublist (stmtsNames ss)
  | [] => .slnil
  | s :: ss => s.locals_sublist.append (stmtsLocals_sublist ss)
end

theorem fnLocals_sublist (mark : Mark) (head : FnHead) (body : Block) :
    (fnLocals head body).Sublist (Stmt.fnDecl mark head body).names :=
  body.locals_sublist.append_left _

namespace Ownership

/-! ## States that are accounted for -/

/-- A state that belongs to the local `name`: it says where a local of that name is declared and, if
the value is gone, at which of the places `seen` so far the local was moved. -/
structure Status.Accounted (locals : List Ident) (seen : List Occurrence) (name : String)
    (s : Status) : Prop where
  declared : ⟨name, s.declaredAt⟩ ∈ locals
  moved : s.isMoved = true →
    ∃ m ∈ seen, m.manner = .move ∧ m.name.name = name ∧ s.movedAt = some m.place

/-- A table in which all states are accounted for, those in sight under their own names. -/
abbrev Table.Accounted (locals : List Ident) (seen : List Occurrence) (t : Table) : Prop :=
  t.Every fun name s => s.Accounted locals seen name

variable {locals : List Ident} {seen seen' : List Occurrence}

namespace Status.Accounted

variable {name : String} {s : Status}

theorem mono (h : s.Accounted locals seen name) (hseen : seen ⊆ seen') :
    s.Accounted locals seen' name := by
  refine ⟨h.declared, ?_⟩
  intro hmoved
  obtain ⟨m, hm, hrest⟩ := h.moved hmoved
  exact ⟨m, hseen hm, hrest⟩

theorem fresh {type : Ty} {declaredAt : Span} (h : ⟨name, declaredAt⟩ ∈ locals) :
    (Status.fresh type declaredAt).Accounted locals seen name :=
  ⟨h, nofun⟩

theorem refill (h : s.Accounted locals seen name) : s.refill.Accounted locals seen name :=
  ⟨h.declared, nofun⟩

theorem move (h : s.Accounted locals seen name) {m : Occurrence} (hm : m ∈ seen)
    (hmanner : m.manner = .move) (hname : m.name.name = name) :
    (s.move (some m.place)).Accounted locals seen name :=
  ⟨h.declared, fun _ => ⟨m, hm, hmanner, hname, rfl⟩⟩

/-- Where both branches moved a local, the place is that of the first branch. -/
theorem joinState (h : s.Accounted locals seen name) {thenState elseState : Option Status}
    (hthen : ∀ s' ∈ thenState, s'.Accounted locals seen name) :
    (Table.joinState s thenState elseState).Accounted locals seen name := by
  unfold Table.joinState
  dsimp only
  split
  · next hmoved =>
      obtain ⟨hmoved, -⟩ := Bool.and_eq_true_iff.1 hmoved
      refine ⟨h.declared, ?_⟩
      intro _
      cases thenState with
      | none =>
        obtain ⟨m, hm, hmanner, hname, hplace⟩ := h.moved hmoved
        exact ⟨m, hm, hmanner, hname, hplace⟩
      | some s' =>
        obtain ⟨m, hm, hmanner, hname, hplace⟩ := (hthen s' rfl).moved hmoved
        refine ⟨m, hm, hmanner, hname, ?_⟩
        simp only [Status.move, Option.bind_some, hplace, Option.some_or]
  · exact h.refill

/-- States are told apart from those of other names by the places of their declarations. -/
theorem of_place (hplaces : (locals.map Ident.span).Nodup) (name name' : String) (s s' : Status)
    (h : s.Accounted locals seen name) (h' : s'.Accounted locals seen name')
    (hsame : s'.declaredAt = s.declaredAt) : s'.Accounted locals seen name := by
  have heq := List.inj_on_of_nodup_map hplaces h'.declared h.declared hsame
  rw [← (Ident.mk.inj heq).1]
  exact h'

end Status.Accounted

theorem Table.Accounted.mono {t : Table} (h : t.Accounted locals seen) (hseen : seen ⊆ seen') :
    t.Accounted locals seen' :=
  Table.Every.mono h fun _ _ hs => hs.mono hseen

/-! ## Misuses that are told -/

/-- A misuse at a place: the place says what is wrong, and the local that it names was moved at one
of the places seen before. -/
structure Misuse.Told (locals : List Ident) (seen : List Occurrence) (o : Occurrence) (x : Misuse) :
    Prop where
  span : x.span = o.place
  fault : x.fault = o.fault
  previous : x.previous.Accounted locals seen o.name.name
  moved : x.previous.isMoved = true

theorem Misuse.Told.notes {o : Occurrence} {x : Misuse} (h : x.Told locals seen o) :
    ∃ d ∈ locals, d.name = o.name.name ∧
      ∃ m ∈ seen, m.manner = .move ∧ m.name.name = o.name.name ∧
        x.notes = [⟨d.span, "value owned here"⟩, ⟨m.place, "value moved here"⟩] := by
  obtain ⟨m, hm, hmanner, hname, hplace⟩ := h.previous.moved h.moved
  refine ⟨_, h.previous.declared, rfl, m, hm, hmanner, hname, ?_⟩
  rw [Misuse.notes, hplace]

/-- Misuses found on the way along some places, in their order and at most one at each, when the
places `seen` lie behind. -/
inductive Found (locals : List Ident) : List Occurrence → List Occurrence → List Misuse → Prop
  | nil {seen : List Occurrence} : Found locals seen [] []
  | pass {seen os : List Occurrence} {o : Occurrence} {xs : List Misuse} :
      Found locals (seen ++ [o]) os xs → Found locals seen (o :: os) xs
  | misuse {seen os : List Occurrence} {o : Occurrence} {x : Misuse} {xs : List Misuse} :
      x.Told locals seen o → Found locals (seen ++ [o]) os xs →
        Found locals seen (o :: os) (x :: xs)

namespace Found

variable {os os' : List Occurrence} {xs xs' : List Misuse}

theorem append (h : Found locals seen os xs) (h' : Found locals (seen ++ os) os' xs') :
    Found locals seen (os ++ os') (xs ++ xs') := by
  induction h with
  | nil => simpa using h'
  | pass _ ih => exact .pass (ih (by simpa using h'))
  | misuse hx _ ih => exact .misuse hx (ih (by simpa using h'))

theorem none_at (seen : List Occurrence) (o : Occurrence) : Found locals seen [o] [] := .pass .nil

theorem one_at {o : Occurrence} {x : Misuse} (hx : x.Told locals seen o) :
    Found locals seen [o] [x] :=
  .misuse hx .nil

theorem spans_sublist (h : Found locals seen os xs) :
    (xs.map Misuse.span).Sublist (os.map Occurrence.place) := by
  induction h with
  | nil => exact .slnil
  | pass _ ih => exact ih.cons _
  | misuse hx _ ih =>
    rw [List.map_cons, List.map_cons, hx.span]
    exact ih.cons_cons _

theorem exists_told (h : Found locals seen os xs) {x : Misuse} (hx : x ∈ xs) :
    ∃ before o after, os = before ++ o :: after ∧ x.Told locals (seen ++ before) o := by
  induction h with
  | nil => exact absurd hx List.not_mem_nil
  | @pass seen os o xs _ ih =>
    obtain ⟨before, o', after, rfl, hx⟩ := ih hx
    exact ⟨o :: before, o', after, rfl, by simpa using hx⟩
  | @misuse seen os o x' xs hx' _ ih =>
    rcases List.mem_cons.1 hx with rfl | hx
    · exact ⟨[], o, os, rfl, by simpa using hx'⟩
    · obtain ⟨before, o', after, rfl, hx⟩ := ih hx
      exact ⟨o :: before, o', after, rfl, by simpa using hx⟩

end Found

/-! ## Walks along places -/

/-- A walk that passes some places: it keeps a table accounted for, and so are the misuses on the
way. -/
def Walk.Passes (locals : List Ident) (w : Walk) (os : List Occurrence) : Prop :=
  ∀ seen t, t.Accounted locals seen →
    (w t).1.Accounted locals (seen ++ os) ∧ Found locals seen os (w t).2

namespace Walk.Passes

variable {w w' : Walk} {os os' : List Occurrence}

theorem change {f : Table → Table}
    (hf : ∀ seen t, t.Accounted locals seen → (f t).Accounted locals seen) :
    (Walk.change f).Passes locals [] := by
  intro seen t ht
  rw [List.append_nil]
  exact ⟨hf seen t ht, .nil⟩

theorem skip : Walk.skip.Passes locals [] := change fun _ _ ht => ht

theorem andThen (hw : w.Passes locals os) (hw' : w'.Passes locals os') :
    (w.andThen w').Passes locals (os ++ os') := by
  intro seen t ht
  obtain ⟨ht₁, hfound⟩ := hw seen t ht
  obtain ⟨ht₂, hfound'⟩ := hw' (seen ++ os) (w t).1 ht₁
  rw [← List.append_assoc]
  exact ⟨ht₂, hfound.append hfound'⟩

theorem aside (hw : w.Passes locals os) : w.aside.Passes locals os := by
  intro seen t ht
  exact ⟨ht.mono (List.subset_append_left seen os), (hw seen t ht).2⟩

theorem nested (hplaces : (locals.map Ident.span).Nodup) (hw : w.Passes locals os) :
    w.nested.Passes locals os := by
  intro seen t ht
  obtain ⟨hinner, hfound⟩ := hw seen t ht
  exact ⟨(ht.mono (List.subset_append_left seen os)).mergeBlock hinner
    (Status.Accounted.of_place hplaces), hfound⟩

/-- The second branch starts from the same table, but behind the places of the first one. -/
theorem either (hplaces : (locals.map Ident.span).Nodup) (hw : w.Passes locals os)
    (hw' : w'.Passes locals os') : (w.either w').Passes locals (os ++ os') := by
  intro seen t ht
  obtain ⟨hthen, hfound⟩ := hw seen t ht
  obtain ⟨-, hfound'⟩ := hw' (seen ++ os) t (ht.mono (List.subset_append_left seen os))
  refine ⟨?_, hfound.append hfound'⟩
  rw [← List.append_assoc]
  have hseen : seen ⊆ seen ++ os ++ os' := by simp
  exact (ht.mono hseen).mergeBranches (hthen.mono (List.subset_append_left _ os'))
    (Status.Accounted.of_place hplaces) (fun _ _ _ _ hs hthen => hs.joinState hthen) _

theorem bind (name : Ident) (type : Option Ty) (hname : name ∈ locals) :
    (Walk.bind name type).Passes locals [] := by
  refine change ?_
  intro seen t ht
  split
  · exact ht.own (.fresh hname)
  · exact ht.release

theorem bindParam (name : Ident) (type : Ty) (hname : name ∈ locals) :
    (Walk.bindParam name type).Passes locals [] := by
  refine change ?_
  intro seen t ht
  split
  · exact ht.own (.fresh hname)
  · exact ht

/-- A place that only looks at what it names leaves the table as it is. -/
theorem found_moved? {t : Table} (ht : t.Accounted locals seen) (o : Occurrence) :
    t.Accounted locals (seen ++ [o]) ∧ Found locals seen [o]
      ((t.moved? o.name.name).toList.map fun previous => ⟨o.place, o.fault, previous⟩) := by
  refine ⟨ht.mono (List.subset_append_left seen [o]), ?_⟩
  cases hmoved : t.moved? o.name.name with
  | none => exact .none_at seen o
  | some previous =>
    obtain ⟨hget, hgone⟩ := Option.filter_eq_some_iff.1 hmoved
    exact .one_at ⟨rfl, rfl, ht.visible _ _ hget, hgone⟩

theorem reach (name member : Ident) :
    (Walk.reach name member).Passes locals [⟨name, .reach member⟩] := by
  intro seen t ht
  exact found_moved? ht ⟨name, .reach member⟩

theorem use (name : Ident) (consuming : Bool) :
    (Walk.use name consuming).Passes locals [⟨name, mannerOf consuming⟩] := by
  intro seen t ht
  cases consuming with
  | false => exact found_moved? ht ⟨name, .look⟩
  | true =>
    have hmono := ht.mono (List.subset_append_left seen [⟨name, .move⟩])
    cases hget : t.get? name.name with
    | none =>
      simp only [Walk.use, Table.consume, hget, if_true]
      exact ⟨hmono, .none_at seen _⟩
    | some s =>
      have hs := ht.visible name.name s hget
      cases hgone : s.isMoved with
      | true =>
        simp only [Walk.use, Table.consume, hget, hgone, if_true]
        exact ⟨hmono, .one_at ⟨rfl, rfl, hs, hgone⟩⟩
      | false =>
        simp only [Walk.use, Table.consume, hget, hgone, if_true, Bool.false_eq_true, if_false]
        have hmove := (hmono.visible name.name s hget).move
          (List.mem_append_right seen (List.mem_singleton_self _)) rfl rfl
        exact ⟨hmono.set hmove hmono.hidden, .none_at seen _⟩

end Walk.Passes

/-! ## Places that a flow visits -/

/-- The places that a flow examines, in order. -/
def Flow.visits (f : Flow) : List Occurrence := f.examined.map Prod.fst

namespace Flow

@[simp] theorem visits_seq (f g : Flow) : (seq f g).visits = f.visits ++ g.visits := List.map_append

@[simp] theorem visits_either (f g : Flow) : (either f g).visits = f.visits ++ g.visits :=
  List.map_append

@[simp] theorem visits_loop (head body again : Flow) :
    (loop head body again).visits = head.visits ++ body.visits :=
  List.map_append

@[simp] theorem visits_declares (bs : List Binding) : (declares bs).visits = [] := by
  induction bs with
  | nil => rfl
  | cons b bs ih =>
    rw [declares, visits_seq, ih]
    rfl

theorem map_place_visits (f : Flow) :
    f.visits.map Occurrence.place = f.subjects.map Ident.span := by
  rw [visits, subjects, List.map_map, List.map_map]
  rfl

end Flow

/-! ## Walks through trees -/

mutual
theorem walkExpr_passes (sight : Sight) (consuming : Bool) :
    ∀ e : Expr, (walkExpr consuming e).Passes locals (flowExpr sight consuming e).visits
  | .ident _ name => .use name consuming
  | .binary _ op left right => by
    rw [walkExpr, flowExpr, Flow.visits_seq]
    exact .andThen (walkExpr_passes sight _ left) (walkExpr_passes sight _ right)
  | .unary _ op operand => walkExpr_passes sight (unaryConsumes op) operand
  | .call _ callee _ args => by
    rw [walkExpr, flowExpr, Flow.visits_seq]
    exact .andThen (walkExpr_passes sight false callee) (walkExprs_passes sight args)
  | .get _ object member => by
    rw [walkExpr, flowExpr]
    cases object.ident? with
    | none => exact walkExpr_passes sight false object
    | some name => exact .reach name member
  | .new _ _ fields => walkFields_passes sight fields
  | .group _ inner => walkExpr_passes sight consuming inner
  | .staticArray _ _ elements => walkExprs_passes sight elements
  | .subscript _ object index => by
    rw [walkExpr, flowExpr, Flow.visits_seq]
    exact .andThen (walkExpr_passes sight false object) (walkExpr_passes sight true index)
  | .range _ first last => by
    rw [walkExpr, flowExpr, Flow.visits_seq]
    exact .andThen (walkExpr_passes sight true first) (walkExpr_passes sight true last)
  | .number _ _ | .string _ _ | .bool _ _ | .null _ | .zero _ => .skip

theorem walkExprs_passes (sight : Sight) :
    ∀ es : List Expr, (walkExprs es).Passes locals (flowExprs sight es).visits
  | [] => .skip
  | e :: es => by
    rw [walkExprs, flowExprs, Flow.visits_seq]
    exact .andThen (walkExpr_passes sight true e) (walkExprs_passes sight es)

theorem walkFields_passes (sight : Sight) :
    ∀ fields : List (Ident × Expr),
      (walkFields fields).Passes locals (flowFields sight fields).visits
  | [] => .skip
  | (_, e) :: fields => by
    rw [walkFields, flowFields, Flow.visits_seq]
    exact .andThen (walkExpr_passes sight true e) (walkFields_passes sight fields)
end

/-- A name that is assigned to is not visited. -/
theorem walkAssign_passes (sight : Sight) (target value : Expr) :
    (walkAssign target value).Passes locals
      ((flowExpr sight true value).visits ++ (flowTarget sight target).visits) := by
  refine .andThen (walkExpr_passes sight true value) ?_
  rw [flowTarget]
  cases target.ident? with
  | none => exact walkExpr_passes sight false target
  | some name =>
    dsimp only
    cases sight.resolve name.name with
    | none => exact .change fun _ _ ht => ht.reown fun _ hs => hs.refill
    | some b => exact .change fun _ _ ht => ht.reown fun _ hs => hs.refill

mutual
theorem walkStmt_passes (hplaces : (locals.map Ident.span).Nodup) (typeOf : Nat → Option Ty)
    (sight : Sight) :
    ∀ s : Stmt, s.locals ⊆ locals →
      (walkStmt typeOf s).Passes locals (flowStmt typeOf false sight s).visits
  | .importDecl _ _, _ | .structDecl _ _, _ | .fnDecl _ _ _, _ | .breakStmt _, _
  | .continueStmt _, _
  | .returnStmt _ none, _ => .skip
  | .letDecl _ name _ init, h => by
    rw [walkStmt, flowStmt, Flow.visits_seq]
    exact .andThen (walkExpr_passes sight true init) (.bind name _ (h (List.mem_singleton_self _)))
  | .scope _ block, h => .nested hplaces (walkBlock_passes hplaces typeOf sight block h)
  | .assign _ target value, _ => by
    rw [walkStmt, flowStmt, Flow.visits_seq]
    exact walkAssign_passes sight target value
  | .returnStmt _ (some value), _ => walkExpr_passes sight true value
  | .forEach _ name iterable block, h => by
    rw [walkStmt, flowStmt, Flow.visits_loop, Flow.visits_seq]
    obtain ⟨hname, hblock⟩ := List.cons_subset.1 h
    exact .aside (.andThen (walkExpr_passes sight true iterable)
      (.andThen (.bind name _ hname) (walkBlock_passes hplaces typeOf _ block hblock)))
  | .forCounted _ init condition update block, h => by
    rw [walkStmt, flowStmt, Flow.visits_loop, Flow.visits_seq, Flow.visits_seq, List.append_assoc]
    obtain ⟨h, hupdate⟩ := List.append_subset.1 h
    obtain ⟨hinit, hblock⟩ := List.append_subset.1 h
    exact .aside (.andThen (walkStmt_passes hplaces typeOf sight init hinit)
      (.andThen (walkExpr_passes _ true condition)
        (.andThen (walkBlock_passes hplaces typeOf _ block hblock)
          (walkStmt_passes hplaces typeOf _ update hupdate))))
  | .ifElse _ condition thenBlock elseBranch, h => by
    rw [walkStmt, flowStmt, Flow.visits_seq, Flow.visits_either]
    obtain ⟨hthen, helse⟩ := List.append_subset.1 h
    exact .andThen (walkExpr_passes sight true condition)
      (.either hplaces (walkBlock_passes hplaces typeOf sight thenBlock hthen)
        (walkElse_passes hplaces typeOf sight elseBranch helse))
  | .expr _ value, _ => walkExpr_passes sight true value

theorem walkElse_passes (hplaces : (locals.map Ident.span).Nodup) (typeOf : Nat → Option Ty)
    (sight : Sight) :
    ∀ s : Option Stmt, elseLocals s ⊆ locals →
      (walkElse typeOf s).Passes locals (flowElse typeOf false sight s).visits
  | none, _ => .skip
  | some s, h => walkStmt_passes hplaces typeOf sight s h

theorem walkBlock_passes (hplaces : (locals.map Ident.span).Nodup) (typeOf : Nat → Option Ty)
    (sight : Sight) :
    ∀ b : Block, b.locals ⊆ locals →
      (walkBlock typeOf b).Passes locals (flowBlock typeOf false sight b).visits
  | .mk _ stmts, h => walkStmts_passes hplaces typeOf sight stmts h

theorem walkStmts_passes (hplaces : (locals.map Ident.span).Nodup) (typeOf : Nat → Option Ty)
    (sight : Sight) :
    ∀ ss : List Stmt, stmtsLocals ss ⊆ locals →
      (walkStmts typeOf ss).Passes locals (flowStmts typeOf false sight ss).visits
  | [], _ => .skip
  | s :: ss, h => by
    rw [walkStmts, flowStmts, Flow.visits_seq]
    obtain ⟨hs, hss⟩ := List.append_subset.1 h
    exact .andThen (walkStmt_passes hplaces typeOf sight s hs)
      (walkStmts_passes hplaces typeOf _ ss hss)
end

theorem bindParams_passes (ps : List TypedName) (ts : List Ty) (h : ps.map (·.name) ⊆ locals) :
    (bindParams ps ts).Passes locals [] := by
  induction ps generalizing ts with
  | nil => exact .skip
  | cons p ps ih =>
    obtain ⟨hp, hps⟩ := List.cons_subset.1 h
    cases ts with
    | nil => exact .skip
    | cons t ts => exact .andThen (.bindParam p.name t hp) (ih ts hps)

/-- A walk through a function passes the places that its flow visits. -/
theorem walkFn_passes (typeOf : Nat → Option Ty) (mark : Mark) {head : FnHead} {body : Block}
    (hplaces : ((fnLocals head body).map Ident.span).Nodup) :
    (walkFn typeOf mark head body).Passes (fnLocals head body)
      (flowFn typeOf mark head body).visits := by
  obtain ⟨hparams, hbody⟩ := List.append_subset.1 (List.Subset.refl (fnLocals head body))
  rw [walkFn, flowFn, fnFlow, Flow.visits_seq, Flow.visits_declares]
  refine .andThen ?_ (walkBlock_passes hplaces typeOf _ body hbody)
  split
  · exact bindParams_passes _ _ hparams
  · exact .skip

/-- The places that the flow of a function visits are names of the function. -/
theorem visits_flowFn_sublist (typeOf : Nat → Option Ty) (mark : Mark) (head : FnHead)
    (body : Block) : ((flowFn typeOf mark head body).visits.map Occurrence.place).Sublist
      ((Stmt.fnDecl mark head body).names.map Ident.span) := by
  rw [Flow.map_place_visits]
  exact (subjects_fnFlow typeOf mark head body).map Ident.span

theorem found_checkItem (typeOf : Nat → Option Ty) {mark : Mark} {head : FnHead} {body : Block}
    (hnames : ((Stmt.fnDecl mark head body).names.map Ident.span).Nodup) :
    Found (fnLocals head body) [] (flowFn typeOf mark head body).visits
      (checkItem typeOf (.fnDecl mark head body)) := by
  have hplaces := ((fnLocals_sublist mark head body).map Ident.span).nodup hnames
  exact (walkFn_passes typeOf mark hplaces [] .empty .empty).2

theorem spans_checkItem_sublist (typeOf : Nat → Option Ty) {s : Stmt}
    (hnames : (s.names.map Ident.span).Nodup) :
    ((checkItem typeOf s).map Misuse.span).Sublist (s.names.map Ident.span) := by
  cases s with
  | fnDecl mark head body =>
    exact (found_checkItem typeOf hnames).spans_sublist.trans
      (visits_flowFn_sublist typeOf mark head body)
  | _ => exact List.nil_sublist _

/-- Every misuse in an item is at one of the names of the item. -/
theorem checkItem_span (typeOf : Nat → Option Ty) {s : Stmt}
    (hnames : (s.names.map Ident.span).Nodup)
    {x : Misuse} (hx : x ∈ checkItem typeOf s) : x.span ∈ s.names.map Ident.span :=
  (spans_checkItem_sublist typeOf hnames).subset (List.mem_map_of_mem hx)

/-- What is found at a place of an item is found in that item, if no two names of the items have the
same place. -/
theorem mem_flatMap_checkItem_iff (typeOf : Nat → Option Ty) {s : Stmt} {ss : List Stmt}
    (hs : s ∈ ss) (hnodup : ((stmtsNames ss).map Ident.span).Nodup) {x : Misuse}
    (hx : x.span ∈ s.names.map Ident.span) :
    x ∈ ss.flatMap (checkItem typeOf) ↔ x ∈ checkItem typeOf s := by
  refine ⟨fun h => ?_, fun h => List.mem_flatMap.2 ⟨s, hs, h⟩⟩
  induction ss with
  | nil => exact absurd hs List.not_mem_nil
  | cons s' ss ih =>
    rw [stmtsNames, List.map_append, List.nodup_append'] at hnodup
    obtain ⟨hnodup', hnodup, hdisj⟩ := hnodup
    rw [List.flatMap_cons, List.mem_append] at h
    -- A misuse found in another item would be at a name of that item.
    rcases List.mem_cons.1 hs with rfl | hs
    · rcases h with h | h
      · exact h
      · obtain ⟨s', hs', hmem⟩ := List.mem_flatMap.1 h
        have hsub := (names_sublist_stmtsNames hs').map Ident.span
        exact absurd (hsub.subset (checkItem_span typeOf (hsub.nodup hnodup) hmem)) (hdisj hx)
    · rcases h with h | h
      · have hspan := List.map_subset Ident.span (names_sublist_stmtsNames hs).subset hx
        exact absurd hspan (hdisj (checkItem_span typeOf hnodup' h))
      · exact ih hs hnodup h

end Ownership

end Custody
