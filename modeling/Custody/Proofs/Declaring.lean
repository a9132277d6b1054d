import Custody.Proofs.Outlines
import Custody.Proofs.TypeFormation

/-!
# Rounds of the declare stage

In front of the declare stage nothing is declared (`Bundle.Undeclared`). Behind the first two rounds
the aliases are known and the structs have their names and parameters, but no members
(`SourceUnit.Outlined`, `SourceUnit.Bare`); from then on the shape of the bundle stays as it is. The
last round fills in members and signatures that are plain over that shape.

So the bundle is sound behind the declare stage, and if nothing was reported, every function has the
signature of its own head (`Bundle.Undeclared.declare_sound`).
-/

set_option autoImplicit false

namespace Custody

/-! ## Aliases and structs -/

/-- A unit of which nothing is declared yet, with its number. -/
structure SourceUnit.Undeclared (i : Nat) (u : SourceUnit) : Prop where
  id : u.id = i
  types : u.types = .ofList Ty.builtins
  functions : u.functions = .empty
  namespaces : u.namespaces = .empty
  structs : u.structs = []

/-- A bundle of which nothing is declared yet. -/
def Bundle.Undeclared (b : Bundle) : Prop := ∀ i u, b.get? i = some u → u.Undeclared i

namespace SourceUnit

theorem undeclared_fresh (i : Nat) (path : Path) (source : String) (tokens : List Token)
    (file : SourceFile) : (fresh i path source tokens file).Undeclared i :=
  ⟨rfl, rfl, rfl, rfl, rfl⟩

/-- A unit whose structs are known by name: each stands where its id says, a type name is a builtin
or one of the structs, and an alias stands for a unit. -/
structure Outlined (i : Nat) (u : SourceUnit) : Prop where
  id : u.id = i
  ids : ∀ (k : Nat) (d : StructDef), u.structs[k]? = some d → d.id = ⟨i, k⟩
  types : ∀ name t, u.types.get? name = some t →
    t ∈ Ty.builtins.map (·.2) ∨ ∃ (k : Nat) (d : StructDef), u.structs[k]? = some d ∧ t = d.ty
  namespaces : ∀ name t, u.namespaces.get? name = some t → ∃ target, t = .unit target

theorem Undeclared.outlined {i : Nat} {u : SourceUnit} (h : u.Undeclared i) : u.Outlined i := by
  refine ⟨h.id, fun k d hd => ?_, fun name t ht => .inl ?_, fun name t ht => ?_⟩
  · rw [h.structs] at hd
    cases hd
  · have hentries : u.types.entries = Ty.builtins := by
      rw [h.types]
      decide
    rw [NameMap.get?, hentries] at ht
    obtain ⟨before, after, hbuiltins, -⟩ := List.lookup_eq_some_iff.1 ht
    rw [hbuiltins]
    simp
  · rw [h.namespaces] at ht
    cases ht

variable {i : Nat} {u : SourceUnit}

theorem Outlined.declareAlias (h : u.Outlined i) (link : ImportLink) :
    (u.declareAlias link).1.Outlined i := by
  unfold SourceUnit.declareAlias
  split
  · exact h
  · split
    · next namespaces hinsert =>
        refine ⟨h.id, h.ids, h.types, fun name t ht => ?_⟩
        rw [(NameMap.get?_of_insertNew hinsert).2] at ht
        split at ht
        · exact ⟨_, (Option.some.inj ht).symm⟩
        · exact h.namespaces name t ht
    · exact h

theorem Outlined.declareAliases (h : u.Outlined i) (links : List ImportLink) :
    (u.declareAliases links).1.Outlined i := by
  induction links generalizing u with
  | nil => exact h
  | cons link links ih => exact ih (h.declareAlias link)

/-- A struct of the declaration stands at its place. -/
def Holds (u : SourceUnit) (d : StructDecl) (slot : Nat) : Prop :=
  ∃ declared, u.structs[slot]? = some declared ∧ declared.generics = d.generics.map (·.name)

theorem Outlined.declareStruct (h : u.Outlined i) (d : StructDecl) :
    (u.declareStruct d).1.Outlined i := by
  unfold SourceUnit.declareStruct
  dsimp only
  split
  · next types hinsert =>
      refine ⟨h.id, fun k s hs => ?_, fun name t ht => ?_, h.namespaces⟩
      -- The new struct is the last one, and its id counts the structs before it.
      · rcases Nat.lt_or_ge k u.structs.length with hk | hk
        · rw [List.getElem?_append_left hk] at hs
          exact h.ids k s hs
        · rw [List.getElem?_append_right hk, List.getElem?_singleton] at hs
          split at hs
          · next hk' =>
              rw [← Option.some.inj hs, shell, h.id]
              have : k = u.structs.length := by omega
              rw [this]
          · cases hs
      · rw [(NameMap.get?_of_insertNew hinsert).2] at ht
        split at ht
        · refine .inr ⟨u.structs.length, u.shell d, ?_, (Option.some.inj ht).symm⟩
          rw [List.getElem?_append_right (Nat.le_refl _), Nat.sub_self]
          rfl
        · rcases h.types name t ht with hbuiltin | ⟨k, s, hs, rfl⟩
          · exact .inl hbuiltin
          · refine .inr ⟨k, s, ?_, rfl⟩
            rw [List.getElem?_append_left (List.getElem?_eq_some_iff.1 hs).1]
            exact hs
  · exact h

/-- Declaring structs keeps those that are there, and each one that it declares stands at the place
that it gives. -/
theorem declareStructs_holds (u : SourceUnit) (ds : List StructDecl) :
    u.structs <+: (u.declareStructs ds).1.structs ∧
      ∀ d slot, (d, some slot) ∈ ds.zip (u.declareStructs ds).2.1 →
        (u.declareStructs ds).1.Holds d slot := by
  induction ds generalizing u with
  | nil => exact ⟨List.prefix_rfl, fun d slot h => absurd h List.not_mem_nil⟩
  | cons d ds ih =>
    -- A struct keeps its place while further ones are declared behind it.
    obtain ⟨hgrown, hholds⟩ := ih (u.declareStruct d).1
    have hfirst : u.structs <+: (u.declareStruct d).1.structs ∧
        ∀ slot, (u.declareStruct d).2.1 = some slot → (u.declareStruct d).1.Holds d slot := by
      unfold declareStruct
      dsimp only
      split
      · refine ⟨List.prefix_append _ _, fun slot hslot => ?_⟩
        obtain rfl := Option.some.inj hslot
        refine ⟨u.shell d, ?_, rfl⟩
        show (u.structs ++ [u.shell d])[u.structs.length]? = _
        rw [List.getElem?_append_right (Nat.le_refl _), Nat.sub_self]
        rfl
      · exact ⟨List.prefix_rfl, fun slot hslot => by cases hslot⟩
    refine ⟨hfirst.1.trans hgrown, fun d' slot hmem => ?_⟩
    rcases List.mem_cons.1 hmem with heq | hmem
    · obtain ⟨rfl, hslot⟩ := Prod.mk.inj heq
      obtain ⟨declared, hdeclared, hgenerics⟩ := hfirst.2 slot hslot.symm
      refine ⟨declared, ?_, hgenerics⟩
      obtain ⟨rest, hrest⟩ := hgrown
      show ((u.declareStruct d').1.declareStructs ds).1.structs[slot]? = some declared
      rw [← hrest, List.getElem?_append_left (List.getElem?_eq_some_iff.1 hdeclared).1]
      exact hdeclared
    · exact hholds d' slot hmem

theorem Outlined.declareStructs (h : u.Outlined i) (ds : List StructDecl) :
    (u.declareStructs ds).1.Outlined i := by
  induction ds generalizing u with
  | nil => exact h
  | cons d ds ih => exact ih (h.declareStruct d)

/-- A unit without functions, whose structs have no members yet. -/
structure Bare (u : SourceUnit) : Prop where
  functions : u.functions = .empty
  members : ∀ d ∈ u.structs, d.members = []

theorem Undeclared.bare (h : u.Undeclared i) : u.Bare :=
  ⟨h.functions, fun d hd => by
    rw [h.structs] at hd
    cases hd⟩

theorem Bare.declareAliases (h : u.Bare) (links : List ImportLink) :
    (u.declareAliases links).1.Bare := by
  obtain ⟨namespaces, heq⟩ := u.declareAliases_eq links
  rw [heq]
  exact ⟨h.functions, h.members⟩

theorem Bare.declareStructs (h : u.Bare) (ds : List StructDecl) :
    (u.declareStructs ds).1.Bare := by
  induction ds generalizing u with
  | nil => exact h
  | cons d ds ih =>
    refine ih ?_
    split
    · refine ⟨h.functions, fun s hs => ?_⟩
      rcases List.mem_append.1 hs with hs | hs
      · exact h.members s hs
      · rw [List.mem_singleton.1 hs]
        rfl
    · exact h

end SourceUnit

namespace Bundle

/-- All structs of a bundle are known by name. -/
def Outlined (b : Bundle) : Prop := ∀ i u, b.get? i = some u → u.Outlined i

/-- A struct is found under the number of its unit and its place there. -/
theorem struct?_of_get? {b : Bundle} {i k : Nat} {u : SourceUnit} {d : StructDef}
    (hu : b.get? i = some u) (hd : u.structs[k]? = some d) : b.struct? ⟨i, k⟩ = some d := by
  rw [struct?, hu]
  exact hd

/-- A bundle whose structs are known is sound if its functions and members are. -/
theorem Outlined.sound {strict : Bool} {b : Bundle} (h : b.Outlined)
    (hfunctions : ∀ u ∈ b.units, ∀ name t, u.functions.get? name = some t →
      ∃ s : Signature, t = s.ty ∧ s.Sound strict b.shape)
    (hmembers : ∀ u ∈ b.units, ∀ d ∈ u.structs, ∀ m ∈ d.members,
      m.2.Plain strict b.shape d.generics) : b.Sound strict := by
  refine ⟨fun u hu => ⟨fun name t ht => ?_, hfunctions u hu, ?_, hmembers u hu⟩, fun id d hd => ?_⟩
  · obtain ⟨i, hi⟩ := List.getElem?_of_mem hu
    rcases (h i u hi).types name t ht with hbuiltin | ⟨k, d, hd, rfl⟩
    · simp only [Ty.builtins, List.map_cons, List.map_nil, List.mem_cons, List.not_mem_nil,
        or_false] at hbuiltin
      rcases hbuiltin with
        rfl | rfl | rfl | rfl | rfl | rfl | rfl | rfl | rfl | rfl | rfl | rfl | rfl <;>
        trivial
    -- The id of a struct leads back to it.
    · show b.shape d.id = some (d.name, d.generics.length)
      rw [(h i u hi).ids k d hd, shape, struct?_of_get? hi hd, Option.map_some]
  · obtain ⟨i, hi⟩ := List.getElem?_of_mem hu
    exact (h i u hi).namespaces
  · obtain ⟨u, hu, hd⟩ := Option.bind_eq_some_iff.1 hd
    exact (h id.unit u hu).ids id.index d hd

theorem Undeclared.outlined_shelled {b : Bundle} (h : b.Undeclared) {i : Nat} {u : SourceUnit}
    (hu : b.get? i = some u) : u.shelled.1.Outlined i :=
  ((h i u hu).outlined.declareAliases _).declareStructs _

theorem Undeclared.bare_shelled {b : Bundle} (h : b.Undeclared) {u : SourceUnit}
    (hu : u ∈ b.shelled.units) : u.Bare := by
  obtain ⟨u₀, hu₀, rfl⟩ := List.mem_map.1 hu
  obtain ⟨i, hi⟩ := List.getElem?_of_mem hu₀
  exact ((h i u₀ hi).bare.declareAliases _).declareStructs _

/-- The first two rounds make a sound bundle. -/
theorem Undeclared.sound_shelled {b : Bundle} (h : b.Undeclared) (strict : Bool) :
    b.shelled.Sound strict := by
  refine Outlined.sound (fun i u hu => ?_) (fun u hu name t ht => ?_) fun u hu d hd m hm => ?_
  · rw [get?, shelled, List.getElem?_map] at hu
    obtain ⟨u₀, hu₀, rfl⟩ := Option.map_eq_some_iff.1 hu
    exact h.outlined_shelled hu₀
  · rw [(h.bare_shelled hu).functions] at ht
    cases ht
  · rw [(h.bare_shelled hu).members d hd] at hm
    cases hm

end Bundle

/-! ## Members and signatures -/

section Resolve

open Checking

variable {strict : Bool} {good : Ty → Prop}

/-- The members of a struct are plain. -/
theorem Place.members_forms {place : Place} (h : place.Sound strict) :
    ∀ (ms : List TypedName) (known : List (String × Ty)), (∀ m ∈ known, place.Plain strict m.2) →
      Forms strict good (fun members => ∀ m ∈ members, place.Plain strict m.2)
        (place.members .direct known ms)
  | [], _, hknown => .pure hknown
  | m :: ms, known, hknown => by
    rw [Place.members]
    refine .bind (Place.resolve_forms h m.type) fun type htype => ?_
    split
    · exact .bind (.report _ _) fun _ _ => members_forms h ms known hknown
    · refine members_forms h ms _ fun e he => ?_
      rcases List.mem_append.1 he with he | he
      · exact hknown e he
      · rw [List.mem_singleton.1 he]
        exact htype

theorem Place.params_forms {place : Place} (h : place.Sound strict) : ∀ ps : List TypedName,
    Forms strict good (fun types => types.length = ps.length ∧ ∀ t ∈ types, place.Plain strict t)
      (place.params .direct ps)
  | [] => .pure ⟨rfl, fun t ht => absurd ht List.not_mem_nil⟩
  | p :: ps => by
    rw [Place.params]
    refine .bind (Place.resolve_forms h p.type) fun type htype =>
      .bind (params_forms h ps) fun types htypes => .pure ⟨congrArg Nat.succ htypes.1, ?_⟩
    exact List.forall_mem_cons.2 ⟨htype, htypes.2⟩

/-- A signature for a function: it has the counts of the function, and its types are plain over the
function's generic parameters. -/
structure FnHead.Signs (strict : Bool) (shape : Shape) (head : FnHead) (s : Signature) : Prop where
  arity : s.arity = head.generics.length
  length : s.params.length = head.params.length
  params : ∀ t ∈ s.params, t.Plain strict shape (head.generics.map (·.name))
  result : s.result.Plain strict shape (head.generics.map (·.name))

theorem FnHead.Signs.sound {shape : Shape} {head : FnHead} {s : Signature}
    (h : head.Signs strict shape s) : s.Sound strict shape :=
  ⟨head.generics.map (·.name), by rw [List.length_map, h.arity], h.params, h.result⟩

variable {b : Bundle} {u : SourceUnit}

theorem signature_forms (hb : b.Sound strict) (hu : u.Sound strict b.shape) (head : FnHead) :
    Forms strict good (head.Signs strict b.shape)
      ((b.placeOf u head.generics).signature .direct head) := by
  have hplace : (b.placeOf u head.generics).Sound strict := ⟨hb, hu⟩
  unfold Place.signature
  refine .bind (Place.params_forms hplace head.params) fun params hparams => ?_
  have hdone : ∀ result, (b.placeOf u head.generics).Plain strict result →
      Forms strict good (head.Signs strict b.shape)
        (pure ⟨head.generics.length, params, result⟩ : Checking Unit Signature) :=
    fun result hresult => .pure ⟨rfl, hparams.1, hparams.2, hresult⟩
  dsimp only
  split
  · exact .bind (Place.resolve_forms hplace _) hdone
  · have hvoid : (b.placeOf u head.generics).Plain strict .void := trivial
    exact .bind (.pure hvoid) hdone

/-- Each struct gets members that are plain over its generic parameters. -/
theorem resolveStructs_forms (hb : b.Sound strict) (hu : u.Sound strict b.shape) :
    ∀ ds : List (StructDecl × Option Nat),
      Forms strict good (fun resolved => ∀ slot members, (slot, members) ∈ resolved →
          ∃ d, (d, some slot) ∈ ds ∧
            ∀ m ∈ members, m.2.Plain strict b.shape (d.generics.map (·.name)))
        (b.resolveStructs .direct u ds)
  | [] => .pure fun _ _ h => absurd h List.not_mem_nil
  | (_, none) :: ds => by
    rw [Bundle.resolveStructs]
    refine (resolveStructs_forms hb hu ds).mono fun resolved h slot members hmem => ?_
    obtain ⟨d, hd, hplain⟩ := h slot members hmem
    exact ⟨d, List.mem_cons_of_mem _ hd, hplain⟩
  | (d, some place) :: ds => by
    rw [Bundle.resolveStructs]
    have hplace : (b.placeOf u d.generics).Sound strict := ⟨hb, hu⟩
    refine .bind (Place.members_forms hplace d.members [] fun m hm => absurd hm List.not_mem_nil)
      fun members hmembers => .bind (resolveStructs_forms hb hu ds) fun resolved h =>
        .pure fun slot members' hmem => ?_
    rcases List.mem_cons.1 hmem with heq | hmem
    · obtain ⟨rfl, rfl⟩ := Prod.mk.inj heq
      exact ⟨d, List.mem_cons_self, hmembers⟩
    · obtain ⟨d', hd', hplain⟩ := h slot members' hmem
      exact ⟨d', List.mem_cons_of_mem _ hd', hplain⟩

/-- Each function gets a signature of its own. -/
theorem resolveFns_forms (hb : b.Sound strict) (hu : u.Sound strict b.shape) :
    ∀ heads : List FnHead,
      Forms strict good (fun fns => (∀ e ∈ fns, e.2.Sound strict b.shape) ∧
          ∀ head ∈ heads, ∃ s, (head.name, s) ∈ fns ∧ head.Signs strict b.shape s)
        (b.resolveFns .direct u heads)
  | [] => .pure ⟨fun _ h => absurd h List.not_mem_nil, fun _ h => absurd h List.not_mem_nil⟩
  | head :: heads => by
    rw [Bundle.resolveFns]
    refine .bind (signature_forms hb hu head) fun s hs =>
      .bind (resolveFns_forms hb hu heads) fun fns hfns => .pure (And.intro ?_ ?_)
    · exact List.forall_mem_cons.2 ⟨hs.sound, hfns.1⟩
    · refine List.forall_mem_cons.2 ⟨⟨s, List.mem_cons_self, hs⟩, fun head' hhead => ?_⟩
      obtain ⟨s', hs', hsigns⟩ := hfns.2 head' hhead
      exact ⟨s', List.mem_cons_of_mem _ hs', hsigns⟩

end Resolve

namespace SourceUnit

/-- Members that a struct has behind the third round come from the struct or from what is put in. -/
theorem members_setMembers (u : SourceUnit) (resolved : List (Nat × List (String × Ty))) {k : Nat}
    {d : StructDef} (hd : (u.setMembers resolved).structs[k]? = some d) :
    (∃ d', u.structs[k]? = some d' ∧ d'.members = d.members) ∨ (k, d.members) ∈ resolved := by
  unfold setMembers at hd
  dsimp only at hd
  induction resolved generalizing u with
  | nil => exact .inl ⟨d, hd, rfl⟩
  | cons e resolved ih =>
    obtain ⟨slot, members⟩ := e
    rw [List.foldl_cons] at hd
    rcases ih { u with structs := u.structs.modify slot fun d => { d with members } } hd with
      ⟨d', hd', heq⟩ | hmem
    · rw [List.getElem?_modify] at hd'
      obtain ⟨d'', hd'', rfl⟩ := Option.map_eq_some_iff.1 hd'
      by_cases hk : slot = k
      · rw [if_pos hk] at heq
        subst hk
        exact .inr (heq ▸ List.mem_cons_self)
      · rw [if_neg hk] at heq
        exact .inl ⟨d'', hd'', heq⟩
    · exact .inr (List.mem_cons_of_mem _ hmem)

/-- A function that a unit has was there before or is one of those that are declared. -/
theorem functions_declareFns (u : SourceUnit) (fns : List (Ident × Signature)) {name : String}
    {t : Ty} (h : (u.declareFns fns).1.functions.get? name = some t) :
    u.functions.get? name = some t ∨ ∃ e ∈ fns, t = e.2.ty := by
  rw [functions_declareFns_eq] at h
  rcases Option.or_eq_some_iff.1 h with hold | ⟨-, hnew⟩
  · exact .inl hold
  · obtain ⟨e, he, hty⟩ := Option.map_eq_some_iff.1 hnew
    exact .inr ⟨e, List.mem_of_find?_eq_some he, hty.symm⟩

/-- Structs that differ in their members only stand at the same places. -/
theorem exists_of_withoutMembers {structs structs' : List StructDef}
    (h : structs'.map StructDef.withoutMembers = structs.map StructDef.withoutMembers) {k : Nat}
    {d : StructDef} (hd : structs'[k]? = some d) :
    ∃ d', structs[k]? = some d' ∧ d'.withoutMembers = d.withoutMembers := by
  have hget : (structs'.map StructDef.withoutMembers)[k]? = some d.withoutMembers := by
    rw [List.getElem?_map, hd]
    rfl
  rw [h, List.getElem?_map] at hget
  exact Option.map_eq_some_iff.1 hget

/-- Plain members that are put in at the places of their structs are plain there. -/
theorem plain_setMembers {strict : Bool} {shape : Shape} {u : SourceUnit}
    {places : List (Option Nat)} {resolved : List (Nat × List (String × Ty))}
    (hmembers : ∀ d ∈ u.structs, ∀ m ∈ d.members, m.2.Plain strict shape d.generics)
    (hresolved : ∀ slot members, (slot, members) ∈ resolved →
      ∃ d, (d, some slot) ∈ u.structDecls.zip places ∧
        ∀ m ∈ members, m.2.Plain strict shape (d.generics.map (·.name)))
    (hplaced : ∀ d k, (d, some k) ∈ u.structDecls.zip places → u.Holds d k) :
    ∀ d ∈ (u.setMembers resolved).structs, ∀ m ∈ d.members,
      m.2.Plain strict shape d.generics := by
  intro d hd m hm
  obtain ⟨k, hk⟩ := List.getElem?_of_mem hd
  obtain ⟨old, hold, hsame⟩ := exists_of_withoutMembers (u.withoutMembers_setMembers resolved) hk
  have hgenerics : old.generics = d.generics :=
    (congrArg StructDef.generics hsame : old.withoutMembers.generics = _)
  rw [← hgenerics]
  -- A struct has the members that it had, or those that were resolved for its declaration, whose
  -- generic parameters are its own.
  rcases u.members_setMembers resolved hk with ⟨old', hold', heq⟩ | hmem
  · obtain rfl := Option.some.inj (hold.symm.trans hold')
    exact hmembers old (List.mem_of_getElem? hold) m (heq ▸ hm)
  · obtain ⟨decl, hdecl, hplain⟩ := hresolved k d.members hmem
    obtain ⟨old', hold', heq⟩ := hplaced decl k hdecl
    obtain rfl := Option.some.inj (hold.symm.trans hold')
    rw [heq]
    exact hplain m hm

/-- New members and functions leave a unit's structs known by name. -/
theorem Outlined.of_skeleton {i : Nat} {u u' : SourceUnit} (h : u.Outlined i)
    (hskeleton : u'.skeleton = u.skeleton) : u'.Outlined i := by
  have hid : u'.id = u.id := (congrArg SourceUnit.id hskeleton : u'.skeleton.id = _)
  have htypes : u'.types = u.types := (congrArg SourceUnit.types hskeleton : u'.skeleton.types = _)
  have hnamespaces : u'.namespaces = u.namespaces :=
    (congrArg SourceUnit.namespaces hskeleton : u'.skeleton.namespaces = _)
  have hstructs : u'.structs.map StructDef.withoutMembers =
      u.structs.map StructDef.withoutMembers :=
    congrArg SourceUnit.structs hskeleton
  refine ⟨hid.trans h.id, fun k d hd => ?_, fun name t ht => ?_, hnamespaces ▸ h.namespaces⟩
  · obtain ⟨d', hd', hsame⟩ := exists_of_withoutMembers hstructs hd
    exact (congrArg StructDef.id hsame).symm.trans (h.ids k d' hd')
  · rw [htypes] at ht
    rcases h.types name t ht with hbuiltin | ⟨k, d, hd, rfl⟩
    · exact .inl hbuiltin
    · obtain ⟨d', hd', hsame⟩ := exists_of_withoutMembers hstructs.symm hd
      exact .inr ⟨k, d', hd', (congrArg StructDef.ty hsame).symm⟩

end SourceUnit

namespace Bundle

/-- What the third round leaves behind for the functions of a unit. -/
def Signed (strict : Bool) (shape : Shape) (u : SourceUnit) : Prop :=
  ∀ head ∈ u.fnHeads, ∃ s, u.functions.get? head.name.name = some s.ty ∧ head.Signs strict shape s

/-- The signature under the name of a function is its own, so its types are plain over its
parameters. -/
theorem Signed.params {strict : Bool} {shape : Shape} {u : SourceUnit} (h : Signed strict shape u)
    {head : FnHead} (hhead : head ∈ u.fnHeads) {arity : Nat} {params : List Ty} {result : Ty}
    (hfunction : u.functions.get? head.name.name = some (.fn arity params result)) :
    ∀ t ∈ params, t.Plain strict shape (head.generics.map (·.name)) := by
  obtain ⟨s, hs, hsigns⟩ := h head hhead
  have hty : Ty.fn arity params result = s.ty := Option.some.inj (hfunction.symm.trans hs)
  rw [Signature.ty, Ty.fn.injEq] at hty
  rw [hty.2.1]
  exact hsigns.params

section Rounds

variable {strict : Bool} {b : Bundle}

/-- The members and functions that the third round puts into a unit are sound over the names of a
sound bundle. Where nothing is found, every function of the unit has a signature of its own. -/
theorem Sound.signed {u : SourceUnit} {places : List (Option Nat)} (hb : b.Sound strict)
    (hu : u.Sound strict b.shape)
    (hplaced : ∀ d k, (d, some k) ∈ u.structDecls.zip places → u.Holds d k)
    (hclean : strict = true → (u.signed b places).2 = []) :
    (∀ name t, (u.signed b places).1.functions.get? name = some t →
      ∃ s : Signature, t = s.ty ∧ s.Sound strict b.shape) ∧
      (∀ d ∈ (u.signed b places).1.structs, ∀ m ∈ d.members, m.2.Plain strict b.shape d.generics) ∧
      ((u.signed b places).2 = [] → Signed strict b.shape (u.signed b places).1) := by
  unfold SourceUnit.signed at hclean ⊢
  simp only [List.append_eq_nil_iff] at hclean ⊢
  have hresolved : Checking.Forms strict (fun _ => True) _
      (b.resolveStructs .direct u (u.structDecls.zip places)) := resolveStructs_forms hb hu _
  have hsigned : Checking.Forms strict (fun _ => True) _ (b.resolveFns .direct u u.fnHeads) :=
    resolveFns_forms hb hu u.fnHeads
  have hresolved := (hresolved () fun hs => (hclean hs).1.1).1
  have hsigned := (hsigned () fun hs => (hclean hs).1.2).1
  -- From here on only the properties of the resolved members and signatures matter.
  generalize (b.resolveStructs .direct u (u.structDecls.zip places) ()).value = members at *
  generalize (b.resolveFns .direct u u.fnHeads ()).value = fns at *
  obtain ⟨functions, hdeclared⟩ := (u.setMembers members).declareFns_eq fns
  refine ⟨fun name t ht => ?_, ?_, fun hfound head hhead => ?_⟩
  · rcases SourceUnit.functions_declareFns _ fns ht with hold | ⟨e, he, rfl⟩
    · exact hu.functions name t hold
    · exact ⟨e.2, rfl, hsigned.1 e he⟩
  · rw [hdeclared]
    exact SourceUnit.plain_setMembers hu.members hresolved hplaced
  · rw [SourceUnit.fnHeads, SourceUnit.file_declareFns] at hhead
    obtain ⟨s, hs, hsigns⟩ := hsigned.2 head hhead
    exact ⟨s, (SourceUnit.get?_declareFns _ fns hfound.2).2 _ hs, hsigns⟩

/-- The declare stage makes a sound bundle, and without findings every function gets a signature of
its own. -/
theorem Undeclared.declare_sound (h : b.Undeclared) (hclean : strict = true → b.declare.2 = []) :
    b.declare.1.Sound strict ∧ (b.declare.2 = [] → ∀ i u, b.declare.1.get? i = some u →
      Signed strict b.declare.1.shape u) := by
  have hreports : b.declare.2 = [] → ∀ u ∈ b.units, (u.declared b).2 = [] := by
    intro hfound u hu
    rw [declare_eq] at hfound
    exact List.map_eq_nil_iff.1 (List.flatMap_eq_nil_iff.1 (List.append_eq_nil_iff.1 hfound).2 u hu)
  -- Each unit is signed against the names of all units, which are sound.
  have hsound := h.sound_shelled strict
  have hsigned : ∀ u ∈ b.units, _ := fun u hu => by
    have hunit := hsound.units u.shelled.1 (List.mem_map_of_mem (f := fun u => u.shelled.1) hu)
    have hplaced : ∀ d k, (d, some k) ∈ u.shelled.1.structDecls.zip u.shelled.2.1 →
        u.shelled.1.Holds d k := by
      intro d k hmem
      obtain ⟨namespaces, types, structs, hshelled⟩ := u.shelled_eq
      have hdecls : u.shelled.1.structDecls = u.structDecls := by
        rw [hshelled]
        rfl
      rw [hdecls] at hmem
      exact (u.aliased.1.declareStructs_holds u.structDecls).2 d k hmem
    exact hsound.signed hunit hplaced fun hs => hreports (hclean hs) u hu
  have hget : ∀ i u', b.declare.1.get? i = some u' → ∃ u, b.get? i = some u ∧
      (u.declared b).1 = u' := by
    intro i u' hu'
    rw [get?_declare] at hu'
    exact Option.map_eq_some_iff.1 hu'
  have hunits : ∀ u' ∈ b.declare.1.units, ∃ u ∈ b.units, (u.declared b).1 = u' := by
    intro u' hu'
    rw [declare_eq] at hu'
    exact List.mem_map.1 hu'
  rw [shape_declare]
  refine ⟨Outlined.sound (fun i u' hu' => ?_) (fun u' hu' => ?_) fun u' hu' => ?_,
    fun hfound i u' hu' => ?_⟩
  · obtain ⟨u, hu, rfl⟩ := hget i u' hu'
    exact (h.outlined_shelled hu).of_skeleton (SourceUnit.skeleton_signed _ _ _)
  · obtain ⟨u, hu, rfl⟩ := hunits u' hu'
    rw [shape_declare]
    exact (hsigned u hu).1
  · obtain ⟨u, hu, rfl⟩ := hunits u' hu'
    rw [shape_declare]
    exact (hsigned u hu).2.1
  · obtain ⟨u, hu, rfl⟩ := hget i u' hu'
    have hmem := mem_units_of_get? hu
    exact (hsigned u hmem).2.2 (hreports hfound u hmem)

end Rounds

end Bundle

end Custody
