import Custody.Proofs.Accepted
import Custody.Proofs.MirroredPasses
import Mathlib.Data.Finset.Dedup
import Mathlib.Data.Finset.Card

/-!
# Instances kept and made anew

A memo hands out again what it made before. It looks structs up by their labels, and an instance
shows the name of its struct; so the memo can only be noticed where one label stands for structs of
two names. In a bundle whose structs are labelled by their places (`Bundle.Numbered`) it does not:
the passes leave the same bundle and give the same reports and faults with a memo for both of them,
with a new memo for each, and without one (`memo_unobservable`). Nor can any sequence of requests
tell the difference, and the memo then holds as many structs as different ones were asked for.
-/

set_option autoImplicit false

namespace Custody

/-! ## Labels that are places -/

/-- The unit has the number, and its structs are labelled by their places. -/
structure SourceUnit.Numbered (i : Nat) (u : SourceUnit) : Prop where
  id : u.id = i
  structs : ∀ (k : Nat) (d : StructDef), u.structs[k]? = some d → d.id = ⟨i, k⟩

/-- All units and structs are labelled by their places. So it is with every bundle to which units
were added one after the other. -/
def Bundle.Numbered (b : Bundle) : Prop := ∀ i u, b.get? i = some u → u.Numbered i

/-- A struct with the label has the name. -/
def Bundle.Names (b : Bundle) (id : StructId) (name : String) : Prop :=
  ∃ d, b.struct? id = some d ∧ d.name = name

theorem Bundle.Names.unique {b : Bundle} {id : StructId} {name name' : String} (h : b.Names id name)
    (h' : b.Names id name') : name = name' := by
  obtain ⟨d, hd, rfl⟩ := h
  obtain ⟨d', hd', rfl⟩ := h'
  exact congrArg StructDef.name (Option.some.inj (hd.symm.trans hd'))

namespace SourceUnit

variable {i : Nat} {u : SourceUnit}

theorem Numbered.declareStruct (h : u.Numbered i) (d : StructDecl) :
    (u.declareStruct d).1.Numbered i := by
  rw [SourceUnit.declareStruct]
  cases u.types.insertNew d.name.name (u.shell d).ty with
  | error existing => exact h
  | ok types =>
    refine ⟨h.id, fun k d' hd' => ?_⟩
    rw [List.getElem?_append] at hd'
    split at hd'
    · exact h.structs k d' hd'
    · -- The new struct stands behind the others.
      have hlast := (List.getElem?_eq_some_iff.1 hd').1
      have hk : k = u.structs.length := by
        rw [List.length_singleton] at hlast
        omega
      subst hk
      rw [Nat.sub_self] at hd'
      obtain rfl := Option.some.inj hd'
      exact congrArg (StructId.mk · _) h.id

theorem Numbered.declareStructs (h : u.Numbered i) (ds : List StructDecl) :
    (u.declareStructs ds).1.Numbered i := by
  induction ds generalizing u with
  | nil => exact h
  | cons d ds ih => exact ih (h.declareStruct d)

theorem Numbered.shelled (h : u.Numbered i) : u.shelled.1.Numbered i := by
  refine Numbered.declareStructs ?_ u.structDecls
  obtain ⟨namespaces, haliased⟩ := u.aliased_eq
  rw [haliased]
  exact ⟨h.id, h.structs⟩

theorem Numbered.of_skeleton {u' : SourceUnit} (hskeleton : u'.skeleton = u.skeleton)
    (h : u.Numbered i) : u'.Numbered i := by
  refine ⟨(congrArg SourceUnit.id hskeleton).trans h.id, fun k d' hd' => ?_⟩
  have hstructs : u'.structs.map StructDef.withoutMembers =
      u.structs.map StructDef.withoutMembers :=
    congrArg SourceUnit.structs hskeleton
  have hplace : (u'.structs.map StructDef.withoutMembers)[k]? = _ := congrArg (·[k]?) hstructs
  rw [List.getElem?_map, List.getElem?_map, hd'] at hplace
  obtain ⟨d, hd, hsame⟩ := Option.map_eq_some_iff.1 hplace.symm
  exact (congrArg StructDef.id hsame).symm.trans (h.structs k d hd)

end SourceUnit

namespace Bundle

variable {b : Bundle}

theorem Undeclared.numbered (h : b.Undeclared) : b.Numbered := by
  intro i u hu
  refine ⟨(h i u hu).id, fun k d hd => ?_⟩
  rw [(h i u hu).structs] at hd
  cases hd

theorem Numbered.shelled (h : b.Numbered) : b.shelled.Numbered := by
  intro i u hu
  rw [get?, Bundle.shelled, List.getElem?_map] at hu
  obtain ⟨u₀, hu₀, rfl⟩ := Option.map_eq_some_iff.1 hu
  exact (h i u₀ hu₀).shelled

theorem Numbered.declare (h : b.Numbered) : b.declare.1.Numbered := by
  intro i u hu
  have hskeleton : b.declare.1.skeleton.get? i = _ := congrArg (·.get? i) b.skeleton_declare
  rw [get?_skeleton, get?_skeleton, hu] at hskeleton
  obtain ⟨u₀, hu₀, hsame⟩ := Option.map_eq_some_iff.1 hskeleton.symm
  exact (h.shelled i u₀ hu₀).of_skeleton hsame.symm

theorem Numbered.known (h : b.Numbered) : b.Known b.Names := by
  intro u hu d hd
  obtain ⟨i, hi⟩ := List.mem_iff_getElem?.1 hu
  obtain ⟨k, hk⟩ := List.mem_iff_getElem?.1 hd
  refine ⟨d, ?_, rfl⟩
  rw [(h i u hi).structs k d hk]
  exact Bundle.struct?_of_get? hi hk

end Bundle

/-! ## The memo -/

namespace Memo

variable {known : StructId → String → Prop} {m : Memo}

/-- What the memo has is what would be made anew. -/
structure Faithful (known : StructId → String → Prop) (m : Memo) : Prop where
  structs : ∀ e ∈ m.structs, ∀ name, known e.1.1 name → e.2 = .inst e.1.1 name e.1.2
  fns : ∀ e ∈ m.fns, e.2 = e.1.1.substitute e.1.2

theorem faithful_empty (known : StructId → String → Prop) : Memo.empty.Faithful known :=
  ⟨fun _ he => absurd he List.not_mem_nil, fun _ he => absurd he List.not_mem_nil⟩

theorem mem_of_lookup {α β : Type} [BEq α] [LawfulBEq α] {key : α} {value : β}
    {entries : List (α × β)} (h : entries.lookup key = some value) : (key, value) ∈ entries := by
  obtain ⟨before, after, rfl, _⟩ := List.lookup_eq_some_iff.1 h
  exact List.mem_append_right _ List.mem_cons_self

theorem not_mem_of_lookup {α β : Type} [BEq α] [LawfulBEq α] {key : α} {entries : List (α × β)}
    (h : entries.lookup key = none) : key ∉ entries.map Prod.fst := by
  intro hmem
  obtain ⟨⟨_, value⟩, he, rfl⟩ := List.mem_map.1 hmem
  have hne := List.lookup_eq_none_iff.1 h _ he
  simp at hne

/-- The structs that the memo has, by their labels and arguments. -/
def structKeys (m : Memo) : List (StructId × List Ty) := m.structs.map Prod.fst

/-- A request for a struct gives the instance, and leaves a faithful memo. -/
theorem Faithful.struct (h : m.Faithful known)
    (hunique : ∀ id n n', known id n → known id n' → n = n') {d : StructDef}
    (hd : known d.id d.name) (args : List Ty) :
    (m.struct d args).1 = d.instantiate args ∧ (m.struct d args).2.Faithful known := by
  rw [Memo.struct]
  cases hlookup : m.structs.lookup (d.id, args) with
  | some hit =>
    have hhit : hit = d.instantiate args := h.structs _ (mem_of_lookup hlookup) d.name hd
    exact ⟨hhit, h⟩
  | none =>
    refine ⟨rfl, fun e he name hname => ?_, h.fns⟩
    rcases List.mem_cons.1 he with rfl | he
    · exact congrArg (Ty.inst d.id · args) (hunique d.id _ _ hd hname)
    · exact h.structs e he name hname

/-- A request for a function gives the instance, and leaves a faithful memo. -/
theorem Faithful.fn (h : m.Faithful known) (s : Signature) (args : List Ty) :
    (m.fn s args).1 = s.substitute args ∧ (m.fn s args).2.Faithful known := by
  rw [Memo.fn]
  cases hlookup : m.fns.lookup (s, args) with
  | some hit =>
    have hhit : hit = s.substitute args := h.fns _ (mem_of_lookup hlookup)
    exact ⟨hhit, h⟩
  | none =>
    refine ⟨rfl, h.structs, fun e he => ?_⟩
    rcases List.mem_cons.1 he with rfl | he
    · rfl
    · exact h.fns e he

end Memo

/-- A faithful memo gives what would be made anew. -/
theorem InstanceBuilder.memo_agree {known : StructId → String → Prop}
    (hunique : ∀ id n n', known id n → known id n' → n = n') :
    InstanceBuilder.Agree known (fun m (_ : Unit) => m.Faithful known) .memo .direct := by
  refine ⟨fun d d' hd hid hname args m _ hm => ?_, fun s args m _ hm => ?_⟩
  · obtain ⟨hvalue, hfaithful⟩ := hm.struct hunique hd args
    refine ⟨?_, hfaithful⟩
    change d'.instantiate args = (m.struct d args).1
    rw [hvalue, StructDef.instantiate, StructDef.instantiate, hid, hname]
  · obtain ⟨hvalue, hfaithful⟩ := hm.fn s args
    exact ⟨hvalue.symm, hfaithful⟩

theorem Bundle.memo_agree (b : Bundle) :
    InstanceBuilder.Agree b.Names (fun m (_ : Unit) => m.Faithful b.Names) .memo .direct :=
  InstanceBuilder.memo_agree fun _ _ _ => Names.unique

/-! ## Sequences of requests -/

/-- A request for an instance. -/
inductive InstanceRequest where
  | struct (d : StructDef) (args : List Ty)
  | fn (s : Signature) (args : List Ty)

namespace InstanceRequest

/-- The struct that is asked for, by its label and arguments. -/
def structKey? : InstanceRequest → Option (StructId × List Ty)
  | struct d args => some (d.id, args)
  | fn _ _ => none

/-- What a builder gives. -/
def serve {σ : Type} (builder : InstanceBuilder σ) : InstanceRequest → σ → (Ty ⊕ Signature) × σ
  | struct d args, s => (.inl (builder.struct d args s).1, (builder.struct d args s).2)
  | fn signature args, s => (.inr (builder.fn signature args s).1, (builder.fn signature args s).2)

/-- What a builder gives to requests, one after the other. -/
def serveAll {σ : Type} (builder : InstanceBuilder σ) :
    List InstanceRequest → σ → List (Ty ⊕ Signature) × σ
  | [], s => ([], s)
  | r :: rs, s =>
    let (answer, s) := r.serve builder s
    let (answers, s) := serveAll builder rs s
    (answer :: answers, s)

variable {σ σ' : Type} {known : StructId → String → Prop} {I : σ → σ' → Prop}
  {builder : InstanceBuilder σ} {builder' : InstanceBuilder σ'}

theorem serve_agree (h : InstanceBuilder.Agree known I builder builder') (r : InstanceRequest)
    (hr : ∀ d args, r = .struct d args → known d.id d.name) {s : σ} {s' : σ'} (hs : I s s') :
    (r.serve builder s).1 = (r.serve builder' s').1 ∧
      I (r.serve builder s).2 (r.serve builder' s').2 := by
  cases r with
  | struct d args =>
    obtain ⟨hvalue, hinstances⟩ := h.struct d d (hr d args rfl) rfl rfl args s s' hs
    exact ⟨congrArg Sum.inl hvalue.symm, hinstances⟩
  | fn signature args =>
    obtain ⟨hvalue, hinstances⟩ := h.fn signature args s s' hs
    exact ⟨congrArg Sum.inr hvalue.symm, hinstances⟩

theorem serveAll_agree (h : InstanceBuilder.Agree known I builder builder')
    (rs : List InstanceRequest) (hrs : ∀ d args, .struct d args ∈ rs → known d.id d.name) {s : σ}
    {s' : σ'} (hs : I s s') :
    (serveAll builder rs s).1 = (serveAll builder' rs s').1 := by
  induction rs generalizing s s' with
  | nil => rfl
  | cons r rs ih =>
    obtain ⟨hanswer, hinstances⟩ :=
      serve_agree h r (fun d args hr => hrs d args (hr ▸ List.mem_cons_self)) hs
    exact congrArg₂ List.cons hanswer
      (ih (fun d args hr => hrs d args (List.mem_cons_of_mem _ hr)) hinstances)

/-- A memo keeps each struct once: behind a request it has what it had and what was asked for. -/
theorem keys_serve (r : InstanceRequest) {m : Memo} (hm : m.structKeys.Nodup) :
    (r.serve .memo m).2.structKeys.Nodup ∧
      (r.serve .memo m).2.structKeys.toFinset =
        m.structKeys.toFinset ∪ r.structKey?.toList.toFinset := by
  cases r with
  | fn signature args =>
    have hkeys : (m.fn signature args).2.structKeys = m.structKeys := by
      rw [Memo.fn]
      cases m.fns.lookup (signature, args) <;> rfl
    change (m.fn signature args).2.structKeys.Nodup ∧
        (m.fn signature args).2.structKeys.toFinset = _
    rw [hkeys]
    exact ⟨hm, (Finset.union_empty _).symm⟩
  | struct d args =>
    change (m.struct d args).2.structKeys.Nodup ∧ (m.struct d args).2.structKeys.toFinset =
      m.structKeys.toFinset ∪ [(d.id, args)].toFinset
    rw [Memo.struct]
    cases hlookup : m.structs.lookup (d.id, args) with
    | some hit =>
      have hmem : (d.id, args) ∈ m.structKeys := List.mem_map_of_mem (Memo.mem_of_lookup hlookup)
      refine ⟨hm, (Finset.union_eq_left.2 ?_).symm⟩
      intro key hkey
      rw [List.mem_toFinset, List.mem_singleton] at hkey
      rw [List.mem_toFinset, hkey]
      exact hmem
    | none =>
      have hnew : (d.id, args) ∉ m.structKeys := Memo.not_mem_of_lookup hlookup
      refine ⟨List.nodup_cons.2 ⟨hnew, hm⟩, ?_⟩
      change ((d.id, args) :: m.structKeys).toFinset = _
      rw [List.toFinset_cons, Finset.insert_eq, Finset.union_comm]
      rfl

theorem keys_serveAll (rs : List InstanceRequest) {m : Memo} (hm : m.structKeys.Nodup) :
    (serveAll .memo rs m).2.structKeys.Nodup ∧ (serveAll .memo rs m).2.structKeys.toFinset =
      m.structKeys.toFinset ∪ (rs.filterMap structKey?).toFinset := by
  induction rs generalizing m with
  | nil => exact ⟨hm, (Finset.union_empty _).symm⟩
  | cons r rs ih =>
    obtain ⟨hnodup, hkeys⟩ := keys_serve r hm
    obtain ⟨hnodup', hkeys'⟩ := ih hnodup
    have hasked : ((r :: rs).filterMap structKey?).toFinset =
        r.structKey?.toList.toFinset ∪ (rs.filterMap structKey?).toFinset := by
      rw [← List.toFinset_append, List.filterMap_cons]
      cases r.structKey? <;> rfl
    rw [hasked, ← Finset.union_assoc, ← hkeys]
    exact ⟨hnodup', hkeys'⟩

/-- A memo that starts out empty ends with as many structs as different ones were asked for. -/
theorem structCount_serveAll (rs : List InstanceRequest) :
    (serveAll .memo rs .empty).2.structCount = (rs.filterMap structKey?).toFinset.card := by
  obtain ⟨hnodup, hkeys⟩ := keys_serveAll rs (m := .empty) List.nodup_nil
  calc (serveAll .memo rs .empty).2.structCount
      = (serveAll .memo rs .empty).2.structKeys.length := (List.length_map _).symm
    _ = (serveAll .memo rs .empty).2.structKeys.toFinset.card :=
      (List.toFinset_card_of_nodup hnodup).symm
    _ = (rs.filterMap structKey?).toFinset.card := by
      rw [hkeys]
      exact congrArg Finset.card (Finset.empty_union _)

end InstanceRequest

/-! ## The passes -/

theorem StructDef.eq_of_resembles {d d' : StructDef} (h : d.Resembles (.refile fun i => i) d') :
    d' = d := by
  have hspan : d'.span = d.span := h.span
  obtain ⟨id, name, span, generics, members⟩ := d
  obtain ⟨id', name', span', generics', members'⟩ := d'
  obtain ⟨rfl, rfl, rfl, rfl, _⟩ := h
  exact congrArg (StructDef.mk _ _ · _ _) hspan

/-- Two units that were read alike and have the same names in them are the same. -/
theorem SourceUnit.eq_of_resembles {u u' : SourceUnit} (hread : u'.asRead = u.asRead)
    (h : u.Resembles (.refile fun i => i) u') : u' = u := by
  have hstructs :=
    eq_map_of_forall₂ (g := fun d => d) h.structs fun _ _ hd => StructDef.eq_of_resembles hd
  rw [List.map_id'] at hstructs
  obtain ⟨id, path, source, tokens, file, imports, types, functions, namespaces, structs, table⟩ :=
    u
  obtain ⟨id', path', source', tokens', file', imports', types', functions', namespaces', structs',
    table'⟩ := u'
  obtain ⟨rfl, rfl, rfl, rfl, rfl, rfl, _⟩ := SourceUnit.mk.inj hread
  obtain rfl : types' = types := h.types
  obtain rfl : functions' = functions := h.functions
  obtain rfl : namespaces' = namespaces := h.namespaces
  obtain rfl : table' = table := h.table
  obtain rfl : structs' = structs := hstructs
  rfl

namespace Bundle

variable {b b' : Bundle}

theorem eq_of_resembles (hread : b'.asRead = b.asRead)
    (h : b.Resembles (fun _ => .refile fun i => i) b') : b' = b := by
  obtain ⟨units⟩ := b
  obtain ⟨units'⟩ := b'
  have hmap : units'.map SourceUnit.asRead = units.map SourceUnit.asRead :=
    congrArg Bundle.units hread
  change List.Forall₂ _ units units' at h
  refine congrArg Bundle.mk ?_
  clear hread
  induction h with
  | nil => rfl
  | cons hu _ ih =>
    obtain ⟨hhead, htail⟩ := List.cons.inj hmap
    rw [SourceUnit.eq_of_resembles hhead hu, ih htail]

theorem resembles_self (b : Bundle) : b.Resembles (fun _ => .refile fun i => i) b := by
  refine List.forall₂_same.2 fun u _ => ?_
  refine ⟨rfl, rfl, ⟨?_, rfl⟩, ?_, rfl, rfl, rfl, ?_, rfl⟩
  · have hitems := Stmt.resembles_refileAll (φ := fun i => i) u.file.items
    rw [Stmt.refileAll_self] at hitems
    exact hitems
  · exact List.forall₂_same.2 fun l _ => ⟨rfl, rfl, rfl, rfl⟩
  · exact List.forall₂_same.2 fun d _ => ⟨rfl, rfl, rfl, rfl, rfl⟩

/-- With spans as they are, reports that answer to each other are the same. -/
theorem reports_eq {owners : List (Nat × Path)} {reports reports' : List Report}
    (h : List.Forall₂ (Report.Answers (fun _ => .refile fun i => i) owners) reports reports') :
    reports' = reports := by
  have hmap := eq_map_of_forall₂ (g := fun r => r) h fun r r' hr => ?_
  · rw [hmap, List.map_id']
  · obtain ⟨_, _, hstage, hfile, hfault, hspan, hnotes⟩ := hr
    have hnotes' := eq_map_of_forall₂ (g := fun n => n) hnotes fun n n' hn => ?_
    · obtain ⟨stage, file, span, fault, notes⟩ := r
      obtain ⟨stage', file', span', fault', notes'⟩ := r'
      rw [List.map_id'] at hnotes'
      obtain rfl : stage' = stage := hstage
      obtain rfl : file' = file := hfile
      obtain rfl : fault' = fault := hfault
      obtain rfl : span' = span := hspan
      obtain rfl : notes' = notes := hnotes'
      rfl
    · obtain ⟨span, message⟩ := n
      obtain ⟨span', message'⟩ := n'
      obtain rfl : message' = message := hn.message
      exact congrArg (Note.mk · _) hn.span

theorem fault_eq {owners : List (Nat × Path)} {fault fault' : Option StructuralFault}
    (h : Option.Rel (StructuralFault.Answers (fun _ => .refile fun i => i) owners) fault fault') :
    fault' = fault := by
  have hmap := eq_map_of_rel (g := fun f => f) h fun f f' hf => ?_
  · rw [hmap, Option.map_id']
  · obtain ⟨_, _, hf⟩ := hf
    exact StructuralFault.Resembles.eq hf

/-- The outcome of a check without the state of its instances. -/
def TypeCheck.withoutInstances {σ : Type} (r : TypeCheck σ) : TypeCheck Unit :=
  { r with instances := () }

theorem declareWith_memo (h : b.Numbered) :
    (b.declareWith .memo .empty).1 = b.declare.1 ∧ (b.declareWith .memo .empty).2.1 = b.declare.2 ∧
      (b.declareWith .memo .empty).2.2.Faithful b.shelled.Names ∧
        b.declare.1.Known b.shelled.Names := by
  have hknown : b.declareAliases.1.declareStructs.1.Known b.shelled.Names := by
    rw [declareStructs_eq]
    exact h.shelled.known
  have hsame : DeclaredAlike _ _ _ _ (b.declareWith .memo .empty) (b.declareWith .direct ()) :=
    declareWith_mirrors b.shelled.memo_agree b.resembles_self hknown
      (Memo.faithful_empty b.shelled.Names)
  have hbundle : b.declare.1 = (b.declareWith .memo .empty).1 :=
    eq_of_resembles
      ((b.asRead_declareWith .direct ()).trans (b.asRead_declareWith .memo .empty).symm)
      hsame.bundle
  refine ⟨hbundle.symm, (reports_eq hsame.reports).symm, hsame.instances, ?_⟩
  rw [hbundle]
  exact hsame.known

theorem checkWith_memo {b₀ : Bundle} (hknown : b.Known b₀.Names) {m : Memo}
    (hm : m.Faithful b₀.Names) : (b.checkWith .memo m).withoutInstances = b.check := by
  have hsame : TypeCheck.Resembles _ _ _ (b.checkWith .memo m) (b.checkWith .direct ()) :=
    checkWith_mirrors b₀.memo_agree b.resembles_self hknown hm
  have hbundle :=
    eq_of_resembles ((b.asRead_checkWith .direct ()).trans (b.asRead_checkWith .memo m).symm)
    hsame.bundle
  have hreports := reports_eq hsame.reports
  have hfault := fault_eq hsame.fault
  rw [check, TypeCheck.withoutInstances, ← hbundle, ← hreports, ← hfault]

/-- A memo cannot be noticed. The declare stage and the type check leave the same bundle and give
the same reports and faults with one memo for both, with a new memo for each of them, and without
one. And whatever instances of the structs of a bundle are asked for, and of whatever functions, an
empty memo gives what would be made anew, and counts the different structs that were asked for. -/
theorem memo_unobservable (b : Bundle) (h : b.Numbered) :
    ((b.declareWith .memo .empty).1, (b.declareWith .memo .empty).2.1) = b.declare ∧
      (b.declare.1.checkWith .memo (b.declareWith .memo .empty).2.2).withoutInstances =
        b.declare.1.check ∧
      (b.declare.1.checkWith .memo .empty).withoutInstances = b.declare.1.check ∧
      (b.declareAndCheckWith .memo .empty).withoutInstances = b.declareAndCheck ∧
      ∀ requests : List InstanceRequest,
        (∀ d args, .struct d args ∈ requests → ∃ id, b.struct? id = some d) →
          (InstanceRequest.serveAll .memo requests .empty).1 =
              (InstanceRequest.serveAll .direct requests ()).1 ∧
            (InstanceRequest.serveAll .memo requests .empty).2.structCount =
              (requests.filterMap InstanceRequest.structKey?).toFinset.card := by
  obtain ⟨hbundle, hreports, hfaithful, hknown⟩ := declareWith_memo h
  have hcarried := checkWith_memo hknown hfaithful
  have hfresh := checkWith_memo hknown (Memo.faithful_empty b.shelled.Names)
  refine ⟨congrArg₂ Prod.mk hbundle hreports, hcarried, hfresh, ?_,
    fun requests hrequests => ⟨?_, ?_⟩⟩
  · rw [declareAndCheckWith, declareAndCheck, declareAndCheckWith]
    have hdirect : (b.declareWith .direct ()).2.1 = b.declare.2 := rfl
    dsimp only
    rw [hreports, hbundle, hdirect]
    split
    · exact hcarried
    · rfl
  · refine InstanceRequest.serveAll_agree b.memo_agree requests (fun d args hd => ?_)
      (Memo.faithful_empty b.Names)
    obtain ⟨id, hd⟩ := hrequests d args hd
    exact h.known.struct? hd
  · exact InstanceRequest.structCount_serveAll requests

section Texts

-- The characters of a text make a deep list.
set_option maxRecDepth 2000

/-- A file that asks for some instances again and again, and returns one of the wrong type. -/
def rowsOfCells : List (String × String) :=
  [("table.liam", "struct Cell[T] { v: T }
struct Row[A, B] { first: Cell[A], second: Cell[B], same: Cell[A] }
fn pick[A, B](r: Row[A, B]) Cell[A] { return r.first; }
fn main(r: Row[u64, bool], s: Row[u64, bool]) Cell[bool] {
  let a: Cell[u64] = pick:[u64, bool](r);
  let b := pick:[u64, bool](s);
  return b;
}")]

/-- The check of this file has one report, with a memo as without. A memo that is asked for two
instances of the first struct, one of them twice, and for one of the second holds three. -/
theorem memo_unobservable_rowsOfCells :
    ∃ b : Bundle, b.Numbered ∧ b.declare.2 = [] ∧ b.declare.1.check.reports.length = 1 ∧
      (b.declareAndCheckWith .memo .empty).reports = b.declare.1.check.reports ∧
      ∃ cell row, b.declare.1.struct? ⟨0, 0⟩ = some cell ∧ b.declare.1.struct? ⟨0, 1⟩ = some row ∧
        (InstanceRequest.serveAll .memo [.struct cell [.bool], .struct row [.bool, .string],
          .struct cell [.string], .struct cell [.bool]] .empty).1 =
            [.inl (.inst ⟨0, 0⟩ "Cell" [.bool]), .inl (.inst ⟨0, 1⟩ "Row" [.bool, .string]),
              .inl (.inst ⟨0, 0⟩ "Cell" [.string]), .inl (.inst ⟨0, 0⟩ "Cell" [.bool])] ∧
        (InstanceRequest.serveAll .memo [.struct cell [.bool], .struct row [.bool, .string],
          .struct cell [.string], .struct cell [.bool]] .empty).2.structCount = 3 := by
  have htexts : ((ofTexts rowsOfCells).any fun b => b.declare.2.isEmpty &&
      b.declare.1.check.reports.length == 1 &&
      (b.declare.1.struct? ⟨0, 0⟩).any (fun d => d.id == ⟨0, 0⟩ && d.name == "Cell") &&
      (b.declare.1.struct? ⟨0, 1⟩).any (fun d => d.id == ⟨0, 1⟩ && d.name == "Row")) = true :=
    any_ofTexts (.cons rfl .nil) (by decide +kernel)
  simp only [Option.any_eq_true, Bool.and_eq_true, beq_iff_eq, List.isEmpty_iff] at htexts
  obtain ⟨b, hb, ⟨⟨hdeclare, hcheck⟩, cell, hcell, hcellId, hcellName⟩, row, hrow, hrowId,
      hrowName⟩ := htexts
  have hnumbered := (parsed_of_ofTexts hb).undeclared.numbered
  obtain ⟨_, _, _, hboth, _⟩ := memo_unobservable b hnumbered
  obtain ⟨_, _, _, _, hrequests⟩ := memo_unobservable b.declare.1 hnumbered.declare
  have hreports : (b.declareAndCheckWith .memo .empty).reports = b.declareAndCheck.reports :=
    congrArg TypeCheck.reports hboth
  have hchecked : b.declareAndCheck = b.declare.1.check := by
    have hdirect : (b.declareWith .direct ()).2.1 = [] := hdeclare
    rw [declareAndCheck, declareAndCheckWith]
    dsimp only
    rw [hdirect]
    rfl
  rw [hchecked] at hreports
  obtain ⟨hanswers, hcount⟩ := hrequests [.struct cell [.bool], .struct row [.bool, .string],
    .struct cell [.string], .struct cell [.bool]] (by
      intro d args hd
      simp only [List.mem_cons, InstanceRequest.struct.injEq, List.not_mem_nil, or_false] at hd
      rcases hd with ⟨rfl, _⟩ | ⟨rfl, _⟩ | ⟨rfl, _⟩ | ⟨rfl, _⟩
      · exact ⟨_, hcell⟩
      · exact ⟨_, hrow⟩
      · exact ⟨_, hcell⟩
      · exact ⟨_, hcell⟩)
  refine ⟨b, hnumbered, hdeclare, hcheck, hreports, cell, row, hcell, hrow, hanswers.trans ?_,
    hcount.trans ?_⟩
  · rw [← hcellId, ← hrowId, ← hcellName, ← hrowName]
    rfl
  · simp only [List.filterMap_cons, InstanceRequest.structKey?, hcellId, hrowId, List.filterMap_nil]
    decide

end Texts

end Bundle

end Custody
