import Custody.Proofs.Accepted
import Custody.Proofs.Outlines

/-!
# First declarations

Of several declarations of one name the first one counts and each of the others is reported. The
declare stage works in rounds: the second one gives the accepted structs of a unit their places, and
the third one puts members in at these places. Rejected declarations stand in between and have no
place.

`firsts` and `repeats` divide declarations into the two kinds without the rounds. What a unit has
behind the stage is written down with them (`SourceUnit.Undeclared.shelled_fst`,
`SourceUnit.Undeclared.declared_eq_firsts`), and so are the reports of repeated names
(`Bundle.declare_firsts`).
-/

set_option autoImplicit false
set_option maxRecDepth 2000

namespace Custody

/-! ## Firsts and repeats -/

section Firsts

variable {α β : Type}

/-- The elements whose key is neither taken nor that of an element before them. -/
def firsts (key : α → String) : List String → List α → List α
  | _, [] => []
  | taken, a :: as =>
    if key a ∈ taken then firsts key taken as else a :: firsts key (taken ++ [key a]) as

/-- The elements whose key is taken or that of an element before them. -/
def repeats (key : α → String) : List String → List α → List α
  | _, [] => []
  | taken, a :: as =>
    if key a ∈ taken then a :: repeats key taken as else repeats key (taken ++ [key a]) as

variable (key : α → String) {taken : List String} {a : α}

theorem firsts_cons_of_mem (h : key a ∈ taken) (as : List α) :
    firsts key taken (a :: as) = firsts key taken as :=
  if_pos h

theorem firsts_cons_of_not_mem (h : key a ∉ taken) (as : List α) :
    firsts key taken (a :: as) = a :: firsts key (taken ++ [key a]) as :=
  if_neg h

theorem repeats_cons_of_mem (h : key a ∈ taken) (as : List α) :
    repeats key taken (a :: as) = a :: repeats key taken as :=
  if_pos h

theorem repeats_cons_of_not_mem (h : key a ∉ taken) (as : List α) :
    repeats key taken (a :: as) = repeats key (taken ++ [key a]) as :=
  if_neg h

/-- Where all keys are new and different, every element is a first one. -/
theorem firsts_of_nodup {as : List α} (hnodup : (as.map key).Nodup)
    (hnew : ∀ a ∈ as, key a ∉ taken) : firsts key taken as = as ∧ repeats key taken as = [] := by
  induction as generalizing taken with
  | nil => exact ⟨rfl, rfl⟩
  | cons a as ih =>
    obtain ⟨ha, hnodup'⟩ := List.nodup_cons.1 hnodup
    obtain ⟨hnewa, hnew'⟩ := List.forall_mem_cons.1 hnew
    have hrest : ∀ a' ∈ as, key a' ∉ taken ++ [key a] := by
      intro a' ha' hmem
      rcases List.mem_append.1 hmem with hmem | hmem
      · exact hnew' a' ha' hmem
      · exact ha (List.mem_map.2 ⟨a', ha', List.mem_singleton.1 hmem⟩)
    obtain ⟨hfirsts, hrepeats⟩ := ih hnodup' hrest
    rw [firsts_cons_of_not_mem key hnewa, repeats_cons_of_not_mem key hnewa, hfirsts, hrepeats]
    exact ⟨rfl, rfl⟩

theorem repeats_map (f : β → α) (taken : List String) (bs : List β) :
    repeats key taken (bs.map f) = (repeats (fun b => key (f b)) taken bs).map f := by
  induction bs generalizing taken with
  | nil => rfl
  | cons b bs ih =>
    rw [List.map_cons, repeats, repeats]
    by_cases hb : key (f b) ∈ taken
    · rw [if_pos hb, if_pos hb, ih, List.map_cons]
    · rw [if_neg hb, if_neg hb, ih]

/-- A name that is not taken stands for the first entry that it has. -/
theorem lookup_firsts (taken : List String) (new : List (String × β)) (name : String) :
    (firsts Prod.fst taken new).lookup name = if name ∈ taken then none else new.lookup name := by
  induction new generalizing taken with
  | nil => simp [firsts]
  | cons e new ih =>
    obtain ⟨x, b⟩ := e
    by_cases hx : x ∈ taken
    · rw [firsts_cons_of_mem Prod.fst hx, ih]
      by_cases hname : name ∈ taken
      · rw [if_pos hname, if_pos hname]
      · have hne : name ≠ x := fun heq => hname (heq ▸ hx)
        rw [if_neg hname, if_neg hname, NameMap.lookup_cons_of_ne hne]
    · rw [firsts_cons_of_not_mem Prod.fst hx]
      by_cases hname : name = x
      · subst hname
        rw [if_neg hx, List.lookup_cons_self, List.lookup_cons_self]
      · rw [NameMap.lookup_cons_of_ne hname, NameMap.lookup_cons_of_ne hname, ih]
        simp [hname]

theorem lookup_map_entries (name : String) (f : α → String) (g : α → β) (as : List α) :
    (as.map fun a => (f a, g a)).lookup name = (as.find? fun a => f a == name).map g := by
  induction as with
  | nil => rfl
  | cons a as ih =>
    by_cases hname : f a = name
    · simp [hname]
    · rw [List.map_cons, NameMap.lookup_cons_of_ne (Ne.symm hname), ih,
        List.find?_cons_of_neg (by simpa using hname)]

end Firsts

/-! ## Adding to a map -/

namespace NameMap

variable {α : Type} {m : NameMap α} {name : String} {a : α}

theorem get?_eq_none_iff : m.get? name = none ↔ name ∉ m.entries.map Prod.fst := by
  rw [get?, List.lookup_eq_none_iff, List.mem_map]
  constructor
  · rintro h ⟨e, he, rfl⟩
    exact bne_self_eq_false e.1 ▸ h e he |> Bool.false_ne_true
  · intro h e he
    exact bne_iff_ne.2 fun heq => h ⟨e, he, heq.symm⟩

theorem insertNew_of_not_mem (h : name ∉ m.entries.map Prod.fst) :
    m.insertNew name a = .ok ⟨m.entries ++ [(name, a)]⟩ := by
  rw [insertNew, get?_eq_none_iff.2 h]

theorem insertNew_of_mem (h : name ∈ m.entries.map Prod.fst) :
    ∃ existing, m.insertNew name a = .error existing := by
  cases hget : m.get? name with
  | none => exact absurd h (get?_eq_none_iff.1 hget)
  | some existing => exact ⟨existing, by rw [insertNew, hget]⟩

/-- A map to which the first ones of some entries are added. -/
def extend (m : NameMap α) (new : List (String × α)) : NameMap α :=
  ⟨m.entries ++ firsts Prod.fst (m.entries.map Prod.fst) new⟩

theorem extend_nil (m : NameMap α) : m.extend [] = m := by
  rw [extend, firsts, List.append_nil]

theorem extend_cons_of_mem (h : name ∈ m.entries.map Prod.fst) (new : List (String × α)) :
    m.extend ((name, a) :: new) = m.extend new := by
  rw [extend, firsts_cons_of_mem Prod.fst h, extend]

theorem extend_cons_of_not_mem (h : name ∉ m.entries.map Prod.fst) (new : List (String × α)) :
    m.extend ((name, a) :: new) = (⟨m.entries ++ [(name, a)]⟩ : NameMap α).extend new := by
  rw [extend, firsts_cons_of_not_mem Prod.fst h, extend, List.append_assoc, List.map_append]
  rfl

theorem get?_extend (m : NameMap α) (new : List (String × α)) (name : String) :
    (m.extend new).get? name = (m.get? name).or (new.lookup name) := by
  rw [get?, extend, List.lookup_append, lookup_firsts]
  have hlookup : m.entries.lookup name = m.get? name := rfl
  rw [hlookup]
  cases hget : m.get? name with
  | none => rw [if_neg (get?_eq_none_iff.1 hget)]
  | some a => rfl

end NameMap

/-! ## Findings that are no repeated names -/

/-- Whether a fault is that of a repeated name. -/
def Fault.isDuplicate : Fault → Bool
  | .duplicateDeclaration _ => true
  | _ => false

/-- A rule finds no repeated names. -/
theorem Checking.Ruled.filter_isDuplicate {σ α : Type} {x : Checking σ α} (h : x.Ruled) (s : σ) :
    (x s).log.findings.filter (·.fault.isDuplicate) = [] := by
  refine List.filter_eq_nil_iff.2 fun f hf hduplicate => ?_
  have hruled := (h s).2 f hf
  cases hfault : f.fault with
  | duplicateDeclaration name => rw [hfault] at hruled; cases hruled
  | _ => rw [hfault] at hduplicate; cases hduplicate

/-! ## The first round -/

/-- What the name of an import stands for, if the import leads to a unit. -/
def ImportLink.entry? (l : ImportLink) : Option (String × Ty) :=
  l.target.map fun target => (l.localName, .unit target)

/-- What is found about an import that leads nowhere. -/
def ImportLink.lost? (l : ImportLink) : Option Finding :=
  if l.target.isNone then some ⟨l.span, .unresolvedImport l.path⟩ else none

theorem ImportLink.lookup_entries (links : List ImportLink) (name : String) :
    (links.filterMap ImportLink.entry?).lookup name =
      ((links.filter (·.target.isSome)).find? (·.localName == name)).bind fun l =>
        l.target.map .unit := by
  induction links with
  | nil => rfl
  | cons l links ih =>
    obtain ⟨localName, path, span, target⟩ := l
    cases target with
    | none => exact ih
    | some target =>
      have hentries : (⟨localName, path, span, some target⟩ :: links).filterMap ImportLink.entry? =
        (localName, .unit target) :: links.filterMap ImportLink.entry? := rfl
      rw [hentries, List.filter_cons_of_pos rfl]
      by_cases hname : localName = name
      · simp [hname]
      · rw [NameMap.lookup_cons_of_ne (Ne.symm hname), ih,
          List.find?_cons_of_neg (by simpa using hname)]

namespace SourceUnit

/-- The aliases of a unit behind the first round, what is found about names that are repeated, and
what is found besides. -/
theorem declareAliases_firsts (u : SourceUnit) (links : List ImportLink) :
    (u.declareAliases links).1 =
        { u with namespaces := u.namespaces.extend (links.filterMap ImportLink.entry?) } ∧
      (u.declareAliases links).2.filter (·.fault.isDuplicate) =
        (repeats ImportLink.localName (u.namespaces.entries.map Prod.fst)
          (links.filter (·.target.isSome))).map (fun l =>
            ⟨l.span, .duplicateDeclaration l.localName⟩) ∧
      (u.declareAliases links).2.filter (fun f => !f.fault.isDuplicate) =
        links.filterMap ImportLink.lost? := by
  induction links generalizing u with
  | nil =>
    refine ⟨?_, rfl, rfl⟩
    rw [List.filterMap_nil, NameMap.extend_nil]
    rfl
  | cons l links ih =>
    obtain ⟨localName, path, span, target⟩ := l
    cases target with
    | none =>
      obtain ⟨hunit, hrepeats, hlost⟩ := ih u
      exact ⟨hunit, hrepeats, congrArg (List.cons _) hlost⟩
    | some target =>
      -- An alias that is taken changes nothing; a new one is seen by all imports behind it.
      by_cases hmem : localName ∈ u.namespaces.entries.map Prod.fst
      · obtain ⟨existing, hinsert⟩ := NameMap.insertNew_of_mem (a := Ty.unit target) hmem
        have hfirst : u.declareAlias ⟨localName, path, span, some target⟩ =
            (u, [⟨span, .duplicateDeclaration localName⟩]) := by
          simp only [declareAlias, hinsert]
        obtain ⟨hunit, hrepeats, hlost⟩ := ih u
        rw [declareAliases, hfirst]
        refine ⟨?_, ?_, hlost⟩
        · exact hunit.trans (by rw [← NameMap.extend_cons_of_mem hmem]; rfl)
        · rw [List.filter_cons_of_pos rfl, repeats_cons_of_mem ImportLink.localName hmem]
          exact congrArg (List.cons _) hrepeats
      · have hinsert := NameMap.insertNew_of_not_mem (a := Ty.unit target) hmem
        have hfirst : u.declareAlias ⟨localName, path, span, some target⟩ =
            ({ u with namespaces := ⟨u.namespaces.entries ++ [(localName, .unit target)]⟩ },
              []) := by
          simp only [declareAlias, hinsert]
        obtain ⟨hunit, hrepeats, hlost⟩ :=
          ih { u with namespaces := ⟨u.namespaces.entries ++ [(localName, .unit target)]⟩ }
        rw [declareAliases, hfirst]
        refine ⟨?_, ?_, hlost⟩
        · exact hunit.trans (by rw [← NameMap.extend_cons_of_not_mem hmem]; rfl)
        · rw [List.filter_cons_of_pos rfl, repeats_cons_of_not_mem ImportLink.localName hmem]
          rw [List.map_append] at hrepeats
          exact hrepeats

/-! ## The second round -/

/-- The struct of a declaration at a place among the structs of unit `i`, before its members are
known. -/
def shellAt (i : Nat) (p : StructDecl × Nat) : StructDef :=
  { id := ⟨i, p.2⟩
    name := p.1.name.name
    span := p.1.name.span
    generics := p.1.generics.map (·.name)
    members := [] }

/-- The declarations that a unit accepts of some structs, with their places. -/
def placed (u : SourceUnit) (ds : List StructDecl) : List (StructDecl × Nat) :=
  (firsts (fun d => d.name.name) (u.types.entries.map Prod.fst) ds).zipIdx u.structs.length

/-- A unit with the structs of accepted declarations, before their members are known. -/
def withShells (u : SourceUnit) (ps : List (StructDecl × Nat)) : SourceUnit :=
  { u with
    types := ⟨u.types.entries ++ ps.map fun p => (p.1.name.name, (shellAt u.id p).ty)⟩
    structs := u.structs ++ ps.map (shellAt u.id) }

theorem declareStruct_of_mem {u : SourceUnit} {d : StructDecl}
    (h : d.name.name ∈ u.types.entries.map Prod.fst) :
    u.declareStruct d = (u, none, [⟨d.name.span, .duplicateDeclaration d.name.name⟩]) := by
  obtain ⟨existing, hinsert⟩ := NameMap.insertNew_of_mem (a := (u.shell d).ty) h
  simp only [declareStruct, hinsert]

theorem declareStruct_of_not_mem {u : SourceUnit} {d : StructDecl}
    (h : d.name.name ∉ u.types.entries.map Prod.fst) :
    u.declareStruct d = (u.withShells [(d, u.structs.length)], some u.structs.length, []) := by
  simp only [declareStruct, NameMap.insertNew_of_not_mem h]
  rfl

theorem placed_cons_of_mem {u : SourceUnit} {d : StructDecl}
    (h : d.name.name ∈ u.types.entries.map Prod.fst) (ds : List StructDecl) :
    u.placed (d :: ds) = u.placed ds := by
  rw [placed, firsts_cons_of_mem (fun d : StructDecl => d.name.name) h, placed]

theorem placed_cons_of_not_mem {u : SourceUnit} {d : StructDecl}
    (h : d.name.name ∉ u.types.entries.map Prod.fst) (ds : List StructDecl) :
    u.placed (d :: ds) =
      (d, u.structs.length) :: (u.withShells [(d, u.structs.length)]).placed ds := by
  rw [placed, firsts_cons_of_not_mem (fun d : StructDecl => d.name.name) h,
    List.zipIdx_cons, placed]
  simp [withShells]

theorem withShells_withShells (u : SourceUnit) (ps qs : List (StructDecl × Nat)) :
    (u.withShells ps).withShells qs = u.withShells (ps ++ qs) := by
  simp [withShells, List.append_assoc]

/-- The accepted structs of a unit behind the second round, the places that they got, and what is
found about the rejected ones. -/
theorem declareStructs_firsts (u : SourceUnit) (ds : List StructDecl) :
    (u.declareStructs ds).1 = u.withShells (u.placed ds) ∧
      (ds.zip (u.declareStructs ds).2.1).filter (·.2.isSome) =
        (u.placed ds).map (fun p => (p.1, some p.2)) ∧
      (u.declareStructs ds).2.2 =
        (repeats (fun d => d.name.name) (u.types.entries.map Prod.fst) ds).map
        fun d => ⟨d.name.span, .duplicateDeclaration d.name.name⟩ := by
  induction ds generalizing u with
  | nil => exact ⟨by simp [declareStructs, withShells, placed, firsts], rfl, rfl⟩
  | cons d ds ih =>
    by_cases hmem : d.name.name ∈ u.types.entries.map Prod.fst
    · -- A rejected declaration has no place and leaves the unit as it is.
      obtain ⟨hunit, hplaces, hfound⟩ := ih u
      rw [declareStructs, declareStruct_of_mem hmem, placed_cons_of_mem hmem,
        repeats_cons_of_mem (fun d : StructDecl => d.name.name) hmem]
      exact ⟨hunit, hplaces, congrArg (List.cons _) hfound⟩
    · obtain ⟨hunit, hplaces, hfound⟩ := ih (u.withShells [(d, u.structs.length)])
      rw [declareStructs, declareStruct_of_not_mem hmem, placed_cons_of_not_mem hmem,
        repeats_cons_of_not_mem (fun d : StructDecl => d.name.name) hmem]
      refine ⟨?_, ?_, ?_⟩
      · exact hunit.trans (withShells_withShells u _ _)
      · exact congrArg (List.cons _) hplaces
      · refine hfound.trans ?_
        simp [withShells]

end SourceUnit

/-! ## The third round -/

namespace Place

variable (place : Place) {known : List (String × Ty)} {m : TypedName}

theorem any_known_iff :
    (known.any fun e => e.1 == m.name.name) = true ↔ m.name.name ∈ known.map Prod.fst := by
  simp

theorem members_cons_of_mem (h : m.name.name ∈ known.map Prod.fst) (ms : List TypedName) :
    (place.members .direct known (m :: ms) ()).value = (place.members .direct known ms ()).value ∧
      (place.members .direct known (m :: ms) ()).log.findings =
        (place.resolve .direct m.type ()).log.findings ++
          ⟨m.name.span, .duplicateDeclaration m.name.name⟩ ::
            (place.members .direct known ms ()).log.findings := by
  rw [members, Checking.bind_eq, if_pos (any_known_iff.2 h), Checking.bind_eq]
  exact ⟨rfl, rfl⟩

theorem members_cons_of_not_mem (h : m.name.name ∉ known.map Prod.fst) (ms : List TypedName) :
    let type := place.resolve .direct m.type ()
    let rest := place.members .direct (known ++ [(m.name.name, type.value)]) ms ()
    (place.members .direct known (m :: ms) ()).value = rest.value ∧
      (place.members .direct known (m :: ms) ()).log.findings = type.log.findings ++
      rest.log.findings := by
  rw [members, Checking.bind_eq, if_neg (mt any_known_iff.1 h)]
  exact ⟨rfl, rfl⟩

/-- The members of a struct, and what is found about names that are repeated. -/
theorem members_firsts (known : List (String × Ty)) (ms : List TypedName) :
    (place.members .direct known ms ()).value =
        known ++ (firsts (fun m => m.name.name) (known.map Prod.fst) ms).map
          (fun m => (m.name.name, (place.resolve .direct m.type ()).value)) ∧
      (place.members .direct known ms ()).log.findings.filter (·.fault.isDuplicate) =
        (repeats (fun m => m.name.name) (known.map Prod.fst) ms).map
          fun m => ⟨m.name.span, .duplicateDeclaration m.name.name⟩ := by
  induction ms generalizing known with
  | nil => exact ⟨(List.append_nil known).symm, rfl⟩
  | cons m ms ih =>
    have hresolve := (place.resolve_ruled .direct m.type).filter_isDuplicate ()
    by_cases hmem : m.name.name ∈ known.map Prod.fst
    · obtain ⟨hvalue, hfound⟩ := place.members_cons_of_mem hmem ms
      obtain ⟨ihvalue, ihfound⟩ := ih known
      rw [hvalue, hfound, List.filter_append, hresolve, List.filter_cons_of_pos rfl,
        ihvalue, ihfound, firsts_cons_of_mem (fun m : TypedName => m.name.name) hmem,
        repeats_cons_of_mem (fun m : TypedName => m.name.name) hmem]
      exact ⟨rfl, rfl⟩
    · obtain ⟨hvalue, hfound⟩ := place.members_cons_of_not_mem hmem ms
      obtain ⟨ihvalue, ihfound⟩ :=
        ih (known ++ [(m.name.name, (place.resolve .direct m.type ()).value)])
      rw [List.map_append] at ihvalue ihfound
      rw [hvalue, hfound, List.filter_append, hresolve, ihvalue, ihfound,
        firsts_cons_of_not_mem (fun m : TypedName => m.name.name) hmem,
        repeats_cons_of_not_mem (fun m : TypedName => m.name.name) hmem, List.append_assoc]
      exact ⟨rfl, rfl⟩

end Place

namespace Bundle

/-- Declarations without a place are passed over. -/
theorem resolveStructs_filter (b : Bundle) (u : SourceUnit) (ds : List (StructDecl × Option Nat)) :
    b.resolveStructs .direct u ds = b.resolveStructs .direct u (ds.filter (·.2.isSome)) := by
  induction ds with
  | nil => rfl
  | cons p ds ih =>
    obtain ⟨d, place⟩ := p
    cases place with
    | none => exact ih
    | some place =>
      rw [List.filter_cons_of_pos rfl, resolveStructs, resolveStructs, ih]

/-- The members of structs do not depend on one another. -/
theorem resolveStructs_eq (b : Bundle) (u : SourceUnit) (ds : List (StructDecl × Nat)) :
    let run := fun d : StructDecl => (b.placeOf u d.generics).members .direct [] d.members ()
    let resolved := b.resolveStructs .direct u (ds.map fun p => (p.1, some p.2)) ()
    resolved.value = ds.map (fun p => (p.2, (run p.1).value)) ∧
      resolved.log.findings = ds.flatMap fun p => (run p.1).log.findings := by
  induction ds with
  | nil => exact ⟨rfl, rfl⟩
  | cons p ds ih =>
    obtain ⟨hvalue, hfindings⟩ := ih
    refine ⟨congrArg (List.cons _) hvalue, ?_⟩
    rw [List.map_cons, resolveStructs, Checking.bind_eq, Checking.bind_eq, List.flatMap_cons,
      ← hfindings]
    exact congrArg (_ ++ ·) (List.append_nil _)

end Bundle

namespace SourceUnit

/-- Members are put in place by place. -/
theorem foldl_modify_members (members : StructDecl → List (String × Ty)) (i : Nat)
    (ds : List StructDecl) (before : List StructDef) :
    ((ds.zipIdx before.length).map fun p => (p.2, members p.1)).foldl
        (fun structs p => structs.modify p.1 fun d => { d with members := p.2 })
        (before ++ (ds.zipIdx before.length).map (shellAt i)) =
      before ++ (ds.zipIdx before.length).map fun p =>
        { shellAt i p with members := members p.1 } := by
  -- The structs in `before` have their members, so the next one to change stands right behind them.
  induction ds generalizing before with
  | nil => rfl
  | cons d ds ih =>
    have hmodify : (before ++ shellAt i (d, before.length) ::
        (ds.zipIdx (before.length + 1)).map (shellAt i)).modify before.length
          (fun s => { s with members := members d }) =
        (before ++ [{ shellAt i (d, before.length) with members := members d }]) ++
          (ds.zipIdx (before.length + 1)).map (shellAt i) := by
      rw [List.modify_eq_take_drop, List.take_left, List.drop_left, List.modifyHead,
        List.append_assoc, List.singleton_append]
    have hrest := ih (before ++ [{ shellAt i (d, before.length) with members := members d }])
    rw [List.length_append, List.length_singleton] at hrest
    rw [List.zipIdx_cons, List.map_cons, List.map_cons, List.map_cons, List.foldl_cons,
      hmodify, hrest, List.append_assoc, List.singleton_append]

/-- The functions of a unit behind the third round, and what is found about the rejected ones. -/
theorem declareFns_firsts (u : SourceUnit) (fns : List (Ident × Signature)) :
    (u.declareFns fns).1 =
        { u with functions := u.functions.extend (fns.map fun e => (e.1.name, e.2.ty)) } ∧
      (u.declareFns fns).2 =
      (repeats (fun e => e.1.name) (u.functions.entries.map Prod.fst) fns).map
        fun e => ⟨e.1.span, .duplicateDeclaration e.1.name⟩ := by
  induction fns generalizing u with
  | nil =>
    refine ⟨?_, rfl⟩
    rw [List.map_nil, NameMap.extend_nil]
    rfl
  | cons e fns ih =>
    obtain ⟨name, signature⟩ := e
    by_cases hmem : name.name ∈ u.functions.entries.map Prod.fst
    · obtain ⟨existing, hinsert⟩ := NameMap.insertNew_of_mem (a := signature.ty) hmem
      obtain ⟨hunit, hfound⟩ := ih u
      rw [declareFns, hinsert, List.map_cons, NameMap.extend_cons_of_mem hmem,
        repeats_cons_of_mem (fun e : Ident × Signature => e.1.name) hmem]
      exact ⟨hunit, congrArg (List.cons _) hfound⟩
    · have hinsert := NameMap.insertNew_of_not_mem (a := signature.ty) hmem
      obtain ⟨hunit, hfound⟩ :=
        ih { u with functions := ⟨u.functions.entries ++ [(name.name, signature.ty)]⟩ }
      rw [List.map_append] at hfound
      rw [declareFns, hinsert, List.map_cons, NameMap.extend_cons_of_not_mem hmem,
        repeats_cons_of_not_mem (fun e : Ident × Signature => e.1.name) hmem]
      exact ⟨hunit, hfound⟩

/-! ## Units behind the rounds -/

/-- The struct declarations of a unit that count. -/
def acceptedStructs (u : SourceUnit) : List StructDecl :=
  firsts (fun d => d.name.name) (Ty.builtins.map Prod.fst) u.structDecls

/-- The struct declarations of a unit that do not count: they have the name of a builtin type or of
a struct before them. -/
def rejectedStructs (u : SourceUnit) : List StructDecl :=
  repeats (fun d => d.name.name) (Ty.builtins.map Prod.fst) u.structDecls

/-- The heads of functions of a unit that have the name of a function before them. -/
def rejectedFns (u : SourceUnit) : List FnHead := repeats (fun head => head.name.name) [] u.fnHeads

/-- The imports of a unit that lead to a unit and have the name of such an import before them. -/
def rejectedImports (u : SourceUnit) : List ImportLink :=
  repeats ImportLink.localName [] (u.imports.filter (·.target.isSome))

/-- A unit with all names that count, before members and signatures are known. -/
def withFirsts (u : SourceUnit) : SourceUnit :=
  { u with
    namespaces := NameMap.empty.extend (u.imports.filterMap ImportLink.entry?)
    types := ⟨Ty.builtins ++ u.acceptedStructs.zipIdx.map fun p =>
      (p.1.name.name, (shellAt u.id p).ty)⟩
    structs := u.acceptedStructs.zipIdx.map (shellAt u.id) }

variable {i : Nat} {u : SourceUnit}

theorem Undeclared.types_entries (hu : u.Undeclared i) : u.types.entries = Ty.builtins := by
  rw [hu.types]
  decide

theorem Undeclared.aliased_fst (hu : u.Undeclared i) : u.aliased.1 =
    { u with namespaces := NameMap.empty.extend (u.imports.filterMap ImportLink.entry?) } := by
  rw [← hu.namespaces]
  exact (u.declareAliases_firsts u.imports).1

theorem Undeclared.placed_aliased (hu : u.Undeclared i) :
    u.aliased.1.placed u.structDecls = u.acceptedStructs.zipIdx := by
  rw [placed, hu.aliased_fst, hu.types_entries, hu.structs]
  rfl

/-- The first two rounds give a unit its names. -/
theorem Undeclared.shelled_fst (hu : u.Undeclared i) : u.shelled.1 = u.withFirsts := by
  rw [shelled, (u.aliased.1.declareStructs_firsts u.structDecls).1, hu.placed_aliased, withShells,
    hu.aliased_fst, hu.types_entries, hu.structs]
  rfl

theorem Undeclared.shelled_findings (hu : u.Undeclared i) : u.shelled.2.2 =
    u.rejectedStructs.map fun d => ⟨d.name.span, .duplicateDeclaration d.name.name⟩ := by
  rw [shelled, (u.aliased.1.declareStructs_firsts u.structDecls).2.2, hu.aliased_fst,
    hu.types_entries]
  rfl

/-- The places that the second round gives to declarations. -/
theorem Undeclared.shelled_places (hu : u.Undeclared i) :
    (u.structDecls.zip u.shelled.2.1).filter (·.2.isSome) =
      u.acceptedStructs.zipIdx.map fun p => (p.1, some p.2) := by
  rw [shelled, (u.aliased.1.declareStructs_firsts u.structDecls).2.1, hu.placed_aliased]

/-- What is resolved for a struct declaration of the unit, against the names of a bundle. -/
def membersOf (b : Bundle) (u : SourceUnit) (d : StructDecl) : Checked Unit (List (String × Ty)) :=
  (b.placeOf u d.generics).members .direct [] d.members ()

/-- What is resolved for a function of the unit, against the names of a bundle. -/
def signatureOf (b : Bundle) (u : SourceUnit) (head : FnHead) : Checked Unit Signature :=
  (b.placeOf u head.generics).signature .direct head ()

/-- The third round resolves the members of the accepted structs, each for the place of its own
declaration. -/
theorem Undeclared.resolveStructs_shelled (hu : u.Undeclared i) (b : Bundle) :
    let resolved :=
  b.shelled.resolveStructs .direct u.withFirsts (u.structDecls.zip u.shelled.2.1) ()
    resolved.value = (u.acceptedStructs.zipIdx.map fun p =>
        (p.2, (u.withFirsts.membersOf b.shelled p.1).value)) ∧
      resolved.log.findings =
        u.acceptedStructs.flatMap fun d => (u.withFirsts.membersOf b.shelled d).log.findings := by
  obtain ⟨hmembers, hfound⟩ := b.shelled.resolveStructs_eq u.withFirsts u.acceptedStructs.zipIdx
  rw [← hu.shelled_places, ← b.shelled.resolveStructs_filter] at hmembers hfound
  refine ⟨hmembers, hfound.trans ?_⟩
  nth_rewrite 2 [← List.zipIdx_map_fst 0 u.acceptedStructs]
  rw [List.flatMap_map]
  rfl

/-- The third round gives the accepted structs their members and the unit its functions. -/
theorem Undeclared.declared_eq_firsts (hu : u.Undeclared i) (b : Bundle) :
    u.declared b =
      ({ u.withFirsts with
          structs := u.acceptedStructs.zipIdx.map fun p =>
            { shellAt u.id p with members := (u.withFirsts.membersOf b.shelled p.1).value }
          functions := NameMap.empty.extend (u.fnHeads.map fun head =>
            (head.name.name, (u.withFirsts.signatureOf b.shelled head).value.ty)) },
        (u.acceptedStructs.flatMap fun d => (u.withFirsts.membersOf b.shelled d).log.findings) ++
          (u.fnHeads.flatMap fun head => (u.withFirsts.signatureOf b.shelled head).log.findings) ++
          u.rejectedFns.map fun head =>
            ⟨head.name.span, .duplicateDeclaration head.name.name⟩) := by
  have hplaced : u.withFirsts.setMembers (u.acceptedStructs.zipIdx.map fun p =>
      (p.2, (u.withFirsts.membersOf b.shelled p.1).value)) = { u.withFirsts with
        structs := u.acceptedStructs.zipIdx.map fun p =>
          { shellAt u.id p with members := (u.withFirsts.membersOf b.shelled p.1).value } } :=
    congrArg (fun structs => { u.withFirsts with structs })
      (foldl_modify_members (fun d => (u.withFirsts.membersOf b.shelled d).value)
        u.id u.acceptedStructs [])
  have hsame : u.withFirsts.structDecls = u.structDecls ∧ u.withFirsts.fnHeads = u.fnHeads :=
    ⟨rfl, rfl⟩
  obtain ⟨hmembers, hfound⟩ := hu.resolveStructs_shelled b
  obtain ⟨hsignatures, hfound'⟩ := b.shelled.resolveFns_eq u.withFirsts u.fnHeads
  have hnone : u.withFirsts.functions = .empty := hu.functions
  rw [declared, hu.shelled_fst, signed, hsame.1, hsame.2]
  dsimp only
  rw [hmembers, hfound, hplaced, hsignatures, hfound', (declareFns_firsts _ _).1,
    (declareFns_firsts _ _).2, hnone, List.map_map, repeats_map, List.map_map]
  rfl

/-- What a unit `u` has behind the declare stage as `u'`, in the bundle `b` that the stage gives.

The structs are those of the declarations that count, in order, each with the number of its place,
and with the first members of each name. The name of a type is that of a builtin type or of one of
these structs. The name of a function or of an import stands for the first one of that name; imports
that lead nowhere do not count. -/
structure FirstsCount (b : Bundle) (i : Nat) (u u' : SourceUnit) : Prop where
  structs : u'.structs = u.acceptedStructs.zipIdx.map fun p =>
    { id := ⟨i, p.2⟩
      name := p.1.name.name
      span := p.1.name.span
      generics := p.1.generics.map (·.name)
      members := (firsts (fun m => m.name.name) [] p.1.members).map fun m =>
        (m.name.name, ((b.placeOf u' p.1.generics).resolve .direct m.type ()).value) }
  types : ∀ name, u'.types.get? name =
    (Ty.builtins.lookup name).or ((u'.structs.find? (·.name == name)).map StructDef.ty)
  functions : ∀ name, u'.functions.get? name =
    (u.fnHeads.find? (·.name.name == name)).map fun head =>
    ((b.placeOf u' head.generics).signature .direct head ()).value.ty
  namespaces : ∀ name, u'.namespaces.get? name =
    ((u.imports.filter (·.target.isSome)).find? (·.localName == name)).bind fun l =>
      l.target.map .unit

/-- What is found about the imports of a unit that repeat a name. -/
def repeatedImports (u : SourceUnit) : List Finding :=
  u.rejectedImports.map fun l => ⟨l.span, .duplicateDeclaration l.localName⟩

/-- What is found about the structs of a unit that repeat a name. -/
def repeatedStructs (u : SourceUnit) : List Finding :=
  u.rejectedStructs.map fun d => ⟨d.name.span, .duplicateDeclaration d.name.name⟩

/-- What is found about the members of accepted structs that repeat a name. -/
def repeatedMembers (u : SourceUnit) : List Finding :=
  u.acceptedStructs.flatMap fun d => (repeats (fun m => m.name.name) [] d.members).map fun m =>
    ⟨m.name.span, .duplicateDeclaration m.name.name⟩

/-- What is found about the functions of a unit that repeat a name. -/
def repeatedFns (u : SourceUnit) : List Finding :=
  u.rejectedFns.map fun head => ⟨head.name.span, .duplicateDeclaration head.name.name⟩

theorem Undeclared.duplicates_aliased (hu : u.Undeclared i) :
    u.aliased.2.filter (·.fault.isDuplicate) = u.repeatedImports := by
  refine (u.declareAliases_firsts u.imports).2.1.trans ?_
  rw [hu.namespaces]
  rfl

theorem Undeclared.duplicates_shelled (hu : u.Undeclared i) :
    u.shelled.2.2.filter (·.fault.isDuplicate) = u.repeatedStructs := by
  rw [hu.shelled_findings]
  exact List.filter_eq_self.2 fun f hf => by
    obtain ⟨d, -, rfl⟩ := List.mem_map.1 hf
    rfl

theorem Undeclared.duplicates_declared (hu : u.Undeclared i) (b : Bundle) :
    (u.declared b).2.filter (·.fault.isDuplicate) = u.repeatedMembers ++ u.repeatedFns := by
  have hfns : u.repeatedFns.filter (·.fault.isDuplicate) = u.repeatedFns :=
    List.filter_eq_self.2 fun f hf => by
      obtain ⟨head, -, rfl⟩ := List.mem_map.1 hf
      rfl
  have hsignatures : (u.fnHeads.flatMap fun head =>
      (u.withFirsts.signatureOf b.shelled head).log.findings).filter
        (·.fault.isDuplicate) = [] := by
    rw [List.filter_flatMap, List.flatMap_eq_nil_iff]
    intro head _
    exact (Place.signature_ruled _ .direct head).filter_isDuplicate ()
  have hmembers : (u.acceptedStructs.flatMap fun d =>
      (u.withFirsts.membersOf b.shelled d).log.findings).filter (·.fault.isDuplicate) =
        u.repeatedMembers := by
    rw [List.filter_flatMap]
    refine List.flatMap_congr fun d _ => ?_
    exact ((b.shelled.placeOf u.withFirsts d.generics).members_firsts [] d.members).2
  rw [hu.declared_eq_firsts]
  dsimp only
  rw [List.filter_append, List.filter_append, hmembers, hsignatures, List.append_nil]
  exact congrArg (u.repeatedMembers ++ ·) hfns

theorem Undeclared.firstsCount {b : Bundle} (hb : b.Undeclared) (hu : b.get? i = some u) :
    u.FirstsCount b.declare.1 i (u.declared b).1 := by
  have hfresh := hb i u hu
  have hdeclared : b.declare.1.get? i = some (u.declared b).1 := by
    rw [Bundle.get?_declare, hu]
    rfl
  have hstructs : (u.declared b).1.structs = u.acceptedStructs.zipIdx.map fun p =>
      { shellAt u.id p with members := (u.withFirsts.membersOf b.shelled p.1).value } := by
    rw [hfresh.declared_eq_firsts]
  constructor
  · rw [hstructs, hfresh.id]
    refine List.map_congr_left fun p _ => ?_
    -- Members are resolved among the shells, and in the declared bundle they resolve alike.
    have hmembers := ((b.shelled.placeOf u.withFirsts p.1.generics).members_firsts [] p.1.members).1
    rw [membersOf, hmembers, List.nil_append, ← hfresh.shelled_fst]
    simp only [Bundle.resolve_declared]
    rfl
  · intro name
    have htypes : (u.declared b).1.types = ⟨Ty.builtins ++ u.acceptedStructs.zipIdx.map fun p =>
        (p.1.name.name, (shellAt u.id p).ty)⟩ := by
      rw [hfresh.declared_eq_firsts]
      rfl
    rw [htypes, hstructs, NameMap.get?, List.lookup_append, lookup_map_entries, List.find?_map,
      Option.map_map]
    rfl
  · intro name
    have hempty : ∀ u ∈ b.units, u.functions = .empty := by
      intro u hu
      obtain ⟨j, hj⟩ := List.getElem?_of_mem hu
      exact (hb j u hj).functions
    have hheads : (u.declared b).1.fnHeads = u.fnHeads := by
      rw [hfresh.declared_eq_firsts]
      rfl
    rw [Bundle.functions_declare hdeclared hempty name, hheads]
  · intro name
    have hnamespaces : (u.declared b).1.namespaces =
        NameMap.empty.extend (u.imports.filterMap ImportLink.entry?) := by
      rw [hfresh.declared_eq_firsts]
      rfl
    rw [hnamespaces, NameMap.get?_extend, ImportLink.lookup_entries]
    rfl

end SourceUnit

/-! ## The stage -/

namespace Bundle

/-- The reports of repeated names in a bundle: imports, then structs, then what is found in each
unit among members and functions. -/
def repeatedNames (b : Bundle) : List Report :=
  (b.units.flatMap fun u => u.repeatedImports.map u.declareReport) ++
    (b.units.flatMap fun u => u.repeatedStructs.map u.declareReport) ++
    b.units.flatMap fun u => (u.repeatedMembers ++ u.repeatedFns).map u.declareReport

theorem duplicates_flatMap {us : List SourceUnit} {found expected : SourceUnit → List Finding}
    (h : ∀ u ∈ us, (found u).filter (·.fault.isDuplicate) = expected u) :
    (us.flatMap fun u => (found u).map u.declareReport).filter (·.fault.isDuplicate) =
      us.flatMap fun u => (expected u).map u.declareReport := by
  rw [List.filter_flatMap]
  refine List.flatMap_congr fun u hu => ?_
  rw [List.filter_map, ← h u hu]
  rfl

/-- In a bundle of which nothing is declared yet, the first declaration of each name counts in every
unit, and each other one is reported once, at its own place. -/
theorem declare_firsts {b : Bundle} (hb : b.Undeclared) :
    (∀ i u, b.get? i = some u →
      ∃ u', b.declare.1.get? i = some u' ∧ u.FirstsCount b.declare.1 i u') ∧
      b.declare.2.filter (·.fault.isDuplicate) = b.repeatedNames := by
  constructor
  · intro i u hu
    refine ⟨(u.declared b).1, ?_, SourceUnit.Undeclared.firstsCount hb hu⟩
    rw [get?_declare, hu]
    rfl
  · have hfresh : ∀ u ∈ b.units, ∃ i, u.Undeclared i := by
      intro u hu
      obtain ⟨i, hi⟩ := List.getElem?_of_mem hu
      exact ⟨i, hb i u hi⟩
    rw [declare_eq]
    dsimp only
    rw [List.filter_append, List.filter_append, repeatedNames]
    congr 1
    · congr 1
      · refine duplicates_flatMap fun u hu => ?_
        obtain ⟨i, hi⟩ := hfresh u hu
        exact hi.duplicates_aliased
      · refine duplicates_flatMap fun u hu => ?_
        obtain ⟨i, hi⟩ := hfresh u hu
        exact hi.duplicates_shelled
    · refine duplicates_flatMap fun u hu => ?_
      obtain ⟨i, hi⟩ := hfresh u hu
      exact hi.duplicates_declared b

/-- Two files, of which the first one repeats the names of an import, a struct, a builtin type, a
member and a function. -/
def sameNames : List (String × String) :=
  [("main.liam", "import \"box.liam\" b; import \"main.liam\" b;
struct T { v: u64, v: bool }
struct T { w: u64 }
struct u64 { }
struct V { t: T }
fn f() { }
fn f(x: T) { }"),
    ("box.liam", "struct Box { v: u64 }")]

/-- Of six declarations at the top of `main` that name a struct or a function, three count, and `V`
has its own member. -/
theorem declare_firsts_sameNames :
    ∃ b : Bundle, b.Undeclared ∧
      b.declare.2.map Report.fault = ["b", "T", "u64", "v", "f"].map Fault.duplicateDeclaration ∧
      ((b.declare.1.get? 0).map fun u => u.structs.map fun d => (d.name, d.members.map Prod.fst)) =
        some [("T", ["v"]), ("V", ["t"])] ∧
      (∀ i u, b.get? i = some u →
        ∃ u', b.declare.1.get? i = some u' ∧ u.FirstsCount b.declare.1 i u') ∧
      b.declare.2.filter (·.fault.isDuplicate) = b.repeatedNames := by
  have htexts : ((ofTexts sameNames).any fun b =>
      b.declare.2.map Report.fault == ["b", "T", "u64", "v", "f"].map Fault.duplicateDeclaration &&
        ((b.declare.1.get? 0).map fun u => u.structs.map fun d =>
          (d.name, d.members.map Prod.fst)) == some [("T", ["v"]), ("V", ["t"])]) = true :=
    any_ofTexts (.cons rfl (.cons rfl .nil)) (by decide +kernel)
  simp only [Option.any_eq_true, Bool.and_eq_true, beq_iff_eq] at htexts
  obtain ⟨b, hb, hfaults, hstructs⟩ := htexts
  have hundeclared := (parsed_of_ofTexts hb).undeclared
  exact ⟨b, hundeclared, hfaults, hstructs, declare_firsts hundeclared⟩

end Bundle

end Custody
