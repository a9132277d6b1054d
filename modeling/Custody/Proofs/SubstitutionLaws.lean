import Custody.Proofs.Coercions
import Custody.Ty.Substitution

/-!
# Laws of substitution

Putting arguments for generic parameters and then arguments for the parameters of the result is one
substitution, by arguments that are substituted themselves (`Ty.substitute_substitute`). The
parameters of a result are those of the arguments that were put in (`Ty.placeholders_substitute`),
so arguments without parameters leave none.

Substitution keeps agreement and coercion (`Ty.agrees_substitute`, `Ty.coerces_substitute`) and it
keeps the choice that the common type makes between its two operands (`Ty.unify_substitute`). So
what was checked of a generic signature holds for each of its instances.
-/

set_option autoImplicit false

namespace Custody.Ty

/-! ## Substitution after substitution -/

mutual
theorem substitute_substitute (args args' : List Ty) : ∀ t : Ty,
    (t.substitute args).substitute args' = t.substitute (args.map (substitute args'))
  | any | void | bool | string => rfl
  | number _ | range _ | struct _ _ _ | unit _ => rfl
  | pointer _ t | array _ t | slice t => by
    simp only [substitute, substitute_substitute args args' t]
  | fn _ ps r => by
    simp only [substitute, substitute_substitute args args' r,
      substituteList_substituteList args args' ps]
  | inst _ _ as => by simp only [substitute, substituteList_substituteList args args' as]
  | generic index _ => by
    -- A place behind the end becomes `any` in the first step, and `any` stays.
    simp only [substitute, List.getElem?_map]
    cases args[index]? with
    | none => rfl
    | some arg => rfl

theorem substituteList_substituteList (args args' : List Ty) : ∀ ts : List Ty,
    substituteList args' (substituteList args ts) = substituteList (args.map (substitute args')) ts
  | [] => rfl
  | t :: ts => by
    simp only [substituteList, substitute_substitute args args' t,
      substituteList_substituteList args args' ts]
end

/-! ## The parameters of a type -/

mutual
/-- The places of the generic parameters in a type, in the order in which they occur. -/
def placeholders : Ty → List Nat
  | generic index _ => [index]
  | pointer _ t => placeholders t
  | array _ t => placeholders t
  | slice t => placeholders t
  | fn _ ps r => placeholdersAll ps ++ placeholders r
  | inst _ _ as => placeholdersAll as
  | _ => []

/-- The places of the generic parameters in some types. -/
def placeholdersAll : List Ty → List Nat
  | [] => []
  | t :: ts => placeholders t ++ placeholdersAll ts
end

mutual
theorem hasGenerics_iff : ∀ t : Ty, t.hasGenerics = true ↔ t.placeholders ≠ []
  | any | void | bool | string => by simp [hasGenerics, placeholders]
  | number _ | range _ | struct _ _ _ | unit _ | generic _ _ => by simp [hasGenerics, placeholders]
  | pointer _ t | array _ t | slice t => hasGenerics_iff t
  | fn _ ps r => by
    rw [hasGenerics, Bool.or_eq_true, anyHasGenerics_iff ps, hasGenerics_iff r, placeholders,
      ne_eq, ne_eq, ne_eq, List.append_eq_nil_iff, Classical.not_and_iff_not_or_not]
  | inst _ _ as => anyHasGenerics_iff as

theorem anyHasGenerics_iff : ∀ ts : List Ty, anyHasGenerics ts = true ↔ placeholdersAll ts ≠ []
  | [] => by simp [anyHasGenerics, placeholdersAll]
  | t :: ts => by
    rw [anyHasGenerics, Bool.or_eq_true, hasGenerics_iff t, anyHasGenerics_iff ts, placeholdersAll,
      ne_eq, ne_eq, ne_eq, List.append_eq_nil_iff, Classical.not_and_iff_not_or_not]
end

/-- The parameters that come with the argument for a place; `any` comes with none. -/
def placeholdersAt (args : List Ty) (index : Nat) : List Nat := (args[index]?.getD any).placeholders

mutual
/-- The parameters of a result are those of the arguments that were put in. -/
theorem placeholders_substitute (args : List Ty) : ∀ t : Ty,
    (t.substitute args).placeholders = t.placeholders.flatMap (placeholdersAt args)
  | any | void | bool | string => rfl
  | number _ | range _ | struct _ _ _ | unit _ => rfl
  | pointer _ t | array _ t | slice t => placeholders_substitute args t
  | fn _ ps r => by
    simp only [substitute, placeholders, placeholdersAll_substituteList args ps,
      placeholders_substitute args r, List.flatMap_append]
  | inst _ _ as => placeholdersAll_substituteList args as
  | generic index _ => by simp [substitute, placeholders, placeholdersAt]

theorem placeholdersAll_substituteList (args : List Ty) : ∀ ts : List Ty,
    placeholdersAll (substituteList args ts) = (placeholdersAll ts).flatMap (placeholdersAt args)
  | [] => rfl
  | t :: ts => by
    simp only [substituteList, placeholdersAll, placeholders_substitute args t,
      placeholdersAll_substituteList args ts, List.flatMap_append]
end

/-- A result has parameters iff one of the arguments that were put in has. -/
theorem hasGenerics_substitute_iff {args : List Ty} {t : Ty} :
    (t.substitute args).hasGenerics = true ↔
    ∃ index ∈ t.placeholders, ∃ arg, args[index]? = some arg ∧ arg.hasGenerics = true := by
  rw [hasGenerics_iff, placeholders_substitute, ne_eq, List.flatMap_eq_nil_iff]
  constructor
  · intro h
    obtain ⟨index, hindex⟩ := Classical.not_forall.1 h
    obtain ⟨hmem, hsome⟩ := Classical.not_imp.1 hindex
    refine ⟨index, hmem, ?_⟩
    rw [placeholdersAt] at hsome
    cases harg : args[index]? with
    | none =>
      rw [harg] at hsome
      exact absurd rfl hsome
    | some arg =>
      rw [harg] at hsome
      exact ⟨arg, rfl, (hasGenerics_iff arg).2 hsome⟩
  · rintro ⟨index, hmem, arg, harg, hgenerics⟩ h
    have hnone : placeholdersAt args index = [] := h index hmem
    rw [placeholdersAt, harg] at hnone
    exact (hasGenerics_iff arg).1 hgenerics hnone

/-! ## Agreement and coercion -/

mutual
theorem agrees_substitute (args : List Ty) : ∀ {t u : Ty}, t.agrees u = true →
    (t.substitute args).agrees (u.substitute args) = true
  | any, _, _ => rfl
  | void, u, h => by
    cases u with
    | any => rfl
    | void => rfl
    | _ => cases h
  | bool, u, h => by
    cases u with
    | any => rfl
    | bool => rfl
    | _ => cases h
  | string, u, h => by
    cases u with
    | any => rfl
    | string => rfl
    | _ => cases h
  | number _, u, h => by
    cases u with
    | any => rfl
    | number _ => exact h
    | _ => cases h
  | range _, u, h => by
    cases u with
    | any => rfl
    | range _ => exact h
    | _ => cases h
  | pointer _ t, u, h => by
    cases u with
    | any => exact agrees_any _
    | pointer _ u =>
      obtain ⟨hkind, htarget⟩ := Bool.and_eq_true_iff.1 h
      exact Bool.and_eq_true_iff.2 ⟨hkind, agrees_substitute args htarget⟩
    | _ => cases h
  | array _ t, u, h => by
    cases u with
    | any => exact agrees_any _
    | array _ u =>
      obtain ⟨hlength, helement⟩ := Bool.and_eq_true_iff.1 h
      exact Bool.and_eq_true_iff.2 ⟨hlength, agrees_substitute args helement⟩
    | _ => cases h
  | slice t, u, h => by
    cases u with
    | any => exact agrees_any _
    | slice u => exact agrees_substitute args (t := t) h
    | _ => cases h
  | fn _ ps r, u, h => by
    cases u with
    | any => exact agrees_any _
    | fn _ qs r' =>
      obtain ⟨hfront, hresult⟩ := Bool.and_eq_true_iff.1 h
      obtain ⟨-, hparams⟩ := Bool.and_eq_true_iff.1 hfront
      -- Behind a substitution no function takes type arguments, so the arities are equal.
      exact Bool.and_eq_true_iff.2
        ⟨Bool.and_eq_true_iff.2 ⟨rfl, allAgree_substituteList args hparams⟩,
          agrees_substitute args hresult⟩
    | _ => cases h
  | struct _ _ _, u, h => by
    cases u with
    | any => rfl
    | struct _ _ _ => exact h
    | _ => cases h
  | inst _ _ as, u, h => by
    cases u with
    | any => exact agrees_any _
    | inst _ _ bs =>
      obtain ⟨hid, hargs⟩ := Bool.and_eq_true_iff.1 h
      exact Bool.and_eq_true_iff.2 ⟨hid, allAgree_substituteList args hargs⟩
    | _ => cases h
  | unit _, u, h => by
    cases u with
    | any => rfl
    | unit _ => exact h
    | _ => cases h
  | generic index _, u, h => by
    cases u with
    | any => exact agrees_any _
    | generic index' _ =>
      obtain rfl : index = index' := beq_iff_eq.1 h
      exact agrees_refl _
    | _ => cases h

theorem allAgree_substituteList (args : List Ty) : ∀ {ts us : List Ty}, allAgree ts us = true →
    allAgree (substituteList args ts) (substituteList args us) = true
  | [], us, h => by
    cases us with
    | nil => rfl
    | cons _ _ => cases h
  | t :: ts, us, h => by
    cases us with
    | nil => cases h
    | cons u us =>
      obtain ⟨hhead, htail⟩ := Bool.and_eq_true_iff.1 h
      exact Bool.and_eq_true_iff.2 ⟨agrees_substitute args hhead,
        allAgree_substituteList args htail⟩
end

/-- The three reasons for a coercion stay: agreement, widening, and the type of `null`. -/
theorem coerces_substitute (args : List Ty) {t u : Ty} (h : t.coerces u = true) :
    (t.substitute args).coerces (u.substitute args) = true := by
  rcases coerces_iff.1 h with hagrees | ⟨x, y, rfl, rfl, -⟩ | ⟨rfl, kind, target, rfl⟩
  · exact coerces_of_agrees (agrees_substitute args hagrees)
  · exact h
  · exact coerces_iff.2 (.inr (.inr ⟨rfl, kind, target.substitute args, rfl⟩))

/-! ## The common type -/

/-- A left operand that is not `any` is chosen before the right one. -/
theorem unify_eq_of_ne_any {t u : Ty} (ht : t ≠ any) :
    t.unify u = if u.coerces t then some t else if t.coerces u then some u else none := by
  unfold unify
  split
  · exact absurd rfl ht
  · rw [any_coerces, if_pos rfl]
  · next x y =>
      by_cases hkind : x.kind = y.kind
      · rw [if_pos hkind]
        by_cases hle : y.width ≤ x.width
        · rw [if_pos hle, if_pos (number_coerces_iff.2 ⟨hkind.symm, hle⟩)]
        · have hnot : ¬ (number y).coerces (number x) = true :=
            fun h => hle (number_coerces_iff.1 h).2
          rw [if_neg hle, if_neg hnot, if_pos (number_coerces_iff.2 ⟨hkind, by omega⟩)]
      · have hnot : ¬ (number y).coerces (number x) = true :=
          fun h => hkind (number_coerces_iff.1 h).1.symm
        have hnot' : ¬ (number x).coerces (number y) = true :=
          fun h => hkind (number_coerces_iff.1 h).1
        rw [if_neg hkind, if_neg hnot, if_neg hnot']
  · rfl

/-- What becomes `any` was `any`, or a parameter whose argument is `any`. -/
theorem substitute_eq_any {args : List Ty} {t : Ty} (h : t.substitute args = any) :
    t = any ∨ ∃ index name, t = generic index name := by
  cases t with
  | any => exact .inl rfl
  | generic index name => exact .inr ⟨index, name, rfl⟩
  | _ => cases h

/-- Whatever coerces to a parameter is `any`, or that parameter under some name. -/
theorem substitute_eq_of_coerces_generic {args : List Ty} {u : Ty} {index : Nat} {name : String}
    (h : u.coerces (generic index name) = true) :
    u = any ∨ u.substitute args = (generic index name).substitute args := by
  rcases coerces_iff.1 h with hagrees | ⟨_, _, -, ⟨⟩, -⟩ | ⟨-, _, _, ⟨⟩⟩
  cases u with
  | any => exact .inl rfl
  | generic index' name' =>
    obtain rfl : index' = index := beq_iff_eq.1 hagrees
    exact .inr rfl
  | _ => cases hagrees

/-- A coercion in one direction only is a widening, or goes from the type of `null` to an owned
pointer. -/
theorem coerces_only_iff {t u : Ty} : (t.coerces u = true ∧ ¬ u.coerces t = true) ↔
    (∃ x y, t = number x ∧ u = number y ∧ x.kind = y.kind ∧ x.width < y.width) ∨
      (t = nullPointer ∧ ∃ target, u = pointer .owned target) := by
  constructor
  · rintro ⟨htu, hut⟩
    rcases coerces_iff.1 htu with hagrees | ⟨x, y, rfl, rfl, hwidens⟩ | ⟨rfl, kind, target, rfl⟩
    · rw [agrees_comm] at hagrees
      exact absurd (coerces_of_agrees hagrees) hut
    · obtain ⟨hkind, hle⟩ := widens_iff.1 hwidens
      have hnot : ¬ y.width ≤ x.width := fun hge => hut (number_coerces_iff.2 ⟨hkind.symm, hge⟩)
      exact .inl ⟨x, y, rfl, rfl, hkind, by omega⟩
    · cases kind with
      | owned => exact .inr ⟨rfl, target, rfl⟩
      | weak =>
        have hagrees : (pointer .weak target).agrees nullPointer = true :=
          Bool.and_eq_true_iff.2 ⟨rfl, agrees_any target⟩
        exact absurd (coerces_of_agrees hagrees) hut
  · rintro (⟨x, y, rfl, rfl, hkind, hlt⟩ | ⟨rfl, target, rfl⟩)
    · refine ⟨number_coerces_iff.2 ⟨hkind, by omega⟩, fun h => ?_⟩
      obtain ⟨-, hge⟩ := number_coerces_iff.1 h
      omega
    · refine ⟨coerces_iff.2 (.inr (.inr ⟨rfl, .owned, target, rfl⟩)), ?_⟩
      rintro ⟨⟩

/-- The common type of two operands becomes the common type of the substituted ones. -/
theorem unify_substitute (args : List Ty) {t u c : Ty} (h : t.unify u = some c) :
    (t.substitute args).unify (u.substitute args) = some (c.substitute args) := by
  by_cases ht : t = any
  · subst ht
    obtain rfl : u = c := Option.some.inj h
    rfl
  · rw [unify_eq_of_ne_any ht] at h
    by_cases hut : u.coerces t = true
    · rw [if_pos hut] at h
      obtain rfl : t = c := Option.some.inj h
      by_cases ht' : t.substitute args = any
      · -- A parameter became `any`; then the other operand is `any` or the same parameter.
        obtain ⟨index, name, rfl⟩ := (substitute_eq_any ht').resolve_left ht
        have hu' : u.substitute args = any := by
          rcases substitute_eq_of_coerces_generic hut with rfl | heq
          · rfl
          · rw [heq]
            exact ht'
        rw [ht', hu']
        rfl
      · rw [unify_eq_of_ne_any ht', if_pos (coerces_substitute args hut)]
    · rw [if_neg hut] at h
      by_cases htu : t.coerces u = true
      · rw [if_pos htu] at h
        obtain rfl : u = c := Option.some.inj h
        -- No substitution turns a one-sided coercion round, so the right operand is chosen again.
        have honly : (t.substitute args).coerces (u.substitute args) = true ∧
            ¬ (u.substitute args).coerces (t.substitute args) = true := by
          rcases coerces_only_iff.1 ⟨htu, hut⟩ with ⟨x, y, rfl, rfl, -⟩ | ⟨rfl, target, rfl⟩
          · exact ⟨htu, hut⟩
          · exact coerces_only_iff.2 (.inr ⟨rfl, target.substitute args, rfl⟩)
        have ht' : t.substitute args ≠ any := by
          rcases coerces_only_iff.1 ⟨htu, hut⟩ with
            ⟨x, y, rfl, rfl, -⟩ | ⟨rfl, target, rfl⟩ <;> rintro ⟨⟩
        rw [unify_eq_of_ne_any ht', if_neg honly.2, if_pos honly.1]
      · rw [if_neg htu] at h
        cases h

/-! ## The laws together -/

/-- Two substitutions are one, by substituted arguments. Arguments without parameters leave none,
where every parameter has its argument and also where some became `any`; in general a result has
parameters iff an argument that was put in has. Agreement, coercion and the common type of two types
carry over to the substituted types. -/
theorem substitute_laws (t u : Ty) (args args' : List Ty) :
    (t.substitute args).substitute args' = t.substitute (args.map (substitute args')) ∧
    ((∀ index ∈ t.placeholders, index < args.length) → (∀ arg ∈ args, arg.hasGenerics = false) →
      (t.substitute args).hasGenerics = false) ∧
    ((t.substitute args).hasGenerics = true ↔
      ∃ index ∈ t.placeholders, ∃ arg, args[index]? = some arg ∧ arg.hasGenerics = true) ∧
    (t.agrees u = true → (t.substitute args).agrees (u.substitute args) = true) ∧
    (t.coerces u = true → (t.substitute args).coerces (u.substitute args) = true) ∧
    (∀ c, t.unify u = some c →
      (t.substitute args).unify (u.substitute args) = some (c.substitute args)) := by
  refine ⟨substitute_substitute args args' t, ?_, hasGenerics_substitute_iff,
    agrees_substitute args, coerces_substitute args, fun c => unify_substitute args⟩
  intro _ hargs
  apply Bool.eq_false_iff.2
  intro hgenerics
  obtain ⟨index, -, arg, harg, hgenerics⟩ := hasGenerics_substitute_iff.1 hgenerics
  rw [hargs arg (List.mem_of_getElem? harg)] at hgenerics
  cases hgenerics

/-- The type of `null` and an owned pointer to a parameter, of which the second is the common type;
the parameter becomes a slice of truth values. -/
theorem substitute_laws_ownedParameter :
    ((pointer .owned (generic 0 "T")).substitute [slice (generic 1 "U")]).substitute [any, bool] =
      (pointer .owned (generic 0 "T")).substitute [slice bool] ∧
    ((pointer .owned (generic 0 "T")).substitute [slice bool]).hasGenerics = false ∧
    nullPointer.unify (pointer .owned (generic 0 "T")) = some (pointer .owned (generic 0 "T")) ∧
    nullPointer.unify (pointer .owned (slice bool)) = some (pointer .owned (slice bool)) := by
  obtain ⟨htwice, -⟩ :=
    substitute_laws (pointer .owned (generic 0 "T")) any [slice (generic 1 "U")] [any, bool]
  obtain ⟨-, hclosed, -⟩ := substitute_laws (pointer .owned (generic 0 "T")) any [slice bool] []
  obtain ⟨-, -, -, -, -, hunify⟩ :=
    substitute_laws nullPointer (pointer .owned (generic 0 "T")) [slice bool] []
  have hcommon : nullPointer.unify (pointer .owned (generic 0 "T")) =
      some (pointer .owned (generic 0 "T")) := by
    decide
  exact ⟨htwice, hclosed (by decide) (by decide), hcommon, hunify _ hcommon⟩

/-- Two parameters that do not agree may be given types that do, so the laws do not hold the other
way. -/
example : (generic 0 "T").agrees (generic 1 "U") = false ∧
    ((generic 0 "T").substitute [bool, bool]).agrees
      ((generic 1 "U").substitute [bool, bool]) = true := by
  decide

end Custody.Ty
