import Custody.Proofs.WellFormed
import Custody.Ty.Relation

/-!
# Coercion is an order, and the common type its join

`any` agrees with everything, so agreement is reflexive and symmetric but not transitive, and
coercion is no order. Among the types without `any` both are: agreement is equality up to the names
that a type carries along (`Ty.agrees_iff_unnamed_eq`), coercion is a preorder whose equivalence is
agreement, and two types below a common one can be compared (`Ty.coerces_or_coerces_of_le`).

The common type of two operands is one of the two, the one that the other coerces to
(`Ty.coerces_of_unify`), and it exists iff one coerces to the other (`Ty.isSome_unify_iff`). So it
is the least upper bound wherever there is an upper bound (`Ty.coerces_order_unify_join`).
-/

set_option autoImplicit false

namespace Custody.Ty

/-! ## Agreement -/

mutual
theorem agrees_refl : ∀ t : Ty, t.agrees t = true
  | any | void | bool | string => rfl
  | number _ | range _ | struct _ _ _ | unit _ | generic _ _ => by simp [agrees]
  | pointer _ t | array _ t | slice t => by simp [agrees, agrees_refl t]
  | fn _ ps r => by simp [agrees, allAgree_refl ps, agrees_refl r]
  | inst _ _ as => by simp [agrees, allAgree_refl as]

theorem allAgree_refl : ∀ ts : List Ty, allAgree ts ts = true
  | [] => rfl
  | t :: ts => by simp [allAgree, agrees_refl t, allAgree_refl ts]
end

theorem agrees_any (t : Ty) : t.agrees any = true := by
  cases t <;> rfl

mutual
theorem agrees_comm : ∀ a b : Ty, a.agrees b = b.agrees a
  | any, b => by rw [agrees_any, agrees]
  | void, b | bool, b | string, b => by cases b <;> rfl
  | number _, b | range _, b | struct _ _ _, b | unit _, b | generic _ _, b => by
    cases b <;> simp only [agrees, BEq.comm]
  | pointer _ a, b => by
    cases b with
    | pointer _ b => simp only [agrees, agrees_comm a b, BEq.comm]
    | _ => rfl
  | array _ a, b => by
    cases b with
    | array _ b => simp only [agrees, agrees_comm a b, BEq.comm]
    | _ => rfl
  | slice a, b => by
    cases b with
    | slice b => simp only [agrees, agrees_comm a b]
    | _ => rfl
  | fn _ ps a, b => by
    cases b with
    | fn _ qs b => simp only [agrees, agrees_comm a b, allAgree_comm ps qs, BEq.comm]
    | _ => rfl
  | inst _ _ as, b => by
    cases b with
    | inst _ _ bs => simp only [agrees, allAgree_comm as bs, BEq.comm]
    | _ => rfl

theorem allAgree_comm : ∀ as bs : List Ty, allAgree as bs = allAgree bs as
  | [], bs => by cases bs <;> rfl
  | a :: as, bs => by
    cases bs with
    | nil => rfl
    | cons b bs => simp only [allAgree, agrees_comm a b, allAgree_comm as bs]
end

mutual
/-- A type without the names of its structs and generic parameters, which agreement does not look
at. -/
def unnamed : Ty → Ty
  | any => any
  | void => void
  | bool => bool
  | string => string
  | number format => number format
  | range format => range format
  | pointer kind t => pointer kind (unnamed t)
  | array length t => array length (unnamed t)
  | slice t => slice (unnamed t)
  | fn arity ps r => fn arity (allUnnamed ps) (unnamed r)
  | struct id _ _ => struct id "" 0
  | inst id _ as => inst id "" (allUnnamed as)
  | unit n => unit n
  | generic index _ => generic index ""

/-- Types without names. -/
def allUnnamed : List Ty → List Ty
  | [] => []
  | t :: ts => unnamed t :: allUnnamed ts
end

mutual
/-- Without `any`, two types agree iff they are equal up to names. -/
theorem agrees_iff_unnamed_eq : ∀ {a b : Ty}, a.anyFree = true → b.anyFree = true →
    (a.agrees b = true ↔ a.unnamed = b.unnamed)
  | any, _, ha, _ => by cases ha
  | void, b, _, hb | bool, b, _, hb | string, b, _, hb | number _, b, _, hb | range _, b, _, hb
  | struct _ _ _, b, _, hb | unit _, b, _, hb | generic _ _, b, _, hb => by
    cases b <;> simp_all [agrees, unnamed, anyFree]
  | pointer _ a, b, ha, hb | array _ a, b, ha, hb | slice a, b, ha, hb => by
    cases b with
    | pointer _ b | array _ b | slice b =>
      have hpart : a.agrees b = true ↔ a.unnamed = b.unnamed := agrees_iff_unnamed_eq ha hb
      simp [agrees, unnamed, hpart]
    | any => cases hb
    | _ => simp [agrees, unnamed]
  | fn _ ps a, b, ha, hb => by
    cases b with
    | fn _ qs b =>
      obtain ⟨hps, ha⟩ := Bool.and_eq_true_iff.1 ha
      obtain ⟨hqs, hb⟩ := Bool.and_eq_true_iff.1 hb
      simp [agrees, unnamed, agrees_iff_unnamed_eq ha hb,
        allAgree_iff_allUnnamed_eq hps hqs, and_assoc]
    | any => cases hb
    | _ => simp [agrees, unnamed]
  | inst _ _ as, b, ha, hb => by
    cases b with
    | inst _ _ bs =>
      have hargs : allAgree as bs = true ↔ allUnnamed as = allUnnamed bs :=
        allAgree_iff_allUnnamed_eq ha hb
      simp [agrees, unnamed, hargs]
    | any => cases hb
    | _ => simp [agrees, unnamed]

theorem allAgree_iff_allUnnamed_eq :
    ∀ {as bs : List Ty}, allAnyFree as = true → allAnyFree bs = true →
    (allAgree as bs = true ↔ allUnnamed as = allUnnamed bs)
  | [], bs, _, _ => by cases bs <;> simp [allAgree, allUnnamed]
  | a :: as, bs, ha, hb => by
    cases bs with
    | nil => simp [allAgree, allUnnamed]
    | cons b bs =>
      obtain ⟨ha, has⟩ := Bool.and_eq_true_iff.1 ha
      obtain ⟨hb, hbs⟩ := Bool.and_eq_true_iff.1 hb
      simp [allAgree, allUnnamed, agrees_iff_unnamed_eq ha hb, allAgree_iff_allUnnamed_eq has hbs]
end

theorem agrees_trans {a b c : Ty} (ha : a.anyFree = true) (hb : b.anyFree = true)
    (hc : c.anyFree = true)
    (hab : a.agrees b = true) (hbc : b.agrees c = true) : a.agrees c = true := by
  rw [agrees_iff_unnamed_eq ha hb] at hab
  rw [agrees_iff_unnamed_eq hb hc] at hbc
  rw [agrees_iff_unnamed_eq ha hc]
  exact hab.trans hbc

/-- A type without `any` agrees with a number only if it is that number. -/
theorem eq_number_of_agrees {t : Ty} {x : NumberFormat} (ht : t.anyFree = true)
    (h : t.agrees (number x) = true) : t = number x := by
  cases t with
  | any => cases ht
  | number y => rw [beq_iff_eq.1 (show (y == x) = true from h)]
  | _ => cases h

/-! ## Coercion -/

theorem widens_iff {x y : NumberFormat} :
    widens x y = true ↔ x.kind = y.kind ∧ x.width ≤ y.width := by
  simp [widens]

/-- The three reasons for a coercion. -/
theorem coerces_iff {a b : Ty} : a.coerces b = true ↔
    a.agrees b = true ∨ (∃ x y, a = number x ∧ b = number y ∧ widens x y = true) ∨
      (a = nullPointer ∧ ∃ kind t, b = pointer kind t) := by
  unfold coerces
  rw [Bool.or_eq_true]
  apply or_congr_right
  cases a with
  | number x => cases b <;> simp [nullPointer]
  | pointer kind t =>
    cases kind with
    | owned => simp [nullPointer]
    | weak => cases b <;> cases t <;> simp [nullPointer, isAny]
  | _ => simp [nullPointer]

theorem coerces_of_agrees {a b : Ty} (h : a.agrees b = true) : a.coerces b = true :=
  coerces_iff.2 (.inl h)

theorem coerces_refl (t : Ty) : t.coerces t = true := coerces_of_agrees t.agrees_refl

/-- Types that coerce to each other agree, also with `any` in them. -/
theorem agrees_of_coerces {a b : Ty} (hab : a.coerces b = true) (hba : b.coerces a = true) :
    a.agrees b = true := by
  rcases coerces_iff.1 hab with hagrees | ⟨x, y, rfl, rfl, hxy⟩ | ⟨rfl, kind, t, rfl⟩
  · exact hagrees
  · rcases coerces_iff.1 hba with hagrees | ⟨_, _, ⟨⟩, ⟨⟩, hyx⟩ | ⟨⟨⟩, -⟩
    · rw [agrees_comm]
      exact hagrees
    -- Each number is as wide as the other.
    · obtain ⟨hkind, hle⟩ := widens_iff.1 hxy
      obtain ⟨-, hge⟩ := widens_iff.1 hyx
      have heq : x = y := by
        cases x
        cases y
        simp_all
        omega
      rw [heq]
      exact agrees_refl _
  · rcases coerces_iff.1 hba with hagrees | ⟨_, _, ⟨⟩, -⟩ | ⟨hnull, -⟩
    · rw [agrees_comm]
      exact hagrees
    · rw [hnull]
      exact agrees_refl _

/-- A type without `any` is not that of `null`, so it coerces by agreement or as a number. -/
theorem coerces_iff_of_anyFree {a b : Ty} (ha : a.anyFree = true) : a.coerces b = true ↔
    a.agrees b = true ∨ ∃ x y, a = number x ∧ b = number y ∧ widens x y = true := by
  rw [coerces_iff]
  constructor
  · rintro (hagrees | hnumbers | ⟨rfl, -⟩)
    · exact .inl hagrees
    · exact .inr hnumbers
    · cases ha
  · rintro (hagrees | hnumbers)
    · exact .inl hagrees
    · exact .inr (.inl hnumbers)

theorem coerces_trans {a b c : Ty} (ha : a.anyFree = true) (hb : b.anyFree = true)
    (hc : c.anyFree = true)
    (hab : a.coerces b = true) (hbc : b.coerces c = true) : a.coerces c = true := by
  rcases (coerces_iff_of_anyFree hb).1 hbc with hagrees | ⟨y, z, rfl, rfl, hyz⟩
  · rcases (coerces_iff_of_anyFree ha).1 hab with hagrees' | ⟨x, y, rfl, rfl, hxy⟩
    · exact coerces_of_agrees (agrees_trans ha hb hc hagrees' hagrees)
    · rw [agrees_comm] at hagrees
      rw [eq_number_of_agrees hc hagrees]
      exact hab
  · rcases (coerces_iff_of_anyFree ha).1 hab with hagrees | ⟨x, _, rfl, ⟨⟩, hxy⟩
    · rw [eq_number_of_agrees ha hagrees]
      exact hbc
    · obtain ⟨hkind, hle⟩ := widens_iff.1 hxy
      obtain ⟨hkind', hle'⟩ := widens_iff.1 hyz
      exact coerces_iff.2
        (.inr (.inl ⟨x, z, rfl, rfl, widens_iff.2 ⟨hkind.trans hkind', Nat.le_trans hle hle'⟩⟩))

/-- Of two types below a common one, one coerces to the other: they agree, or both are numbers of
one family. -/
theorem coerces_or_coerces_of_le {a b c : Ty} (ha : a.anyFree = true) (hb : b.anyFree = true)
    (hc : c.anyFree = true) (hac : a.coerces c = true) (hbc : b.coerces c = true) :
    a.coerces b = true ∨ b.coerces a = true := by
  rcases (coerces_iff_of_anyFree ha).1 hac with hagrees | ⟨x, z, rfl, rfl, hxz⟩
  · rw [agrees_comm] at hagrees
    exact .inr (coerces_trans hb hc ha hbc (coerces_of_agrees hagrees))
  · rcases (coerces_iff_of_anyFree hb).1 hbc with hagrees | ⟨y, _, rfl, ⟨⟩, hyz⟩
    · rw [eq_number_of_agrees hb hagrees]
      exact .inl hac
    · obtain ⟨hkind, -⟩ := widens_iff.1 hxz
      obtain ⟨hkind', -⟩ := widens_iff.1 hyz
      rcases Nat.le_total x.width y.width with hle | hle
      · exact .inl
          (coerces_iff.2
            (.inr (.inl ⟨x, y, rfl, rfl, widens_iff.2 ⟨hkind.trans hkind'.symm, hle⟩⟩)))
      · exact .inr
          (coerces_iff.2
            (.inr (.inl ⟨y, x, rfl, rfl, widens_iff.2 ⟨hkind'.trans hkind.symm, hle⟩⟩)))

/-! ## The common type -/

theorem any_coerces (t : Ty) : any.coerces t = true := rfl

theorem number_coerces_iff {x y : NumberFormat} :
    (number x).coerces (number y) = true ↔ x.kind = y.kind ∧ x.width ≤ y.width := by
  rw [← widens_iff, coerces_iff]
  constructor
  · rintro (hagrees | ⟨_, _, ⟨⟩, ⟨⟩, hxy⟩ | ⟨⟨⟩, -⟩)
    · rw [beq_iff_eq.1 (show (x == y) = true from hagrees)]
      exact widens_iff.2 ⟨rfl, Nat.le_refl _⟩
    · exact hxy
  · intro hxy
    exact .inr (.inl ⟨x, y, rfl, rfl, hxy⟩)

/-- The common type is one of the two, and the other one coerces to it. -/
theorem coerces_of_unify {a b c : Ty} (h : a.unify b = some c) :
    c = a ∧ b.coerces a = true ∨ c = b ∧ a.coerces b = true := by
  unfold unify at h
  split at h
  · cases h
    exact .inr ⟨rfl, any_coerces _⟩
  · cases h
    exact .inl ⟨rfl, any_coerces _⟩
  · next x y =>
      rw [number_coerces_iff, number_coerces_iff]
      split at h
      · next hkind =>
          cases h
          split
          · next hle => exact .inl ⟨rfl, hkind.symm, hle⟩
          · next hlt => exact .inr ⟨rfl, hkind, by omega⟩
      · cases h
  · split at h
    · next hba =>
        cases h
        exact .inl ⟨rfl, hba⟩
    · split at h
      · next hab =>
          cases h
          exact .inr ⟨rfl, hab⟩
      · cases h

/-- Two types have a common one iff one of them coerces to the other. -/
theorem isSome_unify_iff {a b : Ty} :
    (a.unify b).isSome = true ↔ a.coerces b = true ∨ b.coerces a = true := by
  unfold unify
  split
  · simp [any_coerces]
  · simp [any_coerces]
  · next x y =>
      rw [number_coerces_iff, number_coerces_iff]
      split
      · next hkind => simp [hkind, Nat.le_total]
      · next hkind => simp [hkind, Ne.symm hkind]
  · split
    · next hba => simp [hba]
    · next hba =>
        split
        · next hab => simp [hab]
        · next hab => simp [hab, hba]

/-- Agreement is reflexive and symmetric, and two operands coerce to their common type, which is the
same up to agreement in either order. Among the types without `any`, agreement is transitive,
coercion is reflexive and transitive and its equivalence is agreement, and the common type is the
least upper bound: it exists iff there is an upper bound, and it coerces to each one. -/
theorem coerces_order_unify_join :
    (∀ a : Ty, a.agrees a = true) ∧
    (∀ a b : Ty, a.agrees b = true → b.agrees a = true) ∧
    (∀ a b c : Ty, a.unify b = some c → a.coerces c = true ∧ b.coerces c = true) ∧
    (∀ a b : Ty, ((a.unify b).isSome = true ↔ (b.unify a).isSome = true) ∧
      ∀ c d, a.unify b = some c → b.unify a = some d → c.agrees d = true) ∧
    (∀ a b c : Ty, a.anyFree = true → b.anyFree = true → c.anyFree = true →
      (a.agrees b = true → b.agrees c = true → a.agrees c = true) ∧
      (a.coerces b = true → b.coerces c = true → a.coerces c = true)) ∧
    (∀ a b : Ty, a.anyFree = true → b.anyFree = true →
      a.coerces a = true ∧
      (a.coerces b = true ∧ b.coerces a = true ↔ a.agrees b = true) ∧
      ((a.unify b).isSome = true ↔
        ∃ d : Ty, d.anyFree = true ∧ a.coerces d = true ∧ b.coerces d = true) ∧
      ∀ c, a.unify b = some c → c.anyFree = true ∧
        ∀ d : Ty, d.anyFree = true → a.coerces d = true → b.coerces d = true →
          c.coerces d = true) := by
  refine ⟨agrees_refl, ?_, ?_, ?_, ?_, ?_⟩
  · intro a b h
    rw [agrees_comm]
    exact h
  · intro a b c h
    rcases coerces_of_unify h with ⟨rfl, hba⟩ | ⟨rfl, hab⟩
    · exact ⟨coerces_refl c, hba⟩
    · exact ⟨hab, coerces_refl c⟩
  · intro a b
    constructor
    · rw [isSome_unify_iff, isSome_unify_iff]
      exact or_comm
    · intro c d hc hd
      -- Either both orders pick the same type, or each type coerces to the other.
      rcases coerces_of_unify hc with ⟨rfl, hba⟩ | ⟨rfl, hab⟩ <;>
        rcases coerces_of_unify hd with ⟨rfl, hab'⟩ | ⟨rfl, hba'⟩
      · exact agrees_of_coerces hab' hba
      · exact agrees_refl _
      · exact agrees_refl _
      · exact agrees_of_coerces hba' hab
  · intro a b c ha hb hc
    exact ⟨agrees_trans ha hb hc, coerces_trans ha hb hc⟩
  · intro a b ha hb
    refine ⟨coerces_refl a, ⟨?_, ?_⟩, ⟨?_, ?_⟩, ?_⟩
    · rintro ⟨hab, hba⟩
      exact agrees_of_coerces hab hba
    · intro hagrees
      exact ⟨coerces_of_agrees hagrees, coerces_of_agrees (agrees_comm a b ▸ hagrees)⟩
    · intro hsome
      rcases isSome_unify_iff.1 hsome with hab | hba
      · exact ⟨b, hb, hab, coerces_refl b⟩
      · exact ⟨a, ha, coerces_refl a, hba⟩
    · rintro ⟨d, hd, had, hbd⟩
      exact isSome_unify_iff.2 (coerces_or_coerces_of_le ha hb hd had hbd)
    · intro c hc
      rcases coerces_of_unify hc with ⟨rfl, -⟩ | ⟨rfl, -⟩
      · exact ⟨ha, fun d _ had _ => had⟩
      · exact ⟨hb, fun d _ _ hbd => hbd⟩

/-- Widening goes from `u8` over `u16` to `u64`. -/
theorem coerces_order_unify_join_widths :
    ((number ⟨.unsigned, 8⟩).anyFree = true ∧ (number ⟨.unsigned, 16⟩).anyFree = true ∧
      (number ⟨.unsigned, 64⟩).anyFree = true) ∧
    (number ⟨.unsigned, 8⟩).coerces (number ⟨.unsigned, 16⟩) = true ∧
    (number ⟨.unsigned, 16⟩).coerces (number ⟨.unsigned, 64⟩) = true ∧
    (number ⟨.unsigned, 8⟩).coerces (number ⟨.unsigned, 64⟩) = true := by
  obtain ⟨-, -, -, -, htrans, -⟩ := coerces_order_unify_join
  have hfirst : (number ⟨.unsigned, 8⟩).coerces (number ⟨.unsigned, 16⟩) = true := by decide
  have hsecond : (number ⟨.unsigned, 16⟩).coerces (number ⟨.unsigned, 64⟩) = true := by decide
  exact ⟨⟨rfl, rfl, rfl⟩, hfirst, hsecond, (htrans _ _ _ rfl rfl rfl).2 hfirst hsecond⟩

/-- With `any` in the middle, agreement does not go on. -/
example : bool.agrees any = true ∧ any.agrees string = true ∧ bool.agrees string = false := by
  decide

end Custody.Ty
