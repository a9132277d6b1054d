import Custody.Scope

/-!
# Lookups in name maps

What a name stands for after each operation on a map, and after a declaration in a stack of scopes.
-/

set_option autoImplicit false

namespace Custody

namespace NameMap

variable {α : Type}

theorem lookup_cons_of_ne {x n : String} (h : x ≠ n) (a : α) (rest : List (String × α)) :
    ((n, a) :: rest).lookup x = rest.lookup x := by
  have hx : (x == n) = false := by simpa using h
  simp only [List.lookup_cons, hx]

theorem lookup_replaceFirst (name x : String) (a : α) (entries : List (String × α)) :
    (replaceFirst name a entries).lookup x =
      if x = name then (entries.lookup x).map (fun _ => a) else entries.lookup x := by
  induction entries with
  | nil => simp [replaceFirst]
  | cons e rest ih =>
    obtain ⟨n, b⟩ := e
    by_cases hn : n = name
    · subst hn
      by_cases hx : x = n
      · subst hx
        simp [replaceFirst]
      · simp [replaceFirst, lookup_cons_of_ne hx, hx]
    · by_cases hx : x = n
      · subst hx
        simp [replaceFirst, hn]
      · simp only [replaceFirst, if_neg hn, lookup_cons_of_ne hx, ih]

theorem get?_set (m : NameMap α) (name x : String) (a : α) :
    (m.set name a).get? x = if x = name then some a else m.get? x := by
  unfold set contains get?
  cases hm : m.entries.lookup name with
  | some b =>
    simp only [Option.isSome_some, if_true]
    rw [lookup_replaceFirst]
    by_cases hx : x = name
    · subst hx
      simp [hm]
    · simp [hx]
  | none =>
    simp only [Option.isSome_none, Bool.false_eq_true, if_false, List.lookup_append]
    by_cases hx : x = name
    · subst hx
      simp [hm]
    · simp [lookup_cons_of_ne hx, hx]

/-- A name that is added was not there before, and is the only one that changes. -/
theorem get?_of_insertNew {m m' : NameMap α} {name : String} {a : α}
    (h : m.insertNew name a = .ok m') :
    m.get? name = none ∧ ∀ x, m'.get? x = if x = name then some a else m.get? x := by
  unfold insertNew at h
  cases hm : m.get? name with
  | some existing =>
    rw [hm] at h
    cases h
  | none =>
    rw [hm] at h
    cases h
    refine ⟨rfl, fun x => ?_⟩
    unfold get? at hm ⊢
    rw [List.lookup_append]
    by_cases hx : x = name
    · subst hx
      simp [hm]
    · simp [lookup_cons_of_ne hx, hx]

/-- A name that is rejected was there before. -/
theorem isSome_of_insertNew {m : NameMap α} {name : String} {a existing : α}
    (h : m.insertNew name a = .error existing) : (m.get? name).isSome := by
  unfold insertNew at h
  cases hm : m.get? name with
  | some found => rfl
  | none =>
    rw [hm] at h
    cases h

theorem get?_erase (m : NameMap α) (name x : String) :
    (m.erase name).get? x = if x = name then none else m.get? x := by
  unfold erase get?
  induction m.entries with
  | nil => simp
  | cons e rest ih =>
    obtain ⟨n, b⟩ := e
    by_cases hn : n = name
    · subst hn
      by_cases hx : x = n
      · subst hx
        simpa using ih
      · simpa [hx, lookup_cons_of_ne hx] using ih
    · by_cases hx : x = n
      · subst hx
        simp [hn]
      · simpa [hn, lookup_cons_of_ne hx] using ih

theorem get?_mapEntries {β : Type} (f : String → α → β) (m : NameMap α) (x : String) :
    (m.mapEntries f).get? x = (m.get? x).map (f x) := by
  unfold mapEntries get?
  induction m.entries with
  | nil => rfl
  | cons e rest ih =>
    obtain ⟨n, b⟩ := e
    by_cases hx : x = n
    · subst hx
      simp
    · simpa [lookup_cons_of_ne hx] using ih

theorem get?_mapEntries_of_eq {f : String → α → α} {m : NameMap α} {x : String}
    (h : ∀ a, m.get? x = some a → f x a = a) : (m.mapEntries f).get? x = m.get? x := by
  rw [get?_mapEntries]
  exact (Option.map_congr h).trans Option.map_id'

end NameMap

/-- A declaration adds its name to the innermost scope. -/
theorem ScopeStack.declare_ok {locals locals' : ScopeStack} {name : String} {type : Ty}
    (h : locals.declare name type = .ok locals') :
    locals.inner.insertNew name type = .ok locals'.inner ∧ locals'.outer = locals.outer := by
  unfold declare at h
  cases hinner : locals.inner.insertNew name type with
  | error existing =>
    rw [hinner] at h
    cases h
  | ok inner =>
    rw [hinner] at h
    cases h
    exact ⟨rfl, rfl⟩

/-- A declaration is rejected only if the innermost scope has the name. -/
theorem ScopeStack.declare_error {locals : ScopeStack} {name : String} {type existing : Ty}
    (h : locals.declare name type = .error existing) :
    locals.inner.insertNew name type = .error existing := by
  unfold declare at h
  cases hinner : locals.inner.insertNew name type with
  | error existing' =>
    rw [hinner] at h
    cases h
    rfl
  | ok inner =>
    rw [hinner] at h
    cases h

/-- Closing a scope gives back what was there when it was opened. -/
theorem ScopeStack.pop_eq {inner locals : ScopeStack} (h : inner.outer = locals.push.outer) :
    inner.pop = locals := by
  unfold ScopeStack.pop
  rw [h]
  rfl

end Custody
