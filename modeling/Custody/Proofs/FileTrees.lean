import Custody.FileTree
import Mathlib.Data.List.Basic

/-!
# Canonical paths

`FileAccess.Lawful` is what loading relies on: the canonical path of a file is canonical itself, two
canonical paths with the same components are one, and there are fewer readable files than may import
one another in a row.

A tree of files whose working directory has proper names is lawful (`FileTree.lawful_access`). A
place that was reached through a path is reached again through the path of its names
(`FileTree.locate_pathOf`), and those names can be read off that path (`FileTree.parts_pathOf`).
-/

set_option autoImplicit false

namespace Custody

/-- What loading relies on. The files are finitely many, and each has one canonical path. -/
structure FileAccess.Lawful (access : FileAccess Id) : Prop where
  idempotent : ∀ p q : Path, access.canonical p = .ok q → access.canonical q = .ok q
  unique : ∀ p q : Path, access.canonical p = .ok p → access.canonical q = .ok q →
    p.same q = true → p = q
  finite : ∃ files : List Path, files.length < access.chainLimit ∧
    ∀ p text, access.canonical p = .ok p → access.read p = .ok text → p ∈ files

/-! ## Names between slashes -/

namespace Path

theorem splitSlashes_ne_nil (cs : List Char) : splitSlashes cs ≠ [] := by
  fun_cases splitSlashes cs <;> simp_all

theorem not_mem_of_mem_splitSlashes {cs run : List Char} (h : run ∈ splitSlashes cs) :
    ('/' ∉ run) ∧ ∀ c ∈ run, c ∈ cs := by
  induction cs generalizing run with
  | nil =>
    obtain rfl := List.mem_singleton.1 h
    exact ⟨List.not_mem_nil, fun c hc => hc⟩
  | cons c cs ih =>
    rw [splitSlashes] at h
    split at h
    · rcases List.mem_cons.1 h with rfl | h
      · exact ⟨List.not_mem_nil, fun c hc => absurd hc List.not_mem_nil⟩
      · exact ⟨(ih h).1, fun d hd => List.mem_cons_of_mem c ((ih h).2 d hd)⟩
    · rename_i hc
      split at h
      · rename_i hnil
        exact absurd hnil (splitSlashes_ne_nil cs)
      · rename_i w ws hsplit
        rw [hsplit] at ih
        rcases List.mem_cons.1 h with rfl | h
        · obtain ⟨hslash, hmem⟩ := ih List.mem_cons_self
          refine ⟨?_, fun d hd => ?_⟩
          · rintro hd
            rcases List.mem_cons.1 hd with rfl | hd
            · exact hc rfl
            · exact hslash hd
          · rcases List.mem_cons.1 hd with rfl | hd
            · exact List.mem_cons_self
            · exact List.mem_cons_of_mem c (hmem d hd)
        · obtain ⟨hslash, hmem⟩ := ih (List.mem_cons_of_mem w h)
          exact ⟨hslash, fun d hd => List.mem_cons_of_mem c (hmem d hd)⟩

/-- A run without slashes in front of a slash is split off. -/
theorem splitSlashes_append_slash {run : List Char} (h : '/' ∉ run) (cs : List Char) :
    splitSlashes (run ++ '/' :: cs) = run :: splitSlashes cs := by
  induction run with
  | nil => rfl
  | cons c run ih =>
    obtain ⟨hc, hrun⟩ := not_or.1 (mt List.mem_cons.2 h)
    rw [List.cons_append, splitSlashes, if_neg (Ne.symm hc), ih hrun]

theorem splitSlashes_of_not_mem {run : List Char} (h : '/' ∉ run) : splitSlashes run = [run] := by
  induction run with
  | nil => rfl
  | cons c run ih =>
    obtain ⟨hc, hrun⟩ := not_or.1 (mt List.mem_cons.2 h)
    rw [splitSlashes, if_neg (Ne.symm hc), ih hrun]

/-- Names with slashes between them are split at those slashes. -/
theorem splitSlashes_intercalate {run : List Char} {runs : List (List Char)}
    (h : ∀ r ∈ run :: runs, '/' ∉ r) :
    splitSlashes (['/'].intercalate (run :: runs)) = run :: runs := by
  induction runs generalizing run with
  | nil =>
    rw [List.intercalate_singleton]
    exact splitSlashes_of_not_mem (h run List.mem_cons_self)
  | cons run' runs ih =>
    rw [List.intercalate_cons_cons, List.append_assoc, List.singleton_append,
      splitSlashes_append_slash (h run List.mem_cons_self),
      ih fun r hr => h r (List.mem_cons_of_mem run hr)]

theorem mem_of_mem_intercalate {c : Char} {runs : List (List Char)}
    (h : c ∈ ['/'].intercalate runs) : c = '/' ∨ ∃ run ∈ runs, c ∈ run := by
  induction runs with
  | nil => exact absurd h List.not_mem_nil
  | cons run runs ih =>
    cases runs with
    | nil =>
      rw [List.intercalate_singleton] at h
      exact .inr ⟨run, List.mem_cons_self, h⟩
    | cons run' runs =>
      rw [List.intercalate_cons_cons, List.append_assoc, List.singleton_append] at h
      rcases List.mem_append.1 h with h | h
      · exact .inr ⟨run, List.mem_cons_self, h⟩
      · rcases List.mem_cons.1 h with h | h
        · exact .inl h
        · rcases ih h with h | ⟨r, hr, h⟩
          · exact .inl h
          · exact .inr ⟨r, List.mem_cons_of_mem run hr, h⟩

theorem part?_of_name {run : List Char} (hempty : run ≠ []) (hhere : run ≠ ['.'])
    (hup : run ≠ ['.', '.']) : part? run = some (.name run) := by
  fun_cases part? run
  · exact absurd rfl hempty
  · exact absurd rfl hhere
  · exact absurd rfl hup
  · rfl

end Path

namespace FileTree

/-- A name that leads one step down: it is no empty, `.` or `..` run, and has neither slashes nor
zeros nor too many bytes. -/
structure ProperName (name : String) : Prop where
  nonempty : name.toList ≠ []
  notHere : name.toList ≠ ['.']
  notUp : name.toList ≠ ['.', '.']
  noSlash : '/' ∉ name.toList
  noZero : '\x00' ∉ name.toList
  short : name.utf8ByteSize ≤ longestName

/-- A place that paths lead to: it has proper names, it exists, and all around it are
directories. -/
structure Place (t : FileTree) (names : List String) : Prop where
  proper : ∀ name ∈ names, ProperName name
  present : t.has names = true
  around : ∀ outer name, outer ++ [name] <+: names → t.isDir outer = true

/-- The working directory has proper names. -/
def Rooted (t : FileTree) : Prop := ∀ name ∈ t.workingDir, ProperName name

variable {t : FileTree} {names : List String}

/-! ## Places -/

theorem isDir_of_prefix {outer : List String} (h : outer <+: names) (hdir : t.isDir names = true) :
    t.isDir outer = true := by
  unfold isDir at hdir ⊢
  simp only [Bool.or_eq_true, List.any_eq_true, Bool.and_eq_true, List.isPrefixOf_iff_prefix,
    bne_iff_ne] at hdir ⊢
  rcases hdir with (hwork | ⟨dir, hmem, hdir⟩) | ⟨file, hmem, hfile, hne⟩
  · exact .inl (.inl (h.trans hwork))
  · exact .inl (.inr ⟨dir, hmem, h.trans hdir⟩)
  · refine .inr ⟨file, hmem, h.trans hfile, ?_⟩
    rintro rfl
    exact hne (hfile.eq_of_length_le h.length_le)

theorem place_nil : t.Place [] where
  proper := by simp
  present := by simp [has, isDir]
  around := by simp

theorem place_workingDir (h : t.Rooted) : t.Place t.workingDir := by
  have hdir : t.isDir t.workingDir = true := by simp [isDir]
  exact ⟨h, by simp [has, hdir], fun outer name hpre =>
    isDir_of_prefix ((List.prefix_append outer [name]).trans hpre) hdir⟩

theorem Place.up (h : t.Place names) : t.Place names.dropLast := by
  have hpre := names.dropLast_prefix
  refine ⟨fun name hname => h.proper name (hpre.subset hname), ?_,
    fun outer name hout => h.around outer name (hout.trans hpre)⟩
  rcases List.eq_nil_or_concat names with rfl | ⟨outer, name, rfl⟩
  · exact h.present
  · have hdir := h.around outer name (by simp)
    simp [has, hdir]

theorem Place.down {name : String} (h : t.Place names) (hdir : t.isDir names = true)
    (hname : ProperName name) (hhas : t.has (names ++ [name]) = true) :
    t.Place (names ++ [name]) := by
  refine ⟨?_, hhas, ?_⟩
  · intro other hother
    rcases List.mem_append.1 hother with hother | hother
    · exact h.proper other hother
    · rw [List.mem_singleton.1 hother]
      exact hname
  · intro outer last hpre
    rcases List.prefix_concat_iff.1 hpre with heq | hpre
    · rw [(List.append_inj' heq rfl).1]
      exact hdir
    · exact h.around outer last hpre

/-- Following a path leads from places to places. -/
theorem place_of_follow {runs : List (List Char)} {reached : List String} (h : t.Place names)
    (hruns : ∀ run ∈ runs, '/' ∉ run ∧ '\x00' ∉ run) (hfollow : t.follow names runs = .ok reached) :
    t.Place reached := by
  fun_induction follow t names runs with
  | case1 names =>
    cases hfollow
    exact h
  | case2 => cases hfollow
  | case3 names run runs hdir hempty ih =>
    exact ih h (fun r hr => hruns r (List.mem_cons_of_mem run hr)) hfollow
  | case4 names runs hdir hup ih =>
    exact ih h.up (fun r hr => hruns r (List.mem_cons_of_mem _ hr)) hfollow
  | case5 => cases hfollow
  | case6 names run runs hdir hempty hup hshort hhas ih =>
    obtain ⟨hslash, hzero⟩ := hruns run List.mem_cons_self
    simp only [Bool.or_eq_true, decide_eq_true_eq, not_or] at hempty
    refine ih (h.down (by simpa using hdir) ?_ hhas)
      (fun r hr => hruns r (List.mem_cons_of_mem run hr)) hfollow
    constructor
    · rw [String.toList_ofList]; exact hempty.1
    · rw [String.toList_ofList]; exact hempty.2
    · rw [String.toList_ofList]; exact hup
    · rw [String.toList_ofList]; exact hslash
    · rw [String.toList_ofList]; exact hzero
    · exact Nat.le_of_not_lt hshort
  | case7 => cases hfollow

theorem place_of_locate {p : Path} (ht : t.Rooted) (h : t.locate p = .ok names) :
    t.Place names := by
  unfold locate at h
  split at h
  · cases h
  · rename_i hzero
    split at h
    · cases h
    · refine place_of_follow ?_ ?_ h
      · split
        · exact place_nil
        · exact place_workingDir ht
      · intro run hrun
        obtain ⟨hslash, hmem⟩ := Path.not_mem_of_mem_splitSlashes hrun
        exact ⟨hslash, fun h0 => hzero (List.contains_iff_mem.2 (hmem _ h0))⟩

/-! ## The path of a place -/

theorem toList_pathOf (names : List String) :
    (pathOf names).text.toList = '/' :: ['/'].intercalate (names.map String.toList) := by
  rw [pathOf, String.toList_append, String.toList_intercalate]
  rfl

theorem isAbsolute_pathOf (names : List String) : (pathOf names).isAbsolute = true := by
  rw [Path.isAbsolute, toList_pathOf]
  rfl

/-- The runs behind the root; behind the root alone stands an empty one. -/
theorem splitSlashes_pathOf (h : ∀ name ∈ names, ProperName name) :
    Path.splitSlashes (pathOf names).text.toList =
      [] :: if names = [] then [[]] else names.map String.toList := by
  rw [toList_pathOf, Path.splitSlashes, if_pos rfl]
  cases names with
  | nil => rfl
  | cons name names =>
    rw [if_neg (List.cons_ne_nil name names), List.map_cons, Path.splitSlashes_intercalate]
    intro r hr
    rw [← List.map_cons] at hr
    obtain ⟨n, hn, rfl⟩ := List.mem_map.1 hr
    exact (h n hn).noSlash

/-- Proper names are followed one step down each. -/
theorem follow_names {outer : List String} (h : t.Place (outer ++ names)) :
    t.follow outer (names.map String.toList) = .ok (outer ++ names) := by
  induction names generalizing outer with
  | nil => rw [List.map_nil, follow, List.append_nil]
  | cons name names ih =>
    have hsplit : outer ++ name :: names = (outer ++ [name]) ++ names := by simp
    have hname := h.proper name (by simp)
    have hdir : t.isDir outer = true :=
      h.around outer name ⟨names, by rw [hsplit]⟩
    have hhas : t.has (outer ++ [name]) = true := by
      rcases names with _ | ⟨next, names⟩
      · exact h.present
      · have := h.around (outer ++ [name]) next ⟨names, by simp⟩
        simp [has, this]
    rw [hsplit] at h ⊢
    rw [List.map_cons, follow, if_neg (by simp [hdir]),
      if_neg (by simp [hname.nonempty, hname.notHere]), if_neg hname.notUp, String.ofList_toList,
      if_neg (Nat.not_lt.2 hname.short), if_pos hhas]
    exact ih h

/-- A place is reached through the path of its names. -/
theorem locate_pathOf (h : t.Place names) : t.locate (pathOf names) = .ok names := by
  have hroot : t.isDir [] = true := by simp [isDir]
  have hzero : ¬ ((pathOf names).text.toList.contains '\x00') = true := by
    rw [List.contains_iff_mem, toList_pathOf]
    intro hmem
    rcases List.mem_cons.1 hmem with hmem | hmem
    · exact absurd hmem (by decide)
    · rcases Path.mem_of_mem_intercalate hmem with hmem | ⟨run, hrun, hmem⟩
      · exact absurd hmem (by decide)
      · obtain ⟨name, hname, rfl⟩ := List.mem_map.1 hrun
        exact (h.proper name hname).noZero hmem
  have hempty : ¬ (pathOf names).text.isEmpty = true := by
    rw [String.isEmpty_iff, ← String.toList_inj, toList_pathOf]
    exact List.cons_ne_nil _ _
  rw [locate, if_neg hzero, if_neg hempty, isAbsolute_pathOf, if_pos rfl,
    splitSlashes_pathOf h.proper, follow, if_neg (by simp [hroot]), if_pos (by simp)]
  split
  · rename_i hnil
    subst hnil
    rw [follow, if_neg (by simp [hroot]), if_pos (by simp), follow]
  · exact follow_names h

/-- The names of a place are the components of its path. -/
theorem parts_pathOf (h : ∀ name ∈ names, ProperName name) :
    (pathOf names).parts = .root :: names.map fun name => .name name.toList := by
  have hnames : (names.map String.toList).filterMap Path.part? =
      names.map fun name => .name name.toList := by
    rw [List.filterMap_map, ← List.filterMap_eq_map]
    refine List.filterMap_congr fun name hname => ?_
    have hproper := h name hname
    exact Path.part?_of_name hproper.nonempty hproper.notHere hproper.notUp
  rw [Path.parts, isAbsolute_pathOf, if_pos rfl, splitSlashes_pathOf h]
  split
  · rename_i hnil
    subst hnil
    rfl
  · exact congrArg _ hnames

/-! ## Lawfulness -/

theorem place_of_canonical {p q : Path} (ht : t.Rooted) (h : t.access.canonical p = .ok q) :
    ∃ names, t.Place names ∧ q = pathOf names := by
  change (t.locate p).map pathOf = .ok q at h
  cases hp : t.locate p with
  | error e =>
    rw [hp] at h
    cases h
  | ok names =>
    rw [hp] at h
    cases h
    exact ⟨names, place_of_locate ht hp, rfl⟩

theorem canonical_pathOf (h : t.Place names) :
    t.access.canonical (pathOf names) = .ok (pathOf names) := by
  change (t.locate (pathOf names)).map pathOf = _
  rw [locate_pathOf h]
  rfl

/-- The files of a tree have one canonical path each, and a load cannot pass through more of them in
a row than there are. -/
theorem lawful_access (ht : t.Rooted) : t.access.Lawful where
  idempotent p q h := by
    obtain ⟨names, hplace, rfl⟩ := place_of_canonical ht h
    exact canonical_pathOf hplace
  unique p q hp hq hsame := by
    obtain ⟨names, hplace, rfl⟩ := place_of_canonical ht hp
    obtain ⟨names', hplace', rfl⟩ := place_of_canonical ht hq
    rw [Path.same, beq_iff_eq, parts_pathOf hplace.proper, parts_pathOf hplace'.proper] at hsame
    have hinj : Function.Injective fun name : String => PathPart.name name.toList := fun a b hab =>
      String.toList_inj.1 (PathPart.name.inj hab)
    rw [List.map_injective_iff.2 hinj (List.cons.inj hsame).2]
  finite := by
    refine ⟨t.files.map fun file => pathOf file.1, ?_, ?_⟩
    · rw [List.length_map]
      exact Nat.lt_succ_self _
    · intro p text hp hread
      obtain ⟨names, hplace, rfl⟩ := place_of_canonical ht hp
      change t.read (pathOf names) = .ok text at hread
      rw [read, locate_pathOf hplace] at hread
      dsimp only at hread
      cases hbytes : t.content? names with
      | none =>
        rw [hbytes] at hread
        cases hread
      | some bytes =>
        obtain ⟨before, after, hfiles, -⟩ := List.lookup_eq_some_iff.1 hbytes
        exact List.mem_map.2 ⟨(names, bytes), by simp [hfiles], rfl⟩

end FileTree

end Custody
