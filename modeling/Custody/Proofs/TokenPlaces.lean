import Custody.Proofs.TokenOrder
import Mathlib.Data.List.Induction

/-!
# Where tokens stand

A scanner goes through a text character by character and leaves none out: what it has passed and
what lies ahead are the text (`Pos.At`). So every token stands between two places of the text, and
it covers some of it unless it is `eof`; the tokens stand one behind the other (`tokenize_places`).

A place of a text is known by its offset alone: the line and the column follow from the characters
in front of it (`Pos.In.line`, `Pos.In.column`).
-/

set_option autoImplicit false

namespace Custody

/-! ## Places of a text -/

namespace Pos

/-- A place of a text, in front of `rest`. -/
def At (text : List Char) (p : Pos) (rest : List Char) : Prop :=
  ∃ before, text = before ++ rest ∧ p = origin.pass before

/-- A place of a text. -/
def In (text : List Char) (p : Pos) : Prop := ∃ rest, p.At text rest

variable {text rest : List Char} {p : Pos}

theorem at_origin (text : List Char) : origin.At text text := ⟨[], rfl, rfl⟩

theorem At.in (h : p.At text rest) : p.In text := ⟨rest, h⟩

theorem At.pass {word : List Char} (h : p.At text (word ++ rest)) : (p.pass word).At text rest := by
  obtain ⟨before, rfl, rfl⟩ := h
  exact ⟨before ++ word, (List.append_assoc _ _ _).symm, (pass_append origin before word).symm⟩

theorem At.step {c : Char} (h : p.At text (c :: rest)) : (p.step c).At text rest := by
  have hpass : (p.pass [c]).At text rest := h.pass
  exact hpass

theorem offset_pass (p : Pos) (word : List Char) :
    (p.pass word).offset = p.offset + (String.ofList word).utf8ByteSize := by
  induction word generalizing p with
  | nil => rfl
  | cons c word ih =>
    have hstep : (p.step c).offset = p.offset + c.utf8Size := by
      rw [step]
      split <;> rfl
    rw [pass_cons, ih, hstep, Nat.add_assoc]
    simp

end Pos

/-- The characters in front of a byte offset. -/
def textBefore : List Char → Nat → List Char
  | [], _ => []
  | c :: cs, n => if n = 0 then [] else c :: textBefore cs (n - c.utf8Size)

theorem textBefore_append (before rest : List Char) :
    textBefore (before ++ rest) (String.ofList before).utf8ByteSize = before := by
  induction before with
  | nil =>
    cases rest with
    | nil => rfl
    | cons c rest => rfl
  | cons c before ih =>
    have hsize : (String.ofList (c :: before)).utf8ByteSize =
        c.utf8Size + (String.ofList before).utf8ByteSize := by simp
    have hpos : c.utf8Size + (String.ofList before).utf8ByteSize ≠ 0 := by
      have := c.utf8Size_pos
      omega
    rw [List.cons_append, hsize, textBefore, if_neg hpos, Nat.add_sub_cancel_left, ih]

namespace Pos

/-- The line and the column of a place, from the characters in front of it. -/
theorem pass_origin (before : List Char) :
    origin.pass before = ⟨(String.ofList before).utf8ByteSize, 1 + before.count '\n',
      1 + (before.reverse.takeWhile (· ≠ '\n')).length⟩ := by
  induction before using List.reverseRecOn with
  | nil => rfl
  | append_singleton before c ih =>
    have hsize : (String.ofList (before ++ [c])).utf8ByteSize =
        (String.ofList before).utf8ByteSize + c.utf8Size := by simp
    rw [pass_append, ih, hsize, List.count_append, List.reverse_append]
    change step _ c = _
    rw [step]
    by_cases hc : c = '\n'
    · simp [hc]
      omega
    · simp [hc]
      omega

variable {text : List Char} {p : Pos}

theorem In.eq (h : p.In text) : p = origin.pass (textBefore text p.offset) := by
  obtain ⟨rest, before, rfl, rfl⟩ := h
  rw [offset_pass]
  change origin.pass before = origin.pass (textBefore (before ++ rest) (0 + _))
  rw [Nat.zero_add, textBefore_append]

theorem In.line (h : p.In text) : p.line = 1 + (textBefore text p.offset).count '\n' := by
  have heq := h.eq
  rw [pass_origin] at heq
  exact congrArg Pos.line heq

theorem In.column (h : p.In text) :
    p.column = 1 + ((textBefore text p.offset).reverse.takeWhile (· ≠ '\n')).length := by
  have heq := h.eq
  rw [pass_origin] at heq
  exact congrArg Pos.column heq

theorem In.isValid {source : String} (h : p.In source.toList) :
    (⟨p.offset⟩ : String.Pos.Raw).IsValid source := by
  obtain ⟨rest, before, hsource, rfl⟩ := h
  refine String.Pos.Raw.isValid_iff_exists_append.2 ⟨String.ofList before,
    String.ofList rest, ?_, ?_⟩
  · rw [← String.ofList_append, ← hsource, String.ofList_toList]
  · rw [pass_origin]
    rfl

theorem In.offset_le {source : String} (h : p.In source.toList) : p.offset ≤ source.utf8ByteSize :=
  h.isValid.le_rawEndPos

end Pos

/-! ## Spans of a text -/

/-- A span of a text, in the file with the number: it goes from one place to the same or a later
one. -/
def Span.InText (text : List Char) (file : Nat) (s : Span) : Prop :=
  ∃ p q : Pos, p.In text ∧ q.In text ∧ p.offset ≤ q.offset ∧ s = p.spanTo q file

/-- Two spans of a text are joined to one. -/
theorem Span.InText.file_eq {text : List Char} {file : Nat} {s : Span} (h : s.InText text file) :
    s.file = file := by
  obtain ⟨p, q, _, _, _, rfl⟩ := h
  rfl

theorem Span.InText.merge {text : List Char} {file : Nat} {a b : Span} (ha : a.InText text file)
    (hb : b.InText text file) : (a.merge b).InText text file := by
  obtain ⟨p, q, hp, hq, hpq, rfl⟩ := ha
  obtain ⟨p', q', hp', hq', hpq', rfl⟩ := hb
  -- The join starts where the first of the two does and stops where the last one does.
  have hfirst : ∃ first : Pos, first.In text ∧ first.offset = min p.offset p'.offset ∧
      first.line = (if p.offset ≤ p'.offset then p.line else p'.line) ∧
      first.column = if p.offset ≤ p'.offset then p.column else p'.column := by
    by_cases h : p.offset ≤ p'.offset
    · exact ⟨p, hp, (Nat.min_eq_left h).symm, (if_pos h).symm, (if_pos h).symm⟩
    · exact ⟨p', hp', (Nat.min_eq_right (Nat.le_of_not_le h)).symm, (if_neg h).symm,
        (if_neg h).symm⟩
  have hlast : ∃ last : Pos, last.In text ∧ last.offset = max q.offset q'.offset := by
    by_cases h : q.offset ≤ q'.offset
    · exact ⟨q', hq', (Nat.max_eq_right h).symm⟩
    · exact ⟨q, hq, (Nat.max_eq_left (Nat.le_of_not_le h)).symm⟩
  obtain ⟨first, hin, hoffset, hline, hcolumn⟩ := hfirst
  obtain ⟨last, hin', hoffset'⟩ := hlast
  refine ⟨first, last, hin, hin', by omega, ?_⟩
  have hspan : first.spanTo last file =
      ⟨first.offset, last.offset, first.line, first.column, file⟩ := rfl
  rw [hspan, hoffset, hoffset', hline, hcolumn]
  rfl

/-! ## Tokens -/

namespace Scanner

variable {text : List Char}

/-- A token stands between two places of the text, and covers some of it unless it is `eof`. The
scanner then is where the token stops. -/
theorem next_inText {s : Scanner} (h : s.pos.At text s.rest) :
    s.next.1.span.InText text s.file ∧
      (s.next.1.kind ≠ .eof → s.next.1.span.start < s.next.1.span.stop) ∧
      s.next.2.pos.At text s.next.2.rest ∧ s.next.2.pos.offset = s.next.1.span.stop := by
  rcases s.next_cases with ⟨gap, -, hrest, hnext⟩ | ⟨gap, word, -, hword, hrest, -, hspan, hpos⟩
  · have hend : (s.pos.pass gap).At text [] := Pos.At.pass (by rwa [List.append_nil, ← hrest])
    rw [hnext]
    exact ⟨⟨_, _, hend.in, hend.in, Nat.le_refl _, rfl⟩, fun hkind => absurd rfl hkind, hend, rfl⟩
  · rw [hrest] at h
    have hstart := h.pass
    have hlt := (s.pos.pass gap).offset_lt_pass hword
    rw [hspan, hpos]
    exact ⟨⟨_, _, hstart.in, hstart.pass.in, Nat.le_of_lt hlt, rfl⟩, fun _ => hlt, hstart.pass, rfl⟩

theorem file_next (s : Scanner) : s.next.2.file = s.file := by
  unfold next
  cases skipGap .blanks s.pos s.rest with
  | unclosed opened stop => rfl
  | clear p rest => cases rest <;> rfl

/-- The tokens that a scanner goes on to give stand in the text, one behind the other. -/
theorem untilEof_places (fuel : Nat) {s : Scanner} (h : s.pos.At text s.rest) :
    (∀ t ∈ s.untilEof fuel, t.span.InText text s.file ∧
      (t.kind ≠ .eof → t.span.start < t.span.stop)) ∧
      (s.untilEof fuel).Pairwise fun t t' => t.span.stop ≤ t'.span.start := by
  induction fuel generalizing s with
  | zero => exact ⟨fun t ht => absurd ht List.not_mem_nil, List.Pairwise.nil⟩
  | succ fuel ih =>
    obtain ⟨hspan, hcovers, hat, hstop⟩ := next_inText h
    simp only [untilEof]
    split
    · exact ⟨fun t ht => List.mem_singleton.1 ht ▸ ⟨hspan, hcovers⟩, List.pairwise_singleton _ _⟩
    -- The scanner is where this token stops, and all others start there or behind.
    · obtain ⟨hplaces, hpairwise⟩ := ih hat
      rw [file_next] at hplaces
      refine ⟨List.forall_mem_cons.2 ⟨⟨hspan, hcovers⟩, hplaces⟩,
        List.pairwise_cons.2 ⟨fun t ht => ?_, hpairwise⟩⟩
      rw [← hstop]
      exact (s.next.2.untilEof_start fuel).1 t ht

end Scanner

/-- The tokens of a text stand in it, one behind the other, and each covers some of it unless it is
`eof`. -/
theorem tokenize_places (source : String) (file : Nat) :
    (∀ t ∈ tokenize source file, t.span.InText source.toList file ∧
        (t.kind ≠ .eof → t.span.start < t.span.stop)) ∧
      (tokenize source file).Pairwise fun t t' => t.span.stop ≤ t'.span.start :=
  Scanner.untilEof_places _ (Pos.at_origin source.toList)

end Custody
