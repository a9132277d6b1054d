import Custody.Token.Lexer
import Mathlib.Data.List.Infix

/-!
# What a scanner skips

Between two tokens stands a gap: blanks, comments up to the end of their line, and closed comments
between `/*` and `*/` (`Gap`). A scanner skips gaps and nothing else (`skipGap_skips`). A comment
that is never closed covers what opens it (`offset_lt_of_unclosed`).
-/

set_option autoImplicit false

namespace Custody

/-! ## Places -/

namespace Pos

theorem offset_lt_step (p : Pos) (c : Char) : p.offset < (p.step c).offset := by
  have hsize : 0 < c.utf8Size := Char.utf8Size_pos c
  unfold step
  split
  · exact Nat.lt_add_of_pos_right hsize
  · exact Nat.lt_add_of_pos_right hsize

theorem offset_le_pass (p : Pos) (text : List Char) : p.offset ≤ (p.pass text).offset := by
  induction text generalizing p with
  | nil => exact Nat.le_refl _
  | cons c text ih => exact Nat.le_trans (Nat.le_of_lt (p.offset_lt_step c)) (ih (p.step c))

theorem offset_lt_pass (p : Pos) {text : List Char} (h : text ≠ []) :
    p.offset < (p.pass text).offset := by
  cases text with
  | nil => exact absurd rfl h
  | cons c text => exact Nat.lt_of_lt_of_le (p.offset_lt_step c) ((p.step c).offset_le_pass text)

end Pos

/-! ## Gaps -/

/-- What may stand in front of a token. A comment up to the end of its line takes in the line feed;
only in the last gap of a text it may go without one. -/
inductive Gap (last : Bool) : List Char → Prop
  | nil : Gap last []
  | blank {c : Char} {cs : List Char} (hc : Text.isBlank c = true) (h : Gap last cs) :
      Gap last (c :: cs)
  | lineComment {body cs : List Char} (hbody : '\n' ∉ body) (h : Gap last cs) :
      Gap last ('/' :: '/' :: (body ++ '\n' :: cs))
  | blockComment {body cs : List Char} (hbody : ¬ ['*', '/'] <:+: body) (h : Gap last cs) :
      Gap last ('/' :: '*' :: (body ++ '*' :: '/' :: cs))
  | lastLine {body : List Char} (hlast : last = true) (hbody : '\n' ∉ body) :
      Gap last ('/' :: '/' :: body)

namespace Gap

variable {last : Bool} {c : Char} {cs : List Char}

theorem not_isBlank_slash : Text.isBlank '/' = false := by decide

/-- A comment up to the end of its line can be longer by one character at its start. -/
theorem cons_lineComment (hc : c ≠ '\n') (h : Gap last ('/' :: '/' :: cs)) :
    Gap last ('/' :: '/' :: c :: cs) := by
  generalize htext : '/' :: '/' :: cs = text at h
  cases h with
  | nil => cases htext
  | blank hblank _ =>
    cases htext
    rw [not_isBlank_slash] at hblank
    cases hblank
  | @lineComment body rest hbody h =>
    cases htext
    rw [← List.cons_append]
    apply lineComment _ h
    rw [List.mem_cons, not_or]
    exact ⟨hc.symm, hbody⟩
  | blockComment _ _ => cases htext
  | lastLine hlast hbody =>
    cases htext
    apply lastLine hlast
    rw [List.mem_cons, not_or]
    exact ⟨hc.symm, hbody⟩

/-- A comment between `/*` and `*/` can be longer by one character at its start, unless it is closed
there. -/
theorem cons_blockComment (hc : ∀ rest, c = '*' →
    cs ≠ '/' :: rest) (h : Gap last ('/' :: '*' :: cs)) : Gap last ('/' :: '*' :: c :: cs) := by
  generalize htext : '/' :: '*' :: cs = text at h
  cases h with
  | nil => cases htext
  | blank hblank _ =>
    cases htext
    rw [not_isBlank_slash] at hblank
    cases hblank
  | lineComment _ _ => cases htext
  | @blockComment body rest hbody h =>
    cases htext
    rw [← List.cons_append]
    apply blockComment _ h
    intro hinfix
    rcases List.infix_cons_iff.1 hinfix with hstart | hinfix
    -- The comment would be closed right where it starts.
    · obtain ⟨tail, htail⟩ := hstart
      cases htail
      exact hc _ rfl rfl
    · exact hbody hinfix
  | lastLine _ _ => cases htext

end Gap

/-- What opens the comment that a scanner is in. -/
def GapMode.opening : GapMode → List Char
  | blanks => []
  | lineComment => ['/', '/']
  | blockComment _ => ['/', '*']

/-- What a scanner has skipped where a gap ends, from the place `p` in front of `cs` on: the rest of
a gap, and then perhaps a comment up to the end of the text. -/
def GapEnd.Skips (mode : GapMode) (p : Pos) (cs : List Char) : GapEnd → Prop
  | clear q rest => ∃ skipped, cs = skipped ++ rest ∧ q = p.pass skipped ∧
      Gap rest.isEmpty (mode.opening ++ skipped)
  | unclosed opened stop => (mode = .blockComment opened ∧ stop = p.pass cs) ∨
      ∃ skipped comment, cs = skipped ++ comment ∧ opened = p.pass skipped ∧
      stop = opened.pass comment ∧
        Gap false (mode.opening ++ skipped)

namespace GapEnd.Skips

variable {mode mode' : GapMode} {p : Pos} {cs : List Char} {e : GapEnd}

/-- A scanner that goes on behind `taken` has skipped that as well. The hypotheses say what this
does to a gap, and to a comment that is open then. -/
theorem step (taken : List Char) (h : e.Skips mode' (p.pass taken) cs)
    (hgap : ∀ skipped rest, cs = skipped ++ rest → ∀ last, Gap last (mode'.opening ++ skipped) →
      Gap last (mode.opening ++ (taken ++ skipped)))
    (hopen : ∀ opened, mode' = .blockComment opened →
      mode = .blockComment opened ∨ mode = .blanks ∧ opened = p) :
    e.Skips mode p (taken ++ cs) := by
  cases e with
  | clear q rest =>
    obtain ⟨skipped, rfl, rfl, h⟩ := h
    exact ⟨taken ++ skipped, (List.append_assoc _ _ _).symm, (Pos.pass_append _ _ _).symm,
      hgap skipped rest rfl _ h⟩
  | unclosed opened stop =>
    rcases h with ⟨hmode, rfl⟩ | ⟨skipped, comment, rfl, rfl, rfl, h⟩
    · rw [← Pos.pass_append]
      rcases hopen opened hmode with hmode | ⟨rfl, rfl⟩
      · exact .inl ⟨hmode, rfl⟩
      -- The comment was opened here, so nothing has been skipped before it.
      · exact .inr ⟨[], taken ++ cs, rfl, rfl, rfl, .nil⟩
    · exact .inr ⟨taken ++ skipped, comment, (List.append_assoc _ _ _).symm,
        (Pos.pass_append _ _ _).symm, rfl, hgap skipped comment rfl _ h⟩

end GapEnd.Skips

/-- A scanner skips nothing but gaps, up to a comment that is left open. -/
theorem skipGap_skips (mode : GapMode) (p : Pos) (cs : List Char) :
    (skipGap mode p cs).Skips mode p cs := by
  fun_induction skipGap mode p cs with
  | case1 p => exact ⟨[], rfl, rfl, .nil⟩
  | case2 p cs ih =>
    apply ih.step ['/', '/']
    · intro skipped rest _ last h
      exact h
    · intro opened h
      cases h
  | case3 p cs ih =>
    apply ih.step ['/', '*']
    · intro skipped rest _ last h
      exact h
    · intro opened h
      cases h
      exact .inr ⟨rfl, rfl⟩
  | case4 p c cs _ _ hblank ih =>
    apply ih.step [c]
    · intro skipped rest _ last h
      exact .blank hblank h
    · intro opened h
      cases h
  | case5 p c cs _ _ _ => exact ⟨[], rfl, rfl, .nil⟩
  | case6 p => exact ⟨[], rfl, rfl, .lastLine rfl List.not_mem_nil⟩
  | case7 p c cs ih =>
    by_cases hc : c = '\n'
    · rw [if_pos hc] at ih ⊢
      apply ih.step [c]
      · intro skipped rest _ last h
        rw [hc]
        show Gap last ('/' :: '/' :: ([] ++ '\n' :: skipped))
        exact .lineComment List.not_mem_nil h
      · intro opened h
        cases h
    · rw [if_neg hc] at ih ⊢
      apply ih.step [c]
      · intro skipped rest _ last h
        exact .cons_lineComment hc h
      · intro opened h
        cases h
  | case8 opened p => exact .inl ⟨rfl, rfl⟩
  | case9 opened p cs ih =>
    apply ih.step ['*', '/']
    · intro skipped rest _ last h
      show Gap last ('/' :: '*' :: ([] ++ '*' :: '/' :: skipped))
      exact .blockComment (by simp) h
    · intro opened' h
      cases h
  | case10 opened p c cs hclose ih =>
    apply ih.step [c]
    · rintro skipped rest rfl last h
      -- Together with what follows, `c` does not close the comment.
      apply Gap.cons_blockComment _ h
      rintro tail rfl rfl
      exact hclose (tail ++ rest) rfl rfl
    · intro opened' h
      cases h
      exact .inl rfl

/-- A comment that is left open covers some text. -/
theorem offset_lt_of_unclosed {mode : GapMode} {p opened stop : Pos} {cs : List Char}
    (h : skipGap mode p cs = .unclosed opened stop)
    (hmode : ∀ start, mode = .blockComment start → start.offset < p.offset) :
    opened.offset < stop.offset := by
  fun_induction skipGap mode p cs with
  | case1 | case5 | case6 => cases h
  | case2 p cs ih | case4 p c cs _ _ _ ih | case9 start p cs ih =>
    apply ih h
    intro start hstart
    cases hstart
  | case3 p cs ih =>
    apply ih h
    intro start hstart
    cases hstart
    exact p.offset_lt_pass (by simp)
  | case7 p c cs ih =>
    apply ih h
    intro start hstart
    split at hstart <;> cases hstart
  | case8 start p =>
    cases h
    exact hmode opened rfl
  | case10 start p c cs _ ih =>
    apply ih h
    intro start' hstart
    cases hstart
    exact Nat.lt_trans (hmode start rfl) (p.offset_lt_step c)

end Custody
