import Custody.Proofs.SpanNesting
import Custody.Proofs.Spellings

/-!
# Ranges of ranges

Behind a range the reader of operators looks for another `..` as it does behind every operand, so
that ranges group to the left. The end of a range is never a range, and the start of a range is one
only where a single operand stands between two `..` (`parseSource_ranges`).
-/

set_option autoImplicit false

namespace Custody

open Style Grammar

/-- Whether an expression is a range. -/
def Expr.isRange : Expr → Bool
  | .range _ _ _ => true
  | _ => false

/-- Somewhere in the tokens an expression stands between two `..`. -/
def Chained (tokens : List Token) : Prop :=
  ∃ (operand : Expr) (before after : Token) (row : List Token),
  before :: row ++ [after] <:+: tokens ∧
    before.kind = .dotDot ∧ after.kind = .dotDot ∧ operand.wellShaped = true ∧
    Spelled row (operand.write lenient)

/-! ## Shapes of pieces -/

namespace Piece

/-- A piece whose expressions and statements are such as the syntax can express. -/
def Fits : Piece → Prop
  | expr e => e.wellShaped = true
  | stmt s => s.wellShaped = true ∨ s.wellShapedItem = true
  | clause s => s.wellShaped = true
  | block b => b.wellShaped = true
  | _ => True

variable {p q : Piece} {ps : List Piece}

theorem fits_of_mem_type {t : TypeExpr} (h : q ∈ t.pieces) : q.Fits := by
  cases t <;> simp [TypeExpr.pieces] at h <;> grind [Fits]

theorem fits_of_mem_expr {e : Expr} (h : e.wellShaped = true) (hq : q ∈ e.pieces) : q.Fits := by
  cases q with
  | expr child =>
    have hchild : child ∈ e.children := by
      cases e <;> simp [Expr.pieces, Expr.children, fieldPieces] at hq ⊢ <;> grind
    exact (Expr.wellShaped_iff.1 h).2 child hchild
  | stmt s | clause s | block b => cases e <;> simp [Expr.pieces, fieldPieces] at hq
  | _ => trivial

theorem fits_of_mem_stmt {s : Stmt} (h : s.wellShaped = true) (hq : q ∈ s.pieces) : q.Fits := by
  cases s <;> simp [Stmt.pieces] at hq <;> grind [Fits, Stmt.wellShaped, Stmt.wellShapedElse]

theorem fits_of_mem_item {s : Stmt} (h : s.wellShapedItem = true) (hq : q ∈ s.pieces) : q.Fits := by
  cases s <;> simp [Stmt.pieces, TypedName.pieces] at hq <;> grind [Fits, Stmt.wellShapedItem]

/-- What is right inside a piece that fits does so too. -/
theorem Fits.parts (h : p.Fits) (hq : q ∈ p.parts) : q.Fits := by
  cases p with
  | type t => exact fits_of_mem_type hq
  | expr e => exact fits_of_mem_expr h hq
  | stmt s => exact h.elim (fits_of_mem_stmt · hq) (fits_of_mem_item · hq)
  | clause s => exact fits_of_mem_stmt h hq
  | block b =>
    obtain ⟨s, hs, rfl⟩ := List.mem_map.1 hq
    exact .inl (Block.wellShaped_iff.1 h s hs)
  | name | path => cases hq

theorem Inside.fits (hp : p.Inside ps) (h : ∀ q ∈ ps, q.Fits) : p.Fits := by
  induction hp with
  | top hmem => exact h _ hmem
  | part _ hq ih => exact ih fun r hr => (h _ hq).parts hr

/-- Whether a piece that passes the test stands in the given ones, down to a depth. -/
def anyInside (test : Piece → Bool) : Nat → List Piece → Bool
  | 0, _ => false
  | depth + 1, ps => ps.any fun p => test p || anyInside test depth p.parts

theorem exists_of_anyInside {test : Piece → Bool} {depth : Nat}
    (h : anyInside test depth ps = true) : ∃ p : Piece, p.Inside ps ∧ test p = true := by
  induction depth generalizing ps with
  | zero => cases h
  | succ depth ih =>
    obtain ⟨p, hp, h⟩ := List.any_eq_true.1 h
    rcases Bool.or_eq_true_iff.1 h with h | h
    · exact ⟨p, .top hp, h⟩
    · obtain ⟨q, hq, htest⟩ := ih h
      exact ⟨q, .part hq hp, htest⟩

/-- A range that starts with a range. -/
def startsWithRange : Piece → Bool
  | expr (.range _ first _) => first.isRange
  | _ => false

theorem exists_of_startsWithRange (h : p.startsWithRange = true) :
    ∃ mark first last, p = .expr (.range mark first last) ∧ first.isRange = true := by
  cases p with
  | expr e =>
    cases e with
    | range mark first last => exact ⟨mark, first, last, rfl, h⟩
    | _ => cases h
  | _ => cases h

end Piece

/-! ## Chains -/

/-- In a text that is read without an error, the end of a range is never a range. The start of a
range is one only if somewhere in the text an expression stands between two `..`. -/
theorem parseSource_ranges {source : String} {file : Nat} {f : SourceFile}
    (h : parseSource source file = some (.ok f)) {mark : Mark} {first last : Expr}
    (hrange : (Piece.expr (.range mark first last)).Inside f.pieces) :
    last.isRange = false ∧ (first.isRange = true → Chained (tokenize source file)) := by
  obtain ⟨tokens, eof, hsource, -, htokens, hread, c, c', htaken⟩ := taken_of_parseSource h
  have hitems : ∀ p ∈ f.pieces, p.Fits := by
    intro p hp
    obtain ⟨s, hs, rfl⟩ := List.mem_map.1 hp
    exact .inr (List.all_eq_true.1 hread.wellShaped s hs)
  obtain ⟨hlast, hfirst, -⟩ := Expr.wellShaped_range.1 (hrange.fits hitems)
  refine ⟨?_, fun hchain => ?_⟩
  · cases last with
    | range => simp [Expr.level] at hlast
    | _ => rfl
  · cases first with
    | range mark' start operand =>
      obtain ⟨row, hrow, hstands⟩ := hrange.stands htaken.stands
      have hspelled : Spelled row
          ((Expr.range mark (.range mark' start operand) last).write lenient) :=
        hstands.spelled fun t ht => htokens t (hrow.subset ht)
      -- The tokens are those of the start, the operand and the end, with a `..` on either side of
      -- the operand.
      simp only [Expr.write, mul_assoc] at hspelled
      obtain ⟨front, _, rfl, -, hspelled⟩ := spelled_mul.1 hspelled
      obtain ⟨before, _, rfl, hbefore, hspelled⟩ := spelled_kind_mul hspelled
      obtain ⟨middle, _, rfl, hmiddle, hspelled⟩ := spelled_mul.1 hspelled
      obtain ⟨after, back, rfl, hafter, -⟩ := spelled_kind_mul hspelled
      have hpart : before :: middle ++ [after] <:+: front ++ before :: (middle ++ after :: back) :=
        ⟨front, back, by simp⟩
      rw [hsource]
      exact ⟨operand, before, after, middle,
        (hpart.trans hrow).trans (List.prefix_append _ _).isInfix, hbefore,
        hafter, (Expr.wellShaped_range.1 hfirst).2.2, hmiddle⟩
    | _ => cases hchain

/-- A text in which a range that starts with a range is found. -/
theorem exists_startsWithRange (source : String)
    (h : ((parseSource source 0).bind Except.toOption).any
      (fun f => Piece.anyInside Piece.startsWithRange 6 f.pieces) = true) :
    ∃ f mark first last, parseSource source 0 = some (.ok f) ∧
      (Piece.expr (.range mark first last)).Inside f.pieces ∧ first.isRange = true := by
  obtain ⟨f, hf, hany⟩ := exists_of_parseSource_any h
  obtain ⟨p, hp, hstarts⟩ := Piece.exists_of_anyInside hany
  obtain ⟨mark, first, last, rfl, hfirst⟩ := Piece.exists_of_startsWithRange hstarts
  exact ⟨f, mark, first, last, hf, hp, hfirst⟩

/-- With a range in parentheses between two `..`, the end is none, and the text is chained. -/
theorem parseSource_ranges_grouped :
    ∃ f mark first last, parseSource "fn f() { 0..(1..2)..3; }" 0 = some (.ok f) ∧
      (Piece.expr (.range mark first last)).Inside f.pieces ∧ first.isRange = true ∧
        last.isRange = false ∧
      Chained (tokenize "fn f() { 0..(1..2)..3; }" 0) := by
  obtain ⟨f, mark, first, last, hf, hrange, hfirst⟩ :=
    exists_startsWithRange "fn f() { 0..(1..2)..3; }" (by decide +kernel)
  obtain ⟨hlast, hchained⟩ := parseSource_ranges hf hrange
  exact ⟨f, mark, first, last, hf, hrange, hfirst, hlast, hchained hfirst⟩

/-- Ranges chain: without parentheses, a range is the start of another one. -/
theorem parseSource_chains_ranges :
    ∃ f mark first last, parseSource "fn f() { a..b..c; }" 0 = some (.ok f) ∧
      (Piece.expr (.range mark first last)).Inside f.pieces ∧ first.isRange = true :=
  exists_startsWithRange _ (by decide +kernel)

end Custody
