import Custody.Proofs.MirroredReading
import Mathlib.Data.List.Forall2

/-!
# Reading in another file

The grammar never looks at the number of a file: the tokens of a text in one file are those in any
other, refiled (`tokenize_refile`), and are read alike (`parseSource_refile`). What is read from a
file has spans of that file only, as the spans of trees that resemble each other answer to each
other (`SourceFile.Resembles.spans`).
-/

set_option autoImplicit false

namespace Custody

variable {ρ : Correspondence}

/-! ## Spans of trees -/

theorem Mark.Resembles.near {m m' : Mark} (h : m.Resembles ρ m') : ρ.near m.span m'.span :=
  ρ.near_of_node h.span

theorem Ident.Resembles.near {x x' : Ident} (h : x.Resembles ρ x') : ρ.near x.span x'.span :=
  ρ.near_of_name h.span

theorem Ident.spans_of_resembles {xs xs' : List Ident}
    (h : List.Forall₂ (Ident.Resembles ρ) xs xs') :
    List.Forall₂ ρ.near (xs.map Ident.span) (xs'.map Ident.span) :=
  List.rel_map (fun _ _ hx => hx.near) h

/-- What may be left out has the spans that it has in a list. -/
theorem toList_of_rel {α β : Type} {R : α → β → Prop} {x : Option α} {y : Option β}
    (h : Option.Rel R x y) : List.Forall₂ R x.toList y.toList := by
  cases h with
  | some h => exact .cons h .nil
  | none => exact .nil

mutual
theorem TypeExpr.Resembles.spans :
    ∀ {t t' : TypeExpr}, t.Resembles ρ t' → List.Forall₂ ρ.near t.spans t'.spans
  | .named _ _ _ _, _, h => by
    cases h with
    | named hmark hspace hname hargs =>
      exact .cons hmark.near (List.rel_append (Ident.spans_of_resembles (toList_of_rel hspace))
        (.cons hname.near (spans_of_resembles hargs)))
  | .pointer _ _ _, _, h => by
    cases h with
    | pointer hmark _ hpointee => exact .cons hmark.near hpointee.spans
  | .array _ _ _, _, h => by
    cases h with
    | array hmark _ helement => exact .cons hmark.near helement.spans
  | .slice _ _, _, h => by
    cases h with
    | slice hmark helement => exact .cons hmark.near helement.spans

theorem TypeExpr.spans_of_resembles : ∀ {ts ts' : List TypeExpr},
    List.Forall₂ (TypeExpr.Resembles ρ) ts ts' → List.Forall₂ ρ.near (spansAll ts) (spansAll ts')
  | [], _, h => by
    cases h
    exact .nil
  | t :: ts, _, h => by
    cases h with
    | cons ht hts => exact List.rel_append ht.spans (spans_of_resembles hts)
end

mutual
theorem Expr.Resembles.spans :
    ∀ {e e' : Expr}, e.Resembles ρ e' → List.Forall₂ ρ.near e.spans e'.spans
  | .binary _ _ _ _, _, h => by
    cases h with
    | binary hmark _ hleft hright =>
      exact .cons hmark.near (List.rel_append hleft.spans hright.spans)
  | .unary _ _ _, _, h => by
    cases h with
    | unary hmark _ hoperand => exact .cons hmark.near hoperand.spans
  | .number _ _, _, h => by
    cases h with
    | number hmark _ => exact .cons hmark.near .nil
  | .string _ _, _, h => by
    cases h with
    | string hmark _ => exact .cons hmark.near .nil
  | .bool _ _, _, h => by
    cases h with
    | bool hmark _ => exact .cons hmark.near .nil
  | .ident _ _, _, h => by
    cases h with
    | ident hmark hname => exact .cons hmark.near (.cons hname.near .nil)
  | .call _ _ _ _, _, h => by
    cases h with
    | call hmark hcallee htypeArgs hargs =>
      exact .cons hmark.near (List.rel_append hcallee.spans
        (List.rel_append (TypeExpr.spans_of_resembles htypeArgs) (spans_of_resembles hargs)))
  | .get _ _ _, _, h => by
    cases h with
    | get hmark hobject hmember =>
      exact .cons hmark.near (List.rel_append hobject.spans (.cons hmember.near .nil))
  | .new _ _ _, _, h => by
    cases h with
    | new hmark htype hfields =>
      exact .cons hmark.near (List.rel_append htype.spans (fieldSpans_of_resemble hfields))
  | .group _ _, _, h => by
    cases h with
    | group hmark hinner => exact .cons hmark.near hinner.spans
  | .null _, _, h => by
    cases h with
    | null hmark => exact .cons hmark.near .nil
  | .zero _, _, h => by
    cases h with
    | zero hmark => exact .cons hmark.near .nil
  | .staticArray _ _ _, _, h => by
    cases h with
    | staticArray hmark htype helements =>
      exact .cons hmark.near (List.rel_append htype.spans (spans_of_resembles helements))
  | .subscript _ _ _, _, h => by
    cases h with
    | subscript hmark hobject hindex =>
      exact .cons hmark.near (List.rel_append hobject.spans hindex.spans)
  | .range _ _ _, _, h => by
    cases h with
    | range hmark hfirst hlast => exact .cons hmark.near (List.rel_append hfirst.spans hlast.spans)

theorem Expr.spans_of_resembles : ∀ {es es' : List Expr},
    List.Forall₂ (Expr.Resembles ρ) es es' → List.Forall₂ ρ.near (spansAll es) (spansAll es')
  | [], _, h => by
    cases h
    exact .nil
  | e :: es, _, h => by
    cases h with
    | cons he hes => exact List.rel_append he.spans (spans_of_resembles hes)

theorem Expr.fieldSpans_of_resemble : ∀ {fields fields' : List (Ident × Expr)},
    Expr.ResembleFields ρ fields fields' →
      List.Forall₂ ρ.near (spansFields fields) (spansFields fields')
  | [], _, h => by
    cases h
    exact .nil
  | (_, e) :: fields, _, h => by
    cases h with
    | cons hname he hfields =>
      exact .cons hname.near (List.rel_append he.spans (fieldSpans_of_resemble hfields))
end

theorem TypedName.spans_of_resembles {ns ns' : List TypedName}
    (h : List.Forall₂ (TypedName.Resembles ρ) ns ns') :
    List.Forall₂ ρ.near (ns.flatMap TypedName.spans) (ns'.flatMap TypedName.spans) :=
  List.rel_flatMap h fun _ _ hn => .cons hn.name.near hn.type.spans

theorem TypeExpr.optionalSpans_of_resembles {t t' : Option TypeExpr}
    (h : Option.Rel (TypeExpr.Resembles ρ) t t') :
    List.Forall₂ ρ.near (t.toList.flatMap TypeExpr.spans) (t'.toList.flatMap TypeExpr.spans) :=
  List.rel_flatMap (toList_of_rel h) fun _ _ ht => ht.spans

theorem FnHead.Resembles.spans {head head' : FnHead} (h : head.Resembles ρ head') :
    List.Forall₂ ρ.near head.spans head'.spans :=
  .cons h.name.near (List.rel_append (Ident.spans_of_resembles h.generics)
    (List.rel_append (TypedName.spans_of_resembles h.params)
      (TypeExpr.optionalSpans_of_resembles h.returnType)))

mutual
theorem Stmt.Resembles.spans :
    ∀ {s s' : Stmt}, s.Resembles ρ s' → List.Forall₂ ρ.near s.spans s'.spans
  | .importDecl _ _, _, h => by
    cases h with
    | importDecl hmark hdecl =>
      exact .cons hmark.near
        (.cons (ρ.near_of_name hdecl.pathSpan) (.cons hdecl.localName.near .nil))
  | .structDecl _ _, _, h => by
    cases h with
    | structDecl hmark hdecl =>
      exact .cons hmark.near (.cons hdecl.name.near (List.rel_append
        (Ident.spans_of_resembles hdecl.generics) (TypedName.spans_of_resembles hdecl.members)))
  | .fnDecl _ _ _, _, h => by
    cases h with
    | fnDecl hmark hhead hbody => exact .cons hmark.near (List.rel_append hhead.spans hbody.spans)
  | .letDecl _ _ _ _, _, h => by
    cases h with
    | letDecl hmark hname htype hinit =>
      exact .cons hmark.near (.cons hname.near
        (List.rel_append (TypeExpr.optionalSpans_of_resembles htype) hinit.spans))
  | .scope _ _, _, h => by
    cases h with
    | scope hmark hbody => exact .cons hmark.near hbody.spans
  | .assign _ _ _, _, h => by
    cases h with
    | assign hmark htarget hvalue =>
      exact .cons hmark.near (List.rel_append htarget.spans hvalue.spans)
  | .returnStmt _ _, _, h => by
    cases h with
    | returnStmt hmark hvalue =>
      exact .cons hmark.near (List.rel_flatMap (toList_of_rel hvalue) fun _ _ hv => hv.spans)
  | .breakStmt _, _, h => by
    cases h with
    | breakStmt hmark => exact .cons hmark.near .nil
  | .continueStmt _, _, h => by
    cases h with
    | continueStmt hmark => exact .cons hmark.near .nil
  | .forEach _ _ _ _, _, h => by
    cases h with
    | forEach hmark hname hiterable hbody =>
      exact .cons hmark.near (.cons hname.near (List.rel_append hiterable.spans hbody.spans))
  | .forCounted _ _ _ _ _, _, h => by
    cases h with
    | forCounted hmark hinit hcondition hupdate hbody =>
      exact .cons hmark.near (List.rel_append hinit.spans (List.rel_append hcondition.spans
        (List.rel_append hupdate.spans hbody.spans)))
  | .ifElse _ _ _ none, _, h => by
    cases h with
    | ifElse hmark hcondition hthen helse =>
      cases helse
      exact .cons hmark.near (List.rel_append hcondition.spans (List.rel_append hthen.spans .nil))
  | .ifElse _ _ _ (some _), _, h => by
    cases h with
    | ifElse hmark hcondition hthen helse =>
      cases helse with
      | some hbranch =>
        exact .cons hmark.near (List.rel_append hcondition.spans
          (List.rel_append hthen.spans hbranch.spans))
  | .expr _ _, _, h => by
    cases h with
    | expr hmark hvalue => exact .cons hmark.near hvalue.spans

theorem Block.Resembles.spans :
    ∀ {b b' : Block}, b.Resembles ρ b' → List.Forall₂ ρ.near b.spans b'.spans
  | .mk _ _, _, h => by
    cases h with
    | mk hspan hstmts => exact .cons (ρ.near_of_node hspan) (Stmt.spans_of_resembles hstmts)

theorem Stmt.spans_of_resembles : ∀ {ss ss' : List Stmt},
    List.Forall₂ (Stmt.Resembles ρ) ss ss' →
      List.Forall₂ ρ.near (Stmt.spansAll ss) (Stmt.spansAll ss')
  | [], _, h => by
    cases h
    exact .nil
  | s :: ss, _, h => by
    cases h with
    | cons hs hss => exact List.rel_append hs.spans (Stmt.spans_of_resembles hss)
end

theorem SourceFile.Resembles.spans {f f' : SourceFile} (h : f.Resembles ρ f') :
    List.Forall₂ ρ.near f.spans f'.spans :=
  .cons h.span (Stmt.spans_of_resembles h.items)

/-! ## Tokens of a text -/

namespace Scanner

/-- The scanner in another file. -/
def inFile (s : Scanner) (i : Nat) : Scanner := { s with file := i }

theorem next_inFile (s : Scanner) (i : Nat) :
    (s.inFile i).next = (s.next.1.refile fun _ => i, s.next.2.inFile i) := by
  unfold next inFile
  dsimp only
  split <;> rfl

theorem untilEof_inFile (fuel : Nat) (s : Scanner) (i : Nat) :
    (s.inFile i).untilEof fuel = (s.untilEof fuel).map (Token.refile fun _ => i) := by
  induction fuel generalizing s with
  | zero => rfl
  | succ fuel ih =>
    rw [untilEof, untilEof, next_inFile]
    dsimp only
    rw [ih, show (s.next.1.refile fun _ => i).kind = s.next.1.kind from rfl]
    split <;> rfl

end Scanner

/-- The tokens of a text in a file are those in any other, refiled. -/
theorem tokenize_refile (source : String) (i j : Nat) :
    tokenize source i = (tokenize source j).map (Token.refile fun _ => i) :=
  (Scanner.ofSource source j).untilEof_inFile _ i

/-- A text is read alike in any two files. -/
theorem parseSource_refile (source : String) (i j : Nat) :
    Option.Rel (ExceptRel (List.Forall₂ (ParseError.Resembles (.refile fun _ => j)))
      (SourceFile.Resembles (.refile fun _ => j)))
      (parseSource source i) (parseSource source j) := by
  rw [parseSource, parseSource, tokenize_refile source j i]
  exact parseTokens_mirrors rfl
    (List.forall₂_map_right_iff.2
      (List.forall₂_same.2 fun _ _ => ⟨.inl rfl, rfl, rfl, fun _ => rfl⟩))

end Custody
