import Custody.Proofs.MirroredReading
import Custody.Proofs.Recovery

/-!
# What is told about an error token

The scanner hands on what it cannot read as an error token, whose value is a message. An attempt to
read a declaration that gives up at such a token tells this message at the place of the token. There
are two exceptions: a reader that looks for a type names the kind of the token instead, and behind
an empty list of generic parameters the list is complained about (`parseSource_surfaces`).

What is looked for at an error token is told by a comma in its place. Nothing starts with a comma,
so that the same attempt gives up there, too, and names what it misses (`Attempt.SeeksType`).
-/

set_option autoImplicit false

namespace Custody

/-! ## Commas in place of error tokens -/

/-- A token, or a comma if it is an error token. -/
def Token.mended (t : Token) : Token := if t.kind = .error then { t with kind := .comma } else t

/-- The same place among the tokens with commas for error tokens. -/
def Cursor.mended (c : Cursor) : Cursor :=
  { c with previous := c.previous.mended, rest := c.rest.map Token.mended }

/-- With a comma in place of the error token that it gives up at, an attempt gives up there as well,
for want of a type or because of an empty list of generic parameters. -/
def Attempt.SeeksType (fuel : Nat) (a : Attempt) : Prop :=
  ∃ e c, Grammar.item fuel a.start.mended = some (.error e, c) ∧ e.span = a.stop.current.span ∧
    ((∃ kind, e.fault = .expectedType kind) ∨ e.fault = .emptyGenerics)

/-- Each span answers to itself, and an error token to a comma. -/
def Correspondence.mended : Correspondence where
  name := Eq
  node := Eq
  near := Eq
  mends := true
  node_of_name h := h
  near_of_node h := h
  merge_name h h' := congrArg₂ Span.merge h h'
  merge_node h h' := congrArg₂ Span.merge h h'

theorem Token.resembles_mended (t : Token) : t.Resembles .mended t.mended := by
  unfold mended
  by_cases h : t.kind = .error
  · rw [if_pos h]
    exact ⟨.inr ⟨rfl, h, rfl⟩, rfl, rfl, fun _ => rfl⟩
  · rw [if_neg h]
    exact ⟨.inl rfl, rfl, rfl, fun _ => rfl⟩

theorem Cursor.resembles_mended (c : Cursor) : c.Resembles .mended c.mended :=
  ⟨c.previous.resembles_mended, c.previous.resembles_mended.near,
    List.forall₂_map_right_iff.2 (List.forall₂_same.2 fun t _ => t.resembles_mended), rfl⟩

/-- An attempt that misses a type at an error token misses it at a comma. -/
theorem Attempt.seeksType {fuel : Nat} {a : Attempt}
    (h : Grammar.item fuel a.start = some (.error a.error, a.stop))
    (hspan : a.error.span = a.stop.current.span)
    (hfault : a.error.fault = .expectedType .error ∨ a.error.fault = .emptyGenerics) :
    a.SeeksType fuel := by
  obtain ⟨start, error, stop⟩ := a
  have hread := Grammar.item_mirrors fuel start start.mended start.resembles_mended
  dsimp only at h hspan hfault
  rw [h] at hread
  generalize hmended : Grammar.item fuel start.mended = read at hread
  cases hread with
  | parted => rcases hfault with hfault | hfault <;> cases hfault
  | @error _ e _ c he hc =>
    refine ⟨e, c, hmended, he.span.symm.trans hspan, ?_⟩
    rcases he.fault with hsame | ⟨-, -, htype⟩
    · rw [hsame]
      exact hfault.imp_left fun h => ⟨_, h⟩
    · exact .inl ⟨_, htype⟩

/-! ## Attempts at error tokens -/

/-- How the error that an attempt gives up with relates to the token that it gives up at, among the
tokens of the text. -/
inductive Attempt.Tells (tokens : List Token) (a : Attempt) : Prop
  /-- It is about tokens that were taken before. -/
  | before (stop : a.error.span.stop ≤ a.stop.current.span.start)
  /-- It tells what the scanner has found. -/
  | surfaces (span : a.error.span = a.stop.current.span)
      (message : a.error.message = a.stop.current.value)
  /-- It hides what the scanner has found where a type is looked for, or what follows an empty list
  of generic parameters. That is behind a token that leads to a type. -/
  | hides (front : Token) (next : [front, a.stop.current] <:+: tokens)
      (leads : front.kind.leadsToType = true) (seeks : a.SeeksType (tokens.length + 2))
      (span : a.error.span = a.stop.current.span)
      (message : a.error.message = "Expected type, found invalid token" ∨
        a.error.message = "Generic parameter list cannot be empty")

/-- An attempt that gives up at an error token tells of it. The cursor stands at the start, so its
first token is led to by none. -/
theorem Attempt.MadeFrom.tells {c : Cursor} {a : Attempt} {file : Nat} (h : a.MadeFrom c)
    (hread : Grammar.item (c.rest.length + 2) a.start = some (.error a.error, a.stop))
    (hc : c.Bounded) (hfirst : c.previous = c.current) (horder : InOrder file c.rest)
    (herror : a.stop.current.kind = .error) : a.Tells c.rest := by
  obtain ⟨⟨before, hstart⟩, row, way, hraised⟩ := h
  have hway := hstart.trans way
  obtain ⟨after, hafter⟩ : ∃ after, a.stop.rest = a.stop.current :: after := by
    obtain ⟨t, ht, -⟩ := hway.bounded hc
    cases hrest : a.stop.rest with
    | nil =>
      rw [hrest] at ht
      cases ht
    | cons current after => exact ⟨after, by rw [Cursor.current, hrest]⟩
  have htokens : c.rest = before ++ row ++ a.stop.current :: after := by rw [hway.rest, hafter]
  rcases hraised with ⟨place, ⟨front, back, rfl⟩, hspans⟩ | hraised
  · -- The error is about a row of tokens, and the token stands behind that row.
    have hpart : place ++ (back ++ a.stop.current :: after) <:+: c.rest :=
      ⟨before ++ front, [], by simp [htokens]⟩
    obtain ⟨_, hrow, hspan⟩ := ParseError.standsIn_token a.stop.current .emptyGenerics
    exact .before
      ((horder.part hpart).stop_le_start hspans (hrow.trans ⟨back, after, by simp⟩) hspan)
  · rcases hraised.fault herror with hfault | ⟨hleads, hfault⟩
    · exact .surfaces hraised.span (by rw [ParseError.message, hfault]; rfl)
    · have hmessage : a.error.message = "Expected type, found invalid token" ∨
          a.error.message = "Generic parameter list cannot be empty" := by
        rw [ParseError.message]
        exact hfault.imp (fun h => by rw [h]; rfl) (fun h => by rw [h]; rfl)
      -- Something was taken before: no token leads to the first one.
      rcases List.eq_nil_or_concat (before ++ row) with hnone | ⟨taken, last, htaken⟩
      · have hcurrent : c.current = a.stop.current := by rw [Cursor.current, htokens, hnone]; rfl
        rw [hway.previous, hnone, List.getLast?_nil, Option.getD_none, hfirst, hcurrent,
          herror] at hleads
        cases hleads
      · have hlast : a.stop.previous = last := by rw [hway.previous, htaken]; simp
        exact .hides last ⟨taken, after, by simp [htokens, htaken]⟩ (hlast ▸ hleads)
          (Attempt.seeksType hread hraised.span hfault) hraised.span hmessage

/-- When the reading of a text gives errors, an attempt that gives up at an error token tells the
message of the token, at the place of the token, unless its error is about tokens before it or a
type was looked for or an empty list of generic parameters stands before it. -/
theorem parseSource_surfaces {source : String} {file : Nat} {errors : List ParseError}
    (h : parseSource source file = some (.error errors)) :
    ∃ attempts, Recovers (tokenize source file) errors attempts ∧
      ∀ a ∈ attempts, a.stop.current.kind = .error → a.Tells (tokenize source file) := by
  obtain ⟨f, errors', attempts, hrecovers, hparse⟩ := exists_recovers source file
  obtain rfl : errors' = errors := by
    cases errors' with
    | nil => cases h.symm.trans hparse
    | cons e errors' => exact (Except.error.inj (Option.some.inj (h.symm.trans hparse))).symm
  refine ⟨attempts, hrecovers, fun a ha herror => ?_⟩
  obtain ⟨front, eof, hsource, heof, -⟩ := tokenize_ends source file
  have hend : ∃ t ∈ tokenize source file, t.kind = .eof := ⟨eof, by simp [hsource], heof⟩
  obtain ⟨first, hfirst, hattempts⟩ := hrecovers.made
  have hahead := (⟨first, tokenize source file, 0⟩ : Cursor).ahead_le
  have hcurrent : first = (⟨first, tokenize source file, 0⟩ : Cursor).current := by
    obtain ⟨rest, hrest⟩ := List.head?_eq_some_iff.1 hfirst
    rw [Cursor.current, hrest]
  exact (hattempts.made hend (by dsimp only at hahead ⊢; omega) a ha).tells
    (hattempts.read_of_mem a ha)
    hend hcurrent (tokenize_inOrder source file) herror

/-- A sign that the scanner cannot read, at the start of a text, for a type and for an argument. -/
def strayDollars : String := "$ fn f(a: $) { } fn g(b: u8) { g(b, $); }"

/-- Whether the reading of a text gives these errors. -/
def givesErrors (source : String) (errors : List ParseError) : Bool :=
  match parseSource source 0 with
  | some (.error found) => found == errors
  | _ => false

theorem parseSource_of_givesErrors {source : String} {errors : List ParseError}
    (h : givesErrors source errors = true) : parseSource source 0 = some (.error errors) := by
  unfold givesErrors at h
  cases hread : parseSource source 0 with
  | none =>
    rw [hread] at h
    cases h
  | some r =>
    rw [hread] at h
    cases r with
    | ok f => cases h
    | error found => rw [eq_of_beq h]

/-- A sign that starts no declaration is told as such, and so is one that stands for an argument;
one that stands for a type is not. -/
theorem parseSource_surfaces_strayDollars :
    ∃ errors attempts, errors.map ParseError.message =
        ["Unexpected character: $", "Expected type, found invalid token",
          "Unexpected character: $"] ∧
      parseSource strayDollars 0 = some (.error errors) ∧
      Recovers (tokenize strayDollars 0) errors attempts ∧
      ∀ a ∈ attempts, a.stop.current.kind = .error → a.Tells (tokenize strayDollars 0) := by
  have h : parseSource strayDollars 0 =
      some (.error [⟨.lexical "Unexpected character: $", ⟨0, 1, 1, 1, 0⟩⟩,
        ⟨.expectedType .error, ⟨10, 11, 1, 11, 0⟩⟩,
        ⟨.lexical "Unexpected character: $", ⟨36, 37, 1, 37, 0⟩⟩]) :=
    parseSource_of_givesErrors (by decide +kernel)
  obtain ⟨attempts, hattempts⟩ := parseSource_surfaces h
  exact ⟨_, attempts, rfl, h, hattempts⟩

/-- The error at an error token does not always tell the message of the token: where a type is
looked for, it says that there is none. -/
theorem parseSource_hides_message :
    ∃ e, parseSource "fn f(a: $) { }" 0 = some (.error [e]) ∧
      ∃ t ∈ tokenize "fn f(a: $) { }" 0, t.kind = .error ∧ e.span = t.span ∧ e.message ≠ t.value :=
  ⟨⟨.expectedType .error, ⟨8, 9, 1, 9, 0⟩⟩, parseSource_of_givesErrors (by decide +kernel),
    ⟨.error, ⟨8, 9, 1, 9, 0⟩, "Unexpected character: $"⟩, by decide +kernel⟩

end Custody
