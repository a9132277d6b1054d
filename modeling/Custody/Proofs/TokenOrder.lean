import Custody.Proofs.TokenValues

/-!
# The order of tokens

A scanner only goes forward, and every token but `eof` covers a character. So the tokens of a text
start one behind the other, and no two of them have the same span.
-/

set_option autoImplicit false

namespace Custody

namespace Scanner

/-- A token starts where the scanner is or behind, and unless it is `eof` the scanner then is behind
its start. -/
theorem next_start (s : Scanner) : s.pos.offset ≤ s.next.1.span.start ∧
    (s.next.1.kind ≠ .eof → s.next.1.span.start < s.next.2.pos.offset) := by
  rcases s.next_cases with ⟨gap, -, -, hnext⟩ | ⟨gap, word, -, hword, -, -, hspan, hpos⟩
  · rw [hnext]
    exact ⟨s.pos.offset_le_pass gap, fun hkind => absurd rfl hkind⟩
  · rw [hspan, hpos]
    exact ⟨s.pos.offset_le_pass gap, fun _ => Pos.offset_lt_pass _ hword⟩

theorem untilEof_start (fuel : Nat) (s : Scanner) :
    (∀ t ∈ s.untilEof fuel, s.pos.offset ≤ t.span.start) ∧
      (s.untilEof fuel).Pairwise fun t t' => t.span.start < t'.span.start := by
  induction fuel generalizing s with
  | zero => exact ⟨fun t h => absurd h List.not_mem_nil, List.Pairwise.nil⟩
  | succ fuel ih =>
    obtain ⟨hstart, hstop⟩ := s.next_start
    simp only [untilEof]
    split
    · exact ⟨fun t h => List.mem_singleton.1 h ▸ hstart, List.pairwise_singleton _ _⟩
    -- Tokens from here on start behind the scanner, which has left the start of this one.
    · rename_i hkind
      obtain ⟨hbehind, hpairwise⟩ := ih s.next.2
      refine ⟨fun t h => ?_, List.pairwise_cons.2 ⟨fun t h => ?_, hpairwise⟩⟩
      · rcases List.mem_cons.1 h with rfl | h
        · exact hstart
        · exact Nat.le_trans hstart (Nat.le_trans (Nat.le_of_lt (hstop hkind)) (hbehind t h))
      · exact Nat.lt_of_lt_of_le (hstop hkind) (hbehind t h)

end Scanner

/-- No two tokens of a text have the same span. -/
theorem tokenize_spans_nodup (source : String) (file : Nat) :
    ((tokenize source file).map Token.span).Nodup := by
  refine List.pairwise_map.2 ((Scanner.untilEof_start _ _).2.imp fun hlt heq => ?_)
  rw [heq] at hlt
  exact Nat.lt_irrefl _ hlt

end Custody
