import Custody.Proofs.FileReadings

/-!
# Nodes are numbered as they are written

The readers count the nodes of a file from zero, in the order in which the nodes end in the text
(`parseTokens_postorder`).
-/

set_option autoImplicit false

namespace Custody

/-- The nodes of a file are numbered in the order in which they end in its tokens: the numbers count
them from zero, the items and all that is inside them stand in the tokens one behind the other, and
numbers follow that order at any depth. -/
structure SourceFile.NumberedAlong (file : SourceFile) (tokens : List Token) : Prop where
  numbers : (Region.marksAll file.regions).map Mark.id =
    List.range (Region.marksAll file.regions).length
  written : Region.AllWritten file.regions tokens
  items : file.regions.Pairwise Region.Before
  nested : ∀ r : Region, r.Inside file.regions → r.Postorder

/-- A file that was read from tokens with an `eof` at their end is numbered along them. Its nodes
have the numbers below their count, each once; every node has a higher number than all nodes inside
it, and all nodes of a part have lower numbers than those of the parts written after it. -/
theorem parseTokens_postorder {tokens : List Token} {eof : Token} {file : SourceFile}
    (hlast : tokens.getLast? = some eof) (heof : eof.kind = .eof)
    (h : parseTokens tokens = some (.ok file)) : file.NumberedAlong tokens := by
  have hend : ∃ t ∈ tokens, t.kind = .eof := ⟨eof, List.mem_of_getLast? hlast, heof⟩
  obtain ⟨first, c', -, htakes, -⟩ := (readFrom_of_parseTokens hend h).taken
  obtain ⟨row, hrow⟩ := htakes hend
  have hregions : file.pieces.flatMap Piece.regions = file.regions :=
    (Piece.stmtsRegions_eq file.items).symm
  have hnumbers : (Region.marksAll file.regions).map Mark.id =
      List.range (Region.marksAll file.regions).length := by
    have hids := hrow.numbers
    rw [Piece.ids, hregions, List.length_map] at hids
    rw [hids, List.range_eq_range']
  have hincreasing : Region.Increasing file.regions := by
    rw [Region.Increasing, hnumbers]
    exact List.pairwise_lt_range
  refine ⟨hnumbers, ?_, hincreasing.before, fun r hr => hr.postorder hincreasing⟩
  have hrest : tokens = row ++ c'.rest := hrow.way.rest
  have hall := hrow.stands.written.append (.nil c'.rest)
  rwa [List.append_nil, hregions, ← hrest] at hall

/-- A text with nodes that are finished at different moments: types in front of values, the parts of
a counted loop, branches, and operators that grow to the left. -/
def manyMoments : String :=
  "fn f(x: ~S[u8]) { for let i: u8 = 0; i < 3; i = i + 1 { if g(i) { } else { x.a = [1]u8{2}; } } }"

/-- The text is read as a file of 28 nodes, which are numbered along its tokens. -/
theorem parseTokens_postorder_manyMoments :
    ∃ eof file, (tokenize manyMoments 0).getLast? = some eof ∧ eof.kind = .eof ∧
      parseTokens (tokenize manyMoments 0) = some (.ok file) ∧
      (Region.marksAll file.regions).length = 28 ∧ file.NumberedAlong (tokenize manyMoments 0) := by
  have hread : ((parseSource manyMoments 0).bind Except.toOption).any (fun f =>
      (Region.marksAll f.regions).length == 28) = true := by
    decide +kernel
  obtain ⟨f, hf, hlength⟩ := (Option.any_eq_true _ _).1 hread
  obtain ⟨r, hr, hok⟩ := Option.bind_eq_some_iff.1 hf
  obtain ⟨tokens, eof, hsource, heof, -⟩ := tokenize_ends manyMoments 0
  have hlast : (tokenize manyMoments 0).getLast? = some eof := by
    rw [hsource, List.getLast?_concat]
  cases r with
  | error errors => cases hok
  | ok f' =>
    obtain rfl := Option.some.inj hok
    exact ⟨eof, f', hlast, heof, hr, beq_iff_eq.1 hlength, parseTokens_postorder hlast heof hr⟩

end Custody
