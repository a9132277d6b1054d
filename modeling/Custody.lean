import Custody.Command.Run
import Custody.FileTree
import Custody.Main
import Custody.Proofs.AnyFree
import Custody.Proofs.Moves
import Custody.Proofs.RenamedMoves
import Custody.Proofs.Visits
import Custody.Proofs.NodeTypes
import Custody.Proofs.Outlines
import Custody.Proofs.TypedExprs
import Custody.Proofs.TypingSound
import Custody.Proofs.FileTrees
import Custody.Proofs.ImportClosure
import Custody.Proofs.DeclarationOrder
import Custody.Proofs.StructuralFaults
import Custody.Proofs.Halting
import Custody.Proofs.ReadBack
import Custody.Proofs.MirroredPasses
import Custody.Proofs.MirroredMoves
import Custody.Proofs.InstanceMemo
import Custody.Proofs.TokenPlaces
import Custody.Proofs.ReportPlaces
import Custody.Proofs.Layout
import Custody.Proofs.BuiltTypes
import Custody.Proofs.Tiling
import Custody.Proofs.MoveNotes
import Custody.Proofs.Coercions
import Custody.Proofs.FirstDeclarations
import Custody.Proofs.NodeOrder
import Custody.Proofs.Transcripts
import Custody.Proofs.ReadingEnds
import Custody.Proofs.Recovery
import Custody.Proofs.StringSpellings
import Custody.Proofs.Respacing
import Custody.Proofs.StructMembers
import Custody.Proofs.SubstitutionLaws
import Custody.Proofs.ScopeDiscipline
import Custody.Proofs.LexicalScopes
import Custody.Proofs.LexicalTypes
import Custody.Proofs.ErrorTokens
import Custody.Proofs.RangeChains
import Custody.Proofs.TypeTexts
