import Multiparty.Main
import Multiparty.CommandLine.Disk
import Multiparty.Proofs.BodyReplacement
import Multiparty.Proofs.Declassification
import Multiparty.Proofs.DiagnosticPlaces
import Multiparty.Proofs.PrintedTrees
import Multiparty.Proofs.ReachedEnvironments
import Multiparty.Proofs.Resolution
import Multiparty.Proofs.Revealing
import Multiparty.Proofs.VariableGrowth
import Multiparty.Proofs.LexedBeginnings
import Multiparty.Proofs.LexerFaults
import Multiparty.Proofs.LineBreaks
import Multiparty.Proofs.StreamPlaces
import Multiparty.Proofs.CursorRuns
import Multiparty.Proofs.ExpressionOutlines
import Multiparty.Proofs.StatementOutlines
import Multiparty.Proofs.ProgramOutlines
import Multiparty.Proofs.ChangedBodies
import Multiparty.Proofs.AlikeSettings
import Multiparty.Proofs.Blocks
import Multiparty.Proofs.DeclarationOrder
import Multiparty.Proofs.StrictDisplay
import Multiparty.Proofs.Parentheses
import Multiparty.Proofs.Compatibility
import Multiparty.Proofs.Carets
import Multiparty.Proofs.MeaningfulTypes
import Multiparty.Proofs.RenamedFunctions
import Multiparty.Proofs.LineLookup
import Multiparty.Proofs.OperatorChains
import Multiparty.Proofs.PrintedLiterals
