import Dotenv.Main
import Dotenv.Proofs.SubstitutionRun
import Dotenv.Proofs.LayoutRoundTrip
import Dotenv.Proofs.MergeOutcome
import Dotenv.Text.Utf8.RoundTrip
import Dotenv.Text.Utf8.Exact
import Dotenv.Proofs.Pieces
import Dotenv.Proofs.Segmentation
import Dotenv.Proofs.DefinitionGrammar
import Dotenv.Proofs.TextSubstitution
import Dotenv.Proofs.GuardedDollars
import Dotenv.Proofs.MergedMap
import Dotenv.Proofs.PrintedMap
import Dotenv.Proofs.MergeSteps
import Dotenv.Proofs.MergeOnto
import Dotenv.Proofs.QuoteLayers
import Dotenv.Proofs.Outline
import Dotenv.Proofs.ReadCuts
import Dotenv.Proofs.IndependentSources
import Dotenv.Proofs.WrittenBack
import Dotenv.Proofs.DefinedNames
import Dotenv.Proofs.CommandRuns
import Dotenv.Proofs.FailedMerges
import Dotenv.Proofs.LazyReads
import Dotenv.Proofs.CopiedOutput
import Dotenv.Proofs.StrictPositions
import Dotenv.Proofs.EarlyBinding
import Dotenv.Proofs.EscapeReading
import Dotenv.Proofs.TextParts
import Dotenv.Proofs.QuotedLayout
import Dotenv.Proofs.FirstBadLine
import Dotenv.Proofs.LineEndings
import Dotenv.Proofs.LastValues
import Dotenv.Proofs.SettledExpansion
import Dotenv.Proofs.CallOptions
import Dotenv.Proofs.JsonRoundTrip
import Dotenv.Proofs.CopyTermination
import Dotenv.Proofs.FileReplacement
import Dotenv.Proofs.SettingChanges
