import Tala.Native.Equivalence
import Tala.Xpp.VerifierSoundness
import Tala.Core.Optimizer.FloatingSoundness
import Tala.Analysis.InitializationPaths
import Tala.Driver.ProjectArtifactsFacts
import Tala.Runtime.AarcCorrect
import Tala.Core.Monomorphization.PlannerCorrect
import Tala.Native.SpecializationTable
import Tala.Diagnostic.ProtocolAgreement
import Tala.Core.Optimizer.LoopSoundness
import Tala.Core.Optimizer.FoldingSoundness
import Tala.CorePrep.WireRoundTrip
import Tala.Analysis.ControlDependence
import Tala.Analysis.Liveness
import Tala.Analysis.NaturalLoops
import Tala.Native.Returns
import Tala.Runtime.FormatCorrect
import Tala.Syntax.CompletionSoundness
import Tala.Frontend.Mangling
import Tala.Frontend.MemberReachability
import Tala.Core.Captures
import Tala.Frontend.TemplateDiscoveryExact
import Tala.Frontend.TemplateBindingExact
import Tala.Frontend.ConstantEvaluationRuns
import Tala.Analyzer.Document
import Tala.Frontend.ConsoleRuns
import Tala.Frontend.SourceDiscovery
import Tala.Frontend.FreshenExact
