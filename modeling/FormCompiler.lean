import FormCompiler.Compiler
import FormCompiler.Main
import FormCompiler.Proofs.Abbreviations
import FormCompiler.Proofs.BlockScopes
import FormCompiler.Proofs.BodyRuns
import FormCompiler.Proofs.ByteForms
import FormCompiler.Proofs.CheckedOperands
import FormCompiler.Proofs.CodeRuns
import FormCompiler.Proofs.DeclaredGlobals
import FormCompiler.Proofs.Dispatching
import FormCompiler.Proofs.DoubleDigits
import FormCompiler.Proofs.DoubleText
import FormCompiler.Proofs.EdgeSources
import FormCompiler.Proofs.EmittedModules
import FormCompiler.Proofs.EmittedTraces
import FormCompiler.Proofs.ExpansionLimits
import FormCompiler.Proofs.FieldPlacement
import FormCompiler.Proofs.LayoutBodies
import FormCompiler.Proofs.LexicalForms
import FormCompiler.Proofs.LiteralAddresses
import FormCompiler.Proofs.LocatedProblems
import FormCompiler.Proofs.MatchCoverage
import FormCompiler.Proofs.MatchReports
import FormCompiler.Proofs.ModuleEchoes
import FormCompiler.Proofs.ModuleRuns
import FormCompiler.Proofs.OperandRuns
import FormCompiler.Proofs.PayloadLayout
import FormCompiler.Proofs.PrintedForms
import FormCompiler.Proofs.ReturnedValues
import FormCompiler.Proofs.RoundTrip
import FormCompiler.Proofs.SafeReading
import FormCompiler.Proofs.ScopeRuns
import FormCompiler.Proofs.SlotAnalysis
import FormCompiler.Proofs.SourceSpans
import FormCompiler.Proofs.Spacing
import FormCompiler.Proofs.SuitedCalls
import FormCompiler.Proofs.TargetAgreement
import FormCompiler.Proofs.TextLines
import FormCompiler.Proofs.TypeHistories
import FormCompiler.Proofs.TypeSpellings
