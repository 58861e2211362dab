import ScopeComplexity.Main
import ScopeComplexity.Grammar.Pool
import ScopeComplexity.Statistics.Book
import ScopeComplexity.Proofs.Scope.Nesting
import ScopeComplexity.Proofs.Scope.Totals
import ScopeComplexity.Proofs.Scope.Siblings
import ScopeComplexity.Proofs.Scope.Rounding
import ScopeComplexity.Proofs.Scope.Surroundings
import ScopeComplexity.Proofs.Scope.Closing
import ScopeComplexity.Proofs.Scope.Traversals
import ScopeComplexity.Proofs.Settings.Load
import ScopeComplexity.Proofs.Settings.Environment
import ScopeComplexity.Proofs.Settings.Containment
import ScopeComplexity.Proofs.Analysis.Schedule
import ScopeComplexity.Proofs.Analysis.Strictness
import ScopeComplexity.Proofs.Analysis.Availability
import ScopeComplexity.Proofs.Statistics.Ledger
import ScopeComplexity.Proofs.Statistics.Calls
import ScopeComplexity.Proofs.Syntax.Ancestors
import ScopeComplexity.Proofs.Syntax.Names
import ScopeComplexity.Proofs.Rules.LoopElse
import ScopeComplexity.Proofs.Sources.Admissible
import ScopeComplexity.Proofs.Sources.Completion
import ScopeComplexity.Proofs.Sources.Named
import ScopeComplexity.Proofs.Command.Exit
import ScopeComplexity.Proofs.Scope.Shape
import ScopeComplexity.Proofs.Rules.Extensions
import ScopeComplexity.Proofs.Decimal.Overflow
import ScopeComplexity.Proofs.Decimal.Brief
import ScopeComplexity.Proofs.Report.Account
import ScopeComplexity.Proofs.Report.Lossless
import ScopeComplexity.Grammar.Threads
import ScopeComplexity.Proofs.Grammar.Pool
import ScopeComplexity.Proofs.Grammar.Threads
