import TableQuery.Engine.Session
import TableQuery.Main
import TableQuery.Proofs.CellOrder
import TableQuery.Proofs.CommandOutcome
import TableQuery.Proofs.Comparison
import TableQuery.Proofs.ConditionChain
import TableQuery.Proofs.ConditionTruth
import TableQuery.Proofs.Confinement
import TableQuery.Proofs.Evaluation
import TableQuery.Proofs.Failure
import TableQuery.Proofs.HeaderDelimiter
import TableQuery.Proofs.JsonReading
import TableQuery.Proofs.LeastSeverity
import TableQuery.Proofs.LineByLine
import TableQuery.Proofs.LineNumbers
import TableQuery.Proofs.LogLines
import TableQuery.Proofs.NamedColumns
import TableQuery.Proofs.Partition
import TableQuery.Proofs.PatternText
import TableQuery.Proofs.Positions
import TableQuery.Proofs.Refusals
import TableQuery.Proofs.Rendering
import TableQuery.Proofs.ResultRows
import TableQuery.Proofs.RowOrder
import TableQuery.Proofs.ScopeFields
import TableQuery.Proofs.SelectList
import TableQuery.Proofs.SettingsFile
import TableQuery.Proofs.Spacing
import TableQuery.Proofs.Statelessness
import TableQuery.Proofs.TableHistory
import TableQuery.Proofs.TiedRows
import TableQuery.Proofs.TraceWalk
import TableQuery.Proofs.ViablePrefix
import TableQuery.Proofs.Wildcards
import TableQuery.Proofs.WrittenTable
