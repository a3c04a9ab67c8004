import PlaybookRunner.Machine.Scratch
import PlaybookRunner.Main
import PlaybookRunner.Overrides
import PlaybookRunner.Playbook.Loader
import PlaybookRunner.Playbook.Record
import PlaybookRunner.Proofs.Accounts
import PlaybookRunner.Proofs.CanonicalText
import PlaybookRunner.Proofs.Confluence
import PlaybookRunner.Proofs.Deferral
import PlaybookRunner.Proofs.DeferredRuns
import PlaybookRunner.Proofs.Failure
import PlaybookRunner.Proofs.Handlers
import PlaybookRunner.Proofs.Isolation
import PlaybookRunner.Proofs.Ledger
import PlaybookRunner.Proofs.Linearization
import PlaybookRunner.Proofs.Lockstep
import PlaybookRunner.Proofs.Mirrors
import PlaybookRunner.Proofs.Moves
import PlaybookRunner.Proofs.Parts
import PlaybookRunner.Proofs.Phases
import PlaybookRunner.Proofs.PlayPairs
import PlaybookRunner.Proofs.RecordedResults
import PlaybookRunner.Proofs.Reports
import PlaybookRunner.Proofs.Reruns
import PlaybookRunner.Proofs.RunEvents
import PlaybookRunner.Proofs.Unwinding
import PlaybookRunner.Report.Chunk
import PlaybookRunner.Report.Console
import PlaybookRunner.Report.Record
import PlaybookRunner.Run.Adhoc
import PlaybookRunner.Run.Runner
import PlaybookRunner.Settings.Load
import PlaybookRunner.Proofs.ScopeForest
import PlaybookRunner.Proofs.DeferredFacts
import PlaybookRunner.Proofs.Inclusion
import PlaybookRunner.Proofs.IncludeTree
import PlaybookRunner.Proofs.InclusionDepth
import PlaybookRunner.Proofs.LoadFaults
import PlaybookRunner.Proofs.RunErrors
import PlaybookRunner.Proofs.ExitStatus
import PlaybookRunner.Proofs.Waiting
import PlaybookRunner.Proofs.Skipping
import PlaybookRunner.Proofs.HandlerAnnouncement
import PlaybookRunner.Proofs.ExactArithmetic
import PlaybookRunner.Proofs.ValueTrees
import PlaybookRunner.Proofs.PlaybookTrees
import PlaybookRunner.Proofs.ChunkStream
import PlaybookRunner.Proofs.NumericEquality
import PlaybookRunner.Proofs.QuotedWords
import PlaybookRunner.Proofs.ArgumentTexts
import PlaybookRunner.Proofs.QuotedArguments
import PlaybookRunner.Proofs.MentionedNames
import PlaybookRunner.Proofs.TemplateSegments
import PlaybookRunner.Proofs.LoneRegions
import PlaybookRunner.Proofs.TemplateJoins
import PlaybookRunner.Proofs.CallResults
import PlaybookRunner.Proofs.PlayVariables
import PlaybookRunner.Proofs.ItemLoops
import PlaybookRunner.Proofs.NestedScopes
import PlaybookRunner.Proofs.FactBinding
import PlaybookRunner.Proofs.SettingLayers
import PlaybookRunner.Proofs.TaskEntries
import PlaybookRunner.Proofs.FailureContext
import PlaybookRunner.Proofs.OpenEntries
import PlaybookRunner.Proofs.QuoteScans
import PlaybookRunner.Proofs.VariableSources
