import BuildPipeline.Files.Disk
import BuildPipeline.Main
import BuildPipeline.Proofs.PlannedNeeds
import BuildPipeline.Proofs.LeastStages
import BuildPipeline.Proofs.Merging
import BuildPipeline.Proofs.Cycles
import BuildPipeline.Proofs.Precedence
import BuildPipeline.Proofs.PruningRuns
import BuildPipeline.Proofs.Renaming
import BuildPipeline.Proofs.Agreement
import BuildPipeline.Proofs.Rearranging
import BuildPipeline.Proofs.Reproducible
import BuildPipeline.Proofs.DeadRules
import BuildPipeline.Proofs.Verifying
import BuildPipeline.Proofs.JobNames
import BuildPipeline.Proofs.Outcomes
import BuildPipeline.Proofs.NameShapes
import BuildPipeline.Proofs.ShownJobs
import BuildPipeline.Proofs.DocumentJobs
import BuildPipeline.Proofs.Reaching
import BuildPipeline.Proofs.ReportedEntries
import BuildPipeline.Proofs.Editing
import BuildPipeline.Proofs.FewerJobs
import BuildPipeline.Proofs.RunnerTags
import BuildPipeline.Proofs.LeastOrder
import BuildPipeline.Proofs.FileRequests
import BuildPipeline.Proofs.AtomicWrite
import BuildPipeline.Proofs.FailedRuns
import BuildPipeline.Proofs.Pointers
import BuildPipeline.Proofs.Shapes
import BuildPipeline.Proofs.WellFormed
import BuildPipeline.Proofs.StackNames
import BuildPipeline.Proofs.StarterStack
import BuildPipeline.Proofs.StartedStacks
import BuildPipeline.Proofs.ChangeImpact
import BuildPipeline.Proofs.FaithfulPayload
import BuildPipeline.Proofs.VersionOrder
import BuildPipeline.Proofs.VersionRanges
import BuildPipeline.Proofs.Expressions
import BuildPipeline.Proofs.GlobPatterns
import BuildPipeline.Proofs.OptionSources
import BuildPipeline.Proofs.FirstUnresolved
import BuildPipeline.Proofs.SharedKeys
import BuildPipeline.Proofs.HashLists
import BuildPipeline.Proofs.Descending
import BuildPipeline.Proofs.Indexing
import BuildPipeline.Proofs.Listings
