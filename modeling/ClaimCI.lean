import ClaimCI.Python.Text
import ClaimCI.Python.Numeral
import ClaimCI.Python.Decimal
import ClaimCI.Python.Binary64
import ClaimCI.Python.Rounding
import ClaimCI.Python.Nearest
import ClaimCI.Python.DecimalText
import ClaimCI.Python.DecimalLimits
import ClaimCI.Python.Json
import ClaimCI.Python.JsonRoundTrip
import ClaimCI.Python.JsonAlphabet
import ClaimCI.Python.JsonCanonical
import ClaimCI.Python.Sorting
import ClaimCI.Python.JsonCut
import ClaimCI.Python.JsonGrammar
import ClaimCI.Python.Lines
import ClaimCI.Python.JsonLines
import ClaimCI.Graph.DepthFirst
import ClaimCI.Python.Value
import ClaimCI.Python.YamlEquality
import ClaimCI.Python.NestedDictionary
import ClaimCI.Python.Escaping
import ClaimCI.Python.Template
import ClaimCI.Python.Statistics
import ClaimCI.Python.Counter
import ClaimCI.Models
import ClaimCI.ResultCheck
import ClaimCI.ResultComparison
import ClaimCI.RunMean
import ClaimCI.ConfigCheck
import ClaimCI.ComputeComparison
import ClaimCI.ConfigComparison
import ClaimCI.DatasetCheck
import ClaimCI.DatasetRecords
import ClaimCI.Report
import ClaimCI.ReportStructure
import ClaimCI.Audit
import ClaimCI.AuditVerdict
import ClaimCI.GitHub
import ClaimCI.GitHubPayload
import ClaimCI.Python.CountTable
import ClaimCI.Analysis.ArtifactSource
import ClaimCI.Analysis.StreamingDataset
import ClaimCI.Analysis.BinaryLines
import ClaimCI.Analysis.DatasetScan
import ClaimCI.Analysis.DatasetRun
import ClaimCI.Analysis.PartialScan
import ClaimCI.Analysis.Contracts
import ClaimCI.Analysis.Obligations
import ClaimCI.Analysis.ObligationBundle
import ClaimCI.Analysis.DatasetLines
import ClaimCI.Measurement
import ClaimCI.Python.Dictionary
import ClaimCI.Python.JsonJoined
import ClaimCI.Analysis.ScanComplete
import ClaimCI.DatasetCommitment
import ClaimCI.PathsAgree
import ClaimCI.DottedLeaves
import ClaimCI.MeasurementDrift
import ClaimCI.AuditExceptions
import ClaimCI.Analysis.Selectors
import ClaimCI.Analysis.NativePayloads
import ClaimCI.Analysis.ConfigPaths
import ClaimCI.Analysis.ResultsFile
import ClaimCI.Analysis.MetricIdentity
import ClaimCI.Analysis.MetricBinding
import ClaimCI.Analysis.RepositoryPaths
import ClaimCI.Analysis.TraceContracts
import ClaimCI.Analysis.TraceBundle
import ClaimCI.Python.FirstOccurrences
import ClaimCI.Python.LineSpans
import ClaimCI.Python.SplitLines
import ClaimCI.Python.Regex
import ClaimCI.Review.Models
import ClaimCI.Review.Sources
import ClaimCI.Review.EvidenceRouting
import ClaimCI.Review.Excerpts
import ClaimCI.Review.Evidence
import ClaimCI.Review.EvidenceReferences
import ClaimCI.Review.ManifestAudits
import ClaimCI.Review.Interpretations
import ClaimCI.Review.Orchestrator
import ClaimCI.Review.ClaimCandidates
import ClaimCI.Review.SourceQuotes
import ClaimCI.Review.FileBudget
import ClaimCI.Review.ReviewRuns
import ClaimCI.Review.Report
import ClaimCI.Review.ReportStructure
import ClaimCI.Analysis.TableRows
import ClaimCI.Python.Csv
import ClaimCI.Analysis.ChunkedLines
import ClaimCI.Analysis.DelimitedLines
import ClaimCI.Analysis.ArtifactScan
import ClaimCI.Java.Lexical
import ClaimCI.Review.TestCount
import ClaimCI.Review.ReportedTables
import ClaimCI.Python.OptionalKeys
import ClaimCI.Analysis.MappingSelection
import ClaimCI.Analysis.MappingOrder
import ClaimCI.Analysis.JsonPointers
import ClaimCI.Analysis.PointerLeaves
import ClaimCI.Graph.Paths
import ClaimCI.ObjectGraph
import ClaimCI.Analysis.ManifestPaths
import ClaimCI.Python.Lockstep
import ClaimCI.PassiveFiles
import ClaimCI.Analysis.ManifestHint
import ClaimCI.Analysis.StructuredAdapters
import ClaimCI.Analysis.StructuredExtraction
import ClaimCI.Review.AuditTrees
import ClaimCI.Python.Literals
import ClaimCI.Python.DecimalReading
import ClaimCI.Python.DecimalContext
import ClaimCI.Analysis.BenchmarkProfiles
import ClaimCI.BenchmarkAudit
import ClaimCI.BenchmarkFindings
import ClaimCI.BenchmarkProjection
import ClaimCI.BenchmarkReturns
import ClaimCI.BenchmarkCompletion
import ClaimCI.BenchmarkDerivation
import ClaimCI.BenchmarkProtocol
import ClaimCI.Analysis.TabularExtraction
import ClaimCI.Analysis.SelectorOverlap
import ClaimCI.Analysis.RoleBindings
