import SourceLinks.Json.Reader
import SourceLinks.Main
import SourceLinks.Service
import SourceLinks.Proofs.Inquiry
import SourceLinks.Proofs.Turns
import SourceLinks.Proofs.Entering
import SourceLinks.Proofs.Places
import SourceLinks.Proofs.Scopes
import SourceLinks.Proofs.FirstMention
import SourceLinks.Proofs.Traversal
import SourceLinks.Proofs.LexicalScopes
import SourceLinks.Proofs.Lines
import SourceLinks.Proofs.Spans
import SourceLinks.Proofs.Offsets
import SourceLinks.Proofs.NormalForm
import SourceLinks.Proofs.DiagnosticBlock
import SourceLinks.Proofs.SettingLines
import SourceLinks.Proofs.QuotedSettings
import SourceLinks.Proofs.TrailingComments
import SourceLinks.Proofs.Probing
import SourceLinks.Proofs.Targets
import SourceLinks.Proofs.LinkRule
import SourceLinks.Proofs.Clicks
import SourceLinks.Proofs.Answers
import SourceLinks.Proofs.Superclasses
import SourceLinks.Proofs.Agenda
import SourceLinks.Proofs.CallChains
import SourceLinks.Proofs.Cancellation
import SourceLinks.Proofs.Findings
import SourceLinks.Proofs.Agreement
import SourceLinks.Proofs.ChainOrder
import SourceLinks.Proofs.Remembering
import SourceLinks.Proofs.ChainLimit
import SourceLinks.Proofs.Crashes
import SourceLinks.Proofs.Isolation
import SourceLinks.Proofs.Accounting
import SourceLinks.Proofs.LoadOrder
import SourceLinks.Proofs.SearchOrder
import SourceLinks.Proofs.SharedCorpus
import SourceLinks.Proofs.KeptStructures
import SourceLinks.Proofs.ImportSets
import SourceLinks.Proofs.SimpleNames
import SourceLinks.Proofs.Faults
import SourceLinks.Proofs.ClassLayout
import SourceLinks.Proofs.Truncation
import SourceLinks.Proofs.Descriptors
import SourceLinks.Proofs.HeaderScopes
import SourceLinks.Proofs.Declarations
import SourceLinks.Proofs.Meanings
import SourceLinks.Proofs.ViewSteps
import SourceLinks.Proofs.ViewProtocol
import SourceLinks.Proofs.EnclosingClasses
import SourceLinks.Proofs.LinkTable
import SourceLinks.Proofs.CallOrigins
import SourceLinks.Proofs.UnnamedClasses
import SourceLinks.Proofs.TypeVariables
import SourceLinks.Proofs.ChainGroups
import SourceLinks.Proofs.DottedNames
import SourceLinks.Proofs.ImportedNames
import SourceLinks.Proofs.BinaryNames
import SourceLinks.Proofs.MemberReadings
import SourceLinks.Proofs.LoadedSettings
import SourceLinks.Proofs.TypeNames
import SourceLinks.Proofs.KeyOrder
import SourceLinks.Proofs.GraphFolding
