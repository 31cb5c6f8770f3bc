import ScriptHooks.Calendar.Civil
import ScriptHooks.Calendar.Pattern
import ScriptHooks.Calendar.Timestamp
import ScriptHooks.Command.Execution
import ScriptHooks.Command.Line
import ScriptHooks.Digest.Base64
import ScriptHooks.Digest.Bytes
import ScriptHooks.Digest.Md5
import ScriptHooks.Digest.Sha256
import ScriptHooks.Hook.Authoring
import ScriptHooks.Hook.ClockedService
import ScriptHooks.Hook.CompiledCache
import ScriptHooks.Hook.Compiler
import ScriptHooks.Hook.Definition
import ScriptHooks.Hook.Dispatcher
import ScriptHooks.Hook.Engine
import ScriptHooks.Hook.Error
import ScriptHooks.Hook.Event
import ScriptHooks.Hook.Metadata
import ScriptHooks.Hook.Ordered
import ScriptHooks.Hook.Resolution
import ScriptHooks.Hook.Runtime
import ScriptHooks.Hook.ScopePath
import ScriptHooks.Hook.Service
import ScriptHooks.Hook.Store
import ScriptHooks.Host.Call
import ScriptHooks.Host.Exchange
import ScriptHooks.Host.HostPolicy
import ScriptHooks.Host.HttpMessage
import ScriptHooks.Host.HttpSettings
import ScriptHooks.Host.OutgoingRequest
import ScriptHooks.Json.Complaint
import ScriptHooks.Json.Decode
import ScriptHooks.Json.Document
import ScriptHooks.Json.Reader
import ScriptHooks.Json.Value
import ScriptHooks.Json.Writer
import ScriptHooks.Numeric.Integral
import ScriptHooks.Numeric.Shortest
import ScriptHooks.Sandbox.Builtin.Collections
import ScriptHooks.Sandbox.Builtin.Dates
import ScriptHooks.Sandbox.Builtin.Host
import ScriptHooks.Sandbox.Builtin.Lists
import ScriptHooks.Sandbox.Builtin.Objects
import ScriptHooks.Sandbox.Builtin.Scalars
import ScriptHooks.Sandbox.Builtin.Texts
import ScriptHooks.Sandbox.Coercion
import ScriptHooks.Sandbox.Conversion
import ScriptHooks.Sandbox.Evaluator
import ScriptHooks.Sandbox.Expressions
import ScriptHooks.Sandbox.Grammar
import ScriptHooks.Sandbox.Heap
import ScriptHooks.Sandbox.JsonText
import ScriptHooks.Sandbox.Lexeme
import ScriptHooks.Sandbox.Native
import ScriptHooks.Sandbox.NumberText
import ScriptHooks.Sandbox.Operators
import ScriptHooks.Sandbox.Patterns
import ScriptHooks.Sandbox.Properties
import ScriptHooks.Sandbox.ReadState
import ScriptHooks.Sandbox.Realm
import ScriptHooks.Sandbox.Session
import ScriptHooks.Sandbox.Statements
import ScriptHooks.Sandbox.Syntax
import ScriptHooks.Sandbox.Units
import ScriptHooks.Sandbox.Variables
import ScriptHooks.Script.Depth
import ScriptHooks.Script.Issue
import ScriptHooks.Script.Lexer
import ScriptHooks.Script.Parser
import ScriptHooks.Script.ParserState
import ScriptHooks.Script.Report
import ScriptHooks.Script.Symbols
import ScriptHooks.Script.Token
import ScriptHooks.Script.Tree
import ScriptHooks.Script.TreeText
import ScriptHooks.Script.Validation
import ScriptHooks.Proofs.Script.TreeNodes
import ScriptHooks.Proofs.Script.Occurrences
import ScriptHooks.Proofs.Script.NameOwners
import ScriptHooks.Proofs.Script.PartHarvests
import ScriptHooks.Proofs.Script.RejectionTheorems
import ScriptHooks.Settings.Engine
import ScriptHooks.Settings.Load
import ScriptHooks.Text.CharClass
import ScriptHooks.Text.CharTables
import ScriptHooks.Text.LetterCase
import ScriptHooks.Text.Quoted
import ScriptHooks.Text.Utf8
import ScriptHooks.Web.DomainName
import ScriptHooks.Web.IpAddress
import ScriptHooks.Web.MediaType
import ScriptHooks.Web.PercentText
import ScriptHooks.Web.Punycode
import ScriptHooks.Web.Target
import ScriptHooks.Web.Url
import ScriptHooks.Main
import ScriptHooks.Proofs.Script.ParseRules
import ScriptHooks.Proofs.Script.Spelling
import ScriptHooks.Proofs.Script.ExpressionSoundness
import ScriptHooks.Proofs.Script.StatementSoundness
import ScriptHooks.Proofs.Script.TokenLists
import ScriptHooks.Proofs.Script.LoopKeywords
import ScriptHooks.Proofs.Script.Scanners
import ScriptHooks.Proofs.Script.LexerRounds
import ScriptHooks.Proofs.Script.LexerScans
import ScriptHooks.Proofs.Script.LineCommentTheorems
import ScriptHooks.Proofs.Script.RegexPlacement
import ScriptHooks.Proofs.Script.Brackets
import ScriptHooks.Proofs.Script.LinesBelow
import ScriptHooks.Proofs.Script.SyntaxWrapper
import ScriptHooks.Proofs.Hook.DispatchMoves
import ScriptHooks.Proofs.Hook.JobAccounting
import ScriptHooks.Proofs.Hook.JobOrder
import ScriptHooks.Proofs.Hook.CacheCalls
import ScriptHooks.Proofs.Hook.ResolvedVersion
import ScriptHooks.Proofs.Hook.Ancestors
import ScriptHooks.Proofs.Hook.StoreHistory
import ScriptHooks.Proofs.Hook.OverrideRule
import ScriptHooks.Proofs.Hook.CacheHistory
import ScriptHooks.Proofs.Hook.SingleFlight
import ScriptHooks.Proofs.Script.ReferenceTheorems
import ScriptHooks.Proofs.Script.RootFunctions
import ScriptHooks.Proofs.Script.TreeDepth
import ScriptHooks.Proofs.Script.ParseResults
import ScriptHooks.Proofs.Script.NestingBudget
import ScriptHooks.Proofs.Script.HostileNesting
import ScriptHooks.Proofs.Script.TemplateNesting
import ScriptHooks.Proofs.Hook.AuthoringRaces
import ScriptHooks.Proofs.Hook.StoredDefinitions
import ScriptHooks.Proofs.Hook.CachedScripts
import ScriptHooks.Proofs.Hook.ShutdownBarrier
import ScriptHooks.Proofs.Hook.CacheGenerations
import ScriptHooks.Proofs.Hook.AuthoringFrames
import ScriptHooks.Proofs.Hook.Chains
import ScriptHooks.Proofs.Script.ParseRuns
import ScriptHooks.Proofs.Script.OperatorTrees
import ScriptHooks.Proofs.Script.OperatorChains
import ScriptHooks.Proofs.Script.ChainReading
import ScriptHooks.Proofs.Script.ChainStatements
import ScriptHooks.Proofs.Script.ChainOutcomes
import ScriptHooks.Proofs.Script.TokenPlaces
import ScriptHooks.Proofs.Script.LineEndFlags
import ScriptHooks.Proofs.Script.SubstitutionText
import ScriptHooks.Proofs.Script.StateRelations
import ScriptHooks.Proofs.Script.IssueCap
import ScriptHooks.Proofs.Script.SymbolOutline
import ScriptHooks.Proofs.Script.ParserCounters
import ScriptHooks.Proofs.Script.ReturnPlacement
import ScriptHooks.Proofs.Script.LoopRounds
import ScriptHooks.Proofs.Script.TokensTaken
import ScriptHooks.Proofs.Script.MovedTrees
import ScriptHooks.Proofs.Script.MirroredRuns
import ScriptHooks.Proofs.Script.MirroredProductions
import ScriptHooks.Proofs.Script.MovedRuns
import ScriptHooks.Proofs.Script.Termination
import ScriptHooks.Proofs.Script.ContinuedRuns
import ScriptHooks.Proofs.Script.ContinuedStatements
import ScriptHooks.Proofs.Script.PrependedScript
import ScriptHooks.Proofs.Json.OrderedValues
import ScriptHooks.Proofs.Json.WrittenText
import ScriptHooks.Proofs.Json.WrittenRecords
import ScriptHooks.Proofs.Host.Envelopes
import ScriptHooks.Proofs.Host.LosslessForms
import ScriptHooks.Proofs.Web.HostNames
import ScriptHooks.Proofs.Host.HostSpellings
import ScriptHooks.Proofs.Numeric.WholeDoubles
import ScriptHooks.Proofs.Json.PortableValues
import ScriptHooks.Proofs.Sandbox.UnitTexts
import ScriptHooks.Proofs.Sandbox.Outcomes
import ScriptHooks.Proofs.Sandbox.UsualWorlds
import ScriptHooks.Proofs.Sandbox.HeldValues
import ScriptHooks.Proofs.Sandbox.HostWrites
import ScriptHooks.Proofs.Sandbox.RoundTrips
import ScriptHooks.Proofs.Hook.StoreAnswers
import ScriptHooks.Proofs.Script.RestoredCounters
import ScriptHooks.Proofs.Json.BareDocuments
import ScriptHooks.Proofs.Json.ReplacedEntries
import ScriptHooks.Proofs.Settings.FileSettings
import ScriptHooks.Proofs.Settings.EnvironmentSettings
import ScriptHooks.Proofs.Command.ValidatedFiles
import ScriptHooks.Proofs.Script.StructuralDepth
