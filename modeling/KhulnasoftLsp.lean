import KhulnasoftLsp.Transition
import KhulnasoftLsp.SerialQueue
import KhulnasoftLsp.OrderedMap
import KhulnasoftLsp.Timers
import KhulnasoftLsp.Reachability
import KhulnasoftLsp.Rpc
import KhulnasoftLsp.CircuitBreaker.FixedTime
import KhulnasoftLsp.CircuitBreaker.ExponentialBackoff
import KhulnasoftLsp.Tracking.SuggestionState
import KhulnasoftLsp.Streaming.Handler
import KhulnasoftLsp.Streaming.Invariants
import KhulnasoftLsp.Streaming.Completion
import KhulnasoftLsp.Streaming.Cancellation
import KhulnasoftLsp.Streaming.Telemetry
import KhulnasoftLsp.Streaming.Delivery
import KhulnasoftLsp.Suggestion.Service
import KhulnasoftLsp.SuggestionClient.DirectConnection
import KhulnasoftLsp.SuggestionClient.Backoff
import KhulnasoftLsp.AiContext.Provider
import KhulnasoftLsp.Masking
import KhulnasoftLsp.Redaction.SecretRedactor
import KhulnasoftLsp.Git.Repository
import KhulnasoftLsp.Git.RepositoryService
import KhulnasoftLsp.Git.WorkspaceFiles
import KhulnasoftLsp.Git.CurrentFiles
import KhulnasoftLsp.Git.Queues
import KhulnasoftLsp.Git.Rebuilds
import KhulnasoftLsp.Git.FileUpdates
import KhulnasoftLsp.DuoAccess.WorkspaceProjectAccessCache
import KhulnasoftLsp.DuoAccess.ApiProjectAccessCache
import KhulnasoftLsp.Di.Container
import KhulnasoftLsp.Di.Sorting
import KhulnasoftLsp.Di.Validators
import KhulnasoftLsp.Di.Instantiate
import KhulnasoftLsp.Webview.Messages
import KhulnasoftLsp.Webview.Requests
import KhulnasoftLsp.Webview.Transport
import KhulnasoftLsp.Webview.Controller
import KhulnasoftLsp.Api.Configuration
import KhulnasoftLsp.Api.InstanceVersion
import KhulnasoftLsp.FeatureState.Manager
import KhulnasoftLsp.AiContext.FilePolicy
import KhulnasoftLsp.DuoChat.Controller
import KhulnasoftLsp.DuoWorkflow.Runner
import KhulnasoftLsp.Tracking.Recording
import KhulnasoftLsp.Tracking.Trackers
import KhulnasoftLsp.Suggestion.Cache
import KhulnasoftLsp.Suggestion.Options
import KhulnasoftLsp.Utf8
import KhulnasoftLsp.Buffers
import KhulnasoftLsp.Api.StreamResponse
import KhulnasoftLsp.SuggestionClient.ByteSizeLimit
import KhulnasoftLsp.Suggestion.Keys
import KhulnasoftLsp.FeatureState.ApiStateCheck
import KhulnasoftLsp.Tracking.Lifetimes
import KhulnasoftLsp.Tracking.Notifications
import KhulnasoftLsp.Tracking.SnowplowService
import KhulnasoftLsp.Tracking.OptOut
import KhulnasoftLsp.DuoWorkflow.Executor
import KhulnasoftLsp.Throttle
import KhulnasoftLsp.FeatureFlags
import KhulnasoftLsp.Di.EmptyCollections
import KhulnasoftLsp.Suggestion.Retrieval
import KhulnasoftLsp.SuggestionClient.YamlUrl
import KhulnasoftLsp.Trie
import KhulnasoftLsp.Git.Registration
import KhulnasoftLsp.Tracking.Emitters
import KhulnasoftLsp.AsyncDebounce
import KhulnasoftLsp.AiContext.Manager
import KhulnasoftLsp.VirtualFileSystem
import KhulnasoftLsp.EventEmitter
import KhulnasoftLsp.JsSet
import KhulnasoftLsp.Suggestion.SupportedLanguages
import KhulnasoftLsp.Git.FilesUnderDirectory
import KhulnasoftLsp.PathSegments
import KhulnasoftLsp.DocumentTransformer
import KhulnasoftLsp.Suggestion.InlineCompletion
import KhulnasoftLsp.ByteSize
import KhulnasoftLsp.SuggestionClient.JsonUrl
import KhulnasoftLsp.Git.DirMatcher
import KhulnasoftLsp.Git.IgnoreManager
import KhulnasoftLsp.Suggestion.RetrievedOnce
import KhulnasoftLsp.DuoAccess.DeepestProject
import KhulnasoftLsp.DuoAccess.DisabledProject
import KhulnasoftLsp.Streaming.Concurrent
import KhulnasoftLsp.Redaction.Positions
import KhulnasoftLsp.HandlerRegistry
import KhulnasoftLsp.Webview.PendingResponses
import KhulnasoftLsp.Regex
import KhulnasoftLsp.Tasks
import KhulnasoftLsp.TextPositions
import KhulnasoftLsp.Suggestion.VueScript
import KhulnasoftLsp.TreeSitter.SyntaxTree
import KhulnasoftLsp.TreeSitter.CommentResolver
import KhulnasoftLsp.TreeSitter.SmallFiles
import KhulnasoftLsp.AiContext.DependencyScanner
import KhulnasoftLsp.AiContext.GoMod
import KhulnasoftLsp.Git.RemoteParser
import KhulnasoftLsp.Git.RemotePath
import KhulnasoftLsp.Git.RemoteForms
import KhulnasoftLsp.Git.RemoteProject
import KhulnasoftLsp.ControllerEndpoints
import KhulnasoftLsp.WorkspaceFolders
import KhulnasoftLsp.Git.MainBranch
import KhulnasoftLsp.AiContext.LocalGit
import KhulnasoftLsp.DuoChat.ChatApi
import KhulnasoftLsp.SecurityScan
import KhulnasoftLsp.DuoAccess.FeatureAccess
import KhulnasoftLsp.AiContext.PyProject
import KhulnasoftLsp.AiContext.MergeRequestDiff
import KhulnasoftLsp.AiContext.MergeRequests
import KhulnasoftLsp.LruCache
import KhulnasoftLsp.DocumentService
import KhulnasoftLsp.OpenTabs.OpenTabsService
import KhulnasoftLsp.Budget
import KhulnasoftLsp.AdvancedContext
import KhulnasoftLsp.SuggestionClient.PreProcessorPipeline
import KhulnasoftLsp.ConfigService
import KhulnasoftLsp.Webview.MessageBus
import KhulnasoftLsp.AiContext.Transformers
import KhulnasoftLsp.Async
import KhulnasoftLsp.SuggestionClient.Pipeline
import KhulnasoftLsp.Suggestion.SuggestionService
import KhulnasoftLsp.TreeSitter.IntentResolver
import KhulnasoftLsp.FeatureState.ProjectDuoAccessCheck
import KhulnasoftLsp.TreeSitter.Parser
import KhulnasoftLsp.RpcMessageValidation
import KhulnasoftLsp.Webview.PluginHost
