import AdviceWeaver.Hosting.Memory
import AdviceWeaver.Library.EcsLogging
import AdviceWeaver.Library.EntryPoints
import AdviceWeaver.Logging.Filter
import AdviceWeaver.Proofs.Agent.Activation
import AdviceWeaver.Proofs.Agent.Calls
import AdviceWeaver.Proofs.Agent.Ignored
import AdviceWeaver.Proofs.Agent.Linking
import AdviceWeaver.Proofs.Agent.LoadingOrder
import AdviceWeaver.Proofs.Agent.Registration
import AdviceWeaver.Proofs.Agent.Restoration
import AdviceWeaver.Proofs.Bytecode.Agreement
import AdviceWeaver.Proofs.Bytecode.HookedPaths
import AdviceWeaver.Proofs.Bytecode.InstructionForms
import AdviceWeaver.Proofs.Bytecode.Listings
import AdviceWeaver.Proofs.Bytecode.Nesting
import AdviceWeaver.Proofs.ClassFile.Prefixes
import AdviceWeaver.Proofs.ClassFile.Spans
import AdviceWeaver.Proofs.ClassFile.WrittenAnnotations
import AdviceWeaver.Proofs.ClassFile.WrittenAttributes
import AdviceWeaver.Proofs.ClassFile.WrittenClass
import AdviceWeaver.Proofs.Config.Options
import AdviceWeaver.Proofs.Description.Climbing
import AdviceWeaver.Proofs.Description.Descriptors
import AdviceWeaver.Proofs.Description.Seeing
import AdviceWeaver.Proofs.Description.SuperTypes
import AdviceWeaver.Proofs.Hosting.Accounting
import AdviceWeaver.Proofs.Hosting.Batching
import AdviceWeaver.Proofs.Hosting.Contract
import AdviceWeaver.Proofs.Hosting.Loaders
import AdviceWeaver.Proofs.Hosting.Memory
import AdviceWeaver.Proofs.Hosting.Registry
import AdviceWeaver.Proofs.Hosting.Resetting
import AdviceWeaver.Proofs.Hosting.Serving
import AdviceWeaver.Proofs.Hosting.Settling
import AdviceWeaver.Proofs.Hosting.Transformers
import AdviceWeaver.Proofs.Ignoring.Union
import AdviceWeaver.Proofs.Library.Accounts
import AdviceWeaver.Proofs.Library.Host
import AdviceWeaver.Proofs.Library.Lifecycle
import AdviceWeaver.Proofs.Library.LoadHook
import AdviceWeaver.Proofs.Library.LoadedClasses
import AdviceWeaver.Proofs.Library.Loaders
import AdviceWeaver.Proofs.Library.NestedLoads
import AdviceWeaver.Proofs.Library.ProbedLoaders
import AdviceWeaver.Proofs.Library.Reach
import AdviceWeaver.Proofs.Library.ToolAccounts
import AdviceWeaver.Proofs.Library.Tools
import AdviceWeaver.Proofs.Matching.Answers
import AdviceWeaver.Proofs.Matching.HierarchySearch
import AdviceWeaver.Proofs.Matching.Lookup
import AdviceWeaver.Proofs.Pipeline.Agreement
import AdviceWeaver.Proofs.Pipeline.Arriving
import AdviceWeaver.Proofs.Pipeline.Building
import AdviceWeaver.Proofs.Pipeline.Constancy
import AdviceWeaver.Proofs.Pipeline.Hits
import AdviceWeaver.Proofs.Pipeline.HookClasses
import AdviceWeaver.Proofs.Pipeline.Installing
import AdviceWeaver.Proofs.Pipeline.NamelessRequests
import AdviceWeaver.Proofs.Pipeline.Planning
import AdviceWeaver.Proofs.Pipeline.Questions
import AdviceWeaver.Proofs.Pipeline.Remembering
import AdviceWeaver.Proofs.Pipeline.Transform
import AdviceWeaver.Proofs.Session.Agreement
import AdviceWeaver.Proofs.Weaving.Acceptance
import AdviceWeaver.Proofs.Weaving.ExactArithmetic
import AdviceWeaver.Proofs.Weaving.FollowingFrames
import AdviceWeaver.Proofs.Weaving.FreshConstants
import AdviceWeaver.Proofs.Weaving.HookInsertions
import AdviceWeaver.Proofs.Weaving.KeptRanges
import AdviceWeaver.Proofs.Weaving.OverlongBodies
import AdviceWeaver.Proofs.Weaving.RepeatedWeaving
import AdviceWeaver.Proofs.Weaving.Shifting
import AdviceWeaver.Proofs.Weaving.WovenClass
