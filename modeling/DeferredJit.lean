import DeferredJit.Async.Script
import DeferredJit.Config.Document
import DeferredJit.Config.Variables
import DeferredJit.Proofs.Async.Accounts
import DeferredJit.Proofs.Async.Arrivals
import DeferredJit.Proofs.Async.Carried
import DeferredJit.Proofs.Async.Cascades
import DeferredJit.Proofs.Async.Chain
import DeferredJit.Proofs.Async.Commutation
import DeferredJit.Proofs.Async.Contract
import DeferredJit.Proofs.Async.Depth
import DeferredJit.Proofs.Async.Drains
import DeferredJit.Proofs.Async.Finality
import DeferredJit.Proofs.Async.Gathering
import DeferredJit.Proofs.Async.Growth
import DeferredJit.Proofs.Async.Lines
import DeferredJit.Proofs.Async.Linking
import DeferredJit.Proofs.Async.Mapping
import DeferredJit.Proofs.Async.Measure
import DeferredJit.Proofs.Async.Moment
import DeferredJit.Proofs.Async.Operations
import DeferredJit.Proofs.Async.Outlines
import DeferredJit.Proofs.Async.Ownership
import DeferredJit.Proofs.Async.Regime
import DeferredJit.Proofs.Async.ScriptRuns
import DeferredJit.Proofs.Async.ScriptSteps
import DeferredJit.Proofs.Async.Silence
import DeferredJit.Proofs.Async.Soundness
import DeferredJit.Proofs.Async.Views
import DeferredJit.Proofs.Engine.Acceptance
import DeferredJit.Proofs.Engine.Accounting
import DeferredJit.Proofs.Engine.Additions
import DeferredJit.Proofs.Engine.Books
import DeferredJit.Proofs.Engine.Callers
import DeferredJit.Proofs.Engine.Calls
import DeferredJit.Proofs.Engine.Conversions
import DeferredJit.Proofs.Engine.Deliveries
import DeferredJit.Proofs.Engine.Depth
import DeferredJit.Proofs.Engine.Echoes
import DeferredJit.Proofs.Engine.Executions
import DeferredJit.Proofs.Engine.FirstAnswers
import DeferredJit.Proofs.Engine.Fitness
import DeferredJit.Proofs.Engine.Forwarding
import DeferredJit.Proofs.Engine.Invocations
import DeferredJit.Proofs.Engine.Isolation
import DeferredJit.Proofs.Engine.Kernels
import DeferredJit.Proofs.Engine.Machine
import DeferredJit.Proofs.Engine.Marshaling
import DeferredJit.Proofs.Engine.Naming
import DeferredJit.Proofs.Engine.Phases
import DeferredJit.Proofs.Engine.Pipeline
import DeferredJit.Proofs.Engine.Plays
import DeferredJit.Proofs.Engine.Progress
import DeferredJit.Proofs.Engine.Refinement
import DeferredJit.Proofs.Engine.Runs
import DeferredJit.Proofs.Engine.Schedules
import DeferredJit.Proofs.Engine.Score
import DeferredJit.Proofs.Engine.Selection
import DeferredJit.Proofs.Engine.Service
import DeferredJit.Proofs.Engine.SingleFlight
import DeferredJit.Proofs.Engine.Standing
import DeferredJit.Proofs.Engine.Stranding
import DeferredJit.Proofs.Engine.Turns
import DeferredJit.Proofs.Engine.Upkeep
import DeferredJit.Proofs.Kernel.Signatures
import DeferredJit.Proofs.Memref.Contents
import DeferredJit.Proofs.Memref.Dense
import DeferredJit.Proofs.Memref.Extents
import DeferredJit.Proofs.Request.Keys
import DeferredJit.Proofs.Tensor.Encoding
import DeferredJit.Session.Batch
import DeferredJit.Session.Frame
import DeferredJit.Session.Party
import DeferredJit.Task.Label
import DeferredJit.Task.Pool
