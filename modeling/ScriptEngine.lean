import ScriptEngine.Chunk.Builder
import ScriptEngine.Chunk.Instruction
import ScriptEngine.Chunk.Listing
import ScriptEngine.Chunk.Validity
import ScriptEngine.Config.Decode
import ScriptEngine.Config.FileTree
import ScriptEngine.Config.Layer
import ScriptEngine.Config.Loader
import ScriptEngine.Config.Settings
import ScriptEngine.Embedding.Basic
import ScriptEngine.Embedding.Builder
import ScriptEngine.Embedding.Path
import ScriptEngine.Error.Runtime
import ScriptEngine.Error.Script
import ScriptEngine.Interchange.Conversion
import ScriptEngine.Interchange.Json
import ScriptEngine.Library.Catalog
import ScriptEngine.Library.Coroutines
import ScriptEngine.Library.Iteration
import ScriptEngine.Library.Protection
import ScriptEngine.Library.Reflection
import ScriptEngine.Library.Sequences
import ScriptEngine.Library.Texts
import ScriptEngine.Machine.Activation
import ScriptEngine.Machine.Call
import ScriptEngine.Machine.Exec
import ScriptEngine.Machine.Execute
import ScriptEngine.Machine.Frame
import ScriptEngine.Machine.Processor
import ScriptEngine.Machine.Resolve
import ScriptEngine.Machine.Run
import ScriptEngine.Machine.Stack
import ScriptEngine.Machine.Unwind
import ScriptEngine.Native.Access
import ScriptEngine.Native.Action
import ScriptEngine.Native.Arguments
import ScriptEngine.Number.Dyadic
import ScriptEngine.Number.Numeral
import ScriptEngine.Number.Rounding
import ScriptEngine.Number.Shortest
import ScriptEngine.Scope.Resolver
import ScriptEngine.Scope.Symbol
import ScriptEngine.Table.Basic
import ScriptEngine.Table.Key
import ScriptEngine.Table.Sequence
import ScriptEngine.Text.Blank
import ScriptEngine.Text.Lowercase
import ScriptEngine.Text.Quoted
import ScriptEngine.Text.Unprintable
import ScriptEngine.Toml.Document
import ScriptEngine.Toml.Lexical
import ScriptEngine.Value.Basic
import ScriptEngine.Value.Operator
import ScriptEngine.Workbench.Functions
import ScriptEngine.Workbench.Objects
import ScriptEngine.World.Basic
import ScriptEngine.World.Host
import ScriptEngine.World.Metamethod
import ScriptEngine.Proofs.Table.Refinement
import ScriptEngine.Proofs.Table.Border
import ScriptEngine.Proofs.Table.Traversal
import ScriptEngine.Proofs.Table.Reading
import ScriptEngine.Proofs.Table.Integers
import ScriptEngine.Proofs.Table.Editing
import ScriptEngine.Proofs.Table.Conservation
import ScriptEngine.Proofs.Table.Filling
import ScriptEngine.Proofs.World.ScriptView
import ScriptEngine.Proofs.Machine.Intent
import ScriptEngine.Proofs.Machine.Results
import ScriptEngine.Proofs.Machine.JumpTargets
import ScriptEngine.Proofs.Machine.Reach
import ScriptEngine.Proofs.Machine.Isolation
import ScriptEngine.Proofs.Coroutine.Lawful
import ScriptEngine.Proofs.Coroutine.Schedule
import ScriptEngine.Proofs.Coroutine.Nesting
import ScriptEngine.Proofs.Coroutine.NestingSteps
import ScriptEngine.Proofs.Coroutine.Yielding
import ScriptEngine.Proofs.Coroutine.Yieldable
import ScriptEngine.Proofs.Coroutine.AllProcessors
import ScriptEngine.Proofs.Config.Resolution
import ScriptEngine.Proofs.Config.Places
import ScriptEngine.Proofs.Config.Consultation
import ScriptEngine.Proofs.Config.Loading
import ScriptEngine.Proofs.Coroutine.Discipline
import ScriptEngine.Proofs.Frame.EntryFrames
import ScriptEngine.Proofs.Frame.LinkedFrames
import ScriptEngine.Proofs.Frame.LoopFrames
import ScriptEngine.Proofs.Frame.Guard
import ScriptEngine.Proofs.Frame.Protection
import ScriptEngine.Proofs.Frame.LinkedProcessors
import ScriptEngine.Proofs.Frame.SoundHistories
import ScriptEngine.Proofs.Frame.Containment
import ScriptEngine.Proofs.Frame.ReturnHeights
import ScriptEngine.Proofs.Frame.Heights
import ScriptEngine.Proofs.Frame.YieldedFrames
import ScriptEngine.Proofs.Frame.Enclosure
import ScriptEngine.Proofs.Frame.Limits
import ScriptEngine.Proofs.Frame.Restoration
import ScriptEngine.Proofs.Frame.CallSite
import ScriptEngine.Proofs.Frame.Temporaries
import ScriptEngine.Proofs.Frame.Continuation
import ScriptEngine.Proofs.Frame.Soundness
import ScriptEngine.Proofs.Frame.Resources
import ScriptEngine.Proofs.Frame.Capacity
import ScriptEngine.Proofs.Frame.Attempt
import ScriptEngine.Proofs.Frame.Confirmation
import ScriptEngine.Proofs.Error.Sources
import ScriptEngine.Proofs.Error.Forwarding
import ScriptEngine.Proofs.Error.Passage
import ScriptEngine.Proofs.Native.Simple
import ScriptEngine.Proofs.Native.Settling
import ScriptEngine.Proofs.Native.Removal
import ScriptEngine.Proofs.Polling.Circles
import ScriptEngine.Proofs.Polling.Requests
import ScriptEngine.Proofs.Polling.ResultReceivers
import ScriptEngine.Proofs.Polling.NeverAtRest
import ScriptEngine.Proofs.Polling.Reaching
import ScriptEngine.Proofs.Polling.UnpolledRuns
import ScriptEngine.Proofs.Budget.IgnoredMeters
import ScriptEngine.Proofs.Budget.Metered
import ScriptEngine.Proofs.Budget.Serving
import ScriptEngine.Proofs.Budget.ForcedSuspension
import ScriptEngine.Proofs.Budget.InResume
import ScriptEngine.Proofs.Budget.HostResume
import ScriptEngine.Proofs.Budget.Pauses
import ScriptEngine.Proofs.Budget.Resumes
import ScriptEngine.Proofs.Budget.Sessions
import ScriptEngine.Proofs.Budget.Answering
import ScriptEngine.Proofs.Budget.Conversations
import ScriptEngine.Proofs.Budget.Progress
import ScriptEngine.Proofs.Tuple.Flat
import ScriptEngine.Proofs.Tuple.Supply
import ScriptEngine.Proofs.Tuple.Operators
import ScriptEngine.Proofs.Tuple.Library
import ScriptEngine.Proofs.Tuple.Instructions
import ScriptEngine.Proofs.Tuple.Calls
import ScriptEngine.Proofs.Tuple.Transience
import ScriptEngine.Proofs.Tuple.History
import ScriptEngine.Proofs.Request.LoopPlacement
import ScriptEngine.Proofs.Request.PlacedSteps
import ScriptEngine.Proofs.Request.OtherCoroutines
import ScriptEngine.Proofs.Request.PlacedErrors
import ScriptEngine.Proofs.Request.CallSimulation
import ScriptEngine.Proofs.Request.Exchange
import ScriptEngine.Proofs.TailCall.Keeping
import ScriptEngine.Proofs.TailCall.Layout
import ScriptEngine.Proofs.TailCall.AlikeWorlds
import ScriptEngine.Proofs.TailCall.Instructions
import ScriptEngine.Proofs.TailCall.Results
import ScriptEngine.Proofs.TailCall.Simulation
import ScriptEngine.Proofs.TailCall.SimulationSteps
import ScriptEngine.Proofs.TailCall.Errors
import ScriptEngine.Proofs.TailCall.ControlSteps
import ScriptEngine.Proofs.TailCall.Transparency
import ScriptEngine.Proofs.Interchange.RoundTrip
import ScriptEngine.Proofs.Table.Sequence
import ScriptEngine.Proofs.World.Tables
import ScriptEngine.Proofs.Interchange.Nesting
import ScriptEngine.Proofs.Interchange.Rendering
import ScriptEngine.Proofs.Scope.Lexicon
import ScriptEngine.Proofs.Scope.Agreement
import ScriptEngine.Proofs.Scope.Resolution
import ScriptEngine.Proofs.Machine.Faults
import ScriptEngine.Proofs.Tuple.Splicing
import ScriptEngine.Proofs.Interchange.Containers
import ScriptEngine.Proofs.World.Delegation
import ScriptEngine.Proofs.Frame.Position
import ScriptEngine.Proofs.Error.Locations
import ScriptEngine.Proofs.Number.LargeNumbers
import ScriptEngine.Proofs.Number.Grammar
import ScriptEngine.Proofs.Interchange.Integers
import ScriptEngine.Proofs.Interchange.Options
import ScriptEngine.Proofs.Number.Radix
import ScriptEngine.Proofs.Number.Bits
import ScriptEngine.Proofs.Number.Exactness
import ScriptEngine.Proofs.Number.Layouts
import ScriptEngine.Proofs.Native.Unpacking
import ScriptEngine.Proofs.Scope.Layouts
import ScriptEngine.Proofs.Machine.Room
import ScriptEngine.Proofs.Scope.Frames
