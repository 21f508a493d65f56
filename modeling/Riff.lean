import Riff.Adjust
import Riff.Aggregation
import Riff.Agreement
import Riff.Application
import Riff.Conservation
import Riff.Conversation
import Riff.CorrectUse
import Riff.CustomValues
import Riff.Cycle
import Riff.Divisors
import Riff.Estimate
import Riff.ExecutionTime
import Riff.FailedBegin
import Riff.FailedStart
import Riff.FastModulo
import Riff.FirstBegin
import Riff.IdleWord
import Riff.Lib.BigEndian
import Riff.Lib.Channel
import Riff.Lib.Decimal
import Riff.Lib.Double
import Riff.Lib.Fairness
import Riff.Lib.Istream
import Riff.Lib.PrefixCode
import Riff.Lib.Transition
import Riff.LoadBound
import Riff.MissingEnd
import Riff.Monitoring
import Riff.Nanomsg.Assertions
import Riff.Nanomsg.Connection
import Riff.Nanomsg.Endpoint
import Riff.Nanomsg.Events
import Riff.Nanomsg.Expiry
import Riff.Nanomsg.Frame
import Riff.Nanomsg.Quiescence
import Riff.Nanomsg.Rest
import Riff.Nanomsg.Service
import Riff.Nanomsg.Socket
import Riff.Nanomsg.SocketSteps
import Riff.Nanomsg.Stages
import Riff.Nanomsg.Steps
import Riff.Nanomsg.Transfers
import Riff.Nanomsg.Turns
import Riff.Nanomsg.Usock
import Riff.Nanomsg.WakeUp
import Riff.Nanomsg.Wire
import Riff.Nanomsg.Work
import Riff.Ownership
import Riff.Periods
import Riff.Phases
import Riff.Progress
import Riff.Records
import Riff.RequestServed
import Riff.ResponseContents
import Riff.Responses
import Riff.Sample
import Riff.SampleLog
import Riff.SampleText
import Riff.SamplingLength
import Riff.Session
import Riff.ShortRecord
import Riff.Start
import Riff.StartOnce
import Riff.SteadyRate
import Riff.StopHandshake
import Riff.Support
import Riff.System
import Riff.SystemSteps
import Riff.TaskCount
import Riff.Termination
import Riff.TextNumbers
import Riff.ThreadCalls
import Riff.ThreadData
import Riff.ThreadHistory
import Riff.ThreadRefinement
import Riff.ThreadRun
import Riff.Throughput
import Riff.Unsampled
import Riff.UnusedThreads
import Riff.Weights
import Riff.Window
