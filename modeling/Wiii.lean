import Wiii.Neko.Journal.Outcome
import Wiii.Neko.Journal.Recovery
import Wiii.Neko.Signal.Replay
import Wiii.Neko.Signal.Window
import Wiii.Neko.Gmail.NoSkip
import Wiii.Neko.AppEvents.ExactlyOnce
import Wiii.Neko.AppEvents.Conservation
import Wiii.Neko.Computer.InputAuthority
import Wiii.Neko.Computer.Requests
import Wiii.Neko.Coworker.Repeats
import Wiii.NekoChill.Leaks
import Wiii.NekoControl.OneStart
import Wiii.NekoChill.OutboxGate
import Wiii.NekoChill.OutboxFlights
import Wiii.NekoChill.TaskScopeRuns
import Wiii.NekoChill.AcpPermissions
import Wiii.NekoChill.AcpTurns
import Wiii.NekoChill.NativeGate
import Wiii.NekoChill.CrashConsistency
import Wiii.NekoChill.WriteAhead
import Wiii.Service.LogAgreement
import Wiii.Connect.Isolation
import Wiii.Auth.Logout
import Wiii.Connect.MutationGuard
import Wiii.Service.WokenTurn
import Wiii.Llm.RpmLimiter
import Wiii.Neko.Journal.Replay
import Wiii.Neko.Journal.Atomicity
import Wiii.Neko.Runtime.StartIdentity
import Wiii.Neko.Runtime.Frames
import Wiii.Neko.Bridge.Confinement
import Wiii.Neko.Computer.Motor.Accounting
import Wiii.Neko.Signal.Timely
import Wiii.Neko.Computer.RevokingCalls
import Wiii.NekoControl.Delivery
import Wiii.Desktop.SemanticStreamBuffer
import Wiii.Guardrails.Redaction
import Wiii.NekoChill.AcpClient
import Wiii.NekoChill.Deletion
import Wiii.Service.StreamTap
import Wiii.NekoChill.AdmissionBuffer
import Wiii.NekoChill.SendPrompt
import Wiii.Neko.Runtime.ProcessExits
import Wiii.Neko.Runtime.Ownership
import Wiii.Service.ScheduledRuns
import Wiii.Service.ToolCalls
import Wiii.Service.TaskFailures
import Wiii.Auth.OtpLinking
import Wiii.Service.Intervals
import Wiii.Service.Chunking
import Wiii.Connect.PostBodies
import Wiii.Connect.CallbackState
import Wiii.Desktop.StreamBuffer
import Wiii.Service.CircuitBreaker
import Wiii.Desktop.SseParser
import Wiii.Neko.Computer.SceneDelta
