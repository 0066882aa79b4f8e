import RtxKernel.Lib.Run
import RtxKernel.Lib.Slots
import RtxKernel.Memory.Invariant
import RtxKernel.Kernel.Boot
import RtxKernel.Kernel.Safety
import RtxKernel.Kernel.Delayed
import RtxKernel.Window.Message
import RtxKernel.Window.Memory
import RtxKernel.Interrupt.Queues
import RtxKernel.Interrupt.Masking
import RtxKernel.Interrupt.Running
import RtxKernel.Kernel.Zeroed
import RtxKernel.Kernel.Life
import RtxKernel.Kernel.Room
import RtxKernel.Kernel.Outside
import RtxKernel.Kernel.Retry
import RtxKernel.Kernel.Early
import RtxKernel.Kernel.Waiters
import RtxKernel.Kernel.Requests
import RtxKernel.Kernel.InOrder
import RtxKernel.Kernel.SetPriority
import RtxKernel.Kernel.Turns
import RtxKernel.Process.PrioritySwitch
import RtxKernel.Process.Kcd
import RtxKernel.Process.CommandText
import RtxKernel.Process.Replies
import RtxKernel.Process.ClockTime
import RtxKernel.Process.SerialOutput
import RtxKernel.Process.StressRun
import RtxKernel.Context.Stub
import RtxKernel.Kernel.Histories
import RtxKernel.Process.Script
import RtxKernel.Process.View
import RtxKernel.Process.ScriptRun
import RtxKernel.Process.ScriptRules
import RtxKernel.Process.KcdScript
import RtxKernel.Process.Terminal
import RtxKernel.Process.ClockScript
import RtxKernel.Process.PriorityScript
import RtxKernel.Process.Services
