import Libcsp.Base.Machine
import Libcsp.Base.Fifo
import Libcsp.Base.Lock
import Libcsp.Base.Overwrite
import Libcsp.Base.Pacing
import Libcsp.Base.MachineInt
import Libcsp.Base.Text
import Libcsp.Base.Memory
import Libcsp.Base.ByteOrder
import Libcsp.Base.LittleEndian
import Libcsp.Base.Allocator
import Libcsp.Base.Cursor
import Libcsp.Base.BitPolynomial
import Libcsp.Base.Period
import Libcsp.Base.Thumb
import Libcsp.Base.Tokens
import Libcsp.Base.Transducer
import Libcsp.Error
import Libcsp.Arch
import Libcsp.Arch.Isr
import Libcsp.Arch.Clock
import Libcsp.Base.TimedWait
import Libcsp.Arch.Timeouts
import Libcsp.Base.Acquire
import Libcsp.Arch.Handles
import Libcsp.Arch.Strings
import Libcsp.Arch.Strtok
import Libcsp.Arch.CriticalSection
import Libcsp.Xorshift
import Libcsp.Base.BitField
import Libcsp.Can.Cfp
import Libcsp.Arch.Rand
import Libcsp.Arch.Trampoline
import Libcsp.Stress.Payload
import Libcsp.Stress.Sender
import Libcsp.Sfp.Callbacks
import Libcsp.Sfp.Transfer
import Libcsp.Sfp.ReadBounds
import Libcsp.Sfp.Reassembly
import Libcsp.Sfp.RoundTrip
import Libcsp.Sfp.Abort
import Libcsp.CallerSlices
import Libcsp.LengthCasts
import Libcsp.Ffi.Shims
import Libcsp.Ffi.Exclusion
import Libcsp.Interface.Registry
import Libcsp.Packet.Ownership
import Libcsp.Packet.Payload
import Libcsp.BinSem.Backends
import Libcsp.BinSem.Exclusion
import Libcsp.BinSem.Agreement
import Libcsp.Dispatcher.Register
import Libcsp.Dispatcher.Run
import Libcsp.Dispatcher.Exact
import Libcsp.Dispatcher.Wildcard
import Libcsp.Dispatcher.Backlog
import Libcsp.Dispatcher.Binding
import Libcsp.Queue.TestQueue
import Libcsp.Queue.Linearizable
import Libcsp.Queue.Monitor
import Libcsp.Queue.Wakeup
import Libcsp.Queue.Ring
import Libcsp.Base.Drain
import Libcsp.Queue.Scratch
import Libcsp.Queue.Accounting
import Libcsp.Queue.RingFifo
import Libcsp.Ident
import Libcsp.Node.Lifetime
import Libcsp.Node.Once
import Libcsp.EmbassyArch.Malloc
import Libcsp.EmbassyArch.Queue
import Libcsp.EmbassyArch.Queues
import Libcsp.EmbassyArch.Reclaim
import Libcsp.Thread.Create
import Libcsp.Thread.EntryPoint
import Libcsp.Thread.FnMap
import Libcsp.Sniffer
