import Titanium.Lib.Dyadic
import Titanium.Lib.BitArr
import Titanium.Lib.Buddy
import Titanium.Paging.Layout
import Titanium.Lib.Checked
import Titanium.Paging.Allocator
import Titanium.Paging.Chunks
import Titanium.Paging.Runs
import Titanium.Paging.New
import Titanium.Paging.Mapper
import Titanium.Paging.FourLevel
import Titanium.Vmem
import Titanium.Paging.Mapall
import Titanium.Stack
import Titanium.Stack.Slots
import Titanium.Lib.Memory
import Titanium.Heap
import Titanium.Heap.Recycle
import Titanium.Heap.Global
import Titanium.Heap.LinkedList
import Titanium.Heap.FreeList
import Titanium.Uacpi
import Titanium.Lib.Coroutine
import Titanium.Lib.ReprC
import Titanium.Acpi.Madt
import Titanium.Acpi.Decode
import Titanium.Lib.RoundRobin
import Titanium.Scheduler.Switch
import Titanium.Lib.BitField
import Titanium.Util
import Titanium.Scheduler.TaskId
import Titanium.Scheduler.Waker
import Titanium.Lib.WordStack
import Titanium.Scheduler.Machine
import Titanium.Scheduler.Exec
import Titanium.Scheduler.Blocks
import Titanium.Scheduler.Preempt
import Titanium.Paging.Effects
import Titanium.Paging.Limits
import Titanium.Scheduler.EarlyExit
import Titanium.Scheduler.Yield
import Titanium.Scheduler.Saved
import Titanium.Scheduler.Settled
import Titanium.Scheduler.Events
import Titanium.Scheduler.Suspend
import Titanium.Scheduler.Misread
import Titanium.Scheduler.Frames
import Titanium.Scheduler.Spawn
import Titanium.Scheduler.Idle
import Titanium.Idt
import Titanium.Hdint.IoApic
import Titanium.Hdint.Fields
import Titanium.Hdint.Routing
import Titanium.Hdint.Window
import Titanium.Lib.PollLoop
import Titanium.Hdint.LocalApic
import Titanium.Hdint.Hpet
import Titanium.Hdint.Pit
import Titanium.Hdint.Sleep
import Titanium.Uacpi.Event
import Titanium.Uacpi.Critical
import Titanium.Lib.Grid
import Titanium.Lib.Logged
import Titanium.Framebuffer.Font
import Titanium.Framebuffer.Galley
import Titanium.Heap.Objects
import Titanium.Uacpi.Objects
import Titanium.Paging.Ledger
import Titanium.Boot
import Titanium.Hdint.Discover
import Titanium.Hdint.Timer
import Titanium.Scheduler.Slices
import Titanium.Lib.Uniprocessor
import Titanium.Serial
import Titanium.Hdint.Rtc
import Titanium.Hdint.HpetTimers
import Titanium.Lib.Raster
import Titanium.Framebuffer.Screen
import Titanium.Idt.Load
import Titanium.Hdint.PitRate
import Titanium.Lib.InterruptController
import Titanium.Hdint.Service
import Titanium.Limine
import Titanium.Lib.Simulation
import Titanium.Scheduler.Refinement
import Titanium.Scheduler.Timed
