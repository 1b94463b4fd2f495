import ZeldaOS.Lib.Assembly
import ZeldaOS.Lib.BitLoop
import ZeldaOS.Lib.Bits
import ZeldaOS.Lib.Board
import ZeldaOS.Lib.CallFrames
import ZeldaOS.Lib.Chip8259
import ZeldaOS.Lib.Interleave
import ZeldaOS.Lib.LineBuffer
import ZeldaOS.Lib.Machine64
import ZeldaOS.Lib.Memory
import ZeldaOS.Lib.MovInstruction
import ZeldaOS.Lib.Numeral
import ZeldaOS.Lib.Queue
import ZeldaOS.Lib.Radix
import ZeldaOS.Lib.RegisterOperand
import ZeldaOS.Lib.Run
import ZeldaOS.Lib.StablePerm
import ZeldaOS.Lib.Stack
import ZeldaOS.Lib.Stopwatch
import ZeldaOS.Lib64.Console
import ZeldaOS.Lib64.ConsoleLock
import ZeldaOS.Lib64.ConsoleMessages
import ZeldaOS.Lib64.Format
import ZeldaOS.Lib64.FormatCorrect
import ZeldaOS.Lib64.Numbers
import ZeldaOS.Lib64.Printk
import ZeldaOS.Lib64.Ring
import ZeldaOS.Lib64.RingCorrect
import ZeldaOS.Lib64.Search
import ZeldaOS.Lib64.Sort
import ZeldaOS.Lib64.SortArray
import ZeldaOS.X86.Gdt
import ZeldaOS.X86.InterruptEntry
import ZeldaOS.X86.InterruptRuns
import ZeldaOS.X86.InterruptTable
import ZeldaOS.X86.Panic
import ZeldaOS.X86.ProcessorLocalStorage
import ZeldaOS.X86.Spinlock
import ZeldaOS.Memory.MemoryHole
import ZeldaOS.Memory.PageAllocator
import ZeldaOS.Memory.Paging
import ZeldaOS.Memory.PagingCorrect
import ZeldaOS.Memory.PagingIdentity
import ZeldaOS.Memory.PagingInit
import ZeldaOS.Memory.PagingTables
import ZeldaOS.Memory.PhysicalMemory
import ZeldaOS.VmMonitor.DecodingLocal
import ZeldaOS.VmMonitor.Device8253Pit
import ZeldaOS.VmMonitor.DeviceSerial
import ZeldaOS.VmMonitor.DeviceVideo
import ZeldaOS.VmMonitor.Devices
import ZeldaOS.VmMonitor.EferCorrect
import ZeldaOS.VmMonitor.EmulationCorrect
import ZeldaOS.VmMonitor.Ept
import ZeldaOS.VmMonitor.EptCorrect
import ZeldaOS.VmMonitor.EptMisconfig
import ZeldaOS.VmMonitor.EptOnce
import ZeldaOS.VmMonitor.EptWrites
import ZeldaOS.VmMonitor.ExitsDevices
import ZeldaOS.VmMonitor.ExitsRefine
import ZeldaOS.VmMonitor.GuestImage
import ZeldaOS.VmMonitor.GuestLayout
import ZeldaOS.VmMonitor.GuestMemory
import ZeldaOS.VmMonitor.GuestService
import ZeldaOS.VmMonitor.HostStack
import ZeldaOS.VmMonitor.IdentityCheck
import ZeldaOS.VmMonitor.InstructionBytes
import ZeldaOS.VmMonitor.InstructionDecoding
import ZeldaOS.VmMonitor.InstructionSet
import ZeldaOS.VmMonitor.InterruptCorrect
import ZeldaOS.VmMonitor.IoInstruction
import ZeldaOS.VmMonitor.KeyboardCorrect
import ZeldaOS.VmMonitor.Mmio
import ZeldaOS.VmMonitor.Monitor
import ZeldaOS.VmMonitor.OperandSize
import ZeldaOS.VmMonitor.PicCorrect
import ZeldaOS.VmMonitor.Pio
import ZeldaOS.VmMonitor.RegisterOperands
import ZeldaOS.VmMonitor.SerialPorts
import ZeldaOS.VmMonitor.TimerCorrect
import ZeldaOS.VmMonitor.VmExit
import ZeldaOS.VmMonitor.VmExitCorrect
import ZeldaOS.VmMonitor.Vmcs
import ZeldaOS.VmMonitor.VmxControls
import ZeldaOS.VmMonitor.WindowCorrect
import ZeldaOS.Guest.Boot
import ZeldaOS.Guest.GameSystem
import ZeldaOS.Guest.Memset
import ZeldaOS.Guest.Tetris
import ZeldaOS.Guest.TetrisBlocks
import ZeldaOS.Guest.TetrisPile
import ZeldaOS.Guest.TetrisRows
import ZeldaOS.Guest.TetrisScreen
import ZeldaOS.Guest.TetrisStep
import ZeldaOS.Guest.Timer
import ZeldaOS.Guest.TrivialPaging
import ZeldaOS.Guest.TrivialPagingCorrect
import ZeldaOS.Init.EarlyPageTable
import ZeldaOS.Bootloader.Bootloader64
import ZeldaOS.Bootloader.MemoryList
