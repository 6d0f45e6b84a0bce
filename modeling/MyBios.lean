import MyBios.Lib.Prog
import MyBios.Lib.ByteMem
import MyBios.Lib.Lts
import MyBios.Lib.RingBuffer
import MyBios.Lib.Slots
import MyBios.Lib.Scan
import MyBios.Lib.Poll
import MyBios.Lib.Numbering
import MyBios.Lib.History
import MyBios.Lib.Clock
import MyBios.Lib.Numeral
import MyBios.Lib.CString
import MyBios.Lib.Runs
import MyBios.Machine
import MyBios.Util.Memcpy
import MyBios.Post.Ram
import MyBios.Post.Restore
import MyBios.Post.Size
import MyBios.Post.Bound
import MyBios.Post.ProbeAll
import MyBios.Post.CountOnce
import MyBios.Bios.Int15
import MyBios.Pci.Config
import MyBios.Pci.Find
import MyBios.Pci.Lens
import MyBios.Pci.Header
import MyBios.Pci.Bar
import MyBios.Pci.Command
import MyBios.Pci.Configure
import MyBios.Pci.Isolation
import MyBios.Timer.Driver
import MyBios.Timer.Schedule
import MyBios.Timer.Ticks
import MyBios.Timer.Layout
import MyBios.Bda
import MyBios.Interrupt.Frame
import MyBios.Keyboard.Driver
import MyBios.Keyboard.Map
import MyBios.Bios.Keyboard
import MyBios.Keyboard.Controller
import MyBios.Keyboard.System
import MyBios.Keyboard.Footprint
import MyBios.Keyboard.Full
import MyBios.Keyboard.Transact
import MyBios.Timer.Waits
import MyBios.Keyboard.Flags
import MyBios.Bios.Peek
import MyBios.Keyboard.Shifted
import MyBios.Serial.Driver
import MyBios.Serial.System
import MyBios.Ata.Driver
import MyBios.Ata.Taskfile
import MyBios.Ata.Disk
import MyBios.Ata.RoundTrip
import MyBios.Bios.Disk
import MyBios.Ata.Selection
import MyBios.Ata.Blocks
import MyBios.Ata.ReadStatus
import MyBios.Ata.Identify
import MyBios.Ata.Record
import MyBios.Bios.Geometry
import MyBios.Bios.Addressing
import MyBios.X86.Cpu
import MyBios.Interrupt.Trampoline
import MyBios.Interrupt.Registers
import MyBios.RealMode.Call
import MyBios.Video.Terminal
import MyBios.Interrupt.Acknowledge
import MyBios.Serial.Putc
import MyBios.Video.Cursor
import MyBios.Output.Itoa
import MyBios.Output.Printf
import MyBios.Oprom
import MyBios.X86.Listing
import MyBios.Serial.Hex
import MyBios.Bios.BlockMove
import MyBios.Chipset.Shadow
import MyBios.Chipset.Init
import MyBios.Chipset.Selection
import MyBios.Lib.Refinement
import MyBios.Bios.Service
import MyBios.Interrupt.Pic
import MyBios.Lib.Table
import MyBios.Interrupt.Idt
import MyBios.Interrupt.Ivt
import MyBios.Boot.Drives
import MyBios.Boot.Hd
import MyBios.Bios.Guest
import MyBios.Boot.Discovery
