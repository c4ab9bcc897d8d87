import CosKernel.Lib.Run
import CosKernel.Lib.Linked
import CosKernel.Lib.Allocator
import CosKernel.Lib.Bitmap
import CosKernel.Lib.Bytes
import CosKernel.Lib.Tlv
import CosKernel.Lib.X86
import CosKernel.Lib.ArrayTable
import CosKernel.Lib.X86Start
import CosKernel.Lib.Buffer
import CosKernel.Lib.BoundedQueue
import CosKernel.Lib.CString
import CosKernel.Lib.Words
import CosKernel.Lib.Paging
import CosKernel.Lib.RingBuffer
import CosKernel.Lib.Pairing
import CosKernel.Lib.ExchangeSort
import CosKernel.Lib.Layers
import CosKernel.Lib.Search
import CosKernel.Lib.OnesComplement
import CosKernel.Scheduler.Model
import CosKernel.Scheduler.Queue
import CosKernel.Scheduler.Invariant
import CosKernel.Scheduler.Safety
import CosKernel.Scheduler.Capacity
import CosKernel.Scheduler.Entry
import CosKernel.Scheduler.RoundRobin
import CosKernel.Context.Model
import CosKernel.Context.Transparency
import CosKernel.Interrupts.Model
import CosKernel.Interrupts.Transparency
import CosKernel.Heap.Model
import CosKernel.Heap.Invariant
import CosKernel.Heap.Refinement
import CosKernel.Heap.Undo
import CosKernel.Heap.Coalescing
import CosKernel.Pmm.Model
import CosKernel.Pmm.Accounting
import CosKernel.Pmm.Boot
import CosKernel.Pmm.Ownership
import CosKernel.Pmm.Ranges
import CosKernel.Pmm.Accesses
import CosKernel.Boot.Model
import CosKernel.Boot.MemoryMap
import CosKernel.Boot.Separation
import CosKernel.Boot.Pages
import CosKernel.Boot.Reads
import CosKernel.Vmm.Model
import CosKernel.Vmm.Mapping
import CosKernel.Vmm.PageTables
import CosKernel.Start.Model
import CosKernel.Start.Handoff
import CosKernel.Start.PageTables
import CosKernel.Kprintf.Model
import CosKernel.Kprintf.Strings
import CosKernel.Kprintf.Arguments
import CosKernel.Syscall.Model
import CosKernel.Syscall.Linkage
import CosKernel.Syscall.PointerCheck
import CosKernel.Fat32.Model
import CosKernel.Fat32.Chain
import CosKernel.Fat32.Read
import CosKernel.Fat32.Mount
import CosKernel.Fat32.FailedMount
import CosKernel.Fat32.Accesses
import CosKernel.Fat32.Directory
import CosKernel.Fat32.Scans
import CosKernel.Fat32.Agreement
import CosKernel.Fat32.Lookups
import CosKernel.Fat32.Names
import CosKernel.Fat32.Listing
import CosKernel.Fat32.Words
import CosKernel.Fat32.FailedRead
import CosKernel.FileOps.Model
import CosKernel.FileOps.Table
import CosKernel.Network.Model
import CosKernel.Network.Dhcp
import CosKernel.Network.Driver
import CosKernel.Network.Arp
import CosKernel.Network.Receive
import CosKernel.Network.Delivery
import CosKernel.Network.Initialize
import CosKernel.Network.Options
import CosKernel.Network.Checksum
import CosKernel.Network.InternetChecksum
import CosKernel.Network.Transmit
import CosKernel.Network.Lease
import CosKernel.Network.Quiet
import CosKernel.Input.Model
import CosKernel.Input.Queues
import CosKernel.Input.Shift
import CosKernel.Input.Packets
import CosKernel.Spooler.Model
import CosKernel.Spooler.Fifo
import CosKernel.Spooler.Slots
import CosKernel.Pci.Model
import CosKernel.Pci.Scan
import CosKernel.Audio.Model
import CosKernel.Audio.Tone
import CosKernel.WindowManager.Model
import CosKernel.WindowManager.Stacking
import CosKernel.Vga.Model
import CosKernel.Vga.Framebuffer
import CosKernel.WindowManager.Render
import CosKernel.Gui.Model
import CosKernel.Gui.Panel
import CosKernel.AppLauncher.Model
import CosKernel.AppLauncher.Live
import CosKernel.Clipboard.Model
import CosKernel.Clipboard.LastCopy
import CosKernel.Clipboard.Changes
import CosKernel.Usb.Model
import CosKernel.Usb.Ports
import CosKernel.Shell.Model
import CosKernel.Shell.LineEditing
import CosKernel.Lib.Files
import CosKernel.Fat32.Files
import CosKernel.Scheduler.Waiting
import CosKernel.Input.Reports
import CosKernel.Shell.Session
import CosKernel.Shell.Screen
import CosKernel.Network.Conversation
import CosKernel.Ahci.Commands
import CosKernel.Interrupts.Routing
import CosKernel.Pmm.Pool
import CosKernel.Lib.Picture
import CosKernel.Vga.Picture
import CosKernel.Notifications.Model
import CosKernel.Gui.Desktop
import CosKernel.Gui.Render
import CosKernel.Gui.Clicks
import CosKernel.Usb.Order
import CosKernel.Services.Model
import CosKernel.Services.Notices
import CosKernel.Scheduler.Kept
import CosKernel.Services.Start
import CosKernel.Gui.Menu
import CosKernel.Gui.Menu
import CosKernel.Interaction.Model
import CosKernel.Interaction.Pass
import CosKernel.Interaction.Clicks
import CosKernel.Lib.Mutex
import CosKernel.Sync.Exclusion
