import ArgaldOS.Framework.Runs
import ArgaldOS.Framework.Words
import ArgaldOS.Framework.Loops
import ArgaldOS.Framework.Terminated
import ArgaldOS.Framework.Chains
import ArgaldOS.Framework.TableTree
import ArgaldOS.Framework.BitFields
import ArgaldOS.Framework.Handles
import ArgaldOS.Framework.Programs
import ArgaldOS.Framework.Cells
import ArgaldOS.Framework.Numerals
import ArgaldOS.Framework.IntervalSearch
import ArgaldOS.Framework.Arrays
import ArgaldOS.Framework.WriteBack
import ArgaldOS.Framework.TextLayout
import ArgaldOS.Memory
import ArgaldOS.Stdlib.Binop
import ArgaldOS.Stdlib.Mem
import ArgaldOS.Stdlib.String
import ArgaldOS.Stdlib.Buffer
import ArgaldOS.Stdlib.Editing
import ArgaldOS.Stdlib.Copying
import ArgaldOS.Stdlib.Trim
import ArgaldOS.Stdlib.Numbers
import ArgaldOS.Stdlib.Itoa
import ArgaldOS.Stdlib.Hexadecimal
import ArgaldOS.Stdlib.Move
import ArgaldOS.Stdlib.Printf
import ArgaldOS.Stdlib.Directives
import ArgaldOS.Stdlib.Integers
import ArgaldOS.Pmm.Model
import ArgaldOS.Pmm.Invariant
import ArgaldOS.Pmm.Runs
import ArgaldOS.Pmm.Safety
import ArgaldOS.Pmm.Agreement
import ArgaldOS.Pmm.Conservation
import ArgaldOS.Pmm.Completeness
import ArgaldOS.Paging.Model
import ArgaldOS.Paging.Allocator
import ArgaldOS.Paging.Tables
import ArgaldOS.Paging.Walkers
import ArgaldOS.Paging.Writes
import ArgaldOS.Paging.Refinement
import ArgaldOS.Paging.Init
import ArgaldOS.Paging.Switch
import ArgaldOS.Paging.Coverage
import ArgaldOS.Paging.Kernel
import ArgaldOS.Paging.Rights
import ArgaldOS.Paging.Unmap
import ArgaldOS.Paging.Failure
import ArgaldOS.Paging.Range
import ArgaldOS.Elf.Model
import ArgaldOS.Elf.Sections
import ArgaldOS.Elf.Reads
import ArgaldOS.Elf.Confinement
import ArgaldOS.Elf.Contents
import ArgaldOS.Elf.Acceptance
import ArgaldOS.Elf.Takeover
import ArgaldOS.Elf.Offsets
import ArgaldOS.Disk.Model
import ArgaldOS.Disk.Store
import ArgaldOS.Disk.Status
import ArgaldOS.Fat.Model
import ArgaldOS.Fat.Chain
import ArgaldOS.Fat.Volume
import ArgaldOS.Fat.Table
import ArgaldOS.Fat.Directory
import ArgaldOS.Fat.BootSector
import ArgaldOS.Fat.Stored
import ArgaldOS.Fat.Contents
import ArgaldOS.Fat.Termination
import ArgaldOS.Fat.Lookup
import ArgaldOS.Fat.Rejection
import ArgaldOS.Fat.Buffers
import ArgaldOS.Fat.Geometry
import ArgaldOS.Pci.Model
import ArgaldOS.Pci.Enumeration
import ArgaldOS.Pci.Accessors
import ArgaldOS.Pci.Discovery
import ArgaldOS.Usb.Model
import ArgaldOS.Usb.Schedule
import ArgaldOS.Usb.Descriptor
import ArgaldOS.Usb.DataStage
import ArgaldOS.Timer.Delay
import ArgaldOS.Keyboard.Model
import ArgaldOS.Keyboard.Steps
import ArgaldOS.Keyboard.Bounds
import ArgaldOS.Keyboard.Editor
import ArgaldOS.Keyboard.NullChars
import ArgaldOS.Interrupt.Model
import ArgaldOS.Interrupt.Frame
import ArgaldOS.Interrupt.Descriptors
import ArgaldOS.Interrupt.Table
import ArgaldOS.Interrupt.UserCopy
import ArgaldOS.Interrupt.UserString
import ArgaldOS.Interrupt.Segments
import ArgaldOS.Panic.Model
import ArgaldOS.Panic.Agreement
import ArgaldOS.Panic.StackTrace
import ArgaldOS.Panic.Lookup
import ArgaldOS.Util.Hexdump
import ArgaldOS.Console.Serial
import ArgaldOS.Console.Printk
import ArgaldOS.Terminal.Context
import ArgaldOS.Terminal.Unicode
import ArgaldOS.Terminal.Parser
import ArgaldOS.Terminal.Framebuffer
import ArgaldOS.Terminal.Model
import ArgaldOS.Terminal.Screen
import ArgaldOS.Terminal.Refinement
import ArgaldOS.Terminal.Safety
import ArgaldOS.Terminal.Pixels
import ArgaldOS.Terminal.Display
import ArgaldOS.Terminal.Runs
import ArgaldOS.Terminal.Setup
import ArgaldOS.Terminal.Utf8
import ArgaldOS.Terminal.Text
import ArgaldOS.Terminal.Sequences
import ArgaldOS.Terminal.Reset
import ArgaldOS.Terminal.SavedState
import ArgaldOS.Terminal.Commands
import ArgaldOS.Terminal.Editing
import ArgaldOS.Terminal.Regions
import ArgaldOS.Terminal.Canvas
import ArgaldOS.Terminal.Messages
import ArgaldOS.Terminal.Echo
