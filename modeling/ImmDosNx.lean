import ImmDosNx.Lib.Run
import ImmDosNx.Lib.ByteBitmap
import ImmDosNx.Lib.Except
import ImmDosNx.Lib.Gregorian
import ImmDosNx.Lib.Ring
import ImmDosNx.Lib.Align
import ImmDosNx.Lib.Client
import ImmDosNx.Lib.FiniteMap
import ImmDosNx.Lib.ExpiringQueue
import ImmDosNx.Task.Stack
import ImmDosNx.Task.Process
import ImmDosNx.Task.Ipc
import ImmDosNx.Task.Wait
import ImmDosNx.Memory.Heap.ListAllocator
import ImmDosNx.Memory.Physical.FrameRefcount
import ImmDosNx.Memory.CopyOnWrite
import ImmDosNx.Task.Exec.Segment
import ImmDosNx.Task.Paging
import ImmDosNx.Task.MemoryRegions
import ImmDosNx.Task.Exec.Heap
import ImmDosNx.Loaders.Loader
import ImmDosNx.Loaders.Mz
import ImmDosNx.Loaders.Elf
import ImmDosNx.Loaders.Load
import ImmDosNx.Memory.Physical.FrameBitmap
import ImmDosNx.Memory.Physical.Init
import ImmDosNx.Memory.Physical.FreeFrames
import ImmDosNx.Hardware.Floppy
import ImmDosNx.Hardware.Vga.TextMode
import ImmDosNx.Time.Date
import ImmDosNx.Time.UnixEpoch
import ImmDosNx.Collections.SlotList
import ImmDosNx.Files.Filename
import ImmDosNx.Files.Path
import ImmDosNx.Fs.FileSystem
import ImmDosNx.Fs.InitFs
import ImmDosNx.Fs.CpioLayout
import ImmDosNx.Fs.InitFsListing
import ImmDosNx.Dos.Files
import ImmDosNx.Devices.Driver
import ImmDosNx.Devices.Block.Floppy
import ImmDosNx.Devices.DescriptorTables
import ImmDosNx.Fs.DevFs
import ImmDosNx.Buffers
import ImmDosNx.Input.Buffers
import ImmDosNx.Hardware.Rtc
import ImmDosNx.Task.Munmap
import ImmDosNx.Tty.Parser
import ImmDosNx.Vterm.VTerm
import ImmDosNx.Vterm.Ansi
import ImmDosNx.Vterm.Relocate
import ImmDosNx.Vterm.Router
