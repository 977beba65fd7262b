import NvidiaHaiku.Math.Transition
import NvidiaHaiku.Math.Simulation
import NvidiaHaiku.Math.BlockStore
import NvidiaHaiku.Math.LockOrder
import NvidiaHaiku.Math.Custody
import NvidiaHaiku.Math.Ownership
import NvidiaHaiku.Math.Tenancy
import NvidiaHaiku.Math.Extent
import NvidiaHaiku.Math.Hierarchy
import NvidiaHaiku.Math.Counting
import NvidiaHaiku.Math.Word
import NvidiaHaiku.Math.Numeral
import NvidiaHaiku.Math.Ledger
import NvidiaHaiku.Math.Waiting
import NvidiaHaiku.Math.Scope
import NvidiaHaiku.Math.FirstLeast
import NvidiaHaiku.Math.Terminated
import NvidiaHaiku.Math.WhileLoop
import NvidiaHaiku.Libc.Constants
import NvidiaHaiku.Libc.CString
import NvidiaHaiku.Libc.Memory
import NvidiaHaiku.Libc.UserMemory
import NvidiaHaiku.Driver.DeviceNamesArray
import NvidiaHaiku.Driver.FindDevice
import NvidiaHaiku.Driver.Module
import NvidiaHaiku.Driver.Loading
import NvidiaHaiku.Driver.PublishDevices
import NvidiaHaiku.Driver.NamesLifetime
import NvidiaHaiku.IntrSafePool.Pool
import NvidiaHaiku.IntrSafePool.System
import NvidiaHaiku.IntrSafePool.Safety
import NvidiaHaiku.IntrSafePool.Custody
import NvidiaHaiku.IntrSafePool.Replenish
import NvidiaHaiku.IntrSafePool.Undisturbed
import NvidiaHaiku.IntrSafePool.Capacity
import NvidiaHaiku.IntrSafePool.Refinement
import NvidiaHaiku.IntrSafePool.SearchEnds
import NvidiaHaiku.TimerQueue.Timer
import NvidiaHaiku.TimerQueue.System
import NvidiaHaiku.TimerQueue.Delivery
import NvidiaHaiku.TimerQueue.Release
import NvidiaHaiku.TimerQueue.Freeing
import NvidiaHaiku.TimerQueue.RefCount
import NvidiaHaiku.TimerQueue.Deadlock
import NvidiaHaiku.Nvkms.Semaphore
import NvidiaHaiku.Nvkms.Select
import NvidiaHaiku.Nvkms.Device
import NvidiaHaiku.Nvkms.Charges
import NvidiaHaiku.Nvkms.DeviceSafety
import NvidiaHaiku.Nvkms.DeviceProgress
import NvidiaHaiku.Nvkms.DeviceSelect
import NvidiaHaiku.Device.Hardware
import NvidiaHaiku.Device.Balance
import NvidiaHaiku.Device.Sharing
import NvidiaHaiku.Device.Interrupts
import NvidiaHaiku.Device.Closing
import NvidiaHaiku.Device.References
import NvidiaHaiku.Device.Bars
import NvidiaHaiku.BaseDevice.MappingContext
import NvidiaHaiku.BaseDevice.MapRecorded
import NvidiaHaiku.BaseDevice.AllocLifetime
import NvidiaHaiku.BaseDevice.Select
import NvidiaHaiku.BaseDevice.ReportedTwice
import NvidiaHaiku.BaseDevice.RangeCopy
import NvidiaHaiku.Sdk.MemoryMapping
import NvidiaHaiku.Sdk.MapMemory
import NvidiaHaiku.Sdk.MapsOwnMemory
import NvidiaHaiku.BaseDevice.CardInfo
import NvidiaHaiku.BaseDevice.RmCalls
import NvidiaHaiku.Accelerant.Bitmap
import NvidiaHaiku.Accelerant.SetDisplayMode
import NvidiaHaiku.Accelerant.Modes
import NvidiaHaiku.Accelerant.ProposeMode
import NvidiaHaiku.Accelerant.PixelClockLimits
import NvidiaHaiku.Accelerant.ClosestMode
import NvidiaHaiku.Accelerant.PreferredMode
import NvidiaHaiku.Accelerant.RefreshRate
import NvidiaHaiku.Accelerant.SetModeRequest
import NvidiaHaiku.Accelerant.Handles
import NvidiaHaiku.Accelerant.BitmapRelease
import NvidiaHaiku.Accelerant.BitmapCreate
import NvidiaHaiku.Accelerant.BitmapSize
import NvidiaHaiku.Accelerant.CursorBitmap
import NvidiaHaiku.Accelerant.Cursor
import NvidiaHaiku.Accelerant.Construct
import NvidiaHaiku.Accelerant.Lifetime
import NvidiaHaiku.Accelerant.FrameBuffer
import NvidiaHaiku.Os.Firmware
import NvidiaHaiku.Os.Spinlock
import NvidiaHaiku.Os.Vm
import NvidiaHaiku.Os.AreaList
import NvidiaHaiku.Os.DmaBuffer
import NvidiaHaiku.Os.DmaViews
