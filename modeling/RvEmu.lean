import RvEmu.Native.Cycle
import RvEmu.Spec.Trap
import RvEmu.Spec.Interrupt
import RvEmu.Isa.Rv64i
import RvEmu.Spec.Decode
import RvEmu.Spec.Rv64i
import RvEmu.Isa.Rvc
import RvEmu.Spec.Rvc
import RvEmu.Spec.Frame
import RvEmu.Spec.CsrAccess
import RvEmu.Spec.SupervisorCsr
import RvEmu.Spec.Run
import RvEmu.Spec.Outcome
import RvEmu.Spec.Privilege
import RvEmu.Spec.PmpSync
import RvEmu.Spec.Access
import RvEmu.Spec.Reservation
import RvEmu.Spec.PmpLock
import RvEmu.Spec.PmpMachine
import RvEmu.Spec.Precise
import RvEmu.Spec.PreciseCsr
import RvEmu.Spec.MachineSatp
import RvEmu.Spec.Walk
import RvEmu.Spec.WalkMemory
import RvEmu.Spec.WalkPermission
import RvEmu.Spec.Tables
import RvEmu.Spec.TlbRun
import RvEmu.Spec.TlbPermission
import RvEmu.Spec.TlbCycle
import RvEmu.Spec.AddressSpaces
import RvEmu.Spec.Page
import RvEmu.Spec.PageCrossing
import RvEmu.Spec.FinalAccess
import RvEmu.Spec.FinalAddress
import RvEmu.Spec.PreciseAmo
import RvEmu.Spec.InstBuf
import RvEmu.Spec.CodePage
import RvEmu.Spec.InstBufRun
import RvEmu.Spec.PmpRegion
import RvEmu.Spec.PmpCheck
import RvEmu.Spec.PmpRange
import RvEmu.Spec.WalkPmp
import RvEmu.ForStd.Bitmap
import RvEmu.ForStd.Scan
import RvEmu.Native.Plic
import RvEmu.Spec.Plic
import RvEmu.ForStd.Ring
import RvEmu.Native.Uart
import RvEmu.Spec.Uart
import RvEmu.Spec.UartInput
import RvEmu.Spec.UartOutput
import RvEmu.Isa.Legal
import RvEmu.Spec.Illegal
import RvEmu.Isa.Rv64m
import RvEmu.Spec.MulDiv
import RvEmu.Spec.Successor
import RvEmu.Spec.RamBounds
import RvEmu.Spec.WalkFailure
import RvEmu.Isa.Sv
import RvEmu.Spec.WalkAddress
import RvEmu.Spec.NonCanonical
import RvEmu.Spec.TlbKind
import RvEmu.Isa.Rv64a
import RvEmu.Spec.Amo
import RvEmu.Spec.LoadReserved
import RvEmu.Isa.Trap
import RvEmu.Spec.TrapEntry
import RvEmu.Spec.SieMirror
import RvEmu.Spec.PendingInt
import RvEmu.Isa.System
import RvEmu.Spec.PrivLegal
import RvEmu.Spec.PmpcfgAccess
import RvEmu.Spec.PlicNotify
import RvEmu.Spec.Exclusive
import RvEmu.Spec.PlicBounds
import RvEmu.Native.Aclint
import RvEmu.Spec.Timer
import RvEmu.Spec.SoftwareInt
import RvEmu.Spec.UartStatus
import RvEmu.Spec.UartDlab
import RvEmu.ForStd.Blit
import RvEmu.Native.Elf
import RvEmu.Spec.ElfLoad
import RvEmu.Native.Virtio
import RvEmu.Spec.VirtioQueue
import RvEmu.Spec.UartBounds
import RvEmu.Spec.UartTrigger
import RvEmu.Spec.UartPriority
import RvEmu.ForStd.Table
import RvEmu.Spec.TlbTable
import RvEmu.Spec.UartBuffer
import RvEmu.Spec.MemFault
import RvEmu.Spec.FaultFlags
import RvEmu.Spec.Mprv
import RvEmu.Spec.Mstatus
import RvEmu.Spec.PcAligned
import RvEmu.Spec.ModeLegal
import RvEmu.Native.Devices
import RvEmu.Native.Machine
import RvEmu.Spec.BusRule
import RvEmu.Spec.Machine
import RvEmu.Spec.MachineUart
import RvEmu.Spec.Lines
