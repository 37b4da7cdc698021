import BdkFreertos.Machine
import BdkFreertos.Memory
import BdkFreertos.RingBuffer
import BdkFreertos.BoundedFifo
import BdkFreertos.Segment
import BdkFreertos.RingBufferFifo
import BdkFreertos.Flash
import BdkFreertos.NetParam
import BdkFreertos.NetParamTable
import BdkFreertos.NetParamMap
import BdkFreertos.NetParamHistory
import BdkFreertos.ByteOrder
import BdkFreertos.DhcpServer
import BdkFreertos.DhcpCache
import BdkFreertos.DhcpOptions
import BdkFreertos.DhcpAck
import BdkFreertos.DhcpAssignment
import BdkFreertos.Arena
import BdkFreertos.RoleLaunch
import BdkFreertos.RoleLaunchCore
import BdkFreertos.RoleLaunchInvariants
import BdkFreertos.RoleLaunchSwitch
import BdkFreertos.Lanes
import BdkFreertos.Msdu
import BdkFreertos.MsduOrder
import BdkFreertos.AtCommands
import BdkFreertos.CoreQueue
import BdkFreertos.AtInput
import BdkFreertos.AtReader
import BdkFreertos.AtLines
import BdkFreertos.Delivery
import BdkFreertos.VideoTransfer
import BdkFreertos.CameraFrame
import BdkFreertos.VideoBuffer
import BdkFreertos.MsduTim
import BdkFreertos.PowerSave
import BdkFreertos.MsduDrain
import BdkFreertos.Circular
import BdkFreertos.Kfifo
import BdkFreertos.FakeClock
import BdkFreertos.McuPs
import BdkFreertos.DrvModel
import BdkFreertos.DrvRegistry
import BdkFreertos.RingBufferInterrupt
import BdkFreertos.RingBufferDmaRead
import BdkFreertos.RingBufferDmaWrite
import BdkFreertos.VideoReader
import BdkFreertos.HttpFlash
import BdkFreertos.HttpOta
import BdkFreertos.Base64
import BdkFreertos.MacFrame
import BdkFreertos.BkAware
import BdkFreertos.BkAwarePeers
import BdkFreertos.TempDetect
import BdkFreertos.ExchangeSort
import BdkFreertos.ScanResult
import BdkFreertos.ScanOwnership
import BdkFreertos.RwMsg
import BdkFreertos.RwMsgConfirms
import BdkFreertos.TftpStore
import BdkFreertos.TftpClient
import BdkFreertos.SpiSlave
import BdkFreertos.Airkiss
import BdkFreertos.AirkissScan
import BdkFreertos.AirkissPingpong
import BdkFreertos.SaradcIntf
import BdkFreertos.LsigMonitor
import BdkFreertos.Sdio
import BdkFreertos.SdioNodes
import BdkFreertos.SdioDma
import BdkFreertos.Sdcard
import BdkFreertos.SpiMaster
import BdkFreertos.SpiMasterBytes
import BdkFreertos.SpiMasterTransfers
import BdkFreertos.BleRf
import BdkFreertos.ByteFields
import BdkFreertos.Pwm
import BdkFreertos.DoublyList
import BdkFreertos.Intc
import BdkFreertos.FakeSocket
import BdkFreertos.HapdIntf
import BdkFreertos.UsbDc
import BdkFreertos.BleConnections
import BdkFreertos.BleApp
import BdkFreertos.BleActivities
import BdkFreertos.BleCommands
import BdkFreertos.BleCallbacks
import BdkFreertos.UsbCharge
import BdkFreertos.SpiFlash
import BdkFreertos.BkTimer
import BdkFreertos.SdcardRead
import BdkFreertos.BusyCount
import BdkFreertos.PwmUart
import BdkFreertos.FuelLoop
import BdkFreertos.HostScan
import BdkFreertos.HostCommands
import BdkFreertos.MsduOwners
import BdkFreertos.HapdSockets
import BdkFreertos.L2Packet
import BdkFreertos.L2PacketRuns
import BdkFreertos.BleProgress
import BdkFreertos.BleProgressRuns
import BdkFreertos.DoubleRead
import BdkFreertos.Calendar
import BdkFreertos.SocketWakeup
import BdkFreertos.MsduCount
import BdkFreertos.ProfileTable
import BdkFreertos.Sdp
import BdkFreertos.SdpExtract
import BdkFreertos.SdpTables
import BdkFreertos.I2s
import BdkFreertos.Spidma
import BdkFreertos.I2c1
import BdkFreertos.StatusRegister
import BdkFreertos.PwmIsr
import BdkFreertos.FlashDriver
import BdkFreertos.FlashErase
import BdkFreertos.ManualSleep
import BdkFreertos.BkAwareReads
import BdkFreertos.SortedTable
import BdkFreertos.ConvUtf8
import BdkFreertos.Gb2312RoundTrip
import BdkFreertos.CliInput
import BdkFreertos.I2c2
import BdkFreertos.DhcpResponse
import BdkFreertos.MaskedCounter
import BdkFreertos.DhcpSearch
import BdkFreertos.DhcpReads
import BdkFreertos.DhcpResidue
import BdkFreertos.FakeClockBulk
import BdkFreertos.PowerSaveSleepTime
import BdkFreertos.NetParamScan
import BdkFreertos.LinearScan
import BdkFreertos.StationLookup
import BdkFreertos.AtBounds
import BdkFreertos.AppendPrint
import BdkFreertos.AtHelp
import BdkFreertos.MultiButton
import BdkFreertos.GhostFat
