import Libhoth.Examples.AttestationFile
import Libhoth.Examples.ConnectTimeout
import Libhoth.Examples.ConsoleSession
import Libhoth.Examples.ConsoleSnapshot
import Libhoth.Examples.HexDecoders
import Libhoth.Examples.HtoolArguments
import Libhoth.Examples.HtoolFlags
import Libhoth.Examples.HtoolI2c
import Libhoth.Examples.HtoolI2cWrite
import Libhoth.Examples.HtoolNumbers
import Libhoth.Examples.HtoolNumbers64
import Libhoth.Examples.HtoolPayloadRead
import Libhoth.Examples.HtoolSpi
import Libhoth.Examples.KeyRotationRecord
import Libhoth.Examples.PayloadMauv
import Libhoth.Examples.RawHostCommandInput
import Libhoth.Examples.RawHostCommandStream
import Libhoth.Examples.SecurityV2Parsers
import Libhoth.Examples.SecurityV2Requests
import Libhoth.Examples.UsbLocation
import Libhoth.Foundation.AdvisoryLock
import Libhoth.Foundation.AtomicCalls
import Libhoth.Foundation.DecimalText
import Libhoth.Foundation.ExclusiveOr
import Libhoth.Foundation.FrameStream
import Libhoth.Foundation.HexText
import Libhoth.Foundation.InterleavedClients
import Libhoth.Foundation.OwnedBlocks
import Libhoth.Foundation.RecordedRuns
import Libhoth.Foundation.SaturatingBackoff
import Libhoth.Foundation.SingleSlot
import Libhoth.Foundation.SpiNorFlash
import Libhoth.Foundation.TokenText
import Libhoth.Protocol.CommandService
import Libhoth.Protocol.ConsoleRead
import Libhoth.Protocol.ConsoleWrite
import Libhoth.Protocol.DfuConvergence
import Libhoth.Protocol.DfuSession
import Libhoth.Protocol.ForceWrite
import Libhoth.Protocol.I2c
import Libhoth.Protocol.KeyRotationChunk
import Libhoth.Protocol.KeyRotationRead
import Libhoth.Protocol.KeyRotationSafety
import Libhoth.Protocol.KeyRotationUpdate
import Libhoth.Protocol.Mauv
import Libhoth.Protocol.OpentitanBundle
import Libhoth.Protocol.PanicConsole
import Libhoth.Protocol.PayloadInfoContents
import Libhoth.Protocol.PayloadStagingStore
import Libhoth.Protocol.PayloadUpdateErase
import Libhoth.Protocol.PayloadUpdateRead
import Libhoth.Protocol.ProvisioningLogRead
import Libhoth.Protocol.SpiOperationRoundTrip
import Libhoth.Protocol.SpiProxyChip
import Libhoth.Protocol.SpiProxyRead
import Libhoth.Protocol.SpiProxyTop
import Libhoth.Transports.ClaimDevice
import Libhoth.Transports.DbusDevice
import Libhoth.Transports.DeviceFiles
import Libhoth.Transports.DeviceLocking
import Libhoth.Transports.DeviceOpen
import Libhoth.Transports.MailboxTransports
import Libhoth.Transports.MtdListing
import Libhoth.Transports.RequestBuffers
import Libhoth.Transports.ServiceOverDbus
import Libhoth.Transports.ServiceOverMailbox
import Libhoth.Transports.ServiceOverUsbFifo
import Libhoth.Transports.ServiceOverUsbMailbox
import Libhoth.Transports.UsbFifoOverLibusb
import Libhoth.Transports.UsbFifoPrng
import Libhoth.Transports.UsbFifoRequestIds
import Libhoth.Transports.UsbFifoSession
import Libhoth.Transports.UsbFifoTransfers
import Libhoth.Transports.UsbMailboxReceive
import Libhoth.Transports.UsbMailboxSend
import Libhoth.Transports.UsbReconnect
