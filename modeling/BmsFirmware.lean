import BmsFirmware.Library.CyclicStream
import BmsFirmware.Library.DownCounter
import BmsFirmware.Rtc.PinSample
import BmsFirmware.Rtc.StaleSample
import BmsFirmware.Afe.Polling
import BmsFirmware.Common.Delay
import BmsFirmware.DataProcess.DmaChannel
import BmsFirmware.DataProcess.FrameEffect
import BmsFirmware.DataProcess.GreedyDecoder
import BmsFirmware.DataProcess.RoundTrip
import BmsFirmware.DataProcess.Resync
import BmsFirmware.Drive.BackToIdle
import BmsFirmware.Drive.I2cSteps
import BmsFirmware.Drive.PageRetry
import BmsFirmware.Drive.PageSplit
import BmsFirmware.Drive.PolledRead
import BmsFirmware.Drive.ReportedWrite
import BmsFirmware.Drive.LastByte
import BmsFirmware.Fal.Partitions
import BmsFirmware.Fal.VerifiedPort
import BmsFirmware.Upgrade.Acknowledge
import BmsFirmware.Primary.FullPass
import BmsFirmware.Registers.Checksum
import BmsFirmware.DataProcess.ParserInvariant
import BmsFirmware.Registers.LinkedIndex
import BmsFirmware.Primary.ReadsSeeWrites
import BmsFirmware.Primary.SharedBus
import BmsFirmware.Upgrade.Bank
import BmsFirmware.Upgrade.Bootable
import BmsFirmware.Upgrade.FirmwareCrc
import BmsFirmware.Upgrade.PageWriters
import BmsFirmware.Upgrade.Parameters
import BmsFirmware.Upgrade.PowerFail
import BmsFirmware.Upgrade.Recovery
import BmsFirmware.Upgrade.Restart
import BmsFirmware.DataProcess.DeliveredReply
import BmsFirmware.Fal.WriteOnce
import BmsFirmware.Flashdb.Storage
import BmsFirmware.Flashdb.Tsdb
import BmsFirmware.Library.EarlyExit
import BmsFirmware.Flashdb.SectorLayout
import BmsFirmware.Flashdb.SectorWrites
import BmsFirmware.Flashdb.LogBook
import BmsFirmware.Flashdb.Appending
import BmsFirmware.Flashdb.Chronology
import BmsFirmware.Flashdb.Traversal
import BmsFirmware.Flashdb.Delivery
import BmsFirmware.Flashdb.Period
import BmsFirmware.Flashdb.Mounting
import BmsFirmware.Flashdb.Formatting
import BmsFirmware.Flashdb.PowerCycles
import BmsFirmware.Flashdb.Crc32
