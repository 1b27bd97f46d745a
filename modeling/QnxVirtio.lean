import QnxVirtio.Virtq.Conservation
import QnxVirtio.Virtq.RingOverrun
import QnxVirtio.Virtq.ChainRoundTrip
import QnxVirtio.Virtq.CreateFailures
import QnxVirtio.Gpio.Routing
import QnxVirtio.FifoQueue
import QnxVirtio.Resmgr.Lines
import QnxVirtio.Resmgr.Reads
import QnxVirtio.Virtio.DeviceConfig
import QnxVirtio.Virtio.DriverOk
import QnxVirtio.Virtio.QueueSize
import QnxVirtio.Virtio.LegacyRings
import QnxVirtio.Virtio.QueueSelect
import QnxVirtio.Gpio.Chains
import QnxVirtio.Gpio.ChainSteps
import QnxVirtio.Gpio.ChainClient
import QnxVirtio.Virtio.QueueReset
import QnxVirtio.Virtio.DeviceReset
import QnxVirtio.Virtq.ChainLoop
import QnxVirtio.Virtio.Notify
import QnxVirtio.Virtio.PciRegions
import QnxVirtio.Resmgr.Startup
import QnxVirtio.Gpio.Bears
import QnxVirtio.Gpio.Untouched
import QnxVirtio.Gpio.Acknowledge
import QnxVirtio.Gpio.Lines
import QnxVirtio.Gpio.Allocations
import QnxVirtio.Resmgr.LineInfo
import QnxVirtio.Resmgr.LineMap
import QnxVirtio.Resmgr.Dispatch
import QnxVirtio.Virtq.Unwind
import QnxVirtio.Gpio.Submit
import QnxVirtio.Virtio.CreateQueue
import QnxVirtio.Gpio.ChainIst
import QnxVirtio.Gpio.ChainRuns
import QnxVirtio.Foundation.Logged
import QnxVirtio.FifoStorage
import QnxVirtio.Gpio.Options
import QnxVirtio.Gpio.UsedRing
import QnxVirtio.Gpio.UsedRingRuns
import QnxVirtio.FifoLocked
import QnxVirtio.Virtio.DeviceLock
import QnxVirtio.Gpio.Linearize
import QnxVirtio.Gpio.Progress
import QnxVirtio.Virtq.Lifetimes
import QnxVirtio.Gpio.Dma
import QnxVirtio.Gpio.Completion
import QnxVirtio.Virtio.Features
