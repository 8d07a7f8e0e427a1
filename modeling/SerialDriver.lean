import SerialDriver.Lib.Circular
import SerialDriver.Lib.Delimited
import SerialDriver.Lib.Blocks
import SerialDriver.Lib.Footprint
import SerialDriver.Lib.DeviceMemory
import SerialDriver.Lib.Incremental
import SerialDriver.Lib.Stuffing
import SerialDriver.Lib.BoundedFifo
import SerialDriver.Lib.CheckedBuffer
import SerialDriver.Lib.Noninterference
import SerialDriver.Basic
import SerialDriver.RingBuffer
import SerialDriver.Codec
import SerialDriver.Mmio
import SerialDriver.CodecProof
import SerialDriver.RingBufferProof
import SerialDriver.RingRefinement
import SerialDriver.Ring
import SerialDriver.Framing
import SerialDriver.Stream
import SerialDriver.LineScan
import SerialDriver.Driver
import SerialDriver.Helpers
import SerialDriver.Calls
import SerialDriver.Staging
import SerialDriver.ReceivePass
import SerialDriver.Invariant
import SerialDriver.PortEffects
import SerialDriver.ModeledReceive
import SerialDriver.ModeledTransmit
import SerialDriver.HardwareReceive
import SerialDriver.HardwareTransmit
import SerialDriver.MalformedFrames
import SerialDriver.Readiness
import SerialDriver.Wedge
import SerialDriver.Resync
import SerialDriver.Acceptance
import SerialDriver.Guards
import SerialDriver.Isolation
import SerialDriver.Sameness
import SerialDriver.FreshStart
import SerialDriver.Independence
import SerialDriver.FrameTransfer
import SerialDriver.BulkTransfer
import SerialDriver.TransferNext
import SerialDriver.NearlyFull
import SerialDriver.SmallBuffer
import SerialDriver.FrameScans
import SerialDriver.PollPacing
import SerialDriver.FifoWindow
import SerialDriver.CheckedFraming
import SerialDriver.CheckedTransfer
import SerialDriver.BufferBounds
import SerialDriver.Lib.Pipe
import SerialDriver.Service
import SerialDriver.Network
import SerialDriver.LinkDelivery
import SerialDriver.Abstraction
import SerialDriver.Configuration
import SerialDriver.Signals
import SerialDriver.TrafficIndependence
import SerialDriver.CallerBuffers
import SerialDriver.WireFormat
import SerialDriver.HardwareRefinement
import SerialDriver.Lib.Machine
import SerialDriver.QueueMachine
import SerialDriver.QueueRefinement
import SerialDriver.DecoderAgreement
import SerialDriver.Lib.Backlog
import SerialDriver.TransmitPacing
import SerialDriver.CleanLine
import SerialDriver.Announcement
import SerialDriver.OutOfStep
import SerialDriver.GhsInterface
import SerialDriver.ApplicationLink
