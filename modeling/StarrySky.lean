import StarrySky.Base.Bytes
import StarrySky.Base.Ringbuf
import StarrySky.Base.Cobs
import StarrySky.Base.Delimited
import StarrySky.Base.FrameMux
import StarrySky.Base.Varint
import StarrySky.Link.Frame
import StarrySky.Link.FrameLemmas
import StarrySky.Link.Parser
import StarrySky.Bridge.Link
import StarrySky.Bridge.LinkLemmas
import StarrySky.Bridge.C2m
import StarrySky.Bridge.C2mFilter
import StarrySky.Bridge.Session
import StarrySky.Firmware.LinkSession
import StarrySky.Firmware.LinkTx
import StarrySky.Firmware.Main
import StarrySky.Firmware.Framing
import StarrySky.System.M2cSequence
import StarrySky.Base.StopAndWait
import StarrySky.Firmware.DataC2m
import StarrySky.Bridge.Handshake
import StarrySky.System.C2mLink
import StarrySky.System.C2mFlow
import StarrySky.System.C2mReset
import StarrySky.Core.Varint
import StarrySky.Core.Packet
import StarrySky.Core.TxRing
import StarrySky.Core.Commands
import StarrySky.Core.World
import StarrySky.Core.Server
import StarrySky.Core.ServerSteps
import StarrySky.Core.ServerInvariant
import StarrySky.Core.ClientStream
import StarrySky.Core.PlaySession
import StarrySky.Base.Checked
import StarrySky.Link.CheckedDecode
import StarrySky.Bridge.CheckedDecode
import StarrySky.Link.ParserStream
import StarrySky.System.LinkCodec
import StarrySky.Firmware.M2cPayload
import StarrySky.Firmware.ReadBoundary
import StarrySky.Bridge.C2mReads
import StarrySky.Core.Framing
import StarrySky.System.FrameBoundary
import StarrySky.Core.StreamCut
import StarrySky.Core.ReceiveCalls
import StarrySky.Core.EarlyReject
import StarrySky.Core.Handshake
import StarrySky.Core.LoginStart
import StarrySky.Base.JsonString
import StarrySky.Core.PlayPacket
import StarrySky.Core.ChatJson
import StarrySky.Core.ChatAccepted
import StarrySky.Core.KeepAlive
import StarrySky.Core.PacketWrap
import StarrySky.Bridge.SenderInvariant
import StarrySky.Firmware.AtomicAccept
import StarrySky.Core.Accumulator
import StarrySky.Base.Crc
import StarrySky.System.ErrorDetection
import StarrySky.Base.Ieee
import StarrySky.Base.Overflow
import StarrySky.Base.Rounding
import StarrySky.Core.Fixed2
import StarrySky.Core.DecimalToken
import StarrySky.Core.DecimalValue
import StarrySky.Core.CheckedParse
import StarrySky.Core.CoordinateAccuracy
import StarrySky.Core.CoordinateOrder
import StarrySky.Core.CommandGrammar
import StarrySky.System.VarintCodec
import StarrySky.Firmware.PlatformCompat
import StarrySky.Base.Simulation
import StarrySky.Core.RingbufStorage
import StarrySky.Base.PngFilter
import StarrySky.Scripts.PngScanlines
import StarrySky.Base.Blocks
import StarrySky.Core.ChunkBody
import StarrySky.Scripts.ChunkBody
import StarrySky.Firmware.ActivityLed
import StarrySky.Core.CompressedWorld
import StarrySky.Core.DuePacket
import StarrySky.Bridge.Rate
import StarrySky.Bridge.RateRun
import StarrySky.Bridge.Retransmit
import StarrySky.Core.ShownPosition
import StarrySky.System.Negotiation
import StarrySky.System.PartialWrite
import StarrySky.Base.CompareExchange
import StarrySky.Bridge.ResetSeq
import StarrySky.Bridge.SerialIo
import StarrySky.Bridge.SerialDrain
import StarrySky.System.M2cDelivery
import StarrySky.Core.TxReset
import StarrySky.Bridge.RateProbe
import StarrySky.System.RateEcho
import StarrySky.Linux.Server
import StarrySky.System.FirmwareServer
import StarrySky.Bridge.LinkClient
import StarrySky.Bridge.ClientBytes
import StarrySky.Scripts.PngFile
import StarrySky.Bridge.WaitReady
import StarrySky.System.WaitReady
import StarrySky.Scripts.Showcase
