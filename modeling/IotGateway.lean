import IotGateway.Framing
import IotGateway.ShortReads
import IotGateway.Acceptance
import IotGateway.Setup
import IotGateway.BodyAccess
import IotGateway.SlaveTable
import IotGateway.Translation
import IotGateway.Library.Runs
import IotGateway.Library.WaitQueue
import IotGateway.System
import IotGateway.Quiescence
import IotGateway.WrittenFrames
import IotGateway.Handshake
import IotGateway.ActuatorSymmetry
import IotGateway.Corruption
import IotGateway.ErrorCodes
import IotGateway.OwnTopics
import IotGateway.Rejection
import IotGateway.ShortBodies
import IotGateway.Temperature
import IotGateway.Broker
import IotGateway.Builds
import IotGateway.Library.IntervalTimer
import IotGateway.RequestHistory
import IotGateway.Timers
import IotGateway.AuditLog
import IotGateway.Library.PacedHistories
import IotGateway.Notifications
import IotGateway.PollingAlarm
import IotGateway.Progress
import IotGateway.Resynchronisation
import IotGateway.SerialDriver
import IotGateway.TopicMatching
import IotGateway.Uninterrupted
import IotGateway.JsonDepth
import IotGateway.JsonDocument
import IotGateway.JsonNumbers
import IotGateway.JsonParsing
import IotGateway.JsonPrinting
import IotGateway.MessageText
import IotGateway.ConnectedLoop
import IotGateway.PublishedTopics
import IotGateway.RequestDelivery
import IotGateway.PublicationDelivery
