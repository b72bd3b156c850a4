import KaizenStation.Firmware.CommandParser
import KaizenStation.Foundation.Outbox
import KaizenStation.Firmware.OfflineEventStoreTheorems
import KaizenStation.Firmware.Application
import KaizenStation.Firmware.ApplicationTheorems
import KaizenStation.Foundation.Json
import KaizenStation.Foundation.JsonTheorems
import KaizenStation.Firmware.MessageSerializerTheorems
import KaizenStation.Firmware.DeliveryTheorems
import KaizenStation.Firmware.CapacityTheorems
import KaizenStation.Firmware.Drivers
import KaizenStation.Foundation.LastWriter
import KaizenStation.Firmware.Station
import KaizenStation.Firmware.DriverTheorems
import KaizenStation.Firmware.StationTheorems
import KaizenStation.Firmware.BackPressureTheorems
import KaizenStation.Backend.Protocol
import KaizenStation.Backend.ProtocolTheorems
import KaizenStation.Backend.Service
import KaizenStation.Backend.ServiceTheorems
import KaizenStation.Firmware.StationRunTheorems
import KaizenStation.EndToEnd.Wire
import KaizenStation.Firmware.TimestampTheorems
import KaizenStation.EndToEnd.Uptime
import KaizenStation.EndToEnd.Coalescing
import KaizenStation.Foundation.Stutter
import KaizenStation.Firmware.SourceTheorems
import KaizenStation.EndToEnd.Convergence
import KaizenStation.EndToEnd.Commands
import KaizenStation.Firmware.MqttManager
import KaizenStation.Foundation.Invariant
import KaizenStation.Firmware.MqttManagerTheorems
import KaizenStation.Firmware.WifiManagerTheorems
import KaizenStation.Firmware.WifiDisconnectTheorems
import KaizenStation.EndToEnd.CommandDelivery
import KaizenStation.Firmware.RecoveryTheorems
import KaizenStation.Firmware.FlushTheorems
import KaizenStation.Foundation.Cadence
import KaizenStation.Foundation.Window
import KaizenStation.Foundation.Reporter
import KaizenStation.Foundation.Walk
import KaizenStation.Firmware.Polling
import KaizenStation.Firmware.DebounceTheorems
import KaizenStation.Firmware.QuadratureTheorems
import KaizenStation.Firmware.DeadbandTheorems
import KaizenStation.Firmware.HeartbeatTheorems
import KaizenStation.Firmware.IndependenceTheorems
import KaizenStation.Foundation.Keyed
import KaizenStation.Backend.IsolationTheorems
import KaizenStation.EndToEnd.Redelivery
import KaizenStation.Foundation.Relay
import KaizenStation.EndToEnd.OutputAgreement
import KaizenStation.Backend.Codec
import KaizenStation.Foundation.Dumps
import KaizenStation.Backend.Demo
import KaizenStation.Firmware.RetryTheorems
import KaizenStation.EndToEnd.Simulation
import KaizenStation.Foundation.RetryBuffer
import KaizenStation.EndToEnd.Fleet
import KaizenStation.EndToEnd.Floor
import KaizenStation.EndToEnd.Integrity
import KaizenStation.EndToEnd.ClosedLoop
import KaizenStation.EndToEnd.Outage
import KaizenStation.Foundation.Pairing
import KaizenStation.EndToEnd.Bench
import KaizenStation.Firmware.QueueTheorems
import KaizenStation.Firmware.InputManager
import KaizenStation.Firmware.InputTaskTheorems
