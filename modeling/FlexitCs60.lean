import FlexitCs60.Slave.Chunking
import FlexitCs60.Slave.Boot
import FlexitCs60.Slave.Window
import FlexitCs60.Slave.Agreement
import FlexitCs60.Mirror.Chunking
import FlexitCs60.Mirror.Eviction
import FlexitCs60.Mirror.Blocks
import FlexitCs60.Device.Clients
import FlexitCs60.Client.Setpoint
import FlexitCs60.Client.Matching
import FlexitCs60.Client.Reassembly
import FlexitCs60.Client.LinkFit
import FlexitCs60.Client.Confirm
import FlexitCs60.Client.StateText
import FlexitCs60.Uart.Completion
import FlexitCs60.Uart.Forwarding
import FlexitCs60.Uart.Feeds
import FlexitCs60.Ble.Mode
import FlexitCs60.Zigbee.Hold
import FlexitCs60.Zigbee.RadioYield
import FlexitCs60.Zigbee.Stale
import FlexitCs60.Gateway.Channels
import FlexitCs60.Bridge.Supply
import FlexitCs60.Capture.Burst
import FlexitCs60.Capture.Sound
import FlexitCs60.Uart.Receive
import FlexitCs60.Uart.Drain
import FlexitCs60.Zigbee.FactoryReset
import FlexitCs60.StatusLeds
import FlexitCs60.Bridge.Controls
import FlexitCs60.Client.StreamFile
import FlexitCs60.Capture.Told
import FlexitCs60.Capture.Answers
import FlexitCs60.Client.Commands
import FlexitCs60.Client.Flash
import FlexitCs60.Ble.Link
