import Recirculador.Board
import Recirculador.Bus.Acknowledge
import Recirculador.Bus.BaudRate
import Recirculador.Bus.Bounded
import Recirculador.Bus.Driver
import Recirculador.Bus.Endless
import Recirculador.Bus.Events
import Recirculador.Bus.Frame
import Recirculador.Bus.Reader
import Recirculador.Bus.Release
import Recirculador.Change.Announce
import Recirculador.Change.Pending
import Recirculador.Change.Refresh
import Recirculador.Change.Tasks
import Recirculador.Checksum
import Recirculador.Checksum.Bitwise
import Recirculador.Checksum.Distance
import Recirculador.Common.BitCrc
import Recirculador.Common.ByteMemory
import Recirculador.Common.CheckedInt
import Recirculador.Common.CrcDistance
import Recirculador.Common.Gregorian
import Recirculador.Common.Hysteresis
import Recirculador.Common.Interpolation
import Recirculador.Common.Peel
import Recirculador.Common.PointWrites
import Recirculador.Common.Ring
import Recirculador.Common.Run
import Recirculador.Common.TableCrc
import Recirculador.Firmware
import Recirculador.Flash.Begin
import Recirculador.Flash.Eeprom
import Recirculador.Flash.Iap
import Recirculador.Flash.Life
import Recirculador.Flash.Staging
import Recirculador.Gpio
import Recirculador.Gpio.Direction
import Recirculador.Interrupt
import Recirculador.Message.Answer
import Recirculador.Message.Budget
import Recirculador.Message.Exclusion
import Recirculador.Message.Failure
import Recirculador.Message.Fifo
import Recirculador.Message.Latency
import Recirculador.Message.Loop
import Recirculador.Message.Match
import Recirculador.Message.Order
import Recirculador.Message.Paced
import Recirculador.Message.Payload
import Recirculador.Message.Preemption
import Recirculador.Message.Queue
import Recirculador.Message.Reply
import Recirculador.Message.ReplyBuffer
import Recirculador.Message.Request
import Recirculador.Message.Served
import Recirculador.Message.Transmission
import Recirculador.Message.Watchdog
import Recirculador.Pump.Attribution
import Recirculador.Pump.Clobber
import Recirculador.Pump.Control
import Recirculador.Pump.Errors
import Recirculador.Pump.Guard
import Recirculador.Pump.Hysteresis
import Recirculador.Pump.Request
import Recirculador.Registers.Dispatch
import Recirculador.Registers.Refinement
import Recirculador.Registers.Scalar
import Recirculador.Registers.Store
import Recirculador.Registers.Vector
import Recirculador.Rtc.Calendar
import Recirculador.Rtc.Clock
import Recirculador.Rtc.Decode
import Recirculador.Rtc.Epoch
import Recirculador.Rtc.RateLimit
import Recirculador.Rtc.Received
import Recirculador.Rtc.RoundTrip
import Recirculador.Scheduling
import Recirculador.Sensor.Accuracy
import Recirculador.Sensor.Adc
import Recirculador.Sensor.Celsius
import Recirculador.Sensor.Current
import Recirculador.Sensor.Flow
import Recirculador.Sensor.Means
import Recirculador.Sensor.Opened
import Recirculador.Sensor.Thermistor
import Recirculador.Task.Drift
import Recirculador.Task.Preempted
import Recirculador.Task.Rate
import Recirculador.Task.Register
import Recirculador.Task.Scheduler
import Recirculador.Task.Starvation
import Recirculador.Weekday
