import ProjectOwl.Lib.MaximalRuns
import ProjectOwl.Lib.RecordStream
import ProjectOwl.Lib.StreamOffsets
import ProjectOwl.Lib.PrefixReader
import ProjectOwl.Lib.Machine
import ProjectOwl.Lib.Proc
import ProjectOwl.Lib.Block
import ProjectOwl.Lib.Pool
import ProjectOwl.Lib.Chain
import ProjectOwl.Lib.Wave
import ProjectOwl.Lib.Dbl
import ProjectOwl.Lib.Round
import ProjectOwl.Lib.Remainder
import ProjectOwl.Bytes
import ProjectOwl.Radio.Parser
import ProjectOwl.Radio.Grammar
import ProjectOwl.Radio.CharSign
import ProjectOwl.Radio.Transmit
import ProjectOwl.Radio.Reencode
import ProjectOwl.Tcp
import ProjectOwl.Radio.Receive
import ProjectOwl.Radio.PartialBuffer
import ProjectOwl.Radio.ReceiveLoop
import ProjectOwl.StringLink
import ProjectOwl.Esp.WebServer
import ProjectOwl.Esp.Camera
import ProjectOwl.Esp.CameraBuffers
import ProjectOwl.Esp.StreamFraming
import ProjectOwl.Esp.Record
import ProjectOwl.Beagle.Connection
import ProjectOwl.Beagle.ImuBus
import ProjectOwl.Beagle.Pwm
import ProjectOwl.Beagle.PwmNumbers
import ProjectOwl.Beagle.PwmDevice
import ProjectOwl.Beagle.PwmLedger
import ProjectOwl.Beagle.PwmRuns
import ProjectOwl.Beagle.PwmSettings
import ProjectOwl.Beagle.PwmRequests
import ProjectOwl.Beagle.Gpio
import ProjectOwl.Beagle.GpioLedger
import ProjectOwl.Beagle.GpioWatch
import ProjectOwl.Beagle.GpioCalls
import ProjectOwl.Beagle.GpioRuns
import ProjectOwl.Beagle.GpioRemoval
import ProjectOwl.Beagle.GpioStill
import ProjectOwl.Beagle.GpioCleanup
import ProjectOwl.Beagle.GpioValues
import ProjectOwl.Beagle.Servo
import ProjectOwl.Beagle.ServoLedger
import ProjectOwl.Beagle.ServoAngle
import ProjectOwl.Beagle.PruMeasure
import ProjectOwl.Beagle.World
import ProjectOwl.Beagle.Bno055
import ProjectOwl.Beagle.Bno055Runs
import ProjectOwl.Beagle.SelfRight
import ProjectOwl.Beagle.ServoDuty
import ProjectOwl.Beagle.SelfRightReadings
import ProjectOwl.Beagle.ServoPwm
import ProjectOwl.Beagle.Ramp
import ProjectOwl.Beagle.Rotate
import ProjectOwl.Beagle.RotateLatch
import ProjectOwl.Beagle.Swivel
import ProjectOwl.Beagle.Steering
import ProjectOwl.Beagle.OutputMirror
import ProjectOwl.Beagle.Slew
import ProjectOwl.Beagle.OwlMain
