import OpenSpc.ByteMask
import OpenSpc.Narrow
import OpenSpc.DspState
import OpenSpc.AdvanceEnvelope
import OpenSpc.BrrDecode
import OpenSpc.DspUpdate
import OpenSpc.VoiceCell
import OpenSpc.VoicePass
import OpenSpc.DspStep
import OpenSpc.VoiceIsolation
import OpenSpc.VoiceMix
import OpenSpc.InterferedRun
import OpenSpc.Countdown
import OpenSpc.BrrLoop
import OpenSpc.DspRun
import OpenSpc.DspInvariant
import OpenSpc.RecentRing
import OpenSpc.BrrStream
import OpenSpc.VoiceStream
import OpenSpc.KeyProtocol
import OpenSpc.EndxBit
import OpenSpc.EnvelopeStages
import OpenSpc.KeyedOff
import OpenSpc.ReloadCounter
import OpenSpc.EnvelopeRamp
import OpenSpc.BrrPlayback
import OpenSpc.EchoCongr
import OpenSpc.ForgetStart
import OpenSpc.ForgetUpdate
import OpenSpc.RamBounds
import OpenSpc.EnvxMirror
import OpenSpc.RingPointer
import OpenSpc.EchoRing
import OpenSpc.UpdateFrame
import OpenSpc.EchoFilter
import OpenSpc.Resampler
import OpenSpc.SpcCpu
import OpenSpc.SpcContext
import OpenSpc.TwoRuns
import OpenSpc.PeriodicTicks
import OpenSpc.RunLockstep
import OpenSpc.RunLimits
import OpenSpc.EchoClear
import OpenSpc.ForgetHistory
import OpenSpc.ShiftRegister
import OpenSpc.NoisePeriod
import OpenSpc.Muting
import OpenSpc.MixerInvariant
import OpenSpc.MixerRange
import OpenSpc.Returns
import OpenSpc.SpcTimer
import OpenSpc.TickCounter
import OpenSpc.TimerTicks
import OpenSpc.SpcBus
import OpenSpc.TimerSafety
import OpenSpc.CpuRegs
import OpenSpc.CpuOps
import OpenSpc.Opcodes
import OpenSpc.ExecuteSpc
import OpenSpc.Outcomes
import OpenSpc.Budget
import OpenSpc.ClockShift
import OpenSpc.CycleStep
import OpenSpc.SpcStart
import OpenSpc.CoreSafety
import OpenSpc.HostSession
import OpenSpc.CoreLibrary
import OpenSpc.CoreOnBus
import OpenSpc.DigitChain
import OpenSpc.CpuArith
import OpenSpc.Doubling
import OpenSpc.Division
import OpenSpc.PlainCore
import OpenSpc.PlainOps
import OpenSpc.BootRom
import OpenSpc.BootLoops
import OpenSpc.Handshake
import OpenSpc.BootSession
import OpenSpc.BootReceiver
import OpenSpc.BootTransfer
import OpenSpc.BootUpload
import OpenSpc.BootLibrary
import OpenSpc.Temporaries
import OpenSpc.SeenOps
import OpenSpc.WrittenFirst
import OpenSpc.TwinStep
import OpenSpc.SavedState
