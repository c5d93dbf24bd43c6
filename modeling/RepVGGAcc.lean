import RepVGGAcc.Clocked.Trace
import RepVGGAcc.Clocked.Counter
import RepVGGAcc.Clocked.ShiftLine
import RepVGGAcc.Clocked.PairSum
import RepVGGAcc.Clocked.Arbiter
import RepVGGAcc.Clocked.Channel
import RepVGGAcc.Clocked.Progress
import RepVGGAcc.Clocked.Ring
import RepVGGAcc.Rtl.GnrlModules
import RepVGGAcc.Rtl.MacArrayFsm
import RepVGGAcc.Rtl.MainFsm
import RepVGGAcc.Rtl.IcbMaster
import RepVGGAcc.Rtl.IcbSlave
import RepVGGAcc.Rtl.ImapBuf
import RepVGGAcc.Rtl.MacArrayWlu
import RepVGGAcc.Rtl.SystolicArray
import RepVGGAcc.Rtl.MacArray
import RepVGGAcc.Rtl.PsumAcc
import RepVGGAcc.Rtl.RepvggAccTop
import RepVGGAcc.MainFsm.Pulses
import RepVGGAcc.MainFsm.StartCommand
import RepVGGAcc.MacArray.Window
import RepVGGAcc.MacArray.LaneWindow
import RepVGGAcc.MacArray.Pipeline
import RepVGGAcc.MacArray.Identity
import RepVGGAcc.MacArray.Items
import RepVGGAcc.MacArray.Feed
import RepVGGAcc.MacArray.Weights
import RepVGGAcc.MacArray.Stalls
import RepVGGAcc.MacArray.Stream
import RepVGGAcc.Bus.Commands
import RepVGGAcc.Bus.Responses
import RepVGGAcc.PsumAcc.Flow
import RepVGGAcc.PsumAcc.Writeback
import RepVGGAcc.Load.ImapBuffer
import RepVGGAcc.Load.ImapLoad
import RepVGGAcc.Load.FlatMemory
import RepVGGAcc.Load.WeightPort
import RepVGGAcc.Load.WeightBanks
import RepVGGAcc.Load.BankToggle
import RepVGGAcc.Load.WeightTiles
import RepVGGAcc.Load.WeightWords
import RepVGGAcc.Load.Lanes
import RepVGGAcc.Control.Bursts
import RepVGGAcc.Control.Skeleton
import RepVGGAcc.Control.Phases
import RepVGGAcc.Control.Timeline
import RepVGGAcc.Control.Fetches
import RepVGGAcc.Control.FirstRun
import RepVGGAcc.System.Memory
import RepVGGAcc.System.Program
import RepVGGAcc.System.Coverage
import RepVGGAcc.System.PingPong
import RepVGGAcc.System.Completion
import RepVGGAcc.System.OutputPath
import RepVGGAcc.System.Correctness
import RepVGGAcc.System.Convolution
import RepVGGAcc.System.Layout
import RepVGGAcc.System.Delivery
import RepVGGAcc.System.Exclusion
import RepVGGAcc.Control.MapFetch
import RepVGGAcc.Driver.AccCfg
import RepVGGAcc.Driver.Processor
import RepVGGAcc.Driver.Rounds
import RepVGGAcc.Driver.Completion
import RepVGGAcc.Layer.Merge
import RepVGGAcc.Layer.Operands
import RepVGGAcc.Clocked.Signed
import RepVGGAcc.Clocked.Exact
import RepVGGAcc.Layer.Exact
import RepVGGAcc.MacArrayFsm.Scan
import RepVGGAcc.MacArrayFsm.Schedule
import RepVGGAcc.MacArrayFsm.Restart
import RepVGGAcc.MacArrayFsm.Handover
import RepVGGAcc.MacArrayFsm.BorderMask
import RepVGGAcc.Bus.Routing
import RepVGGAcc.Bus.FetchEngine
import RepVGGAcc.Bus.FetchBursts
import RepVGGAcc.Loop.ForRange
import RepVGGAcc.Driver.CheckResult
import RepVGGAcc.Testbench.RefModel
import RepVGGAcc.Fabric.LayerOnSram
import RepVGGAcc.System.Repeats
import RepVGGAcc.System.Traffic
import RepVGGAcc.Fabric.CoreAccess
import RepVGGAcc.Testbench.Verdict
import RepVGGAcc.Fabric.RegisterPath
