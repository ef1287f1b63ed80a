import Iec104Slave.Lib.Run
import Iec104Slave.Lib.Keyed
import Iec104Slave.Basic
import Iec104Slave.PointTable
import Iec104Slave.RemoteControl
import Iec104Slave.RemoteAdjust
import Iec104Slave.Lib.Ring
import Iec104Slave.ClientContext
import Iec104Slave.WorkQueue
import Iec104Slave.Session
import Iec104Slave.Lib.SlotTable
import Iec104Slave.ActiveUpload
import Iec104Slave.UploadConsumer
import Iec104Slave.AsduBuilder
import Iec104Slave.Lib.Batch
import Iec104Slave.UploadWorker
import Iec104Slave.UploadScan
import Iec104Slave.ChangeDetection
import Iec104Slave.ReportInterleaving
import Iec104Slave.SoeHandOver
import Iec104Slave.CustomAsdu
import Iec104Slave.CustomWords
import Iec104Slave.Interrogation
import Iec104Slave.ScaledValue
import Iec104Slave.HistoryCall
import Iec104Slave.CustomCall
import Iec104Slave.ClientSlots
import Iec104Slave.RequestHandlers
import Iec104Slave.HistoryWriter
import Iec104Slave.SoeQuery
import Iec104Slave.SoeOrder
import Iec104Slave.HistoryPaging
import Iec104Slave.CounterFreeze
import Iec104Slave.SetpointFrame
import Iec104Slave.CommandCoverage
import Iec104Slave.Lib.Tally
import Iec104Slave.RwLock
import Iec104Slave.WakeUp
import Iec104Slave.DiagServer
import Iec104Slave.Lib.Printf
import Iec104Slave.DiagListing
import Iec104Slave.CommandHandler
import Iec104Slave.AddressPlan
import Iec104Slave.DiagCommands
import Iec104Slave.Json5
import Iec104Slave.Lib.JsonUnique
import Iec104Slave.Json5Strict
import Iec104Slave.Lib.CBuffer
import Iec104Slave.Json5Buffers
import Iec104Slave.Lib.Traced
import Iec104Slave.HistoryConnection
import Iec104Slave.ConfigLoad
import Iec104Slave.Lib.Retention
import Iec104Slave.LogRotation
import Iec104Slave.Lib.Records
import Iec104Slave.PriorityQueue
import Iec104Slave.Lib.SlidingWindow
import Iec104Slave.SendWindow
import Iec104Slave.Apci
import Iec104Slave.FrameReceiver
import Iec104Slave.MasterConnection
import Iec104Slave.RedundancyGroup
import Iec104Slave.ConnectionTimers
import Iec104Slave.Lib.Calendar
import Iec104Slave.Cp56Time
import Iec104Slave.AsduDispatch
import Iec104Slave.ServerLifecycle
import Iec104Slave.Lib.Semaphores
import Iec104Slave.SlaveLocks
