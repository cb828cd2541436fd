import DrbdUtils.Lib.BlockDevice
import DrbdUtils.Lib.PeelMove
import DrbdUtils.Lib.SerialRing
import DrbdUtils.Lib.Tournament
import DrbdUtils.Meta.CreateMd
import DrbdUtils.Meta.Format
import DrbdUtils.Meta.Layout
import DrbdUtils.Meta.LayoutLimits
import DrbdUtils.Meta.ApplyAl
import DrbdUtils.Meta.ApplyAlBatches
import DrbdUtils.Meta.BitmapDump
import DrbdUtils.Meta.Scanner
import DrbdUtils.Meta.BitmapRestore
import DrbdUtils.Meta.Superblock
import DrbdUtils.Meta.Resize
import DrbdUtils.Meta.ActivityLog
import DrbdUtils.Meta.ApplyAlCommand
import DrbdUtils.Meta.AlBounds
import DrbdUtils.Meta.AlReplay
import DrbdUtils.Lib.OrdMap
import DrbdUtils.Lib.LinkedList
import DrbdUtils.DrbdMon.Objects
import DrbdUtils.DrbdMon.ResourceDirectory
import DrbdUtils.DrbdMon.Monitor
import DrbdUtils.DrbdMon.SubProcessQueue
import DrbdUtils.DrbdMon.SubProcessWorkers
import DrbdUtils.Adm.Deferred
import DrbdUtils.Adm.Adjust
import DrbdUtils.Adm.AdjustNet
import DrbdUtils.Adm.AdjustVolumes
import DrbdUtils.Adm.AdjustExact
import DrbdUtils.Adm.NodeId
import DrbdUtils.Verify.VerifyRes
import DrbdUtils.Verify.ResyncSuggestions
import DrbdUtils.Fence.TnfFence
import DrbdUtils.Fence.CrmFence
import DrbdUtils.Lib.KeyedList
import DrbdUtils.Events2.Objects
import DrbdUtils.Events2.Promotion
import DrbdUtils.Events2.PrintChanges
import DrbdUtils.Events2.ApplyEvent
import DrbdUtils.Events2.StoreMap
import DrbdUtils.Events2.Rename
import DrbdUtils.Events2.PrintEvent
import DrbdUtils.Meta.Convert
import DrbdUtils.Meta.CheckResize
import DrbdUtils.Setup.WaitForFamily
import DrbdUtils.Lib.Strtoul
import DrbdUtils.Meta.SetGi
import DrbdUtils.Meta.OpenAsserts
import DrbdUtils.Meta.Commands
import DrbdUtils.Meta.DryRun
import DrbdUtils.Setup.Timeouts
import DrbdUtils.Adm.CompareVolumes
import DrbdUtils.Adm.ProxyReconf
import DrbdUtils.Adm.AdjustPaths
import DrbdUtils.Lib.Flex
import DrbdUtils.Lib.Printer
import DrbdUtils.Lib.Markup
import DrbdUtils.Lib.Json
import DrbdUtils.Adm.DumpXml
import DrbdUtils.Setup.OptionCodec
import DrbdUtils.Adm.OptsEqual
import DrbdUtils.Setup.ShowJson
import DrbdUtils.Adm.Escape
import DrbdUtils.Adm.ValidateKmod
import DrbdUtils.Adm.DiscardNode
import DrbdUtils.Adm.ConnectionMesh
import DrbdUtils.Adm.AddrConflict
import DrbdUtils.Lib.Prog
import DrbdUtils.Adm.Parser
import DrbdUtils.Adm.ParseResource
import DrbdUtils.Adm.ParsedValues
import DrbdUtils.Adm.Truncation
import DrbdUtils.Adm.ShowSections
import DrbdUtils.Adm.ShowText
import DrbdUtils.Adm.UnknownOptions
import DrbdUtils.Lib.Wildcard
import DrbdUtils.DrbdMon.StringMatching
import DrbdUtils.DrbdMon.Navigation
import DrbdUtils.DrbdMon.DisplayUpdate
import DrbdUtils.Lib.BigEndian
import DrbdUtils.DrbdMon.CfgEntryStore
import DrbdUtils.Lib.Lines
import DrbdUtils.DrbdMon.EventLines
import DrbdUtils.DrbdMon.InputDecoder
import DrbdUtils.Adm.StackedVolumes
import DrbdUtils.Adm.ResyncAfter
import DrbdUtils.DrbdMon.TextColumn
import DrbdUtils.DrbdMon.TextLines
import DrbdUtils.Setup.UnitNumbers
import DrbdUtils.Meta.NodeMask
import DrbdUtils.Lib.ShellWords
import DrbdUtils.Adm.ShellEscape
import DrbdUtils.Meta.LkBdev
import DrbdUtils.Lib.LittleEndian
import DrbdUtils.Verify.Datasets
import DrbdUtils.Verify.OosBitmap
import DrbdUtils.DrbdMon.SubProcessLx
import DrbdUtils.Lib.Pattern
import DrbdUtils.Verify.Partitions
import DrbdUtils.Meta.DumpText
import DrbdUtils.Meta.DumpMd
import DrbdUtils.Verify.ParseBitmap
import DrbdUtils.Verify.ReadDump
import DrbdUtils.Fence.RscLocation
import DrbdUtils.Lib.IntervalPages
import DrbdUtils.Verify.FileMapping
import DrbdUtils.Verify.AffectedFiles
import DrbdUtils.DrbdMon.QTreeIterate
import DrbdUtils.Genl.DrbdGenl
import DrbdUtils.Genl.Messages
import DrbdUtils.Genl.MsgBuff
import DrbdUtils.Genl.ToSkb
import DrbdUtils.Genl.ToSkb
