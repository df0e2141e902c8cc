import MaasBoot.Lib.Bytes
import MaasBoot.Lib.Format
import MaasBoot.Node
import MaasBoot.NodeScript
import MaasBoot.ConfigHash
import MaasBoot.KernelNet
import MaasBoot.BondHook
import MaasBoot.HookArgs
import MaasBoot.IpArgument
import MaasBoot.MemberLookup
import MaasBoot.PciForms
import MaasBoot.EspImage
import MaasBoot.FatReader
import MaasBoot.FatTable
import MaasBoot.EspLayout
import MaasBoot.EspRoundTrip
import MaasBoot.EspVolume
import MaasBoot.LongName
import MaasBoot.IsoImage
import MaasBoot.IsoReader
import MaasBoot.IsoRoundTrip
import MaasBoot.IsoRequests
import MaasBoot.IsoCacheHistory
import MaasBoot.Newc
import MaasBoot.IsoLayout
import MaasBoot.Archive
import MaasBoot.Overlay
import MaasBoot.LineWrap
import MaasBoot.Rewriter
import MaasBoot.RewriteArchive
import MaasBoot.IpxeConfig
import MaasBoot.NodeStore
import MaasBoot.NodeStoreRuns
import MaasBoot.NodeVersions
import MaasBoot.ConfigReload
import MaasBoot.ServeHTTP
import MaasBoot.ResolveNode
import MaasBoot.NodeOrder
import MaasBoot.RackDhcp
import MaasBoot.RackRoles
import MaasBoot.Watchdog
import MaasBoot.WatchdogResponse
import MaasBoot.ImportLoop
import MaasBoot.BootSources
import MaasBoot.BootServer
import MaasBoot.UplinkScript
import MaasBoot.Server
import MaasBoot.ServerRuns
import MaasBoot.ServerReplies
import MaasBoot.ServerFound
import MaasBoot.ServerProgress
import MaasBoot.GenericScript
import MaasBoot.BootChain
import MaasBoot.SecretExport
import MaasBoot.BondSetup
import MaasBoot.ServedScript
