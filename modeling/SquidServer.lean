import SquidServer.LinkSessions
import SquidServer.RuntimeProgress
import SquidServer.Cursors
import SquidServer.RetroVaultPaths
import SquidServer.TcpProxyAllowlist
import SquidServer.ClientFilesystem
import SquidServer.ClientRetroVault
import SquidServer.ClientTcpTime
import SquidServer.RetroVaultDocuments
import SquidServer.FilesystemReads
import SquidServer.FilesystemDescriptors
import SquidServer.ClientEngines
import SquidServer.PluginConfigFiles
import SquidServer.PluginLoader
import SquidServer.RetroVaultIdentity
import SquidServer.RetroVaultSizes
import SquidServer.RetroVaultRequests
import SquidServer.ClientPages
import SquidServer.RetroVaultJsonBounds
import SquidServer.RetroVaultRecords
import SquidServer.RetroVaultDecoding
import SquidServer.FilesystemWalk
import SquidServer.TcpProxyEntries
import SquidServer.RetroVaultBuffers
import SquidServer.RetroVaultNavigation
import SquidServer.RetroVaultLookup
import SquidServer.RemoteSequences
import SquidServer.RemoteListing
import SquidServer.RemoteTransfers
import SquidServer.Leases
import SquidServer.ServerHost
import SquidServer.RuntimeSockets
import SquidServer.ServerTransports
import SquidServer.ServerRuntime
import SquidServer.ServerLeases
import SquidServer.ServerCalls
import SquidServer.ServerLine
import SquidServer.ServerConfigured
