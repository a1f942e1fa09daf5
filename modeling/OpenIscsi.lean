import OpenIscsi.Lib.CString
import OpenIscsi.Lib.Runs
import OpenIscsi.AuthText
import OpenIscsi.AuthKeys
import OpenIscsi.AuthClient
import OpenIscsi.AuthApi
import OpenIscsi.AuthRun
import OpenIscsi.AuthFrame
import OpenIscsi.AuthExchange
import OpenIscsi.AuthStages
import OpenIscsi.AuthSoundness
import OpenIscsi.AuthLive
import OpenIscsi.AuthWire
import OpenIscsi.AuthMessages
import OpenIscsi.AuthConfigured
import OpenIscsi.AuthPath
import OpenIscsi.AuthLockstep
import OpenIscsi.LoginKeys
import OpenIscsi.Login
import OpenIscsi.LoginFrame
import OpenIscsi.LoginSecurity
import OpenIscsi.LoginStages
import OpenIscsi.Actor
import OpenIscsi.ActorQueues
import OpenIscsi.ActorInvariant
import OpenIscsi.ActorCallbacks
import OpenIscsi.Lib.Ring
import OpenIscsi.Lib.DueQueue
import OpenIscsi.Lib.Tokens
import OpenIscsi.SendTargets
import OpenIscsi.SendTargetsRecord
import OpenIscsi.SendTargetsPdus
import OpenIscsi.IdbmLock
import OpenIscsi.Netlink
import OpenIscsi.NetlinkRuns
import OpenIscsi.SyncSession
import OpenIscsi.Lib.RecordFile
import OpenIscsi.IdbmRecord
import OpenIscsi.IdbmRoundTrip
import OpenIscsi.IdbmRoundTrip
import OpenIscsi.IdbmLibrary
import OpenIscsi.AuthCodec
import OpenIscsi.AuthNumbers
import OpenIscsi.Lib.Numerals
import OpenIscsi.LoginText
import OpenIscsi.LoginLimits
import OpenIscsi.Lib.ByteStream
import OpenIscsi.PduStream
import OpenIscsi.Lib.GraphSum
import OpenIscsi.SafeLogout
import OpenIscsi.Lib.KeepNew
import OpenIscsi.DiscoverySessions
import OpenIscsi.IscsiuioIpc
import OpenIscsi.NlRing
import OpenIscsi.Lib.ByteMemory
import OpenIscsi.LogArea
import OpenIscsi.Lib.Interaction
import OpenIscsi.Lib.FileSystem
import OpenIscsi.IdbmStore
import OpenIscsi.MgmtStrings
import OpenIscsi.ConfigLines
import OpenIscsi.Lib.LengthFields
import OpenIscsi.Passwords
import OpenIscsi.BadTargets
import OpenIscsi.TargetAddresses
import OpenIscsi.Initiator
import OpenIscsi.LogoutTask
import OpenIscsi.ReopenPace
import OpenIscsi.LibraryStore
import OpenIscsi.LockBalance
import OpenIscsi.IfaceStore
import OpenIscsi.Overwrite
import OpenIscsi.NetConfig
import OpenIscsi.PortalText
import OpenIscsi.Ping
import OpenIscsi.AuthRounds
import OpenIscsi.DiscoveryLogin
import OpenIscsi.ContextPool
import OpenIscsi.SessionWalk
import OpenIscsi.IsnsRefresh
import OpenIscsi.BootNics
import OpenIscsi.Lib.Ranking
import OpenIscsi.PpcNics
import OpenIscsi.PromParse
import OpenIscsi.BootPath
import OpenIscsi.NicNetlink
import OpenIscsi.Lib.LinkedList
import OpenIscsi.NicTree
import OpenIscsi.NicLookup
import OpenIscsi.NicReceive
import OpenIscsi.NicLocks
import OpenIscsi.QediRing
import OpenIscsi.IfaceDecode
import OpenIscsi.ArpTable
import OpenIscsi.TxQueue
import OpenIscsi.TxBuffer
import OpenIscsi.NicEnable
import OpenIscsi.Ipv6Checksum
import OpenIscsi.Lib.OnesComplement
import OpenIscsi.PingFrame
import OpenIscsi.EchoReply
import OpenIscsi.Ipv6Addresses
import OpenIscsi.NeighbourAdv
import OpenIscsi.PingThread
import OpenIscsi.AuthKeyMap
import OpenIscsi.Ndpc
