import OpenIscsi.Lib.RecordFile

/-!
# Node and interface records of the database

A record is kept in a text file with one line for each key. `idbm_recinfo_node` and
`idbm_recinfo_iface` build the table of keys from a record: the keys of an interface
depend on its address family, and `iface_get_iptype` guesses the family from the record.
A writer builds the table from the record it prints, a reader from the record it starts
with.
-/

namespace IdbmRecord

open CString RecordFile

def nameMaxval : Nat := 128

def valueMaxval : Nat := 256

/-- The characters of a line that `idbm_recinfo_config` can hold. -/
def bufferLimit : Nat := 2047

def startups : List (List UInt8) := [ascii "manual", ascii "automatic", ascii "onboot"]

def noYes : List (List UInt8) := [ascii "No", ascii "Yes"]

def authMethods : List (List UInt8) := [ascii "None", ascii "CHAP"]

def scans : List (List UInt8) := [ascii "manual", ascii "auto"]

def digests : List (List UInt8) :=
  [ascii "None", ascii "CRC32C", ascii "CRC32C,None", ascii "None,CRC32C"]

def discoveryTypes : List (List UInt8) :=
  [ascii "send_targets", ascii "isns", ascii "offload_send_targets", ascii "slp",
   ascii "static", ascii "fw"]

def chapAlgs : List (List UInt8 × Nat) :=
  [(ascii "MD5", 5), (ascii "SHA1", 6), (ascii "SHA256", 7), (ascii "SHA3-256", 8)]

/-- The keys of a node record, named after the members of `node_rec_t`. -/
inductive Field where
  | name | tpgt | startup | leadingLogin | ifaceHwaddress | ifaceIpaddress | ifaceName
  | ifaceNetdev | ifaceGateway | ifaceSubnetMask | ifacePrefixLen | ifaceTransportName
  | ifaceIname | ifaceState | ifaceVlanId | ifaceVlanPriority | ifaceVlanState | ifaceIfaceNum
  | ifaceMtu | ifacePort | ifaceBootproto | ifaceDhcpAltClientIdState | ifaceDhcpAltClientId
  | ifaceDhcpDns | ifaceDhcpLearnIqn | ifaceDhcpReqVendorIdState | ifaceDhcpVendorIdState
  | ifaceDhcpVendorId | ifaceDhcpSlpDa | ifaceFragmentation | ifaceGratuitousArp
  | ifaceIncomingForwarding | ifaceTosState | ifaceTos | ifaceTtl | ifaceIpv6Autocfg
  | ifaceLinklocalAutocfg | ifaceRouterAutocfg | ifaceIpv6Linklocal | ifaceIpv6Router
  | ifaceDupAddrDetectCnt | ifaceFlowLabel | ifaceGratuitousNeighborAdv | ifaceHopLimit
  | ifaceMld | ifaceNdReachableTmo | ifaceNdRexmitTime | ifaceNdStaleTmo | ifaceRouterAdvLinkMtu
  | ifaceTrafficClass | ifaceDelayedAck | ifaceNagle | ifaceTcpWsfState | ifaceTcpWsf
  | ifaceTcpTimerScale | ifaceTcpTimestamp | ifaceRedirect | ifaceDefTaskMgmtTmo
  | ifaceHeaderDigest | ifaceDataDigest | ifaceImmediateData | ifaceInitialR2t
  | ifaceDataSeqInorder | ifaceDataPduInorder | ifaceErl | ifaceMaxRecvDlength
  | ifaceFirstBurstLen | ifaceMaxOutR2t | ifaceMaxBurstLen | ifaceChapAuth | ifaceBidiChap
  | ifaceStrictLoginComp | ifaceDiscoveryAuth | ifaceDiscoveryLogout | discAddress | discPort
  | discType | sessionInitialCmdsn | sessionInitialLoginRetryMax | sessionXmitThreadPriority
  | sessionCmdsMax | sessionQueueDepth | sessionNrSessions | sessionAuthAuthmethod
  | sessionAuthUsername | sessionAuthPassword | sessionAuthPasswordLength
  | sessionAuthUsernameIn | sessionAuthPasswordIn | sessionAuthPasswordInLength
  | sessionAuthChapAlgs | sessionTimeoReplacementTimeout | sessionErrTimeoAbortTimeout
  | sessionErrTimeoLuResetTimeout | sessionErrTimeoTgtResetTimeout
  | sessionErrTimeoHostResetTimeout | sessionIscsiFastAbort | sessionIscsiInitialR2T
  | sessionIscsiImmediateData | sessionIscsiFirstBurstLength | sessionIscsiMaxBurstLength
  | sessionIscsiDefaultTime2Retain | sessionIscsiDefaultTime2Wait | sessionIscsiMaxConnections
  | sessionIscsiMaxOutstandingR2T | sessionIscsiERL | sessionScan | sessionReopenMax
  | connAddress | connPort | connStartup | connTcpWindowSize | connTcpTypeOfService
  | connTimeoLogoutTimeout | connTimeoLoginTimeout | connTimeoAuthTimeout
  | connTimeoNoopOutInterval | connTimeoNoopOutTimeout | connIscsiMaxXmitDataSegmentLength
  | connIscsiMaxRecvDataSegmentLength | connIscsiHeaderDigest | connIscsiDataDigest
  | connIscsiIFMarker | connIscsiOFMarker
  deriving DecidableEq, Repr

def Field.key : Field → List UInt8
  | .name => ascii "node.name"
  | .tpgt => ascii "node.tpgt"
  | .startup => ascii "node.startup"
  | .leadingLogin => ascii "node.leading_login"
  | .ifaceHwaddress => ascii "iface.hwaddress"
  | .ifaceIpaddress => ascii "iface.ipaddress"
  | .ifaceName => ascii "iface.iscsi_ifacename"
  | .ifaceNetdev => ascii "iface.net_ifacename"
  | .ifaceGateway => ascii "iface.gateway"
  | .ifaceSubnetMask => ascii "iface.subnet_mask"
  | .ifacePrefixLen => ascii "iface.prefix_len"
  | .ifaceTransportName => ascii "iface.transport_name"
  | .ifaceIname => ascii "iface.initiatorname"
  | .ifaceState => ascii "iface.state"
  | .ifaceVlanId => ascii "iface.vlan_id"
  | .ifaceVlanPriority => ascii "iface.vlan_priority"
  | .ifaceVlanState => ascii "iface.vlan_state"
  | .ifaceIfaceNum => ascii "iface.iface_num"
  | .ifaceMtu => ascii "iface.mtu"
  | .ifacePort => ascii "iface.port"
  | .ifaceBootproto => ascii "iface.bootproto"
  | .ifaceDhcpAltClientIdState => ascii "iface.dhcp_alt_client_id_state"
  | .ifaceDhcpAltClientId => ascii "iface.dhcp_alt_client_id"
  | .ifaceDhcpDns => ascii "iface.dhcp_dns"
  | .ifaceDhcpLearnIqn => ascii "iface.dhcp_learn_iqn"
  | .ifaceDhcpReqVendorIdState => ascii "iface.dhcp_req_vendor_id_state"
  | .ifaceDhcpVendorIdState => ascii "iface.dhcp_vendor_id_state"
  | .ifaceDhcpVendorId => ascii "iface.dhcp_vendor_id"
  | .ifaceDhcpSlpDa => ascii "iface.dhcp_slp_da"
  | .ifaceFragmentation => ascii "iface.fragmentation"
  | .ifaceGratuitousArp => ascii "iface.gratuitous_arp"
  | .ifaceIncomingForwarding => ascii "iface.incoming_forwarding"
  | .ifaceTosState => ascii "iface.tos_state"
  | .ifaceTos => ascii "iface.tos"
  | .ifaceTtl => ascii "iface.ttl"
  | .ifaceIpv6Autocfg => ascii "iface.ipv6_autocfg"
  | .ifaceLinklocalAutocfg => ascii "iface.linklocal_autocfg"
  | .ifaceRouterAutocfg => ascii "iface.router_autocfg"
  | .ifaceIpv6Linklocal => ascii "iface.ipv6_linklocal"
  | .ifaceIpv6Router => ascii "iface.ipv6_router"
  | .ifaceDupAddrDetectCnt => ascii "iface.dup_addr_detect_cnt"
  | .ifaceFlowLabel => ascii "iface.flow_label"
  | .ifaceGratuitousNeighborAdv => ascii "iface.gratuitous_neighbor_adv"
  | .ifaceHopLimit => ascii "iface.hop_limit"
  | .ifaceMld => ascii "iface.mld"
  | .ifaceNdReachableTmo => ascii "iface.nd_reachable_tmo"
  | .ifaceNdRexmitTime => ascii "iface.nd_rexmit_time"
  | .ifaceNdStaleTmo => ascii "iface.nd_stale_tmo"
  | .ifaceRouterAdvLinkMtu => ascii "iface.router_adv_link_mtu"
  | .ifaceTrafficClass => ascii "iface.traffic_class"
  | .ifaceDelayedAck => ascii "iface.delayed_ack"
  | .ifaceNagle => ascii "iface.tcp_nagle"
  | .ifaceTcpWsfState => ascii "iface.tcp_wsf_state"
  | .ifaceTcpWsf => ascii "iface.tcp_wsf"
  | .ifaceTcpTimerScale => ascii "iface.tcp_timer_scale"
  | .ifaceTcpTimestamp => ascii "iface.tcp_timestamp"
  | .ifaceRedirect => ascii "iface.redirect"
  | .ifaceDefTaskMgmtTmo => ascii "iface.def_task_mgmt_timeout"
  | .ifaceHeaderDigest => ascii "iface.header_digest"
  | .ifaceDataDigest => ascii "iface.data_digest"
  | .ifaceImmediateData => ascii "iface.immediate_data"
  | .ifaceInitialR2t => ascii "iface.initial_r2t"
  | .ifaceDataSeqInorder => ascii "iface.data_seq_inorder"
  | .ifaceDataPduInorder => ascii "iface.data_pdu_inorder"
  | .ifaceErl => ascii "iface.erl"
  | .ifaceMaxRecvDlength => ascii "iface.max_receive_data_len"
  | .ifaceFirstBurstLen => ascii "iface.first_burst_len"
  | .ifaceMaxOutR2t => ascii "iface.max_outstanding_r2t"
  | .ifaceMaxBurstLen => ascii "iface.max_burst_len"
  | .ifaceChapAuth => ascii "iface.chap_auth"
  | .ifaceBidiChap => ascii "iface.bidi_chap"
  | .ifaceStrictLoginComp => ascii "iface.strict_login_compliance"
  | .ifaceDiscoveryAuth => ascii "iface.discovery_auth"
  | .ifaceDiscoveryLogout => ascii "iface.discovery_logout"
  | .discAddress => ascii "node.discovery_address"
  | .discPort => ascii "node.discovery_port"
  | .discType => ascii "node.discovery_type"
  | .sessionInitialCmdsn => ascii "node.session.initial_cmdsn"
  | .sessionInitialLoginRetryMax => ascii "node.session.initial_login_retry_max"
  | .sessionXmitThreadPriority => ascii "node.session.xmit_thread_priority"
  | .sessionCmdsMax => ascii "node.session.cmds_max"
  | .sessionQueueDepth => ascii "node.session.queue_depth"
  | .sessionNrSessions => ascii "node.session.nr_sessions"
  | .sessionAuthAuthmethod => ascii "node.session.auth.authmethod"
  | .sessionAuthUsername => ascii "node.session.auth.username"
  | .sessionAuthPassword => ascii "node.session.auth.password"
  | .sessionAuthPasswordLength => ascii "node.session.auth.password_length"
  | .sessionAuthUsernameIn => ascii "node.session.auth.username_in"
  | .sessionAuthPasswordIn => ascii "node.session.auth.password_in"
  | .sessionAuthPasswordInLength => ascii "node.session.auth.password_in_length"
  | .sessionAuthChapAlgs => ascii "node.session.auth.chap_algs"
  | .sessionTimeoReplacementTimeout => ascii "node.session.timeo.replacement_timeout"
  | .sessionErrTimeoAbortTimeout => ascii "node.session.err_timeo.abort_timeout"
  | .sessionErrTimeoLuResetTimeout => ascii "node.session.err_timeo.lu_reset_timeout"
  | .sessionErrTimeoTgtResetTimeout => ascii "node.session.err_timeo.tgt_reset_timeout"
  | .sessionErrTimeoHostResetTimeout => ascii "node.session.err_timeo.host_reset_timeout"
  | .sessionIscsiFastAbort => ascii "node.session.iscsi.FastAbort"
  | .sessionIscsiInitialR2T => ascii "node.session.iscsi.InitialR2T"
  | .sessionIscsiImmediateData => ascii "node.session.iscsi.ImmediateData"
  | .sessionIscsiFirstBurstLength => ascii "node.session.iscsi.FirstBurstLength"
  | .sessionIscsiMaxBurstLength => ascii "node.session.iscsi.MaxBurstLength"
  | .sessionIscsiDefaultTime2Retain => ascii "node.session.iscsi.DefaultTime2Retain"
  | .sessionIscsiDefaultTime2Wait => ascii "node.session.iscsi.DefaultTime2Wait"
  | .sessionIscsiMaxConnections => ascii "node.session.iscsi.MaxConnections"
  | .sessionIscsiMaxOutstandingR2T => ascii "node.session.iscsi.MaxOutstandingR2T"
  | .sessionIscsiERL => ascii "node.session.iscsi.ERL"
  | .sessionScan => ascii "node.session.scan"
  | .sessionReopenMax => ascii "node.session.reopen_max"
  | .connAddress => ascii "node.conn[0].address"
  | .connPort => ascii "node.conn[0].port"
  | .connStartup => ascii "node.conn[0].startup"
  | .connTcpWindowSize => ascii "node.conn[0].tcp.window_size"
  | .connTcpTypeOfService => ascii "node.conn[0].tcp.type_of_service"
  | .connTimeoLogoutTimeout => ascii "node.conn[0].timeo.logout_timeout"
  | .connTimeoLoginTimeout => ascii "node.conn[0].timeo.login_timeout"
  | .connTimeoAuthTimeout => ascii "node.conn[0].timeo.auth_timeout"
  | .connTimeoNoopOutInterval => ascii "node.conn[0].timeo.noop_out_interval"
  | .connTimeoNoopOutTimeout => ascii "node.conn[0].timeo.noop_out_timeout"
  | .connIscsiMaxXmitDataSegmentLength => ascii "node.conn[0].iscsi.MaxXmitDataSegmentLength"
  | .connIscsiMaxRecvDataSegmentLength => ascii "node.conn[0].iscsi.MaxRecvDataSegmentLength"
  | .connIscsiHeaderDigest => ascii "node.conn[0].iscsi.HeaderDigest"
  | .connIscsiDataDigest => ascii "node.conn[0].iscsi.DataDigest"
  | .connIscsiIFMarker => ascii "node.conn[0].iscsi.IFMarker"
  | .connIscsiOFMarker => ascii "node.conn[0].iscsi.OFMarker"

/-- How the tools print and parse the value of a key. -/
def Field.kind : Field → Kind
  | .name => .str 255
  | .tpgt | .discPort | .sessionInitialCmdsn | .sessionInitialLoginRetryMax
  | .sessionXmitThreadPriority | .sessionCmdsMax | .sessionQueueDepth | .sessionNrSessions
  | .sessionAuthPasswordLength | .sessionAuthPasswordInLength | .sessionTimeoReplacementTimeout
  | .sessionErrTimeoAbortTimeout | .sessionErrTimeoLuResetTimeout
  | .sessionErrTimeoTgtResetTimeout | .sessionErrTimeoHostResetTimeout
  | .sessionIscsiFirstBurstLength | .sessionIscsiMaxBurstLength
  | .sessionIscsiDefaultTime2Retain | .sessionIscsiDefaultTime2Wait
  | .sessionIscsiMaxConnections | .sessionIscsiMaxOutstandingR2T | .sessionIscsiERL
  | .sessionReopenMax | .connPort | .connTcpWindowSize | .connTcpTypeOfService
  | .connTimeoLogoutTimeout | .connTimeoLoginTimeout | .connTimeoAuthTimeout
  | .connTimeoNoopOutInterval | .connTimeoNoopOutTimeout | .connIscsiMaxXmitDataSegmentLength
  | .connIscsiMaxRecvDataSegmentLength => .int
  | .startup | .connStartup => .opts startups
  | .leadingLogin | .sessionIscsiFastAbort | .sessionIscsiInitialR2T
  | .sessionIscsiImmediateData | .connIscsiIFMarker | .connIscsiOFMarker => .opts noYes
  | .ifaceHwaddress => .str 18
  | .ifaceIpaddress | .ifaceGateway | .ifaceSubnetMask | .ifaceIpv6Autocfg
  | .ifaceLinklocalAutocfg | .ifaceRouterAutocfg | .ifaceIpv6Linklocal | .ifaceIpv6Router
  | .discAddress | .connAddress => .str 1025
  | .ifaceName => .str 65
  | .ifaceNetdev | .ifaceTransportName => .str 16
  | .ifacePrefixLen | .ifaceVlanPriority | .ifaceTos | .ifaceTtl | .ifaceDupAddrDetectCnt
  | .ifaceHopLimit | .ifaceTrafficClass | .ifaceTcpWsf | .ifaceTcpTimerScale | .ifaceErl =>
    .uint 8
  | .ifaceIname | .sessionAuthUsername | .sessionAuthPassword | .sessionAuthUsernameIn
  | .sessionAuthPasswordIn => .str 256
  | .ifaceState | .ifaceVlanState | .ifaceBootproto | .ifaceDhcpAltClientIdState
  | .ifaceDhcpAltClientId | .ifaceDhcpDns | .ifaceDhcpLearnIqn | .ifaceDhcpReqVendorIdState
  | .ifaceDhcpVendorIdState | .ifaceDhcpVendorId | .ifaceDhcpSlpDa | .ifaceFragmentation
  | .ifaceGratuitousArp | .ifaceIncomingForwarding | .ifaceTosState
  | .ifaceGratuitousNeighborAdv | .ifaceMld | .ifaceDelayedAck | .ifaceNagle | .ifaceTcpWsfState
  | .ifaceTcpTimestamp | .ifaceRedirect | .ifaceHeaderDigest | .ifaceDataDigest
  | .ifaceImmediateData | .ifaceInitialR2t | .ifaceDataSeqInorder | .ifaceDataPduInorder
  | .ifaceChapAuth | .ifaceBidiChap | .ifaceStrictLoginComp | .ifaceDiscoveryAuth
  | .ifaceDiscoveryLogout => .str 80
  | .ifaceVlanId | .ifaceMtu | .ifacePort | .ifaceDefTaskMgmtTmo | .ifaceMaxOutR2t => .uint 16
  | .ifaceIfaceNum => .intOfUint32
  | .ifaceFlowLabel | .ifaceNdReachableTmo | .ifaceNdRexmitTime | .ifaceNdStaleTmo
  | .ifaceRouterAdvLinkMtu | .ifaceMaxRecvDlength | .ifaceFirstBurstLen | .ifaceMaxBurstLen =>
    .uint 32
  | .discType => .opts discoveryTypes
  | .sessionAuthAuthmethod => .opts authMethods
  | .sessionAuthChapAlgs => .list chapAlgs 5
  | .sessionScan => .opts scans
  | .connIscsiHeaderDigest | .connIscsiDataDigest => .opts digests

/-- The type of the member: options are kept as numbers, and the traffic class is wider than
its key. -/
def Field.storage (f : Field) : Kind :=
  match f with
  | .ifaceTrafficClass => .uint 32
  | .sessionAuthAuthmethod => .uint 32
  | .sessionAuthPasswordLength | .sessionAuthPasswordInLength => .uint 32
  | _ => f.kind

/-- A password is read together with its length, which is never printed. -/
def Field.lengthOf : Field → Option Field
  | .sessionAuthPassword => some .sessionAuthPasswordLength
  | .sessionAuthPasswordIn => some .sessionAuthPasswordInLength
  | _ => none

def Field.visible : Field → Bool
  | .sessionAuthPasswordLength | .sessionAuthPasswordInLength => false
  | _ => true

def tools : Format Field where
  key := Field.key
  kind := Field.kind
  lengthOf := Field.lengthOf

def ipv4Keys : List Field :=
  [.ifaceBootproto, .ifaceDhcpAltClientIdState, .ifaceDhcpAltClientId, .ifaceDhcpDns,
   .ifaceDhcpLearnIqn, .ifaceDhcpReqVendorIdState, .ifaceDhcpVendorIdState, .ifaceDhcpVendorId,
   .ifaceDhcpSlpDa, .ifaceFragmentation, .ifaceGratuitousArp, .ifaceIncomingForwarding,
   .ifaceTosState, .ifaceTos, .ifaceTtl]

def ipv6Keys : List Field :=
  [.ifaceIpv6Autocfg, .ifaceLinklocalAutocfg, .ifaceRouterAutocfg, .ifaceIpv6Linklocal,
   .ifaceIpv6Router, .ifaceDupAddrDetectCnt, .ifaceFlowLabel, .ifaceGratuitousNeighborAdv,
   .ifaceHopLimit, .ifaceMld, .ifaceNdReachableTmo, .ifaceNdRexmitTime, .ifaceNdStaleTmo,
   .ifaceRouterAdvLinkMtu, .ifaceTrafficClass]

/-- The keys of every interface, behind those of its address family. -/
def ifaceKeys : List Field :=
  [.ifaceDelayedAck, .ifaceNagle, .ifaceTcpWsfState, .ifaceTcpWsf, .ifaceTcpTimerScale,
   .ifaceTcpTimestamp, .ifaceRedirect, .ifaceDefTaskMgmtTmo, .ifaceHeaderDigest,
   .ifaceDataDigest, .ifaceImmediateData, .ifaceInitialR2t, .ifaceDataSeqInorder,
   .ifaceDataPduInorder, .ifaceErl, .ifaceMaxRecvDlength, .ifaceFirstBurstLen, .ifaceMaxOutR2t,
   .ifaceMaxBurstLen, .ifaceChapAuth, .ifaceBidiChap, .ifaceStrictLoginComp,
   .ifaceDiscoveryAuth, .ifaceDiscoveryLogout]

/-- The first keys of a node record. -/
def nodeHead : List Field :=
  [.name, .tpgt, .startup, .leadingLogin, .ifaceHwaddress, .ifaceIpaddress, .ifaceName,
   .ifaceNetdev, .ifaceGateway, .ifaceSubnetMask, .ifacePrefixLen, .ifaceTransportName,
   .ifaceIname, .ifaceState, .ifaceVlanId, .ifaceVlanPriority, .ifaceVlanState, .ifaceIfaceNum,
   .ifaceMtu, .ifacePort]

/-- The last keys of a node record. -/
def nodeTail : List Field :=
  [.discAddress, .discPort, .discType, .sessionInitialCmdsn, .sessionInitialLoginRetryMax,
   .sessionXmitThreadPriority, .sessionCmdsMax, .sessionQueueDepth, .sessionNrSessions,
   .sessionAuthAuthmethod, .sessionAuthUsername, .sessionAuthPassword,
   .sessionAuthPasswordLength, .sessionAuthUsernameIn, .sessionAuthPasswordIn,
   .sessionAuthPasswordInLength, .sessionAuthChapAlgs, .sessionTimeoReplacementTimeout,
   .sessionErrTimeoAbortTimeout, .sessionErrTimeoLuResetTimeout,
   .sessionErrTimeoTgtResetTimeout, .sessionErrTimeoHostResetTimeout, .sessionIscsiFastAbort,
   .sessionIscsiInitialR2T, .sessionIscsiImmediateData, .sessionIscsiFirstBurstLength,
   .sessionIscsiMaxBurstLength, .sessionIscsiDefaultTime2Retain, .sessionIscsiDefaultTime2Wait,
   .sessionIscsiMaxConnections, .sessionIscsiMaxOutstandingR2T, .sessionIscsiERL, .sessionScan,
   .sessionReopenMax, .connAddress, .connPort, .connStartup, .connTcpWindowSize,
   .connTcpTypeOfService, .connTimeoLogoutTimeout, .connTimeoLoginTimeout,
   .connTimeoAuthTimeout, .connTimeoNoopOutInterval, .connTimeoNoopOutTimeout,
   .connIscsiMaxXmitDataSegmentLength, .connIscsiMaxRecvDataSegmentLength,
   .connIscsiHeaderDigest, .connIscsiDataDigest, .connIscsiIFMarker, .connIscsiOFMarker]

/-- The first keys of an interface record. -/
def ifaceHead : List Field :=
  [.ifaceName, .ifaceNetdev, .ifaceIpaddress, .ifacePrefixLen, .ifaceHwaddress,
   .ifaceTransportName, .ifaceIname, .ifaceState, .ifaceVlanId, .ifaceVlanPriority,
   .ifaceVlanState, .ifaceIfaceNum, .ifaceMtu, .ifacePort]

/-- The interface keys of an IPv4 interface record. -/
def ifaceIpv4Keys : List Field :=
  [.ifaceBootproto, .ifaceSubnetMask, .ifaceGateway, .ifaceDhcpAltClientIdState,
   .ifaceDhcpAltClientId, .ifaceDhcpDns, .ifaceDhcpLearnIqn, .ifaceDhcpReqVendorIdState,
   .ifaceDhcpVendorIdState, .ifaceDhcpVendorId, .ifaceDhcpSlpDa, .ifaceFragmentation,
   .ifaceGratuitousArp, .ifaceIncomingForwarding, .ifaceTosState, .ifaceTos, .ifaceTtl]

inductive IfaceType where
  | ipv4 | ipv6
  deriving DecidableEq, Repr

def nodeFamily : IfaceType → List Field
  | .ipv4 => ipv4Keys
  | .ipv6 => ipv6Keys

/-- The keys of an interface record that depend on the address family. -/
def ifaceFamily : IfaceType → List Field
  | .ipv4 => ifaceIpv4Keys
  | .ipv6 => ipv6Keys

def idbmRecinfoNode (t : IfaceType) : List Field :=
  nodeHead ++ nodeFamily t ++ ifaceKeys ++ nodeTail

def idbmRecinfoIface (t : IfaceType) : List Field := ifaceHead ++ ifaceFamily t ++ ifaceKeys

/-- A member after `memset`. -/
def Field.zero (f : Field) : Val :=
  match f.kind with
  | .str _ => .text []
  | .list _ _ => .nums []
  | _ => .num 0

def idbmNodeSetupDefaults : Field → Val
  | .tpgt => .num (-1)
  | .discType => .num 4
  | .sessionCmdsMax => .num 128
  | .sessionXmitThreadPriority => .num (-20)
  | .sessionQueueDepth => .num 32
  | .sessionNrSessions => .num 1
  | .sessionInitialLoginRetryMax => .num 4
  | .sessionAuthChapAlgs => .nums [5]
  | .sessionErrTimeoAbortTimeout => .num 15
  | .sessionErrTimeoLuResetTimeout => .num 30
  | .sessionErrTimeoTgtResetTimeout => .num 30
  | .sessionErrTimeoHostResetTimeout => .num 60
  | .sessionTimeoReplacementTimeout => .num 120
  | .sessionScan => .num 1
  | .sessionIscsiImmediateData => .num 1
  | .sessionIscsiFirstBurstLength => .num 262144
  | .sessionIscsiMaxBurstLength => .num 16776192
  | .sessionIscsiDefaultTime2Wait => .num 2
  | .sessionIscsiMaxConnections => .num 1
  | .sessionIscsiMaxOutstandingR2T => .num 1
  | .sessionIscsiFastAbort => .num 1
  | .connPort => .num 3260
  | .connTcpWindowSize => .num 524288
  | .connTimeoLoginTimeout => .num 30
  | .connTimeoLogoutTimeout => .num 15
  | .connTimeoAuthTimeout => .num 45
  | .connTimeoNoopOutInterval => .num 5
  | .connTimeoNoopOutTimeout => .num 5
  | .connIscsiMaxRecvDataSegmentLength => .num 262144
  | .ifaceTransportName => .text (ascii "tcp")
  | .ifaceName => .text (ascii "default")
  | f => f.zero

def str (r : Field → Val) (f : Field) : List UInt8 :=
  match r f with
  | .text s => s
  | _ => []

def namesIpv6 (s : List UInt8) : Bool := s.tails.any ((ascii "ipv6").isPrefixOf ·)

/-- The address decides, unless it is not known: then the name does. -/
def ifaceGetIptype (r : Field → Val) : IfaceType :=
  if str r .ifaceIpaddress = [] ∨ str r .ifaceIpaddress = ascii "<empty>" then
    if namesIpv6 (str r .ifaceName) then .ipv6 else .ipv4
  else if str r .ifaceBootproto ≠ ascii "dhcp" ∧ (46 : UInt8) ∉ str r .ifaceIpaddress then .ipv6
  else .ipv4

def iscsiBeginRec : List UInt8 := ascii "# BEGIN RECORD 2.1.6"

def iscsiEndRec : List UInt8 := ascii "# END RECORD"

def idbmPrint (table : List Field) (r : Field → Val) : List UInt8 :=
  fileText iscsiBeginRec iscsiEndRec (tools.lines valueMaxval Field.visible table r)

/-- Update a record with the lines of a file; an unknown key is ignored. -/
def idbmRecinfoConfig (table : List Field) (r : Field → Val) (file : List UInt8) : Field → Val :=
  tools.readLenient table r (assignments bufferLimit file)

def idbmRecWrite (r : Field → Val) : List UInt8 := idbmPrint (idbmRecinfoNode (ifaceGetIptype r)) r

def idbmRecRead (file : List UInt8) : Field → Val :=
  idbmRecinfoConfig (idbmRecinfoNode (ifaceGetIptype idbmNodeSetupDefaults)) idbmNodeSetupDefaults
    file

/-- The text that `iface_conf_write` stores; the special interfaces have no file, and without
a name there is no file to open. -/
def ifaceConfWrite (r : Field → Val) : Option (List UInt8) :=
  if str r .ifaceName = [] ∨ str r .ifaceName = ascii "default" ∨ str r .ifaceName = ascii "iser" then
    none
  else some (idbmPrint (idbmRecinfoIface (ifaceGetIptype r)) r)

def ifaceAlloc (name : List UInt8) : Field → Val :=
  Function.update Field.zero .ifaceName (.text (if name = [] then ascii "default" else name))

def ifaceConfRead (name file : List UInt8) : Field → Val :=
  idbmRecinfoConfig (idbmRecinfoIface (ifaceGetIptype (ifaceAlloc name))) (ifaceAlloc name) file

/-- A record in memory: each member holds a value of its type. -/
structure Rec where
  val : Field → Val
  stores : ∀ f : Field, f.storage.Stores (val f)

/-- The values of the keys of a table are printed as one line each, and a string is empty only
where it is empty in the record that a reader starts with. -/
def Tame (table : List Field) (base r : Field → Val) : Prop :=
  ∀ f ∈ table, f.visible = true →
    f.kind.Tame valueMaxval (r f) ∧ (r f = .text [] → base f = .text [])

end IdbmRecord
