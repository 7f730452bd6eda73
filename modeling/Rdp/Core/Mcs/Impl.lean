import Rdp.Core.Gcc.Impl
import Rdp.Core.X224.Impl

/-!
This module contains the MCS layer: the domain is joined with the settings of the GCC layer, and
every message after that goes over a channel.
-/

namespace Rdp.Mcs

open Cursor
open Ntlm (unwrapOption)

inductive DomainMCSPDU where
  | erectDomainRequest
  | disconnectProviderUltimatum
  | attachUserRequest
  | attachUserConfirm
  | channelJoinRequest
  | channelJoinConfirm
  | sendDataRequest
  | sendDataIndication

def DomainMCSPDU.toU8 (p : DomainMCSPDU) : UInt8 :=
  match p with
  | .erectDomainRequest => 1
  | .disconnectProviderUltimatum => 8
  | .attachUserRequest => 10
  | .attachUserConfirm => 11
  | .channelJoinRequest => 14
  | .channelJoinConfirm => 15
  | .sendDataRequest => 25
  | .sendDataIndication => 26

def domainParameters (maxChannelIds maxUserIds maxTokenIds numPriorities minThoughput maxHeight
    maxMcsPduSize protocolVersion : UInt32) : ASN1 := .sequence [
  ("maxChannelIds", .integer maxChannelIds),
  ("maxUserIds", .integer maxUserIds),
  ("maxTokenIds", .integer maxTokenIds),
  ("numPriorities", .integer numPriorities),
  ("minThoughput", .integer minThoughput),
  ("maxHeight", .integer maxHeight),
  ("maxMCSPDUsize", .integer maxMcsPduSize),
  ("protocolVersion", .integer protocolVersion)
]

def connectInitial (userData : Option Bytes) : ASN1 := .implicitTag (.application 101) <| .sequence [
  ("callingDomainSelector", .octetString [1]),
  ("calledDomainSelector", .octetString [1]),
  ("upwardFlag", .bool true),
  ("targetParameters", domainParameters 34 2 0 1 0 1 0xffff 2),
  ("minimumParameters", domainParameters 1 1 1 1 0 1 0x420 2),
  ("maximumParameters", domainParameters 0xffff 0xfc17 0xffff 1 0 1 0xffff 2),
  ("userData", .octetString (userData.getD []))
]

def connectResponse (userData : Option Bytes) : ASN1 := .implicitTag (.application 102) <| .sequence [
  ("result", .enumerate 0),
  ("calledConnectId", .integer 0),
  ("domainParameters", domainParameters 22 3 0 1 0 1 0xfff8 2),
  ("userData", .octetString (userData.getD []))
]

def mcsPduHeader (pdu : Option DomainMCSPDU) (options : Option UInt8) : UInt8 :=
  (pdu.getD .attachUserConfirm).toU8 <<< 2 ||| options.getD 0

def confirm : Message := .trame [.leaf (.u8 0), .leaf (.bytes [])]

/--
`confirm[0]` and `confirm[1]`.
-/
def confirmParts (confirm : DataType) : RdpResult (UInt8 × Bytes) := do
  match ← castTrame confirm with
  | header :: request :: _ => return (← castU8 header, ← castSlice request)
  | _ => .error (.panic "index out of bounds")

def readAttachUserConfirm : Reader UInt16 := do
  let confirm ← confirm.reader
  let (header, request) ← Prog.lift (confirmParts confirm.visit)
  if header >>> 2 ≠ mcsPduHeader (some .attachUserConfirm) none >>> 2 then
    Prog.fail (.new .invalidData "MCS: unexpected header on recv_attach_user_confirm")
  else
    let (result, request) ← Prog.on request Per.readEnumerates
    if result ≠ 0 then
      Prog.fail (.new .rejectedByServer "MCS: recv_attach_user_confirm user rejected by server")
    else
      let (userId, _) ← Prog.on request (Per.readInteger16 1001)
      return userId

def attachUserRequest : UInt8 := mcsPduHeader (some .attachUserRequest) none

def erectDomainRequest : RdpResult Message := do
  let result := (← Per.writeInteger 0) ++ (← Per.writeInteger 0)
  return .trame [
    .leaf (.u8 (mcsPduHeader (some .erectDomainRequest) none)),
    .leaf (.bytes result)
  ]

def channelJoinRequest (userId channelId : Option UInt16) : RdpResult Message := do
  let user ← checkedSub (userId.getD 1001).toNat 1001
  return .trame [
    .leaf (.u8 (mcsPduHeader (some .channelJoinRequest) none)),
    .leaf (.u16 .be (.ofNat user)),
    .leaf (.u16 .be (channelId.getD 0))
  ]

def readConfirmBody : Reader (UInt8 × UInt16 × UInt16) := do
  let confirm ← Per.readEnumerates
  let userId ← Per.readInteger16 1001
  let channelId ← Per.readInteger16 0
  return (confirm, userId, channelId)

def readChannelJoinConfirm (userId channelId : UInt16) : Reader Bool := do
  let confirm ← confirm.reader
  let (header, request) ← Prog.lift (confirmParts confirm.visit)
  if header >>> 2 ≠ mcsPduHeader (some .channelJoinConfirm) none >>> 2 then
    Prog.fail (.new .invalidData "MCS: unexpected header on read_channel_join_confirm")
  else
    let ((confirm, confirmUserId, confirmChannelId), _) ← Prog.on request readConfirmBody
    if userId ≠ confirmUserId then
      Prog.fail (.new .invalidData "MCS: read_channel_join_confirm invalid user id")
    else if channelId ≠ confirmChannelId then
      Prog.fail (.new .invalidData "MCS: read_channel_join_confirm invalid channel_id")
    else
      return confirm = 0

/--
The state of the layers below is the link and the protocol X.224 has negotiated. The channels stand
in the order in which their map is iterated, where the random seed of the map gives every key its
place.
-/
structure Client where
  link : Link
  selectedProtocol : X224.Protocols
  serverData : Option Gcc.ServerData
  userId : Option UInt16
  channelIds : List (String × UInt16)
  place : String → Nat

/--
`HashMap::insert`.
-/
def insertChannel (place : String → Nat) (name : String) (id : UInt16)
    (channels : List (String × UInt16)) : List (String × UInt16) :=
  match channels with
  | [] => [(name, id)]
  | (key, value) :: channels =>
    if key = name then
      (name, id) :: channels
    else if place name < place key then
      (name, id) :: (key, value) :: channels
    else
      (key, value) :: insertChannel place name id channels

/--
`channel_ids[name]`.
-/
def channelId (channels : List (String × UInt16)) (name : String) : RdpResult UInt16 :=
  match channels.lookup name with
  | some id => .ok id
  | none => .error (.panic "HashMap: key not found")

def readIndication (channels : List (String × UInt16)) : Reader String := do
  let header ← readU8
  if header >>> 2 = DomainMCSPDU.disconnectProviderUltimatum.toU8 then
    Prog.fail (.new .disconnect "MCS: Disconnect Provider Ultimatum")
  else if header >>> 2 ≠ DomainMCSPDU.sendDataIndication.toU8 then
    Prog.fail (.new .invalidData "MCS: Invalid opcode")
  else
    let _ ← Per.readInteger16 1001
    let channelId ← Per.readInteger16 0
    match channels.find? (·.2 = channelId) with
    | none => Prog.fail (.new .unknown "MCS: unknown channel")
    | some channel =>
      let _ ← Per.readEnumerates
      let _ ← Per.readLength
      return channel.1

/--
`try_let!(tpkt::Payload::Raw, payload)`.
-/
def rawPayload (payload : Tpkt.Payload) : RdpResult Bytes :=
  match payload with
  | .raw payload => .ok payload
  | .fastPath _ _ => DataType.invalidCast

namespace Client

def new (link : Link) (selectedProtocol : X224.Protocols) (place : String → Nat) : Client where
  link := link
  selectedProtocol := selectedProtocol
  serverData := none
  userId := none
  channelIds := []
  place := place

def onX224 (x : Prog Error Link α) : Prog Error Client α :=
  Prog.zoom (·.link) (fun link client => { client with link }) x

def userData (selectedProtocol : X224.Protocols) (screenWidth screenHeight : UInt16)
    (keyboardLayout : Gcc.KeyboardLayout) (clientName : String) : RdpResult Bytes := do
  let clientCoreData ← Gcc.clientCoreData (some {
    width := screenWidth
    height := screenHeight
    layout := keyboardLayout
    serverSelectedProtocol := selectedProtocol.toU32
    rdpVersion := .rdpVersion5plus
    name := clientName
  })
  let clientNetworkData ← Gcc.clientNetworkData []
  let block (type : Gcc.MessageType) (data : Component) : RdpResult Message := do
    let length ← (Message.component data).length
    let header ← Gcc.blockHeader (some type) (some (.ofNat length))
    return .trame [.component header, .component data]
  toVec (.trame [
    ← block .csCore clientCoreData,
    ← block .csSecurity Gcc.clientSecurityData,
    ← block .csNet clientNetworkData
  ])

def writeConnectInitial (der : Der) (screenWidth screenHeight : UInt16)
    (keyboardLayout : Gcc.KeyboardLayout) (clientName : String) : Prog Error Client Unit := do
  let selectedProtocol := (← get).selectedProtocol
  let userData ← Prog.lift
    (userData selectedProtocol screenWidth screenHeight keyboardLayout clientName)
  let conference ← Prog.lift (Gcc.writeConferenceCreateRequest userData)
  onX224 (X224.Client.write (.leaf (.bytes (der.toDer (connectInitial (some conference))))))

def readConnectResponse (der : Der) : Prog Error Client Unit := do
  let payload ← Prog.lift (rawPayload (← onX224 X224.Client.read))
  let connectResponse ← Prog.lift (der.fromBer (connectResponse none) payload)
  let ccResponse ← Prog.lift (← Prog.lift (connectResponse.visit.field "userData")).castOctetString
  let (serverData, _) ← Prog.on ccResponse Gcc.readConferenceCreateResponse
  modify fun client => { client with serverData := some serverData }

/--
A channel that the server does not let the client join stays in the map.
-/
def joinChannels (channelIds : List UInt16) : Prog Error Client Unit := do
  match channelIds with
  | [] => return ()
  | channelId :: channelIds =>
    let userId := (← get).userId
    let request ← Prog.lift (channelJoinRequest userId (some channelId))
    onX224 (X224.Client.write request)
    let userId ← Prog.lift (unwrapOption userId)
    let payload ← Prog.lift (rawPayload (← onX224 X224.Client.read))
    let _ ← Prog.on payload (readChannelJoinConfirm userId channelId)
    joinChannels channelIds

def attachUser : Prog Error Client UInt16 := do
  let request ← Prog.lift erectDomainRequest
  onX224 (X224.Client.write request)
  onX224 (X224.Client.write (.leaf (.u8 attachUserRequest)))
  let payload ← Prog.lift (rawPayload (← onX224 X224.Client.read))
  let (userId, _) ← Prog.on payload readAttachUserConfirm
  return userId

def connect (der : Der) (clientName : String) (screenWidth screenHeight : UInt16)
    (keyboardLayout : Gcc.KeyboardLayout) : Prog Error Client Unit := do
  writeConnectInitial der screenWidth screenHeight keyboardLayout clientName
  readConnectResponse der
  let userId ← attachUser
  modify fun client => { client with
    userId := some userId
    channelIds := insertChannel client.place "user" userId
      (insertChannel client.place "global" 1003 client.channelIds) }
  joinChannels ((← get).channelIds.map (·.2))

def request (user channel : UInt16) (length : Nat) (message : Message) : Message := .trame [
  .leaf (.u8 (mcsPduHeader (some .sendDataRequest) none)),
  .leaf (.u16 .be user),
  .leaf (.u16 .be channel),
  .leaf (.u8 0x70),
  .trame (Per.writeLength (.ofNat length)),
  message
]

def write (channelName : String) (message : Message) : Prog Error Client Unit := do
  let client ← get
  let userId ← Prog.lift (unwrapOption client.userId)
  let user ← Prog.lift (checkedSub userId.toNat 1001)
  let channel ← Prog.lift (channelId client.channelIds channelName)
  let length ← Prog.lift message.length
  onX224 (X224.Client.write (request (.ofNat user) channel length message))

/--
The payload of a fast path packet is for the global channel.
-/
def read : Prog Error Client (String × Tpkt.Payload) := do
  match ← onX224 X224.Client.read with
  | .raw payload =>
    let channels := (← get).channelIds
    let (channelName, payload) ← Prog.on payload (readIndication channels)
    return (channelName, .raw payload)
  | .fastPath secFlag payload => return ("global", .fastPath secFlag payload)

def shutdown (close : TlsStream → RdpResult Unit) : Prog Error Client Unit := do
  onX224 (X224.Client.write (.trame [
    .leaf (.u8 (mcsPduHeader (some .disconnectProviderUltimatum) (some 1))),
    .leaf (.u8 (Per.writeEnumerates 0x80)),
    .leaf (.bytes [0, 0, 0, 0, 0, 0])
  ]))
  onX224 (X224.Client.shutdown close)

def isRdpVersion5Plus (client : Client) : RdpResult Bool := do
  let serverData ← unwrapOption client.serverData
  return serverData.rdpVersion = .rdpVersion5plus

def getUserId (client : Client) : RdpResult UInt16 := unwrapOption client.userId

def getGlobalChannelId (client : Client) : RdpResult UInt16 := channelId client.channelIds "global"

end Client

end Rdp.Mcs
