import GrooveIp.Sal.OfferAnswer

/-!
# The descriptions a call runs with

`SalCallOp::sdpProcess` (`call-op.cpp:296–351`) calls the offer/answer engine and, on the
answering side, writes constraints of the offer back into the result: what the upper layer
runs is not the answer that was sent.
-/

namespace GrooveIp.Sal

/-- `is_null_address` (`c-sal.cpp:177–179`). -/
def isNullAddress (addr : CString) : Bool :=
  addr == "0.0.0.0".toList || addr == "::0".toList

/-- `sal_stream_description_active` (`c-sal.cpp:216–218`). -/
def SalStreamDescription.active (sd : SalStreamDescription) : Bool := decide (sd.rtpPort > 0)

/-- `has_dir` (`c-sal.cpp:182–198`). -/
def SalMediaDescription.hasDirStream (md : SalMediaDescription) (streamDir : SalStreamDir) : Bool :=
  (List.ofFn md.streams).any fun ss =>
    ss.active && (ss.dir == streamDir || (ss.dir == .sendRecv && streamDir == .sendOnly
      && (isNullAddress md.addr || isNullAddress ss.rtpAddr)))

/-- `sal_media_description_has_dir` (`c-sal.cpp:200–214`). -/
def SalMediaDescription.hasDir (md : SalMediaDescription) (streamDir : SalStreamDir) : Bool :=
  match streamDir with
  | .recvOnly =>
    md.hasDirStream .recvOnly && !(md.hasDirStream .sendOnly || md.hasDirStream .sendRecv)
  | .sendOnly =>
    md.hasDirStream .sendOnly && !(md.hasDirStream .recvOnly || md.hasDirStream .sendRecv)
  | .sendRecv => md.hasDirStream .sendRecv
  | .inactive =>
    !(md.hasDirStream .sendOnly || md.hasDirStream .sendRecv || md.hasDirStream .recvOnly)

/-- The settings of the `Sal` root that `sdpProcess` reads. -/
structure SalRoot where
  factory : MSFactory
  oneMatchingCodec : Bool := false
  cnxIpTo0000IfSendOnlyEnabled : Bool := false

section

-- `ms_is_multicast` and `ms_is_ipv6` ask the resolver of the system
variable (isMulticast isIpv6 : CString → Bool)

/-- `SalCallOp::setAddrTo0000` (`call-op.cpp:287–294`). -/
def setAddrTo0000 (value : CString) : CString :=
  if isIpv6 value then "::0".toList else "0.0.0.0".toList

/-- The null addresses of a held call (`call-op.cpp:315–323`). -/
def nullAddresses (root : SalRoot) (md : SalMediaDescription) : SalMediaDescription :=
  if root.cnxIpTo0000IfSendOnlyEnabled && md.hasDir .sendOnly then
    { md with
      addr := setAddrTo0000 isIpv6 md.addr
      streams := fun i =>
        let s := md.streams i
        if s.dir = .sendOnly then
          { s with
            rtpAddr := setAddrTo0000 isIpv6 s.rtpAddr
            rtcpAddr := setAddrTo0000 isIpv6 s.rtcpAddr }
        else s }
  else md

/-- The copy of the constraints of the offer into an accepted stream of the result
(`call-op.cpp:333–345`). -/
def copyBackStream (remote result : SalStreamDescription) : SalStreamDescription :=
  if result.rtpPort ≠ 0 then
    let result := { result with
      rtpAddr := remote.rtpAddr
      ptime := remote.ptime
      bandwidth := remote.bandwidth
      rtpPort := remote.rtpPort
      rtcpAddr := remote.rtcpAddr
      rtcpPort := remote.rtcpPort }
    if result.hasSrtp then
      { result with crypto := fun i => if i = 0 then remote.crypto 0 else result.crypto i }
    else result
  else result

/-- What `sdpProcess` leaves behind: the answer that was sent, if any, and the result. -/
structure SdpProcessed where
  sdpAnswer : Option SalMediaDescription
  result : SalMediaDescription

/-- `SalCallOp::sdpProcess` with a parsed remote description (`call-op.cpp:296–351`). -/
def sdpProcess (root : SalRoot) (sdpOffering : Bool) (localMedia remoteMedia : SalMediaDescription) :
    SdpProcessed :=
  if sdpOffering then
    { sdpAnswer := none
      result := offerAnswerInitiateOutgoing isMulticast root.factory localMedia remoteMedia
        salMediaDescriptionNew }
  else
    let answer := nullAddresses isIpv6 root (offerAnswerInitiateIncoming isMulticast root.factory
      localMedia remoteMedia salMediaDescriptionNew root.oneMatchingCodec)
    { sdpAnswer := some answer
      result := { answer with
        addr := remoteMedia.addr
        bandwidth := remoteMedia.bandwidth
        streams := fun i => copyBackStream (remoteMedia.streams i) (answer.streams i) } }

end

end GrooveIp.Sal
