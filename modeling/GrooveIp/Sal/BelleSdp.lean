import GrooveIp.Lib.Scanf
import GrooveIp.Sal.Description

/-!
# belle-sdp descriptions

The objects of `belle_sdp_impl.c` that the SDP reader and writer of `sal_sdp.c` use, with
their accessors. An attribute of the names in `attribute_table` is always one of the two
specialised objects; every other attribute keeps its text.
-/

namespace GrooveIp.Sal

open Lib

/-! ### Attributes -/

/-- `belle_sdp_rtcp_fb_val_type_t` (`belle-sdp.h:57`). -/
inductive RtcpFbValType where
  | ack | nack | trrInt | ccm
  deriving DecidableEq, Repr

/-- `belle_sdp_rtcp_fb_val_param_t` (`belle-sdp.h:63`). -/
inductive RtcpFbValParam where
  | none | pli | sli | rpsi | app | fir | tmmbr
  deriving DecidableEq, Repr

/-- `_belle_sdp_rtcp_fb_attribute` (`belle_sdp_impl.c:167`) as its constructor leaves it. -/
structure BelleSdpRtcpFbAttribute where
  type : RtcpFbValType := .trrInt
  param : RtcpFbValParam := .none
  smaxpr : UInt32 := 0
  trrInt : UInt16 := 0
  id : Int8 := -1
  deriving DecidableEq, Repr

/-- `_belle_sdp_rtcp_xr_attribute` (`belle_sdp_impl.c:284`). -/
structure BelleSdpRtcpXrAttribute where
  rcvrRttMode : Option CString := none
  rcvrRttMaxSize : Int := 0
  statSummary : Bool := false
  statSummaryFlags : List CString := []
  voipMetrics : Bool := false
  deriving DecidableEq, Repr

/-- The names in `attribute_table` (`belle_sdp_impl.c:58–61`), in any case of letters. -/
def isSpecialised (name : CString) : Bool :=
  strcaseEq "rtcp-fb".toList name || strcaseEq "rtcp-xr".toList name

/-- `belle_sdp_attribute_t` (`belle_sdp_impl.c:62`) with its subclasses. -/
inductive BelleSdpAttribute where
  | raw (name : CString) (value : Option CString) (h : isSpecialised name = false)
  | rtcpFb (fb : BelleSdpRtcpFbAttribute)
  | rtcpXr (xr : BelleSdpRtcpXrAttribute)
  deriving DecidableEq, Repr

namespace BelleSdpAttribute

/-- `belle_sdp_attribute_get_name`. -/
def name : BelleSdpAttribute → CString
  | raw name _ _ => name
  | rtcpFb _ => "rtcp-fb".toList
  | rtcpXr _ => "rtcp-xr".toList

end BelleSdpAttribute

/-- `belle_sdp_rtcp_fb_attribute_marshal` (`belle_sdp_impl.c:193–262`), after the name. -/
def BelleSdpRtcpFbAttribute.marshal (a : BelleSdpRtcpFbAttribute) : CString :=
  let pt := if a.id < 0 then "* ".toList else printNat a.id.toInt.toNat ++ " ".toList
  let val := match a.type with
    | .ack => "ack".toList ++ match a.param with
      | .rpsi => " rpsi".toList
      | .app => " app".toList
      | _ => []
    | .nack => "nack".toList ++ match a.param with
      | .pli => " pli".toList
      | .sli => " sli".toList
      | .rpsi => " rpsi".toList
      | .app => " app".toList
      | _ => []
    | .trrInt => "trr-int ".toList ++ printNat a.trrInt.toNat
    | .ccm => "ccm".toList ++ match a.param with
      | .fir => " fir".toList
      | .tmmbr => " tmmbr".toList ++
        if a.smaxpr > 0 then " smaxpr=".toList ++ printNat a.smaxpr.toNat else []
      | _ => []
  ':' :: pt ++ val

/-- `belle_sdp_rtcp_xr_attribute_marshal` (`belle_sdp_impl.c:309–339`), after the name. -/
def BelleSdpRtcpXrAttribute.marshal (a : BelleSdpRtcpXrAttribute) : CString :=
  let rcvrRtt := a.rcvrRttMode.toList.map fun mode => "rcvr-rtt=".toList ++ mode ++
    if a.rcvrRttMaxSize > 0 then ':' :: printInt a.rcvrRttMaxSize else []
  let statSummary := if a.statSummary then ["stat-summary".toList ++ match a.statSummaryFlags with
      | [] => []
      | flags => '=' :: [','].intercalate flags]
    else []
  let voipMetrics := if a.voipMetrics then ["voip-metrics".toList] else []
  match rcvrRtt ++ statSummary ++ voipMetrics with
  | [] => []
  | formats => ':' :: [' '].intercalate formats

/-- `belle_sip_object_to_string` of an attribute. -/
def BelleSdpAttribute.marshal (a : BelleSdpAttribute) : CString :=
  "a=".toList ++ a.name ++ match a with
    | .raw _ value _ => (value.map fun v => ':' :: v).getD []
    | .rtcpFb fb => fb.marshal
    | .rtcpXr xr => xr.marshal

/-- `belle_sdp_attribute_get_value` (`belle_sdp_impl.c:102–118`): a place in the marshalled
text, so never NULL. -/
def BelleSdpAttribute.getValue (a : BelleSdpAttribute) : CString :=
  let ret := a.marshal.drop (a.name.length + 2)
  let ret := match ret with
    | ':' :: s => s
    | s => s
  ret.dropWhile (· == ' ')

/-- `_belle_sdp_connection` (`belle_sdp_impl.c:378`). -/
structure BelleSdpConnection where
  networkType : CString
  addressType : CString
  address : Option CString
  ttl : Int := 0
  range : Int := 0
  deriving DecidableEq, Repr

/-- `_belle_sdp_media` (`belle_sdp_impl.c:475`). -/
structure BelleSdpMedia where
  mediaType : CString
  mediaPort : Int
  mediaFormats : List Int := []
  portCount : Int := 1
  protocol : Option CString
  deriving DecidableEq, Repr

/-- `belle_sdp_base_description_t` (`belle_sdp_impl.c:541`). -/
structure BelleSdpBaseDescription where
  connection : Option BelleSdpConnection := none
  bandwidths : List (CString × Int) := []
  attributes : List BelleSdpAttribute := []
  deriving DecidableEq, Repr

/-- `_belle_sdp_media_description` (`belle_sdp_impl.c:702`); a parsed one has its `m=` line. -/
structure BelleSdpMediaDescription extends BelleSdpBaseDescription where
  media : BelleSdpMedia
  deriving DecidableEq, Repr

/-- `_belle_sdp_origin` (`belle_sdp_impl.c:1108`). -/
structure BelleSdpOrigin where
  username : CString
  sessionId : UInt32
  sessionVersion : UInt32
  networkType : CString
  addressType : CString
  address : CString
  deriving DecidableEq, Repr

/-- `_belle_sdp_session_description` (`belle_sdp_impl.c:1213`), with the lines that are read
or written here. -/
structure BelleSdpSessionDescription extends BelleSdpBaseDescription where
  origin : Option BelleSdpOrigin := none
  sessionName : Option CString := none
  mediaDescriptions : List BelleSdpMediaDescription := []
  deriving DecidableEq, Repr

namespace BelleSdpBaseDescription

variable (d : BelleSdpBaseDescription)

/-- `belle_sdp_base_description_get_attribute` (`belle_sdp_impl.c:613`). -/
def getAttribute (name : String) : Option BelleSdpAttribute :=
  d.attributes.find? fun a => a.name == name.toList

/-- `belle_sdp_base_description_get_attribute_value` (`belle_sdp_impl.c:622`). -/
def getAttributeValue (name : String) : Option CString :=
  (d.getAttribute name).map BelleSdpAttribute.getValue

/-- `belle_sdp_base_description_get_bandwidth_value` (`belle_sdp_impl.c:646`). -/
def getBandwidth (type : String) : Int :=
  ((d.bandwidths.find? fun b => b.1 == type.toList).map Prod.snd).getD (-1)

end BelleSdpBaseDescription

/-! ### Payload types -/

/-- `_belle_sdp_mime_parameter` (`belle_sdp_impl.c:25`) as its constructor leaves it; a type
that was never set is the empty string. -/
structure BelleSdpMimeParameter where
  rate : Int := 0
  channelCount : Int := 0
  ptime : Int := -1
  maxPtime : Int := -1
  mediaFormat : Int := 0
  type : CString := []
  parameters : Option CString := none
  deriving DecidableEq, Repr

/-- `struct static_payload` (`belle_sdp_impl.c:790`). -/
structure StaticPayload where
  number : Int
  channelCount : Int
  type : CString
  rate : Int
  deriving DecidableEq, Repr

/-- `static_payload_list` (`belle_sdp_impl.c:845–872`). -/
def staticPayloadList : List StaticPayload :=
  [⟨0, 1, "PCMU".toList, 8000⟩, ⟨3, 1, "GSM".toList, 8000⟩, ⟨4, 1, "G723".toList, 8000⟩,
    ⟨5, 1, "DVI4".toList, 8000⟩, ⟨6, 1, "DVI4".toList, 16000⟩, ⟨7, 1, "LPC".toList, 8000⟩,
    ⟨8, 1, "PCMA".toList, 8000⟩, ⟨9, 1, "G722".toList, 8000⟩, ⟨10, 2, "L16".toList, 44100⟩,
    ⟨11, 1, "L16".toList, 44100⟩, ⟨12, 1, "QCELP".toList, 8000⟩, ⟨13, 1, "CN".toList, 8000⟩,
    ⟨14, 1, "MPA".toList, 90000⟩, ⟨15, 1, "G728".toList, 8000⟩, ⟨16, 1, "DVI4".toList, 11025⟩,
    ⟨17, 1, "DVI4".toList, 22050⟩, ⟨18, 1, "G729".toList, 8000⟩, ⟨25, 0, "CelB".toList, 90000⟩,
    ⟨26, 0, "JPEG".toList, 90000⟩, ⟨28, 0, "nv".toList, 90000⟩, ⟨31, 0, "H261".toList, 90000⟩,
    ⟨32, 0, "MPV".toList, 90000⟩, ⟨33, 0, "MP2T".toList, 90000⟩, ⟨34, 0, "H263".toList, 90000⟩]

/-- `mime_parameter_fill_from_static` (`belle_sdp_impl.c:891–904`). -/
def mimeParameterFillFromStatic (p : BelleSdpMimeParameter) (format : Int) :
    BelleSdpMimeParameter :=
  match staticPayloadList.find? fun s => s.number == format with
  | some s => { p with type := s.type, rate := s.rate, channelCount := s.channelCount }
  | none => p

/-- `mime_parameter_fill_from_rtpmap` (`belle_sdp_impl.c:906–924`). -/
def mimeParameterFillFromRtpmap (p : BelleSdpMimeParameter) (rtpmap : CString) (isAudio : Bool) :
    BelleSdpMimeParameter :=
  let p := { p with type := rtpmap.takeWhile (· != '/') }
  match rtpmap.dropWhile (· != '/') with
  | [] => p
  | _ :: rest =>
    let p := match rest.dropWhile (· != '/') with
      | _ :: chans => { p with channelCount := atoi chans }
      | [] => if isAudio then { p with channelCount := 1 } else p
    { p with rate := atoi (rest.takeWhile (· != '/')) }

/-- The format `"%i %n"` (`belle_sdp_impl.c:938`). -/
def attrWithPtFormat : List Directive := [.number .anyBase, .space, .count]

/-- `belle_sdp_media_description_a_attr_value_get_with_pt` (`belle_sdp_impl.c:926–950`). -/
def aAttrValueGetWithPt (pt : Int) (field : String) :
    List BelleSdpAttribute → Except Fault (Option CString)
  | [] => .ok none
  | attr :: attributes =>
    if field.toList == attr.name then do
      match ← sscanf attrWithPtFormat attr.getValue with
      | [.number tmppt, .offset scanned] =>
        if pt = tmppt then
          let tmp ← readFrom attr.getValue scanned
          if tmp.length > 0 then return some tmp
          else aAttrValueGetWithPt pt field attributes
        else aAttrValueGetWithPt pt field attributes
      | _ => aAttrValueGetWithPt pt field attributes
    else aAttrValueGetWithPt pt field attributes

/-- One format of the `m=` line (`belle_sdp_impl.c:977–1000`). -/
def buildMimeParameter (d : BelleSdpMediaDescription) (format : Int) :
    Except Fault BelleSdpMimeParameter := do
  let p : BelleSdpMimeParameter :=
    { ptime := ((d.getAttributeValue "ptime").map atoi).getD (-1)
      maxPtime := ((d.getAttributeValue "maxptime").map atoi).getD (-1)
      mediaFormat := format }
  let p ← match ← aAttrValueGetWithPt format "rtpmap" d.attributes with
    | some rtpmap =>
      pure (mimeParameterFillFromRtpmap p rtpmap (strcaseEq d.media.mediaType "audio".toList))
    | none => pure (mimeParameterFillFromStatic p format)
  match ← aAttrValueGetWithPt format "fmtp" d.attributes with
  | some fmtp => return { p with parameters := some fmtp }
  | none => return p

/-- `belle_sdp_media_description_build_mime_parameters` (`belle_sdp_impl.c:952–1002`). -/
def buildMimeParameters (d : BelleSdpMediaDescription) :
    Except Fault (List BelleSdpMimeParameter) :=
  d.media.mediaFormats.mapM (buildMimeParameter d)

end GrooveIp.Sal
