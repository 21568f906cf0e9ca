import GrooveIp.Sal.SdpNames
import GrooveIp.Lib.Printed
import Mathlib.Data.List.TakeWhile

/-!
# Crypto lines, RTCP addresses and ICE through SDP

The lines that `sal_sdp.c` prints with `snprintf` and takes apart with `sscanf`: the crypto
lines (`sal_sdp.c:259–272`, `sal_sdp.c:486–533`), `a=rtcp` (`sal_sdp.c:322–332`,
`sal_sdp.c:812–826`) and the ICE attributes (`sal_sdp.c:29–75`, `sal_sdp.c:336–347`,
`sal_sdp.c:535–585`).
-/

namespace GrooveIp.Sal

open Lib List BelleSdpAttribute
open Function (update)

/-! ### Crypto lines -/

/-- A crypto entry that its line can say. -/
structure SalSrtpCryptoAlgo.WellFormed (c : SalSrtpCryptoAlgo) : Prop where
  isWord : IsWord c.masterKey
  length_lt : c.masterKey.length < salSrtpKeySize
  bar : '|' ∉ c.masterKey

variable {stream : SalStreamDescription}

variable {port : Int}

section

variable (ice : IceFields) {attr : BelleSdpAttribute}

end

/-! ### ICE candidates -/

/-- A candidate that its line can say. -/
structure SalIceCandidate.WellFormed (c : SalIceCandidate) : Prop extends c.Terminated where
  foundation_word : IsWord c.foundation
  addr_word : IsWord c.addr
  type_word : IsWord c.type
  raddr_word : c.raddr ≠ [] → IsWord c.raddr
  port_range : 0 ≤ c.port ∧ c.port < 2 ^ 16
  rport_range : 0 ≤ c.rport ∧ c.rport < 2 ^ 16

/-- A candidate as it is read back: a related port goes with a related address. -/
def SalIceCandidate.readBack (c : SalIceCandidate) : SalIceCandidate :=
  { c with rport := if c.raddr = [] then 0 else c.rport }

/-- Is the remote candidate written (`sal_sdp.c:65`)? -/
def SalIceRemoteCandidate.Usable (c : SalIceRemoteCandidate) : Prop := c.addr ≠ [] ∧ c.port ≠ 0

instance (c : SalIceRemoteCandidate) : Decidable c.Usable := inferInstanceAs (Decidable (_ ∧ _))

/-- A remote candidate that its line can say. -/
structure SalIceRemoteCandidate.WellFormed (c : SalIceRemoteCandidate) : Prop where
  addr_word : IsWord c.addr
  addr_length : c.addr.length < salMaxIceAddrLen
  port_range : 0 ≤ c.port ∧ c.port < 2 ^ 16

variable {c : SalIceRemoteCandidate}

/-- ICE fields that their lines can say. -/
structure IceWellFormed (stream : SalStreamDescription) : Prop where
  candidates : ∀ c ∈ usableCandidates stream, c.WellFormed
  candidates_length : stream.iceCandidates.length ≤ salMaxIceCandidates
  remoteCandidates : ∀ i, (stream.iceRemoteCandidates i).Usable →
    (stream.iceRemoteCandidates i).WellFormed
  ufrag_space : NoSpace stream.iceUfrag
  ufrag_length : stream.iceUfrag.length < salMaxIceUfragLen
  pwd_space : NoSpace stream.icePwd
  pwd_length : stream.icePwd.length < salMaxIcePwdLen

end GrooveIp.Sal
