import GrooveIp.Sip.Transaction

/-!
# SIP dialogs

What the users of a dialog see of it.
-/

namespace GrooveIp.Sip

/-- `belle_sip_dialog_state_t` (`dialog.h:22`). -/
inductive DialogState where
  | null
  | early
  | confirmed
  | terminated
  deriving DecidableEq, Repr

end GrooveIp.Sip
