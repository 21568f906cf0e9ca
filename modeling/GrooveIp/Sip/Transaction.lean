import GrooveIp.Lib.Memory

/-!
# SIP transactions

What client and server transactions share: their states (`belle-sip.h`, `transaction.c`), the states
of the channel they listen to (`channel.h:32`) and the channel as far as a transaction sees it.
-/

namespace GrooveIp.Sip

open Lib

/-- `belle_sip_transaction_state_t`. -/
inductive TransactionState where
  | init
  | trying
  | calling
  | completed
  | confirmed
  | accepted
  | proceeding
  | terminated
  deriving DecidableEq, Repr

/-- `belle_sip_transaction_state_is_transient` (`transaction.c:241`). -/
def TransactionState.isTransient : TransactionState → Bool
  | .init | .trying | .calling | .proceeding => true
  | .completed | .confirmed | .accepted | .terminated => false

/-- `belle_sip_channel_state_t` (`channel.h:32`). -/
inductive ChannelState where
  | init
  | resInProgress
  | resDone
  | connecting
  | retry
  | ready
  | error
  | disconnected
  deriving DecidableEq, Repr

/-- A channel a transaction sends on. -/
structure Channel where
  reliable : Bool
  deriving DecidableEq, Repr

/-- A pointer to a channel that is followed. -/
def followChannel : Option Channel → Except Fault Channel
  | some channel => .ok channel
  | none => .error .nullDereference

end GrooveIp.Sip
