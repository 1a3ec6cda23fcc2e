import Canbox.Rpcudp.Outstanding

/-!
# When `transport.send` throws

`rpc()` (`rpcudp/index.js:132`) arms its timer with `setTimeout` before it
calls `transport.send`, and registers the promise only in the send callback.
`transport.send` throws synchronously on a port outside `[0, 65535]` (one read
from a peer's node list, say) and on a closed socket. Then `rpc()` throws and
its caller sees a rejected promise, but the timer stays armed, and the send
callback never runs. When the timer fires, `_timeout` finds no entry under the
msgid and throws a `TypeError` out of the timer callback
(`rpcSendThrows_leaves_throwing_timer`).

A request over 512 bytes throws before the timer is armed, and leaves nothing
behind. The timer also meets a missing entry in runs where no send throws, when
it fires before the send callback (`timerFires_throws_of_sendPending`).
-/

set_option autoImplicit false

namespace Canbox.Rpcudp

namespace RPCProtocol

/-- **A throwing send leaves a timer that throws.** In every reachable state,
a call of `rpc()` that draws a fresh msgid and whose request fits in 512 bytes,
but whose `transport.send` throws, leaves its timer armed and no entry under its
key; when that timer fires, `_timeout` throws. -/
theorem rpcSendThrows_leaves_throwing_timer {s : RPCProtocol} (h : Reachable s)
    {name : List UInt8} {args : List Value} {msgid : List UInt8}
    (hfresh : base64 msgid ∉ s.calls.map Call.btos)
    (hfit : (frame 0x00 msgid (.arr [.str name, .arr args])).length ≤ 512) :
    (s.rpcSendThrows name args msgid).calls[s.calls.length]? =
        some ⟨base64 msgid, true, true, none⟩ ∧
      (s.rpcSendThrows name args msgid).entry (base64 msgid) = none ∧
      (s.rpcSendThrows name args msgid).timerFires s.calls.length = .error .notIterable := by
  have hc : (s.rpcSendThrows name args msgid).calls[s.calls.length]? =
      some ⟨base64 msgid, true, true, none⟩ := by
    rw [show s.rpcSendThrows name args msgid =
      { s with calls := s.calls ++ [⟨base64 msgid, true, true, none⟩] } from if_neg (Nat.not_lt.2 hfit)]
    simp
  have hi : Inv (s.rpcSendThrows name args msgid) := h.inv.rpcSendThrows hfresh
  exact ⟨hc, hi.entry_of_sendPending hc rfl, timerFires_throws_of_sendPending hi hc rfl rfl⟩

/-- A fresh protocol, a `ping` with the msgid of twenty `0x07` bytes. -/
theorem rpcSendThrows_leaves_throwing_timer_ping :
    Reachable new ∧ base64 (List.replicate 20 7) ∉ new.calls.map Call.btos ∧
      (frame 0x00 (List.replicate 20 7) (.arr [.str (utf8 "ping"), .arr []])).length ≤ 512 ∧
      ((new.rpcSendThrows (utf8 "ping") [] (List.replicate 20 7)).calls[0]? =
          some ⟨base64 (List.replicate 20 7), true, true, none⟩ ∧
        (new.rpcSendThrows (utf8 "ping") [] (List.replicate 20 7)).entry
          (base64 (List.replicate 20 7)) = none ∧
        (new.rpcSendThrows (utf8 "ping") [] (List.replicate 20 7)).timerFires 0 =
          .error .notIterable) :=
  ⟨.new, by simp [new], by decide,
    rpcSendThrows_leaves_throwing_timer .new (by simp [new]) (by decide)⟩

end RPCProtocol

end Canbox.Rpcudp
