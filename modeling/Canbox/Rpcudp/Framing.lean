import Canbox.Rpcudp.Outstanding

/-!
# What `_solveDatagram` makes of a datagram

Of any datagram: one under 22 bytes is ignored, and so is one whose kind byte
is neither `00` nor `01` once its body decodes, and either leaves the protocol
as it was (`datagramReceived_of_foreign`); the body is decoded first, and
`datagram_received` throws exactly when the datagram has 22 bytes or more and
its body does not decode (`datagramReceived_eq_error_iff`). Nothing catches
that throw, and a body of one byte already makes it
(`datagram_received_throws_on_truncated_body`).

Of the datagrams the protocol builds itself: a frame reads back as what was
framed, with its msgid, as soon as `decode` inverts `encode` on its body
(`solveDatagram_frame`). So the request `rpc` sends reaches `rpc_<name>` with
the sender and the arguments, and the reply to it settles the promise `rpc`
registered with the method's answer, in every reachable state and whatever
other calls are outstanding (`rpc_round_trip`). That the reply settles its own
call and no other rests on the keys: `base64` tells 20-byte msgids apart
(`base64_inj`).
-/

set_option autoImplicit false

namespace Canbox.Rpcudp

/-! ## Any datagram -/

theorem solveDatagram_of_lt {d : List UInt8} (h : d.length < 22) : solveDatagram d = .ok .ignored :=
  if_pos h

/-- For a datagram of 22 bytes or more, what is left once the body decoded. -/
theorem solveDatagram_of_le {d : List UInt8} (h : 22 ≤ d.length) :
    solveDatagram d = (fun data =>
      if d.head? = some 0x00 then .request ((d.drop 1).take 20) data
      else if d.head? = some 0x01 then .response ((d.drop 1).take 20) data
      else .ignored) <$> (decode (d.drop 21)).mapError .decode := by
  unfold solveDatagram
  rw [if_neg (by omega)]
  cases decode (d.drop 21)
  · rfl
  · simp only [Except.mapError, bind, Except.bind, Functor.map, Except.map]
    split_ifs <;> rfl

theorem solveDatagram_eq_error_iff (d : List UInt8) :
    (∃ e, solveDatagram d = .error e) ↔ 22 ≤ d.length ∧ ∃ e, decode (d.drop 21) = .error e := by
  by_cases h : d.length < 22
  · simp [solveDatagram_of_lt h, h]
  · rw [solveDatagram_of_le (by omega)]
    cases decode (d.drop 21) <;> simp [Except.mapError, Functor.map, Except.map]; omega

/-- `datagram_received` throws exactly on a datagram of 22 bytes or more whose
body does not decode, whatever its kind byte, the state and the sender. -/
theorem datagramReceived_eq_error_iff (s : RPCProtocol) (d : List UInt8) (addr : Address) :
    (∃ e, s.datagramReceived d addr = .error e) ↔
      22 ≤ d.length ∧ ∃ e, decode (d.drop 21) = .error e := by
  rw [← solveDatagram_eq_error_iff]
  unfold RPCProtocol.datagramReceived
  split <;> simp_all

/-- **A truncated body throws out of `datagram_received`.** A request of 22
bytes whose body is `0xd9`, the header of a string whose length byte is
missing: `decode` throws `IncompleteBufferError`, whatever the state and the
sender. -/
theorem datagram_received_throws_on_truncated_body (s : RPCProtocol) (addr : Address) :
    s.datagramReceived (0x00 :: List.replicate 20 0 ++ [0xd9]) addr =
      .error (.decode .incompleteBuffer) :=
  rfl

/-! ## The datagrams the protocol builds -/

theorem length_frame (kind : UInt8) (msgid : List UInt8) (body : Value) :
    (frame kind msgid body).length = 1 + msgid.length + body.encode.length := by
  simp [frame]; omega

/-- `rpc` sends the frame and registers the call when the request fits, and
throws on its size check when it does not. -/
theorem rpc_eq_if_requestFits (s : RPCProtocol) (name : List UInt8) (args : List Value)
    {msgid : List UInt8} (hid : msgid.length = 20) :
    s.rpc name args msgid =
      if RPCProtocol.requestFits name args then
        .ok ({ s with calls := s.calls ++ [⟨base64 msgid, true, true, none⟩] },
          frame 0x00 msgid (.arr [.str name, .arr args]))
      else .error .constructorWithoutNew := by
  unfold RPCProtocol.rpc RPCProtocol.requestFits
  dsimp only
  rw [length_frame, hid]
  by_cases h : 1 + 20 + (Value.arr [.str name, .arr args]).encode.length ≤ 512
  · rw [if_neg (by omega), if_pos (decide_eq_true h)]; rfl
  · rw [if_pos (by omega), if_neg (by simpa using h)]; rfl

/-- **A frame reads back as what was framed.** -/
theorem solveDatagram_frame (kind : UInt8) {msgid : List UInt8} {body : Value}
    (hid : msgid.length = 20) (hdec : decode body.encode = .ok body) :
    solveDatagram (frame kind msgid body) =
      .ok (if kind = 0x00 then .request msgid body
        else if kind = 0x01 then .response msgid body else .ignored) := by
  have hlen : 22 ≤ (frame kind msgid body).length := by
    have := List.length_pos.2 (encode_ne_nil body)
    rw [length_frame]; omega
  have hid' : ((frame kind msgid body).drop 1).take 20 = msgid := by
    simp [frame, ← hid]
  have hbody : (frame kind msgid body).drop 21 = body.encode := by
    simp [frame, ← hid, List.drop_append_eq_append_drop]
  rw [solveDatagram_of_le hlen, hid', hbody, hdec]
  simp [frame, Except.mapError, Functor.map, Except.map]

/-- The reply `_acceptRequest` frames under a 20-byte msgid reads back as a
response with that msgid. -/
theorem solveDatagram_answer {m : List UInt8} {r : Value} (hm : m.length = 20)
    (hres : decode r.encode = .ok r) : solveDatagram (answer m r) = .ok (.response m r) := by
  simpa using solveDatagram_frame 0x01 hm hres

/-- **A request and its reply survive the framing, and the reply reaches its
own call.** Whenever `decode` inverts `encode` on the request body and on the
answer `r`, and the request fits 512 bytes: `rpc` registers the call under
`base64 msgid` and sends a datagram that `_solveDatagram` reads back as a
request with the same msgid and the body `[name, args]`, which `_acceptRequest`
hands to `rpc_<name>` with the sender and the arguments, if the protocol has
that method. The reply framed for `r` reads back as a response with that msgid.
And in every reachable state, whatever other calls are outstanding, a call
registered under `base64 msgid` whose promise is pending is settled with
`[true, r]` by the reply carrying `msgid`, which leaves every other call as it
was, and by no reply carrying another 20-byte msgid: two msgids have one key
only when they are one msgid. -/
theorem rpc_round_trip (s : RPCProtocol) (name msgid : List UInt8) (args : List Value)
    (r : Value) (methods : List UInt8 → Bool) (sender addr : Address) (hid : msgid.length = 20)
    (hfit : (frame 0x00 msgid (.arr [.str name, .arr args])).length ≤ 512)
    (hreq : decode (Value.arr [.str name, .arr args]).encode = .ok (.arr [.str name, .arr args]))
    (hres : decode r.encode = .ok r) :
    s.rpc name args msgid = .ok ({ s with calls := s.calls ++ [⟨base64 msgid, true, true, none⟩] },
        frame 0x00 msgid (.arr [.str name, .arr args])) ∧
      solveDatagram (frame 0x00 msgid (.arr [.str name, .arr args])) =
        .ok (.request msgid (.arr [.str name, .arr args])) ∧
      acceptRequest methods (.arr [.str name, .arr args]) sender =
        (if methods (utf8 "rpc_" ++ name) then .call (utf8 "rpc_" ++ name) sender args
          else .noMethod) ∧
      solveDatagram (answer msgid r) = .ok (.response msgid r) ∧
      ∀ t : RPCProtocol, RPCProtocol.Reachable t → ∀ (i : Nat) (c : Call), t.calls[i]? = some c →
        c.btos = base64 msgid → c.sendPending = false → c.promise = none →
        ∀ m : List UInt8, m.length = 20 → ∃ t', t.datagramReceived (answer m r) addr = .ok (t', none) ∧
          t'.calls[i]? =
            (if m = msgid then some { c with timerArmed := false, promise := some (true, r) }
              else some c) ∧
          (m = msgid → ∀ j, j ≠ i → t'.calls[j]? = t.calls[j]?) := by
  refine ⟨if_neg (by omega), by simpa using solveDatagram_frame 0x00 hid hreq,
    by simp only [acceptRequest, jsString, spread], solveDatagram_answer hid hres, ?_⟩
  intro t ht i c hc hkey hsent hp m hm
  have hi := ht.inv
  have he : t.entry (base64 msgid) = some i := hkey ▸ hi.entry_of_registered hc hsent hp
  refine ⟨t.acceptResponse m r, by
    simp [RPCProtocol.datagramReceived, solveDatagram_answer hm hres], ?_, ?_⟩
  · rw [RPCProtocol.calls_acceptResponse]
    by_cases hmm : m = msgid
    · subst hmm
      rw [if_pos he, if_pos rfl, hc, Option.map_some', RPCProtocol.resolve_of_none (by simpa using hp)]
      rfl
    · rw [if_neg hmm]
      split_ifs with hk
      · -- the key of `m` is registered to call `i`, whose key is that of `msgid`
        obtain ⟨d, hd, hdk, -⟩ := hi.entry_eq_some hk
        obtain rfl := Option.some.inj (hc.symm.trans hd)
        exact absurd (base64_inj (hm.trans hid.symm) (hdk.symm.trans hkey)) hmm
      · exact hc
  · rintro rfl j hj
    rw [RPCProtocol.calls_acceptResponse, he, if_neg fun h => hj (Option.some.inj h).symm]

/-- `ping` from a fresh protocol, answered with a 20-byte id. -/
theorem rpc_round_trip_ping :
    RPCProtocol.new.rpc (utf8 "ping") [.bin (List.replicate 20 1)] (List.replicate 20 7) =
        .ok ({ RPCProtocol.new with calls := RPCProtocol.new.calls ++
            [⟨base64 (List.replicate 20 7), true, true, none⟩] },
          frame 0x00 (List.replicate 20 7) (.arr [.str (utf8 "ping"), .arr [.bin (List.replicate 20 1)]])) ∧
      solveDatagram (frame 0x00 (List.replicate 20 7)
          (.arr [.str (utf8 "ping"), .arr [.bin (List.replicate 20 1)]])) =
        .ok (.request (List.replicate 20 7) (.arr [.str (utf8 "ping"), .arr [.bin (List.replicate 20 1)]])) ∧
      acceptRequest (fun m => decide (m = utf8 "rpc_ping"))
          (.arr [.str (utf8 "ping"), .arr [.bin (List.replicate 20 1)]]) ("10.0.0.2", 8468) =
        (if decide (utf8 "rpc_" ++ utf8 "ping" = utf8 "rpc_ping") then
          .call (utf8 "rpc_" ++ utf8 "ping") ("10.0.0.2", 8468) [.bin (List.replicate 20 1)]
        else .noMethod) ∧
      solveDatagram (answer (List.replicate 20 7) (.bin (List.replicate 20 2))) =
        .ok (.response (List.replicate 20 7) (.bin (List.replicate 20 2))) ∧
      ∀ t : RPCProtocol, RPCProtocol.Reachable t → ∀ (i : Nat) (c : Call), t.calls[i]? = some c →
        c.btos = base64 (List.replicate 20 7) → c.sendPending = false → c.promise = none →
        ∀ m : List UInt8, m.length = 20 → ∃ t',
          t.datagramReceived (answer m (.bin (List.replicate 20 2))) ("10.0.0.2", 8468) = .ok (t', none) ∧
          t'.calls[i]? =
            (if m = List.replicate 20 7 then
              some { c with timerArmed := false, promise := some (true, .bin (List.replicate 20 2)) }
            else some c) ∧
          (m = List.replicate 20 7 → ∀ j, j ≠ i → t'.calls[j]? = t.calls[j]?) :=
  rpc_round_trip RPCProtocol.new (utf8 "ping") (List.replicate 20 7) [.bin (List.replicate 20 1)]
    (.bin (List.replicate 20 2)) (fun m => decide (m = utf8 "rpc_ping")) ("10.0.0.2", 8468)
    ("10.0.0.2", 8468) (by decide) (by decide) (by decide) (by decide)

end Canbox.Rpcudp
