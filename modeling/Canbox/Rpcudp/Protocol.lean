import Canbox.Rpcudp.MsgPack
import Mathlib.Data.List.Nodup

/-!
# `RPCProtocol` (`rpcudp/index.js`)

A datagram is a kind byte (`00` request, `01` response), a 20-byte msgid and a
MessagePack body (`frame`). `rpc()` draws a msgid, arms a timer, and sends the
request; only the send callback registers the promise in `_outstanding`, under
the msgid's base64 form. A response settles the promise registered under its
msgid with `[true, data]`; the timer settles it with `[false, null]`.

The runtime's part of the state is held per call (`Call`): whether its send
callback has yet to run, whether its timer is armed, and its promise. Whatever
the scheduler does is an `Event`: a call of `rpc`, one whose `transport.send`
throws, a send callback, a timer, or a datagram arriving. `step` is what the
code does on each, and a throw out of an event is an uncaught exception, which
ends the process. A send that throws leaves its call with a callback that has
not run and never will; the scheduler of the model may still run it later,
which only adds states, so what holds of every reachable state holds of the
code's.

`Inv` is what holds of every state reachable with fresh msgids (`Reachable.inv`):
an entry of `_outstanding` is the registered, unsettled call of its key, an
unsettled promise has its timer armed, and a settled one has neither an entry,
a timer nor a send callback left, so nothing settles it twice. What `Inv` does
not exclude is a timer that fires before the send callback:
`timerFires_throws_of_sendPending`. And a response that arrives before the send
callback finds no entry and is dropped (`acceptResponse_of_sendPending`).
-/

set_option autoImplicit false

namespace Canbox.Rpcudp

/-! ## Datagrams -/

/-- `[host, port]`. -/
abbrev Address := String × Nat

/-- `Buffer.concat([ kind, msgid, encode(body) ])`, the frame `rpc` and
`_acceptRequest` both build. -/
def frame (kind : UInt8) (msgid : List UInt8) (body : Value) : List UInt8 :=
  kind :: msgid ++ body.encode

/-- A character of the base64 alphabet. -/
def base64Char (n : Nat) : Char :=
  "ABCDEFGHIJKLMNOPQRSTUVWXYZabcdefghijklmnopqrstuvwxyz0123456789+/".toList.getD n '='

/-- The characters of `buf.toString('base64')`: each three bytes as four
characters, the last group padded with `=`. -/
def base64Chars : List UInt8 → List Char
  | a :: b :: c :: rest =>
    let n := a.toNat * 2 ^ 16 + b.toNat * 2 ^ 8 + c.toNat
    [base64Char (n / 2 ^ 18), base64Char (n / 2 ^ 12 % 64), base64Char (n / 2 ^ 6 % 64),
      base64Char (n % 64)] ++ base64Chars rest
  | [a, b] =>
    let n := (a.toNat * 2 ^ 8 + b.toNat) * 4
    [base64Char (n / 2 ^ 12), base64Char (n / 2 ^ 6 % 64), base64Char (n % 64), '=']
  | [a] =>
    let n := a.toNat * 16
    [base64Char (n / 2 ^ 6), base64Char (n % 64), '=', '=']
  | [] => []

/-- `buf.toString('base64')`. -/
def base64 (bs : List UInt8) : String := ⟨base64Chars bs⟩

/-- The index of a character of the alphabet, read off its code: `A-Z`,
`a-z`, `0-9`, `+`, `/`. -/
theorem base64Char_index : ∀ n, n < 64 → (let c := (base64Char n).toNat
    if 97 ≤ c then c - 71 else if 65 ≤ c then c - 65 else if 48 ≤ c then c + 4
    else if c = 43 then 62 else 63) = n := by
  decide

theorem base64Char_inj {n m : Nat} (hn : n < 64) (hm : m < 64) (h : base64Char n = base64Char m) :
    n = m := by
  have hn' := base64Char_index n hn
  rw [h] at hn'
  exact hn'.symm.trans (base64Char_index m hm)

theorem toNat_lt_256 (b : UInt8) : b.toNat < 256 := b.toNat_lt_size

theorem eq_of_toNat_eq {a b : UInt8} (h : a.toNat = b.toNat) : a = b := UInt8.eq_of_val_eq (Fin.ext h)

/-- Equal base64 text of two buffers of one length: the same buffer. Each group
of four characters spells its three bytes. -/
theorem base64Chars_inj : ∀ {a b : List UInt8}, a.length = b.length →
    base64Chars a = base64Chars b → a = b
  | [], b, hl, _ => (List.length_eq_zero.1 hl.symm).symm
  | [x], b, hl, h => by
    obtain ⟨x', rfl⟩ := List.length_eq_one.1 hl.symm
    have := toNat_lt_256 x; have := toNat_lt_256 x'
    simp only [base64Chars, List.cons.injEq, and_true] at h
    have h1 := base64Char_inj (by omega) (by omega) h.1
    have h2 := base64Char_inj (by omega) (by omega) h.2
    rw [eq_of_toNat_eq (by omega : x.toNat = x'.toNat)]
  | [x, y], b, hl, h => by
    obtain ⟨x', y', rfl⟩ := List.length_eq_two.1 hl.symm
    have := toNat_lt_256 x; have := toNat_lt_256 x'; have := toNat_lt_256 y; have := toNat_lt_256 y'
    simp only [base64Chars, List.cons.injEq, and_true] at h
    have h1 := base64Char_inj (by omega) (by omega) h.1
    have h2 := base64Char_inj (by omega) (by omega) h.2.1
    have h3 := base64Char_inj (by omega) (by omega) h.2.2
    rw [eq_of_toNat_eq (by omega : x.toNat = x'.toNat), eq_of_toNat_eq (by omega : y.toNat = y'.toNat)]
  | x :: y :: z :: r, b, hl, h => by
    match b, hl with
    | x' :: y' :: z' :: r', hl =>
      have := toNat_lt_256 x; have := toNat_lt_256 x'; have := toNat_lt_256 y
      have := toNat_lt_256 y'; have := toNat_lt_256 z; have := toNat_lt_256 z'
      simp only [base64Chars, List.cons_append, List.cons.injEq, List.nil_append] at h
      obtain ⟨h1, h2, h3, h4, hr⟩ := h
      have h1 := base64Char_inj (by omega) (by omega) h1
      have h2 := base64Char_inj (by omega) (by omega) h2
      have h3 := base64Char_inj (by omega) (by omega) h3
      have h4 := base64Char_inj (by omega) (by omega) h4
      rw [eq_of_toNat_eq (by omega : x.toNat = x'.toNat), eq_of_toNat_eq (by omega : y.toNat = y'.toNat),
        eq_of_toNat_eq (by omega : z.toNat = z'.toNat), base64Chars_inj (by simpa using hl) hr]
    | [], hl | [_], hl | [_, _], hl => simp at hl

/-- Buffers of one length, msgids say, with one base64 key are one buffer. -/
theorem base64_inj {a b : List UInt8} (hl : a.length = b.length) (h : base64 a = base64 b) : a = b :=
  base64Chars_inj hl (congrArg String.data h)

/-- What the code throws. -/
inductive Throw where
  /-- `decode(datagram.slice(21))` on a body that is not one whole value. -/
  | decode (e : DecodeError)
  /-- `TypeError`: `let [ f ] = this._outstanding.get(msgid)` with no entry
  for `msgid` destructures `undefined`. -/
  | notIterable
  /-- `TypeError`: `throw MalformedMessage(...)` calls a class without `new`. -/
  | constructorWithoutNew
deriving DecidableEq, Repr

/-- What `_solveDatagram` makes of a datagram. -/
inductive Solved where
  /-- Fewer than 22 bytes, or a kind byte other than `00` and `01`: logged
  and ignored. -/
  | ignored
  | request (msgid : List UInt8) (data : Value)
  | response (msgid : List UInt8) (data : Value)
deriving DecidableEq, Repr

/-- `_solveDatagram(datagram, address)`. The body is decoded before the kind
byte is looked at, and nothing catches what `decode` throws. The kind test
`method == 0x00` compares the byte's hex string with a number, which holds for
`"00"` and `"01"` only. -/
def solveDatagram (datagram : List UInt8) : Except Throw Solved :=
  if datagram.length < 22 then pure .ignored
  else do
    let msgid := (datagram.drop 1).take 20
    let data ← (decode (datagram.drop 21)).mapError .decode
    if datagram.head? = some 0x00 then pure (.request msgid data)
    else if datagram.head? = some 0x01 then pure (.response msgid data)
    else pure .ignored

/-! ## Requests -/

mutual
/-- The string JavaScript makes of a decoded value (`${x}`), as UTF-8. A
float's decimal form is left out (`none`): it never names a method. -/
def jsString : Value → Option (List UInt8)
  | .nil => some (utf8 "null")
  | .bool b => some (utf8 (toString b))
  | .int i => some (utf8 (toString i))
  | .float32 _ | .float64 _ => none
  | .str s | .bin s => some s
  | .arr xs => jsJoin xs
  | .map _ => some (utf8 "[object Object]")
/-- `xs.join(',')`, where a `null` element is empty. -/
def jsJoin : List Value → Option (List UInt8)
  | [] => some []
  | x :: xs => do
    let a ← if x = .nil then pure [] else jsString x
    match xs with
    | [] => pure a
    | _ :: _ => pure (a ++ utf8 "," ++ (← jsJoin xs))
end

/-- The code points of a UTF-8 string, each as its bytes: one starts at every
byte that is not a continuation byte `10xxxxxx`. -/
def codePoints (s : List UInt8) : List (List UInt8) :=
  let (lead, cps) := s.foldr (fun b (pend, cps) =>
    if b.toNat / 64 = 2 then (b :: pend, cps) else ([], (b :: pend) :: cps)) ([], [])
  if lead = [] then cps else lead :: cps

/-- `...args`: the elements of an array, the characters of a string, the bytes
of a buffer; anything else is not iterable. -/
def spread : Value → Option (List Value)
  | .arr xs => some xs
  | .str s => some ((codePoints s).map .str)
  | .bin b => some (b.map fun x => .int x.toNat)
  | _ => none

/-- What `_acceptRequest(msgid, data, address)` does. Its throws reject the
promise it returns, which `_solveDatagram` catches and logs. -/
inductive Accepted where
  /-- `MalformedMessage`: the body is not an array of two. -/
  | malformed
  /-- No method `rpc_<fname>`: logged and ignored. -/
  | noMethod
  /-- `TypeError`: `...args` on a value that is not iterable. -/
  | notIterable
  /-- `f.apply(this, [ address, ...args ])`. -/
  | call (method : List UInt8) (address : Address) (args : List Value)
deriving DecidableEq, Repr

/-- `_acceptRequest`, up to the call of the method. `methods` says which
`rpc_` methods the protocol object has. -/
def acceptRequest (methods : List UInt8 → Bool) (data : Value) (address : Address) : Accepted :=
  match data with
  | .arr [fname, args] =>
    match jsString fname with
    | some name =>
      if methods (utf8 "rpc_" ++ name) then
        match spread args with
        | some xs => .call (utf8 "rpc_" ++ name) address xs
        | none => .notIterable
      else .noMethod
    | none => .noMethod
  | _ => .malformed

/-- The reply `_acceptRequest` sends once the method answers `response`. -/
def answer (msgid : List UInt8) (response : Value) : List UInt8 :=
  frame 0x01 msgid response

/-! ## Calls and the protocol state -/

/-- One call of `rpc()` as the runtime holds it: the key it registers under,
whether its send callback has yet to run and whether its timer is armed, and
its promise. -/
structure Call where
  btos : String
  sendPending : Bool
  timerArmed : Bool
  promise : Option (Bool × Value)
deriving DecidableEq, Repr

/-- `clearTimeout(timeout)`, or the timer firing. -/
def Call.disarm (c : Call) : Call := { c with timerArmed := false }

/-- `f.resolve(result)`: a promise settles once, and a second `resolve` does
nothing. -/
def Call.resolve (result : Bool × Value) (c : Call) : Call :=
  if c.promise = none then { c with promise := some result } else c

/-- `RPCProtocol`: `_outstanding`, from keys to the call whose `[ f, timeout ]`
is held there, and the calls made so far. The order of `_outstanding` is never
read. -/
structure RPCProtocol where
  outstanding : List (String × Nat)
  calls : List Call
deriving DecidableEq, Repr

namespace RPCProtocol

/-- The constructor: no entries, no calls. -/
def new : RPCProtocol := ⟨[], []⟩

/-- `this._outstanding.get(key)`. -/
def entry (s : RPCProtocol) (key : String) : Option Nat := s.outstanding.lookup key

/-- `this._outstanding.set(key, [ f, timeout ])` of call `i`. -/
def setEntry (s : RPCProtocol) (key : String) (i : Nat) : RPCProtocol :=
  { s with outstanding := (key, i) :: s.outstanding.filter (·.1 ≠ key) }

/-- `this._outstanding.delete(key)`. -/
def deleteEntry (s : RPCProtocol) (key : String) : RPCProtocol :=
  { s with outstanding := s.outstanding.filter (·.1 ≠ key) }

/-- Call `i` changed by `f`. -/
def updateCall (s : RPCProtocol) (i : Nat) (f : Call → Call) : RPCProtocol :=
  { s with calls := s.calls.modify f i }

/-- `rpc(name, address, ...args)` with the msgid it drew: the request is
framed and checked against 512 bytes, the timer armed and the datagram handed
to `transport.send`. The datagram is returned; its address only matters to
the transport. -/
def rpc (s : RPCProtocol) (name : List UInt8) (args : List Value) (msgid : List UInt8) :
    Except Throw (RPCProtocol × List UInt8) :=
  let data := frame 0x00 msgid (.arr [.str name, .arr args])
  if 512 < data.length then throw .constructorWithoutNew
  else pure ({ s with calls := s.calls ++ [⟨base64 msgid, true, true, none⟩] }, data)

/-- Whether `rpc(name, address, ...args)` passes its size check: the kind
byte, the 20-byte msgid and the body `[name, args]` in at most 512 bytes. -/
def requestFits (name : List UInt8) (args : List Value) : Bool :=
  1 + 20 + (Value.arr [.str name, .arr args]).encode.length ≤ 512

/-- `rpc(name, address, ...args)` with the msgid it drew, when
`transport.send` throws synchronously (a port outside `[0, 65535]`, a closed
socket). The request passed the size check and the timer is armed, but the
send callback will never run, so the call stays unregistered. `rpc()` throws to
its caller, whose promise rejects; the state the throw leaves is returned. A
request over 512 bytes throws before the timer is armed and leaves the state as
it was. -/
def rpcSendThrows (s : RPCProtocol) (name : List UInt8) (args : List Value) (msgid : List UInt8) :
    RPCProtocol :=
  let data := frame 0x00 msgid (.arr [.str name, .arr args])
  if 512 < data.length then s
  else { s with calls := s.calls ++ [⟨base64 msgid, true, true, none⟩] }

/-- The callback `rpc` gave `transport.send`, for call `i`: it registers the
call under its key, once. -/
def sendDone (s : RPCProtocol) (i : Nat) : RPCProtocol :=
  match s.calls[i]? with
  | some c =>
    if c.sendPending then (s.updateCall i fun c => { c with sendPending := false }).setEntry c.btos i
    else s
  | none => s

/-- `_timeout(msgid, ...)`. -/
def timeout (s : RPCProtocol) (key : String) : Except Throw RPCProtocol :=
  match s.entry key with
  | none => throw .notIterable
  | some i => pure ((s.updateCall i (Call.resolve (false, .nil))).deleteEntry key)

/-- The timer of call `i` fires, once and unless cleared, and runs `_timeout`
on its key. -/
def timerFires (s : RPCProtocol) (i : Nat) : Except Throw RPCProtocol :=
  match s.calls[i]? with
  | some c => if c.timerArmed then (s.updateCall i Call.disarm).timeout c.btos else pure s
  | none => pure s

/-- `_acceptResponse(msgid, data, address)`. -/
def acceptResponse (s : RPCProtocol) (msgid : List UInt8) (data : Value) : RPCProtocol :=
  let key := base64 msgid
  match s.entry key with
  | none => s
  | some i => ((s.updateCall i Call.disarm).updateCall i (Call.resolve (true, data))).deleteEntry key

/-! ### What the updates do -/

theorem lookup_cons_ite (a k : String) (i : Nat) (l : List (String × Nat)) :
    ((a, i) :: l).lookup k = if k = a then some i else l.lookup k := by
  by_cases hk : k = a
  · simp [hk]
  · rw [List.lookup_cons, show (k == a) = false from beq_false_of_ne hk, if_neg hk]

theorem lookup_filter_ne (l : List (String × Nat)) (key k : String) :
    (l.filter (·.1 ≠ key)).lookup k = if k = key then none else l.lookup k := by
  induction l with
  | nil => simp
  | cons e l ih =>
    obtain ⟨a, i⟩ := e
    by_cases ha : a = key
    · subst ha
      rw [List.filter_cons_of_neg (by simp), ih, lookup_cons_ite]
      by_cases hk : k = a <;> simp [hk]
    · rw [List.filter_cons_of_pos (by simpa using ha), lookup_cons_ite, lookup_cons_ite, ih]
      by_cases hk : k = a
      · simp [hk, ha]
      · simp [hk]

@[simp] theorem calls_setEntry (s : RPCProtocol) (key : String) (i : Nat) :
    (s.setEntry key i).calls = s.calls := rfl
@[simp] theorem calls_deleteEntry (s : RPCProtocol) (key : String) :
    (s.deleteEntry key).calls = s.calls := rfl
@[simp] theorem calls_updateCall (s : RPCProtocol) (i : Nat) (f : Call → Call) :
    (s.updateCall i f).calls = s.calls.modify f i := rfl
@[simp] theorem entry_updateCall (s : RPCProtocol) (i : Nat) (f : Call → Call) (key : String) :
    (s.updateCall i f).entry key = s.entry key := rfl

theorem entry_setEntry (s : RPCProtocol) (key : String) (i : Nat) (k : String) :
    (s.setEntry key i).entry k = if k = key then some i else s.entry k := by
  simp only [entry, setEntry, lookup_cons_ite, lookup_filter_ne]
  by_cases hk : k = key <;> simp [hk]

theorem entry_deleteEntry (s : RPCProtocol) (key k : String) :
    (s.deleteEntry key).entry k = if k = key then none else s.entry k :=
  lookup_filter_ne _ _ _

@[simp] theorem btos_disarm (c : Call) : c.disarm.btos = c.btos := rfl
@[simp] theorem sendPending_disarm (c : Call) : c.disarm.sendPending = c.sendPending := rfl
@[simp] theorem timerArmed_disarm (c : Call) : c.disarm.timerArmed = false := rfl
@[simp] theorem promise_disarm (c : Call) : c.disarm.promise = c.promise := rfl

theorem resolve_of_none {c : Call} (h : c.promise = none) (r : Bool × Value) :
    c.resolve r = { c with promise := some r } := if_pos h

/-- A request `_solveDatagram` hands to `_acceptRequest`, which runs later. -/
structure Request where
  msgid : List UInt8
  data : Value
  address : Address
deriving DecidableEq, Repr

/-- `datagram_received(data, addr)`: a response is accepted at once, a request
is scheduled. -/
def datagramReceived (s : RPCProtocol) (data : List UInt8) (addr : Address) :
    Except Throw (RPCProtocol × Option Request) :=
  match solveDatagram data with
  | .error e => .error e
  | .ok .ignored => .ok (s, none)
  | .ok (.request msgid body) => .ok (s, some ⟨msgid, body, addr⟩)
  | .ok (.response msgid body) => .ok (s.acceptResponse msgid body, none)

end RPCProtocol

/-! ## Runs -/

/-- What can happen next, in any order the scheduler picks. -/
inductive Event where
  /-- `rpc(name, address, ...args)`, with the msgid it draws. -/
  | rpc (name : List UInt8) (args : List Value) (msgid : List UInt8)
  /-- `rpc(name, address, ...args)` whose `transport.send` throws. -/
  | rpcSendThrows (name : List UInt8) (args : List Value) (msgid : List UInt8)
  /-- The send callback of call `i` runs. -/
  | sendDone (i : Nat)
  /-- The timer of call `i` fires. -/
  | timerFires (i : Nat)
  /-- A datagram arrives. -/
  | datagram (data : List UInt8) (addr : Address)
deriving DecidableEq, Repr

namespace RPCProtocol

/-- What the code does on an event; a throw ends the process. -/
def step (s : RPCProtocol) : Event → Except Throw RPCProtocol
  | .rpc name args msgid => Prod.fst <$> s.rpc name args msgid
  | .rpcSendThrows name args msgid => pure (s.rpcSendThrows name args msgid)
  | .sendDone i => pure (s.sendDone i)
  | .timerFires i => s.timerFires i
  | .datagram data addr => Prod.fst <$> s.datagramReceived data addr

/-- Events one after another, until one throws. -/
def run (s : RPCProtocol) : List Event → Except Throw RPCProtocol
  | [] => pure s
  | e :: es => s.step e >>= (·.run es)

end RPCProtocol

end Canbox.Rpcudp
