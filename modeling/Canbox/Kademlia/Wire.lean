import Canbox.Rpcudp.Framing
import Canbox.Rpcudp.RoundTrip
import Canbox.Kademlia.Refresh
import Canbox.Kademlia.Server
import Canbox.Kademlia.ProtocolRuns

/-!
# Requests on the wire (`protocol.js`, `rpcudp/index.js`)

A node calls another through `callPing`, `callStore`, `callFindNode` and
`callFindValue`. Each is `rpc(name, address, sid, ...)`, which frames the body
`[name, [sid, ...]]` under a fresh msgid; `sid` and every key are the forty
lowercase hex digits `digest` writes (`idText`). The receiving node decodes the
frame in `_solveDatagram`, and `_acceptRequest` applies `rpc_<name>` to the
sender's address and the arguments, then frames the method's answer under the
same msgid.

The handlers of `KademliaProtocol` take their ids as numbers (`Request`):
`readId` is `new Node(x)` of an id on the wire, `dispatch` is the
`f.apply(this, [ address, ...args ])` of `_acceptRequest` for the four methods
they model, and `Answer.toValue` is what `encode(response)` is given.

The two layers agree (`wire_request_handled`): every request a node sends, its
ids of 160 bits and its value one the format holds, leaves the sender's `rpc` as
one frame when its value takes at most 399 bytes, as every request but a store
does, and throws on the size check otherwise (`requestFits_request`); the
receiving node, whatever its state, handles that frame exactly as `handle`
handles the request from the sender's address, and replies with the handler's
answer under the request's msgid.

On the way back, a crawl reads the answer with `RPCFindResponse`
(`readFindResponse`). `rpc_find_value` answers `{ value }` for any stored value
but `null`, while `hasValue()` asks for a truthy one: a stored `false`, `0` or
`''` is read as a node list, and `getNodeList()` throws on the object
(`findValue_answer_read`).
-/

set_option autoImplicit false

namespace Canbox.Kademlia

open Canbox.Rpcudp (Value Address utf8 frame answer solveDatagram decode RPCProtocol)

/-! ## Ids and answers as values -/

/-- `new Node(x)` of an id or a key a request carries, read as the id its digits
spell. Ids in the model stand for the strings `idText` writes; any other value
(another length, upper case, not a string) is outside it. -/
def readId : Value → Option Nat
  | .str s => (hexValue ⟨s.map fun b => Char.ofNat b.toNat⟩).filter fun n => idText n == s
  | _ => none

/-- A node as the array `[ id, ip, port ]` its iterator yields, which
`rpc_find_node` answers for each neighbour. -/
def nodeValue (n : Node) : Value :=
  .arr [.str (idText n.id), (n.ip.map fun ip => Value.str (utf8 ip)).getD .nil,
    (n.port.map fun port => Value.int port).getD .nil]

/-- What a handler returns, as `encode(response)` is given it. -/
def Answer.toValue : Answer → Value
  | .id nodeId => .str (idText nodeId)
  | .stored => .bool true
  | .nodes ns => .arr (ns.map nodeValue)
  | .value v => .map [(.str (utf8 "value"), v)]

/-! ## Requests as values -/

namespace Request

/-- The address the request comes from. -/
def sender : Request → Address
  | .ping sender _ => sender
  | .store sender _ _ _ => sender
  | .findNode sender _ _ => sender
  | .findValue sender _ _ => sender

/-- The name `callPing`, `callStore`, `callFindNode` and `callFindValue` give
`rpc`. -/
def name : Request → List UInt8
  | .ping .. => utf8 "ping"
  | .store .. => utf8 "store"
  | .findNode .. => utf8 "find_node"
  | .findValue .. => utf8 "find_value"

/-- The arguments they give `rpc`: the caller's id, then the key and value. -/
def args : Request → List Value
  | .ping _ sid => [.str (idText sid)]
  | .store _ sid key value => [.str (idText sid), .str (idText key), value]
  | .findNode _ sid key | .findValue _ sid key => [.str (idText sid), .str (idText key)]

/-- Whether the ids have 160 bits and a stored value is one the format holds. -/
def fits : Request → Bool
  | .ping _ sid => decide (sid < 2 ^ 160)
  | .store _ sid key value => decide (sid < 2 ^ 160) && decide (key < 2 ^ 160) && value.fits
  | .findNode _ sid key | .findValue _ sid key => decide (sid < 2 ^ 160) && decide (key < 2 ^ 160)

/-- The bytes the request's value takes in its body: only a store carries one. -/
def valueBytes : Request → Nat
  | .store _ _ _ value => value.encode.length
  | _ => 0

end Request

/-! ## The receiving side -/

/-- The `rpc_` methods a `KademliaProtocol` object has. -/
def kademliaMethods (method : List UInt8) : Bool :=
  [utf8 "rpc_stun", utf8 "rpc_punch", utf8 "rpc_hole", utf8 "rpc_ping", utf8 "rpc_store",
    utf8 "rpc_find_node", utf8 "rpc_find_value"].contains method

/-- `f.apply(this, [ address, ...args ])` for the four methods the handlers
model, each id read by `new Node`: `none` for `rpc_stun`, `rpc_punch` and
`rpc_hole`, for another number of arguments, and for an id that is not forty
hex digits. -/
def dispatch (method : List UInt8) (sender : Address) (args : List Value) : Option Request :=
  if method = utf8 "rpc_ping" then
    match args with
    | [nodeid] => (readId nodeid).map (.ping sender)
    | _ => none
  else if method = utf8 "rpc_store" then
    match args with
    | [nodeid, key, value] => do pure (.store sender (← readId nodeid) (← readId key) value)
    | _ => none
  else if method = utf8 "rpc_find_node" then
    match args with
    | [nodeid, key] => do pure (.findNode sender (← readId nodeid) (← readId key))
    | _ => none
  else if method = utf8 "rpc_find_value" then
    match args with
    | [nodeid, key] => do pure (.findValue sender (← readId nodeid) (← readId key))
    | _ => none
  else none

namespace KademliaProtocol

/-- `_acceptRequest(msgid, data, address)` on a `KademliaProtocol`: the handler
`rpc_<name>` runs, and its answer goes back framed under `msgid`. `none` when
the request reaches no handler of the model, or the handler throws. -/
def acceptRequest (p : KademliaProtocol) (digest : Nat → Nat) (fuel : Nat) (msgid : List UInt8)
    (data : Value) (address : Address) (now : Int) :
    Option (KademliaProtocol × List UInt8 × List Outbound) :=
  match Canbox.Rpcudp.acceptRequest kademliaMethods data address with
  | .call method sender args => do
    let (p, a, out) ← p.handle digest fuel (← dispatch method sender args) now
    pure (p, answer msgid a.toValue, out)
  | _ => none

end KademliaProtocol

/-! ## The reply, as a crawl reads it -/

/-- `response[1]['value']`: the value under the key `'value'` of a decoded map,
the last one when the key repeats, as on a JavaScript object; nothing for a
value that is not a map. -/
def valueField : Value → Option Value
  | .map kvs => (kvs.reverse.find? fun kv => kv.1 = .str (utf8 "value")).map (·.2)
  | _ => none

/-- `([ id, ip, port ]) => new Node(id, ip, port)` on one entry of a node list:
an array whose first entry is an id of forty hex digits, its second an ip
string or `null`, its third a port or `null` (a missing entry is `undefined`,
which the defaults make `null`). Anything else throws, or is outside the model
(`none`). -/
def readNode : Value → Option Node
  | .arr (id :: rest) => do
    let id ← readId id
    let ip ← match rest.head? with
      | some (.str s) => (String.fromUTF8? ⟨s.toArray⟩).map some
      | some .nil | none => some none
      | _ => none
    let port ← match rest.tail.head? with
      | some (.int port) => if 0 ≤ port then some (some port.toNat) else none
      | some .nil | none => some none
      | _ => none
    pure ⟨id, ip, port⟩
  | _ => none

/-- `getNodeList()`, and the `nearest.push` it feeds:
`(response[1] || []).map(...)`. A falsy value reads as `[]`; an array is read
entry by entry; any other value throws (`none`). A string or an object has no
`map`; a `Buffer`'s `map` destructures its first byte, and the empty `Buffer` it
makes of an empty one is no array, so `push` takes it for one node and its
`distanceTo` indexes the missing `long_id`. -/
def readNodeList (data : Value) : Option (List Node) :=
  if !data.truthy then some []
  else match data with
    | .arr xs => xs.mapM readNode
    | _ => none

/-- `new RPCFindResponse(response)` as `ValueSpiderCrawl._nodesFound` reads it:
a call that did not happen has `failed`; `hasValue()`, a truthy `value` field,
gives the value; anything else is read with `getNodeList()`, whose throw is
`none`. -/
def readFindResponse (happened : Bool) (data : Value) : Option FindResponse :=
  if !happened then some .failed
  else match valueField data with
    | some v => if v.truthy then some (.value v) else (readNodeList data).map .nodes
    | none => (readNodeList data).map .nodes

/-- `rpc_find_node` answers a node list. -/
theorem rpcFindNode_answer {p p' : KademliaProtocol} {digest : Nat → Nat} {fuel : Nat}
    {sender : Address} {nodeid key : Nat} {now : Int} {a : Answer} {out : List Outbound}
    (h : p.rpcFindNode digest fuel sender nodeid key now = some (p', a, out)) : ∃ ns, a = .nodes ns := by
  unfold KademliaProtocol.rpcFindNode at h
  obtain ⟨⟨p₁, out₁⟩, -, h⟩ := Option.bind_eq_some.1 h
  obtain ⟨⟨router, ns⟩, -, h⟩ := Option.bind_eq_some.1 h
  cases h
  exact ⟨ns, rfl⟩

/-- Whatever the state and the request, a value `rpc_find_value` answers is not
`null`, and the asking crawl reads the answer `{ value }` as that value exactly
when it is truthy. A stored `false`, `0`, `-0`, `NaN` or `''` falls through
`hasValue()` to `getNodeList()`, which throws on the object. -/
theorem findValue_answer_read {p p' : KademliaProtocol} {digest : Nat → Nat} {fuel : Nat}
    {sender : Address} {nodeid key : Nat} {now : Int} {v : Value} {out : List Outbound}
    (h : p.handle digest fuel (.findValue sender nodeid key) now = some (p', .value v, out)) :
    v ≠ .nil ∧ readFindResponse true (Answer.value v).toValue = if v.truthy then some (.value v) else none := by
  refine ⟨?_, ?_⟩
  · simp only [KademliaProtocol.handle, Option.bind_eq_bind, Option.bind_eq_some] at h
    obtain ⟨⟨p₁, out₁⟩, -, h⟩ := h
    dsimp only at h
    split_ifs at h with hnil
    · obtain ⟨⟨p₂, a₂, out₂⟩, hr, h⟩ := Option.bind_eq_some.1 h
      obtain ⟨ns, rfl⟩ := rpcFindNode_answer hr
      cases h
    · cases h
      exact hnil
  · by_cases hv : v.truthy <;>
      simp [readFindResponse, Answer.toValue, valueField, readNodeList, Value.truthy, hv]

/-! ## Reading an id back -/

theorem toNat_digitChar_lt : ∀ d, d < 16 → (Nat.digitChar d).toNat < 256 := by
  decide

/-- The characters of `idText id`, read back from its bytes. -/
theorem chars_idText (id : Nat) :
    (idText id).map (fun b => Char.ofNat b.toNat) =
      (List.range 40).reverse.map fun i => Nat.digitChar (id / 16 ^ i % 16) := by
  simp only [idText, keyText, List.map_map]
  refine List.map_congr_left fun i _ => ?_
  have hlt := toNat_digitChar_lt (id / 16 ^ i % 16) (Nat.mod_lt _ (by decide))
  simp only [Function.comp_apply, Rpcudp.toNat_toUInt8, Nat.mod_eq_of_lt hlt, Char.ofNat_toNat]

/-- The digits of `id` below `16 ^ m`, most significant first, spell
`id mod 16 ^ m`. -/
theorem foldlM_hexStep_digits (id : Nat) : ∀ m : Nat,
    ((List.range m).reverse.map fun i => Nat.digitChar (id / 16 ^ i % 16)).foldlM hexStep 0 =
      some (id % 16 ^ m)
  | 0 => by simp [Nat.mod_one]
  | m + 1 => by
    have hd := hexDigitValue_digitChar (id / 16 ^ m % 16) (Nat.mod_lt _ (by decide))
    rw [List.range_succ, List.reverse_append, List.reverse_singleton, List.singleton_append,
      List.map_cons, List.foldlM_cons]
    simp only [hexStep, hd, Option.map_some', Nat.zero_mul, Nat.zero_add, Option.bind_eq_bind,
      Option.some_bind]
    rw [foldlM_hexStep, foldlM_hexStep_digits id m, Option.map_some', List.length_map,
      List.length_reverse, List.length_range, Nat.mod_pow_succ]
    congr 1
    ring

/-- **An id reads back from its forty digits.** -/
theorem readId_idText {id : Nat} (h : id < 2 ^ 160) : readId (.str (idText id)) = some id := by
  have hv : hexValue ⟨(idText id).map fun b => Char.ofNat b.toNat⟩ = some id := by
    rw [hexValue, chars_idText, foldlM_hexStep_digits,
      show (16 : Nat) ^ 40 = 2 ^ 160 by norm_num, Nat.mod_eq_of_lt h]
  simp [readId, hv, Option.filter]

/-! ## The request, from one node to the other -/

theorem fits_idText (id : Nat) : (Value.str (idText id)).fits = true := by
  simp [Value.fits, idText, keyText]

/-- The body of a request the format holds. -/
theorem fits_body {req : Request} (h : req.fits = true) :
    (Value.arr [.str req.name, .arr req.args]).fits = true := by
  cases req <;>
    simp_all +decide [Request.fits, Request.name, Request.args, Value.fits, Value.fitsList, idText,
      keyText]

/-- `_acceptRequest` finds the method `rpc_<name>` of a request, and spreads
its arguments. -/
theorem acceptRequest_request (req : Request) (sender : Address) :
    Canbox.Rpcudp.acceptRequest kademliaMethods (.arr [.str req.name, .arr req.args]) sender =
      .call (utf8 "rpc_" ++ req.name) sender req.args := by
  cases req <;> simp +decide [Canbox.Rpcudp.acceptRequest, Canbox.Rpcudp.jsString,
    Canbox.Rpcudp.spread, Request.name, kademliaMethods]

/-- **The method applied to the arguments is the request.** -/
theorem dispatch_request {req : Request} (h : req.fits = true) :
    dispatch (utf8 "rpc_" ++ req.name) req.sender req.args = some req := by
  cases req <;> simp only [Request.fits, Bool.and_eq_true, decide_eq_true_eq] at h
  case ping => simp +decide [dispatch, Request.name, Request.args, Request.sender, readId_idText h]
  case store =>
    simp +decide [dispatch, Request.name, Request.args, Request.sender, readId_idText h.1.1,
      readId_idText h.1.2]
  case findNode =>
    simp +decide [dispatch, Request.name, Request.args, Request.sender, readId_idText h.1,
      readId_idText h.2]
  case findValue =>
    simp +decide [dispatch, Request.name, Request.args, Request.sender, readId_idText h.1,
      readId_idText h.2]

/-- A method name takes a header byte and at most ten letters. -/
theorem length_encode_name : ∀ req : Request,
    (Value.str req.name).encode.length = req.name.length + 1 ∧ req.name.length ≤ 10
  | .ping .. | .findNode .. | .findValue .. | .store .. => ⟨rfl, Nat.le_of_ble_eq_true rfl⟩

/-- An id on the wire takes a two-byte header and its forty digits. -/
theorem length_encode_idText (id : Nat) : (Value.str (idText id)).encode.length = 42 := by
  simp [Value.encode, Canbox.Rpcudp.strHeader, Canbox.Rpcudp.beBytes]

/-- A request passes the size check of `rpc` exactly when its value takes at
most 399 bytes: the kind byte, the msgid, the name and the ids take the other
113 of a store's 512. -/
theorem requestFits_request (req : Request) :
    RPCProtocol.requestFits req.name req.args = decide (req.valueBytes ≤ 399) := by
  obtain ⟨hname, hle⟩ := length_encode_name req
  simp only [RPCProtocol.requestFits, Value.encode.eq_8, Value.encodeList.eq_1,
    Value.encodeList.eq_2, List.length_append, hname]
  have hstore : (utf8 "store").length = 5 := rfl
  cases req <;> simp [Request.name, Request.args, Request.valueBytes, Value.encodeList,
    length_encode_idText, Canbox.Rpcudp.arrayHeader, hstore] at hle ⊢ <;> omega

/-- **A request goes from one node to the other as itself.** Take any request
a node makes with `callPing`, `callStore`, `callFindNode` or `callFindValue`,
its ids of 160 bits and its value one the format holds, and any 20-byte msgid.
The sender's `rpc`, in any state, sends the request's frame when its value
takes at most 399 bytes, as any ping, node lookup and value lookup does, and
throws on its size check otherwise; `_solveDatagram` reads the frame back as a
request with the same msgid; and a receiving `KademliaProtocol`, in any state,
handles it exactly as `handle` handles the request from the sender's address,
replying with the handler's answer framed under the msgid. -/
theorem wire_request_handled (s : RPCProtocol) (p : KademliaProtocol) (digest : Nat → Nat)
    (fuel : Nat) (req : Request) (msgid : List UInt8) (now : Int) (hid : msgid.length = 20)
    (hfits : req.fits = true) :
    s.rpc req.name req.args msgid =
        (if req.valueBytes ≤ 399 then
          .ok ({ s with calls := s.calls ++ [⟨Canbox.Rpcudp.base64 msgid, true, true, none⟩] },
            frame 0x00 msgid (.arr [.str req.name, .arr req.args]))
        else .error .constructorWithoutNew) ∧
      solveDatagram (frame 0x00 msgid (.arr [.str req.name, .arr req.args])) =
        .ok (.request msgid (.arr [.str req.name, .arr req.args])) ∧
      p.acceptRequest digest fuel msgid (.arr [.str req.name, .arr req.args]) req.sender now =
        (p.handle digest fuel req now).map fun r => (r.1, answer msgid r.2.1.toValue, r.2.2) := by
  refine ⟨?_, ?_, ?_⟩
  · rw [Canbox.Rpcudp.rpc_eq_if_requestFits s _ _ hid, requestFits_request]
    simp only [decide_eq_true_eq]
  · simpa using Canbox.Rpcudp.solveDatagram_frame 0x00 hid
      (Canbox.Rpcudp.decode_encode (fits_body hfits))
  · simp only [KademliaProtocol.acceptRequest, acceptRequest_request, dispatch_request hfits,
      Option.bind_eq_bind, Option.some_bind]
    cases p.handle digest fuel req now <;> rfl

/-- `wire_request_handled` for a store of the key `7` from node `5` at
`10.0.0.5:8468`, sent by a fresh RPC layer to a fresh node `0`. -/
theorem wire_request_handled_store :
    RPCProtocol.new.rpc (Request.store ("10.0.0.5", 8468) 5 7 (.bin [1, 2])).name
        (Request.store ("10.0.0.5", 8468) 5 7 (.bin [1, 2])).args (List.replicate 20 7) =
        (if (Request.store ("10.0.0.5", 8468) 5 7 (.bin [1, 2])).valueBytes ≤ 399 then
          .ok ({ RPCProtocol.new with calls := RPCProtocol.new.calls ++
            [⟨Canbox.Rpcudp.base64 (List.replicate 20 7), true, true, none⟩] },
          frame 0x00 (List.replicate 20 7)
            (.arr [.str (Request.store ("10.0.0.5", 8468) 5 7 (.bin [1, 2])).name,
              .arr (Request.store ("10.0.0.5", 8468) 5 7 (.bin [1, 2])).args]))
        else .error .constructorWithoutNew) ∧
      solveDatagram (frame 0x00 (List.replicate 20 7)
          (.arr [.str (Request.store ("10.0.0.5", 8468) 5 7 (.bin [1, 2])).name,
            .arr (Request.store ("10.0.0.5", 8468) 5 7 (.bin [1, 2])).args])) =
        .ok (.request (List.replicate 20 7)
          (.arr [.str (Request.store ("10.0.0.5", 8468) 5 7 (.bin [1, 2])).name,
            .arr (Request.store ("10.0.0.5", 8468) 5 7 (.bin [1, 2])).args])) ∧
      (KademliaProtocol.new ⟨0, none, none⟩ (.new 20000) 20 0).acceptRequest (fun k => k) 1
          (List.replicate 20 7)
          (.arr [.str (Request.store ("10.0.0.5", 8468) 5 7 (.bin [1, 2])).name,
            .arr (Request.store ("10.0.0.5", 8468) 5 7 (.bin [1, 2])).args])
          (Request.store ("10.0.0.5", 8468) 5 7 (.bin [1, 2])).sender 0 =
        ((KademliaProtocol.new ⟨0, none, none⟩ (.new 20000) 20 0).handle (fun k => k) 1
            (.store ("10.0.0.5", 8468) 5 7 (.bin [1, 2])) 0).map
          fun r => (r.1, answer (List.replicate 20 7) r.2.1.toValue, r.2.2) :=
  wire_request_handled _ _ _ _ _ _ _ (by decide) (by decide)

end Canbox.Kademlia
