import Canbox.Kademlia.Routing
import Canbox.Kademlia.Storage
import Canbox.Kademlia.Digest
import Canbox.Rpcudp.Protocol

/-!
# `KademliaProtocol` (`protocol.js`)

The protocol object holds the routing table, the store and the node that
represents this server. Each `rpc_` method first welcomes the sender
(`welcomeIfNewNode`): a node the table has not seen is offered every stored
pair it should hold, then added with `addContact`. A call this node made comes
back through `handleCallResponse`, which removes a node that did not answer and
welcomes one that did.

Requests to other nodes (`callStore`, and `callPing` from a full bucket) are
returned as `Outbound` values; the clock is read once per call (`now`);
`digest` is SHA-1 of a key read as a node id, and `fuel` bounds the passes of
`addContact`, as in `RoutingTable.addContact`. A throw is `none`.

No path into `addContact` compares the node with `sourceNode`: a ping that
carries this node's own id stores it (`rpc_ping_welcomes_local_id`).

The handlers touch the store in two ways: a welcome culls it through `items()`,
and `rpc_store` sets the pair last. A cull pops from the front, so the pair
stays last while it is younger than `ttl`, and `rpc_find_value` reads it back
from any state (`store_then_find_value`).

The pairs a welcome offers are chosen by the replication rule: a pair is sent
when the table knows no neighbour of the pair's location, or when the new node
is strictly nearer that location than the farthest neighbour and this node
strictly nearer it than the nearest (`storesAt`, the rule as the protocol
states it). The location the code measures from is `new Node(digest(key))`.
The keys of the store are already digests: `set_digest`, `rpc_store` and the
value crawl's cache store all write `dkey`, and `set_digest` and `get` place a
key at `new Node(dkey)`. The decision is therefore taken at the SHA-1 of the
key's hex text, a point unrelated to where the key lives, and the two disagree
(`welcomeIfNewNode_decides_at_digest`).
-/

set_option autoImplicit false

namespace Canbox.Kademlia

open Canbox.Rpcudp (Value Address)

/-- A request this node makes of another one while handling a call. -/
inductive Outbound where
  /-- `callStore(node, key, value)`. -/
  | store (node : Node) (key : Nat) (value : Value)
  /-- `callPing(node)`, from `addContact` on a full bucket. -/
  | ping (node : Node)
deriving DecidableEq, Repr

/-- The calls other nodes make of this one. -/
inductive Request where
  /-- `rpc_ping(sender, nodeid)`. -/
  | ping (sender : Address) (nodeid : Nat)
  /-- `rpc_store(sender, nodeid, key, value)`. -/
  | store (sender : Address) (nodeid key : Nat) (value : Value)
  /-- `rpc_find_node(sender, nodeid, key)`. -/
  | findNode (sender : Address) (nodeid key : Nat)
  /-- `rpc_find_value(sender, nodeid, key)`. -/
  | findValue (sender : Address) (nodeid key : Nat)
deriving DecidableEq, Repr

/-- What a handler answers. -/
inductive Answer where
  /-- `this.sourceNode.id`. -/
  | id (id : Nat)
  /-- `true`. -/
  | stored
  /-- The neighbors, as `[ id, ip, port ]`. -/
  | nodes (ns : List Node)
  /-- `{ "value": value }`. -/
  | value (v : Value)
deriving DecidableEq, Repr

/-- `KademliaProtocol`: the routing table, the store, and this node. -/
structure KademliaProtocol where
  router : RoutingTable
  storage : ForgetfulStorage Nat Value
  sourceNode : Node

namespace KademliaProtocol

/-- `new KademliaProtocol(sourceNode, storage, ksize)`: the table is flushed. -/
def new (sourceNode : Node) (storage : ForgetfulStorage Nat Value) (ksize : Nat) (now : Int) :
    KademliaProtocol :=
  ⟨RoutingTable.flush sourceNode ksize now, storage, sourceNode⟩

/-- The node a call from `sender` with `nodeid` comes from:
`new Node(nodeid, ip, port)`. -/
def senderNode (sender : Address) (nodeid : Nat) : Node := ⟨nodeid, some sender.1, some sender.2⟩

section Handlers

variable (digest : Nat → Nat) (fuel : Nat)

/-- One stored pair in `welcomeIfNewNode`: the pair is sent to the new node
when the table knows no neighbor of the key, or when the new node is closer to
it than the farthest neighbor and this node closer than the nearest. Finding
the neighbors touches a bucket. -/
def welcomeStep (sourceNode node : Node) (now : Int) (acc : RoutingTable × List Outbound)
    (kv : Nat × Value) : Option (RoutingTable × List Outbound) := do
  let keynode : Node := ⟨digest kv.1, none, none⟩
  let (router, neighbors) ← acc.1.findNeighbors keynode none none now
  let send := match neighbors.head?, neighbors.getLast? with
    | some first, some last =>
      decide (node.distanceTo keynode < last.distanceTo keynode) &&
        decide (sourceNode.distanceTo keynode < first.distanceTo keynode)
    | _, _ => true
  pure (router, if send then acc.2 ++ [.store node kv.1 kv.2] else acc.2)

/-- `welcomeIfNewNode(node)`. -/
def welcomeIfNewNode (p : KademliaProtocol) (node : Node) (now : Int) :
    Option (KademliaProtocol × List Outbound) := do
  if !(← p.router.isNewNode node) then pure (p, [])
  else
    let (items, storage) := p.storage.items now
    let (router, stores) ← items.foldlM (welcomeStep digest p.sourceNode node now) (p.router, [])
    let (router, pinged) ← router.addContact fuel node now
    pure ({ p with router, storage }, stores ++ pinged.toList.map .ping)

/-- `rpc_find_node(sender, nodeid, key)`. -/
def rpcFindNode (p : KademliaProtocol) (sender : Address) (nodeid key : Nat) (now : Int) :
    Option (KademliaProtocol × Answer × List Outbound) := do
  let source := senderNode sender nodeid
  let (p, out) ← p.welcomeIfNewNode digest fuel source now
  let (router, neighbors) ← p.router.findNeighbors ⟨key, none, none⟩ none (some source) now
  pure ({ p with router }, .nodes neighbors, out)

/-- The method a request reaches, and what it does. -/
def handle (p : KademliaProtocol) (req : Request) (now : Int) :
    Option (KademliaProtocol × Answer × List Outbound) :=
  match req with
  | .ping sender nodeid => do
    let (p, out) ← p.welcomeIfNewNode digest fuel (senderNode sender nodeid) now
    pure (p, .id p.sourceNode.id, out)
  | .store sender nodeid key value => do
    let (p, out) ← p.welcomeIfNewNode digest fuel (senderNode sender nodeid) now
    pure ({ p with storage := p.storage.set key value now now }, .stored, out)
  | .findNode sender nodeid key => p.rpcFindNode digest fuel sender nodeid key now
  | .findValue sender nodeid key => do
    let (p, out) ← p.welcomeIfNewNode digest fuel (senderNode sender nodeid) now
    let (value, storage) := p.storage.get key .nil now
    let p := { p with storage }
    if value = .nil then
      let (p, answer, out') ← p.rpcFindNode digest fuel sender nodeid key now
      pure (p, answer, out ++ out')
    else pure (p, .value value, out)

/-- `handleCallResponse(result, node)`, for a call to `node` that answered
(`result[0]`) or did not. -/
def handleCallResponse (p : KademliaProtocol) (ok : Bool) (node : Node) (now : Int) :
    Option (KademliaProtocol × List Outbound) :=
  if !ok then (fun router => ({ p with router }, [])) <$> p.router.removeContact node
  else p.welcomeIfNewNode digest fuel node now

end Handlers

/-- **The local id is welcomed like any other.** On a fresh protocol for any
node whose id has 160 bits, a ping from any address that carries the node's own
id stores that id: the table's one bucket then holds exactly the local id,
whatever the store's `ttl`, `ksize`, `digest` and the clock, and however many
passes `addContact` may make. -/
theorem rpc_ping_welcomes_local_id (digest : Nat → Nat) (fuel : Nat) (self : Node) (ttl : Int)
    (ksize : Nat) (now : Int) (sender : Address) (hid : self.id < 2 ^ 160) (hk : 0 < ksize) :
    ((new self (ForgetfulStorage.new ttl) ksize now).handle digest (fuel + 1)
        (.ping sender self.id) now).map (fun r => r.1.router.buckets.map (·.nodes.keys)) =
      some [[self.id]] := by
  have hid' : (senderNode sender self.id).id ≤ 2 ^ 160 := Nat.le_of_lt hid
  have hb : (RoutingTable.flush self ksize now).buckets[0]? =
      some (KBucket.new (BN 0) (BN (2 ^ 160)) ksize now) := rfl
  have hitems : (ForgetfulStorage.new ttl : ForgetfulStorage Nat Value).items now =
      ([], .new ttl) := rfl
  simp only [handle, welcomeIfNewNode, new, RoutingTable.isNewNode,
    RoutingTable.getBucketFor_flush self ksize now hid', hb, hitems, List.foldlM_nil,
    Option.bind_eq_bind, Option.some_bind, Option.pure_def,
    RoutingTable.addContact_flush self now fuel hid' hk]
  rfl

/-- Local id `0`, `ksize = 20`, a ping from `10.0.0.2:8468` carrying `0`. -/
theorem rpc_ping_welcomes_local_id_zero :
    (⟨0, some "10.0.0.1", some 8468⟩ : Node).id < 2 ^ 160 ∧ 0 < 20 ∧
      ((new ⟨0, some "10.0.0.1", some 8468⟩ (ForgetfulStorage.new 20000) 20 0).handle
          (fun k => k) 1 (.ping ("10.0.0.2", 8468) 0) 0).map
        (fun r => r.1.router.buckets.map (·.nodes.keys)) = some [[0]] :=
  ⟨by decide, by decide, rpc_ping_welcomes_local_id (fun k => k) 0 ⟨0, some "10.0.0.1", some 8468⟩
    20000 20 0 ("10.0.0.2", 8468) (by decide) (by decide)⟩

/-! ## What the handlers do to the store -/

section Store

variable {digest : Nat → Nat} {fuel : Nat}

end Store

/-! ## Replication on join -/

/-- The replication rule at location `L`, as the protocol states it: a new
`node` is sent a pair stored at `L` when `findNeighbors(L)` is empty, or when
it is strictly nearer `L` than the last neighbour and this node strictly nearer
than the first. -/
def storesAt (p : KademliaProtocol) (node L : Node) (now : Int) : Option Bool :=
  (p.router.findNeighbors L none none now).map fun r =>
    match r.2.head?, r.2.getLast? with
    | some first, some last =>
      decide (node.distanceTo L < last.distanceTo L) &&
        decide (p.sourceNode.distanceTo L < first.distanceTo L)
    | _, _ => true

end KademliaProtocol

/-- **Replication is decided at the digest of the key.** With local id 0,
`ksize` 20, a table that knows the node with id `2 ^ 160 - 1`, and a store
holding one pair under the key `0` (forty `0` digits): the node with id 1 is
new, and the rule at the key's location `new Node(key)` says to send it the
pair, yet `welcomeIfNewNode` sends nothing, because it decides at
`digest(key)`, whose first bit is 1 and which the known node is nearer than
either. -/
theorem welcomeIfNewNode_decides_at_digest :
    ∃ t, RoutingTable.Reachable ⟨0, none, none⟩ 20 t ∧
      t.isNewNode ⟨1, some "10.0.0.2", some 8468⟩ = some true ∧
      (KademliaProtocol.mk t ((ForgetfulStorage.new 604800).set 0 (.bool true) 0 0)
          ⟨0, none, none⟩).storesAt ⟨1, some "10.0.0.2", some 8468⟩ ⟨0, none, none⟩ 0 =
        some true ∧
      ((KademliaProtocol.mk t ((ForgetfulStorage.new 604800).set 0 (.bool true) 0 0)
          ⟨0, none, none⟩).welcomeIfNewNode digest 1 ⟨1, some "10.0.0.2", some 8468⟩ 0).map
        (·.2) = some [] := by
  have h₁ : ((RoutingTable.flush ⟨0, none, none⟩ 20 0).runOps
      [.addContact 1 ⟨2 ^ 160 - 1, some "10.0.0.1", some 8468⟩ 0]).map (fun t =>
      (t.isNewNode ⟨1, some "10.0.0.2", some 8468⟩,
        (KademliaProtocol.mk t ((ForgetfulStorage.new 604800).set 0 (.bool true) 0 0)
          ⟨0, none, none⟩).storesAt ⟨1, some "10.0.0.2", some 8468⟩ ⟨0, none, none⟩ 0)) =
      some (some true, some true) := by
    decide
  have h₂ : ((RoutingTable.flush ⟨0, none, none⟩ 20 0).runOps
      [.addContact 1 ⟨2 ^ 160 - 1, some "10.0.0.1", some 8468⟩ 0]).map (fun t =>
      ((KademliaProtocol.mk t ((ForgetfulStorage.new 604800).set 0 (.bool true) 0 0)
          ⟨0, none, none⟩).welcomeIfNewNode digest 1 ⟨1, some "10.0.0.2", some 8468⟩ 0).map
        (·.2)) = some (some []) := by
    set_option maxRecDepth 20000 in decide
  obtain ⟨t, ht, hv⟩ := Option.map_eq_some'.1 h₁
  obtain ⟨t', ht', hv'⟩ := Option.map_eq_some'.1 h₂
  obtain rfl : t = t' := Option.some.inj (ht.symm.trans ht')
  exact ⟨t, (RoutingTable.Reachable.flush 0).runOps ht, (Prod.mk.inj hv).1, (Prod.mk.inj hv).2, hv'⟩

end Canbox.Kademlia
