import Canbox.Kademlia.Network
import Canbox.Kademlia.Refresh
import Canbox.Kademlia.Digest

/-!
# The rest of `Server` (`network.js`)

`set_digest` is in `Network`; here are the calls around it. `get(key)` answers
from the local storage when it holds a truthy value for the key's digest, and
otherwise crawls for the value from the key's neighbours; `set(key, value)`
takes only a `Buffer` and hands the digest to `set_digest`; `bootstrap(addrs)`
pings every address and crawls for this node's id from those that answered; and
`_refresh_table()` crawls for an id in every lonely bucket and then republishes
every pair the storage lists as older than `PERIOD_HOUR`.

Two facts tie these to the storage. A `Buffer` set at a node nearer the key than
some node the crawl found is answered by `get` from the local storage, without a
lookup, until `ttl` has passed (`set_then_get`). And since `PERIOD_HOUR` is six
minutes of the clock and a storage's `ttl` is at most that (the default is
twenty seconds), every store request `_refresh_table` sends republishes a pair
that `get` no longer answers (`refreshTable_stores_expired`).
-/

set_option autoImplicit false

namespace Canbox.Rpcudp

/-- JavaScript truthiness of a decoded value: `null`, `false`, `0`, `-0`, `NaN`
and `''` are falsy; a `Buffer`, an array and an object are truthy. A float is
zero when every bit but the sign is clear, and `NaN` when its exponent is all
ones and its mantissa is not zero. -/
def Value.truthy : Value → Bool
  | .nil => false
  | .bool b => b
  | .int i => i != 0
  | .float32 bits => !(bits % 2 ^ 31 == 0 || (bits / 2 ^ 23 % 2 ^ 8 == 2 ^ 8 - 1 && bits % 2 ^ 23 != 0))
  | .float64 bits => !(bits % 2 ^ 63 == 0 || (bits / 2 ^ 52 % 2 ^ 11 == 2 ^ 11 - 1 && bits % 2 ^ 52 != 0))
  | .str utf8 => !utf8.isEmpty
  | .bin _ | .arr _ | .map _ => true

end Canbox.Rpcudp

namespace Canbox.Kademlia

open Canbox.Rpcudp (Value Address)

/-- `PERIOD_HOUR`, in the milliseconds `now()` reads: six minutes. -/
def PERIOD_HOUR : Int := 3600 * 100

/-- How `get(key)` ends. -/
inductive GetEnd where
  /-- `return this.storage.get(dkey)`: the storage holds a truthy value for the key. -/
  | stored (v : Value)
  /-- `return null`: the table knows no neighbour of the key. -/
  | noNeighbors
  /-- `return await spider.find()`: the crawl's value, or `null`, and the node the
  value was cached at. -/
  | crawled (result : Option (Option Value × Option Node))
deriving Repr

namespace Server

/-- `new Server(ksize, alpha, node_id, storage)` and then `listen()`, which
builds the protocol over the server's node and storage. `node_id` is given:
`digest(randomBytes(255))` draws it otherwise. -/
def new (ksize alpha nodeId : Nat) (storage : ForgetfulStorage Nat Value) (now : Int) : Server :=
  ⟨ksize, alpha, .new ⟨nodeId, none, none⟩ storage ksize now⟩

/-! ## 1. `bootstrap` -/

/-- `bootstrap_node(addr)`: the node at `addr` with the id its ping answered, or
`null` when the ping did not answer (`ping addr` is `[ok, id]` as an option). -/
def bootstrapNode (ping : Address → Option Nat) (addr : Address) : Option Node :=
  (ping addr).map fun id => ⟨id, some addr.1, some addr.2⟩

/-- `bootstrap(addrs)`: a node crawl for this node's own id from the nodes whose
ping answered, in the order of `addrs`. The addresses it records as gateways
only receive the crawl's `_stun` requests, which are left out. -/
def bootstrap (s : Server) (addrs : List Address) (ping : Address → Option Nat)
    (answer : Nat → Node → FindResponse) (fuel : Nat) : Option (Option (List Node) × List Node) :=
  NodeSpiderCrawl.find answer fuel
    (.new s.protocol.sourceNode (addrs.filterMap (bootstrapNode ping)) s.ksize s.alpha)

/-! ## 2. `get` and `set` -/

/-- `get(key)`, `key` the bytes `digest` hashes. Each `this.storage.get(dkey)`
culls at its own reading of the clock: the first at `now₁`, and the second,
made only when the first is truthy, at `now₂`. Otherwise the key's neighbours
are looked up at `now₂` and a value crawl runs from them, `stringify` standing
for the `JSON.stringify` it counts values by. `none` when the crawl threw or ran
out of fuel. -/
def get (s : Server) (key : List Nat) (now₁ now₂ : Int) (stringify : Value → String)
    (answer : Nat → Node → FindResponse) (fuel : Nat) : Option (Server × GetEnd) := do
  let dkey := sha1 key
  let (v, storage) := s.protocol.storage.get dkey .nil now₁
  let s := { s with protocol := { s.protocol with storage } }
  if v.truthy then
    let (v, storage) := s.protocol.storage.get dkey .nil now₂
    pure ({ s with protocol := { s.protocol with storage } }, .stored v)
  else
    let node : Node := ⟨dkey, none, none⟩
    let (router, nearest) ← s.protocol.router.findNeighbors node none none now₂
    let s := { s with protocol := { s.protocol with router } }
    if nearest.length = 0 then pure (s, .noNeighbors)
    else
      let (found, _) ← ValueSpiderCrawl.find stringify s.protocol.sourceNode.id answer fuel
        (.new node nearest s.ksize s.alpha)
      let r ← found
      pure (s, .crawled r)

/-- A truthy first read answers `get(key)` with the second read, made at the
second clock reading on the storage the first one culled. -/
theorem get_of_truthy (s : Server) (key : List Nat) (now₁ now₂ : Int) (stringify : Value → String)
    (answer : Nat → Node → FindResponse) (fuel : Nat)
    (h : (s.protocol.storage.get (sha1 key) .nil now₁).1.truthy) :
    (s.get key now₁ now₂ stringify answer fuel).map (·.2) =
      some (.stored ((s.protocol.storage.cull now₁).get (sha1 key) .nil now₂).1) := by
  unfold get
  dsimp only
  rw [if_pos h]
  rfl

/-- `set(key, value)`: a value that is not a `Buffer` throws; otherwise
`set_digest(digest(key), value)`. -/
def set (s : Server) (key : List Nat) (value : Value) (now : Int)
    (answer : Nat → Node → FindResponse) (fuel : Nat) (outcome : Nat → StoreOutcome)
    (order : List Nat) : Option (Server × List Outbound × SetDigestEnd) :=
  match value with
  | .bin _ => s.setDigest (sha1 key) value now answer fuel outcome order
  | _ => none

/-! ## 3. `_refresh_table` -/

/-- The crawls of `_refresh_table()`: for every id `getRefreshIDs` draws,
`new Node(node_id)` and `findNeighbors(node, this.alpha)`, all in the loop
before any crawl runs, and then `Promise.all` over a `NodeSpiderCrawl.find()`
from each id's neighbours, the `j`-th answered by `answer j`. `none` when a crawl
throws or runs out of fuel, or an id is not hex. -/
def refreshCrawls (s : Server) (now : Int) (random : Nat → Nat)
    (answer : Nat → Nat → Node → FindResponse) (fuel : Nat) : Option Server := do
  let (router, crawls) ← (s.protocol.getRefreshIDs now random).foldlM
    (fun (acc : RoutingTable × List (Node × List Node)) id => do
      let node : Node := ⟨← hexValue id, none, none⟩
      let (router, nearest) ← acc.1.findNeighbors node (some s.alpha) none now
      pure (router, acc.2 ++ [(node, nearest)]))
    (s.protocol.router, [])
  let _ ← crawls.enum.mapM fun (j, node, nearest) => do
    let (found, _) ← NodeSpiderCrawl.find (answer j) fuel (.new node nearest s.ksize s.alpha)
    found
  pure { s with protocol := { s.protocol with router } }

/-- The republishing loop of `_refresh_table()`: `await this.set_digest(dkey,
value)` for each pair in turn, the `j`-th with its own crawl answers, store
outcomes and settling order. A `set_digest` whose `any` never settles leaves the
loop waiting for ever, so the pairs after it are never republished. -/
def republish (answer : Nat → Nat → Node → FindResponse) (fuel : Nat)
    (outcome : Nat → Nat → StoreOutcome) (order : Nat → List Nat) (now : Int) :
    Nat → Server → List (Nat × Value) → Option (Server × List (List Outbound × SetDigestEnd))
  | _, s, [] => some (s, [])
  | j, s, (dkey, value) :: rest => do
    let (s, out, e) ← s.setDigest dkey value now (answer j) fuel (outcome j) (order j)
    match e with
    | .stores _ (.waiting _) => pure (s, [(out, e)])
    | _ => (republish answer fuel outcome order now (j + 1) s rest).map fun r => (r.1, (out, e) :: r.2)

/-- `_refresh_table()`: the refresh crawls at `now`, and then, at `later`, the
republishing of every pair `iteritemsOlderThan(PERIOD_HOUR)` lists. -/
def refreshTable (s : Server) (now later : Int) (random : Nat → Nat)
    (crawlAnswer answer : Nat → Nat → Node → FindResponse) (fuel : Nat)
    (outcome : Nat → Nat → StoreOutcome) (order : Nat → List Nat) :
    Option (Server × List (List Outbound × SetDigestEnd)) := do
  let s ← s.refreshCrawls now random crawlAnswer fuel
  republish answer fuel outcome order later 0 s
    (s.protocol.storage.iteritemsOlderThan PERIOD_HOUR later)

/-! ## 4. What `set_digest` leaves in the storage and sends -/

/-- `d < max.apply(null, l)`, which is `false` on the `NaN` of an empty `l`:
some member of `l` is above `d`. -/
theorem lt_max?_iff (l : List Nat) (d : Nat) :
    (match l.max? with | some biggest => decide (d < biggest) | none => false) = true ↔
      ∃ x ∈ l, d < x := by
  cases hm : l.max? with
  | none => simp [List.max?_eq_none_iff.1 hm]
  | some b =>
    obtain ⟨hb, hle⟩ := List.max?_eq_some_iff'.1 hm
    simp only [decide_eq_true_eq]
    exact ⟨fun h => ⟨b, hb, h⟩, fun ⟨x, hx, h⟩ => lt_of_lt_of_le h (hle x hx)⟩

/-- What a `set_digest` that returns did: it found no neighbour and stored
nothing, or it crawled to `nodes`, sent each the pair, and stored the pair here
exactly when this node is nearer the key than some node found. -/
theorem setDigest_eq_some {s s' : Server} {dkey : Nat} {value : Value} {now : Int}
    {answer : Nat → Node → FindResponse} {fuel : Nat} {outcome : Nat → StoreOutcome}
    {order : List Nat} {out : List Outbound} {e : SetDigestEnd}
    (h : s.setDigest dkey value now answer fuel outcome order = some (s', out, e)) :
    (out = [] ∧ e = .noNeighbors ∧ s'.protocol.storage = s.protocol.storage) ∨
      ∃ nodes, out = nodes.map (fun n => .store n dkey value) ∧
        e = .stores nodes (anyRun outcome nodes.length order) ∧
        s'.protocol.storage = if ∃ n ∈ nodes, s.protocol.sourceNode.distanceTo ⟨dkey, none, none⟩ <
          n.distanceTo ⟨dkey, none, none⟩ then s.protocol.storage.set dkey value now now
          else s.protocol.storage := by
  unfold setDigest at h
  simp only [Option.bind_eq_bind, Option.bind_eq_some] at h
  obtain ⟨⟨router, nearest⟩, -, h⟩ := h
  dsimp only at h
  split_ifs at h with h0
  · simp only [Option.pure_def, Option.some.injEq, Prod.mk.injEq] at h
    obtain ⟨rfl, rfl, rfl⟩ := h
    exact .inl ⟨rfl, rfl, rfl⟩
  simp only [Option.bind_eq_some] at h
  obtain ⟨⟨found, sent⟩, -, nodes, -, h⟩ := h
  simp only [Option.pure_def, Option.some.injEq, Prod.mk.injEq] at h
  obtain ⟨rfl, rfl, rfl⟩ := h
  refine .inr ⟨nodes, rfl, rfl, ?_⟩
  have hhere := lt_max?_iff (nodes.map (·.distanceTo ⟨dkey, none, none⟩))
    (s.protocol.sourceNode.distanceTo ⟨dkey, none, none⟩)
  simp only [List.mem_map, exists_exists_and_eq_and] at hhere
  split_ifs with h1 h2 h2
  · rfl
  · exact absurd (hhere.1 h1) h2
  · exact absurd (hhere.2 h2) h1
  · rfl

/-- **A `Buffer` set near the key is read back locally.** When `set(key, value)`
stores the pair here, because this node is nearer the key's digest than some
node the crawl found, a later `get(key)` whose two clock readings both fall
before `ttl` has passed answers the value from the local storage, without a
lookup, whatever the table and whatever the network would answer. -/
theorem set_then_get (s : Server) (key : List Nat) (bytes : List UInt8) (now later₁ later₂ : Int)
    (stringify : Value → String) (answer answer' : Nat → Node → FindResponse) (fuel fuel' : Nat)
    (outcome : Nat → StoreOutcome) (order : List Nat) {s' : Server} {out : List Outbound}
    {nodes : List Node} {st : AnyState}
    (hset : s.set key (.bin bytes) now answer fuel outcome order = some (s', out, .stores nodes st))
    (hnear : ∃ n ∈ nodes, s.protocol.sourceNode.distanceTo ⟨sha1 key, none, none⟩ <
      n.distanceTo ⟨sha1 key, none, none⟩)
    (hle : now ≤ later₁) (hlive₁ : later₁ - now < s.protocol.storage.ttl)
    (hlive₂ : later₂ - now < s.protocol.storage.ttl) :
    (s'.get key later₁ later₂ stringify answer' fuel').map (·.2) = some (.stored (.bin bytes)) := by
  obtain ⟨-, he, -⟩ | ⟨nodes', -, he, hs⟩ := setDigest_eq_some hset
  · cases he
  obtain ⟨rfl, -⟩ := SetDigestEnd.stores.inj he
  rw [if_pos hnear] at hs
  have hlast := ForgetfulStorage.lastIs_set s.protocol.storage (sha1 key) (.bin bytes)
    (show now - now < s.protocol.storage.ttl by omega)
  have httl : (s.protocol.storage.set (sha1 key) (.bin bytes) now now).ttl = s.protocol.storage.ttl :=
    ForgetfulStorage.ttl_step _ (.set _ _ now now)
  rw [← httl] at hlive₁ hlive₂
  have hget : ((s.protocol.storage.set (sha1 key) (.bin bytes) now now).get (sha1 key) .nil later₁).1 =
    .bin bytes := hlast.get_eq hlive₁ .nil
  have hget' : (((s.protocol.storage.set (sha1 key) (.bin bytes) now now).cull later₁).get (sha1 key)
    .nil later₂).1 = .bin bytes :=
    (hlast.cull hlive₁).get_eq (by rwa [ForgetfulStorage.ttl_cull]) .nil
  rw [get_of_truthy _ _ _ _ _ _ _ (by rw [hs, hget]; rfl), hs, hget']

set_option maxRecDepth 20000 in
/-- `set_then_get` at a node with id 0 whose table knows only a node on the far
side of the key `"k"`: the crawl stops at that node, the pair is stored here,
and a `get` reading the clock one and two seconds later answers it. -/
theorem set_then_get_far_peer :
    ∃ t s' out nodes st, RoutingTable.Reachable ⟨0, none, none⟩ 20 t ∧
      (Server.mk 20 3 ⟨t, .new 20000, ⟨0, none, none⟩⟩).set [107] (.bin [1]) 0
        (fun _ _ => .nodes []) 2 (fun _ => .stored (.bool true)) [0] = some (s', out, .stores nodes st) ∧
      (∃ n ∈ nodes, (⟨0, none, none⟩ : Node).distanceTo ⟨sha1 [107], none, none⟩ <
        n.distanceTo ⟨sha1 [107], none, none⟩) ∧
      (s'.get [107] 1000 2000 (fun _ => "") (fun _ _ => .failed) 1).map (·.2) =
        some (.stored (.bin [1])) := by
  have hw : ((RoutingTable.flush ⟨0, none, none⟩ 20 0).runOps
      [.addContact 1 ⟨2 ^ 159, some "10.0.0.1", some 8468⟩ 0]).map (fun t =>
      ((Server.mk 20 3 ⟨t, .new 20000, ⟨0, none, none⟩⟩).set [107] (.bin [1]) 0
        (fun _ _ => .nodes []) 2 (fun _ => .stored (.bool true)) [0]).map (·.2.2)) =
      some (some (.stores [⟨2 ^ 159, some "10.0.0.1", some 8468⟩] (.resolved (.stored (.bool true))))) := by
    decide
  obtain ⟨t, ht, hv⟩ := Option.map_eq_some'.1 hw
  obtain ⟨⟨s', out, e⟩, hset, rfl⟩ := Option.map_eq_some'.1 hv
  have hnear : ∃ n ∈ [(⟨2 ^ 159, some "10.0.0.1", some 8468⟩ : Node)],
      (⟨0, none, none⟩ : Node).distanceTo ⟨sha1 [107], none, none⟩ <
        n.distanceTo ⟨sha1 [107], none, none⟩ := ⟨_, List.mem_singleton_self _, by decide⟩
  exact ⟨t, s', out, _, _, (RoutingTable.Reachable.flush 0).runOps ht, hset, hnear,
    set_then_get _ _ _ 0 1000 2000 _ _ (fun _ _ => .failed) 2 1 _ _ hset hnear (by decide)
      (show (1000 : Int) - 0 < 20000 by decide) (show (2000 : Int) - 0 < 20000 by decide)⟩

/-! ## 5. What `_refresh_table` republishes -/

/-- The refresh crawls leave the storage as it is. -/
theorem refreshCrawls_storage {s s' : Server} {now : Int} {random : Nat → Nat}
    {answer : Nat → Nat → Node → FindResponse} {fuel : Nat}
    (h : s.refreshCrawls now random answer fuel = some s') : s'.protocol.storage = s.protocol.storage := by
  simp only [refreshCrawls, Option.bind_eq_bind, Option.bind_eq_some] at h
  obtain ⟨⟨router, crawls⟩, -, -, -, h⟩ := h
  simp only [Option.pure_def, Option.some.injEq] at h
  rw [← h]

/-- Every store request the republishing loop sends carries one of its pairs. -/
theorem republish_outbound (answer : Nat → Nat → Node → FindResponse) (fuel : Nat)
    (outcome : Nat → Nat → StoreOutcome) (order : Nat → List Nat) (now : Int) :
    ∀ (j : Nat) (s : Server) (pairs : List (Nat × Value)) {s' results},
      republish answer fuel outcome order now j s pairs = some (s', results) →
      ∀ r ∈ results, ∀ o ∈ r.1, ∃ n, ∃ kv ∈ pairs, o = .store n kv.1 kv.2
  | _, _, [], _, _, h => by
    simp only [republish, Option.some.injEq, Prod.mk.injEq] at h
    simp [← h.2]
  | j, s, (dkey, value) :: rest, s', results, h => by
    simp only [republish, Option.bind_eq_bind, Option.bind_eq_some] at h
    obtain ⟨⟨s₁, out, e⟩, hd, h⟩ := h
    have here : ∀ o ∈ out, ∃ n, ∃ kv ∈ (dkey, value) :: rest, o = .store n kv.1 kv.2 := by
      obtain ⟨rfl, -⟩ | ⟨nodes, rfl, -⟩ := setDigest_eq_some hd
      · simp
      · simp only [List.mem_map]
        rintro o ⟨n, -, rfl⟩
        exact ⟨n, _, List.mem_cons_self _ _, rfl⟩
    split at h
    · simp only [Option.pure_def, Option.some.injEq, Prod.mk.injEq] at h
      simpa [← h.2] using here
    · obtain ⟨⟨s₂, rs⟩, hr, h⟩ := Option.map_eq_some'.1 h
      simp only [Prod.mk.injEq] at h
      have hrest := republish_outbound answer fuel outcome order now (j + 1) s₁ rest hr
      rw [← h.2]
      intro r hr
      rcases List.mem_cons.1 hr with rfl | hr'
      · exact here
      · exact fun o ho => (hrest r hr' o ho).imp fun n ⟨kv, hkv, ho⟩ =>
          ⟨kv, List.mem_cons_of_mem _ hkv, ho⟩

/-- **`_refresh_table` republishes only what `get` no longer answers.** Take a
server whose storage has run any calls from `new ForgetfulStorage(ttl)` with
`ttl` at most `PERIOD_HOUR` (the default twenty seconds is), its clock never
going back, and a refresh whose republishing starts at a time `later` not
before the storage's last reading. Every store request the refresh sends, to
whatever node, carries a pair for which `get` at `later` answers the default:
the refresh never republishes a live pair, only dead ones not yet culled. -/
theorem refreshTable_stores_expired (s : Server) (ttl : Int)
    (ops : List (ForgetfulStorage.Op Nat Value)) (now later : Int) (random : Nat → Nat)
    (crawlAnswer answer : Nat → Nat → Node → FindResponse) (fuel : Nat)
    (outcome : Nat → Nat → StoreOutcome) (order : Nat → List Nat) {s' results}
    (hs : s.protocol.storage = (ForgetfulStorage.new ttl).run ops) (httl : ttl ≤ PERIOD_HOUR)
    (hclock : (ops.flatMap ForgetfulStorage.Op.readings).Sorted (· ≤ ·))
    (hlater : ∀ r ∈ ops.flatMap ForgetfulStorage.Op.readings, r ≤ later)
    (h : s.refreshTable now later random crawlAnswer answer fuel outcome order = some (s', results)) :
    ∀ r ∈ results, ∀ o ∈ r.1, ∀ n key value, o = .store n key value →
      ∀ dflt, (s.protocol.storage.get key dflt later).1 = dflt := by
  simp only [refreshTable, Option.bind_eq_bind, Option.bind_eq_some] at h
  obtain ⟨s₁, hc, h⟩ := h
  rw [refreshCrawls_storage hc] at h
  intro r hr o ho n key value hkey dflt
  obtain ⟨n', kv, hkv, heq⟩ := republish_outbound answer fuel outcome order later 0 s₁ _ h r hr _ ho
  obtain ⟨-, rfl, -⟩ := Outbound.store.inj (hkey ▸ heq)
  rw [hs] at hkv ⊢
  exact ForgetfulStorage.get_of_mem_iteritemsOlderThan ttl ops hclock hlater httl kv hkv dflt

/-- `refreshTable_stores_expired` on a server whose table knows one node and
whose storage holds one pair set at time 0: no bucket is lonely, and the
republishing at time 400000 sends that node the pair, which is dead. -/
theorem refreshTable_stores_expired_old_pair :
    ∃ t, RoutingTable.Reachable ⟨0, none, none⟩ 20 t ∧
      ∃ (s' : Server) (results : List (List Outbound × SetDigestEnd)),
      (Server.mk 20 3 ⟨t, (ForgetfulStorage.new 20000).run [.set 7 (.bool true) 0 0],
        ⟨0, none, none⟩⟩).refreshTable 0 400000 (fun _ => 0) (fun _ _ _ => .failed)
        (fun _ _ _ => .nodes []) 2 (fun _ _ => .stored (.bool true)) (fun _ => [0]) =
        some (s', results) ∧ results ≠ [] ∧
      ∀ r ∈ results, ∀ o ∈ r.1, ∀ n key value, o = Outbound.store n key value → ∀ dflt,
        (((ForgetfulStorage.new 20000 : ForgetfulStorage Nat Value).run
          [.set 7 (.bool true) 0 0]).get key dflt 400000).1 = dflt := by
  have hw : ((RoutingTable.flush ⟨0, none, none⟩ 20 0).runOps
      [.addContact 1 ⟨2 ^ 159, some "10.0.0.1", some 8468⟩ 0]).map (fun t =>
      ((Server.mk 20 3 ⟨t, (ForgetfulStorage.new 20000).run [.set 7 (.bool true) 0 0],
        ⟨0, none, none⟩⟩).refreshTable 0 400000 (fun _ => 0) (fun _ _ _ => .failed)
        (fun _ _ _ => .nodes []) 2 (fun _ _ => .stored (.bool true)) (fun _ => [0])).map (·.2)) =
      some (some [([.store ⟨2 ^ 159, some "10.0.0.1", some 8468⟩ 7 (.bool true)],
        .stores [⟨2 ^ 159, some "10.0.0.1", some 8468⟩] (.resolved (.stored (.bool true))))]) := by
    decide
  obtain ⟨t, ht, hv⟩ := Option.map_eq_some'.1 hw
  obtain ⟨⟨s', results⟩, h, rfl⟩ := Option.map_eq_some'.1 hv
  exact ⟨t, (RoutingTable.Reachable.flush 0).runOps ht, s', _, h, List.cons_ne_nil _ _,
    (refreshTable_stores_expired _ 20000 [.set 7 (.bool true) 0 0] _ _ _ _ _ _ _ _ rfl (by decide)
      (by decide) (by decide) h :)⟩

end Server

end Canbox.Kademlia
