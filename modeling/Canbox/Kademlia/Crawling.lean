import Canbox.Kademlia.NodeHeap
import Canbox.Kademlia.Digest
import Canbox.Rpcudp.Protocol

/-!
# The spider crawls (`crawling.js`)

A crawl looks for a node or a value by rounds. Each round (`_find`) sends a
find RPC to the first `count` uncontacted nodes of `nearest` and marks them
contacted; `count` is `alpha`, or the length of the joined visible ids when
they are the ones crawled last. `_nodesFound` then reads the answers: a peer
that did not answer is removed from `nearest`, a node list is pushed into it,
and a value ends a value crawl. The crawl returns when every node `nearest`
shows has been contacted, and otherwise runs another round.

The RPCs are the crawl's environment: `answer r p` is what the RPC to `p` in
round `r` settles to, so a run is fixed by the answers, and every pattern of
answers is a run. Two things a round also does are left out. What a call does
to the protocol's own table (`handleCallResponse`, modelled in
`Canbox.Kademlia.Protocol`) is not read by the crawl. The NAT passthrough
`_stun` sends a `stun` request to every gateway `bootstrap` recorded and waits
for the replies it then ignores; the crawls here run with no gateway, as every
crawl before `bootstrap` does, so it sends nothing (with gateways, a stun
request over 512 bytes would throw in `rpc` and reject the round). A value
crawl does wait on one call: the store of the value it found, whose size check
is modelled. `find` is driven for at most `fuel` rounds (`crawl`), and returns
with the peers each round sent to.

Termination is a measure over a finite set `U` of ids that holds the initial
peers and every id a peer of `U` answers with: twice the ids of `U` not yet contacted,
plus one when the visible ids changed since the last round. A round that goes
on lowers it from at least 2 (`SpiderCrawl.round_next`), so `2 * |U| + 1`
rounds suffice, and no peer is sent an RPC twice (`find_terminates`).

A node crawl returns only nodes whose id it asked
(`NodeSpiderCrawl.find_returns_sent`), but not only nodes that answered:
removal does not keep a dead peer out, a later answer that lists it pushes it
back, and as its id stays contacted it is never asked again and is returned
(`find_returns_timed_out_peer`).
-/

set_option autoImplicit false

namespace Canbox.Kademlia

open Canbox.Rpcudp (Value utf8 RPCProtocol)

/-- What a find RPC settles to, as `RPCFindResponse` reads it. -/
inductive FindResponse where
  /-- `[false, null]` after a timeout, or the error of a call that threw:
  `happened()` is false. -/
  | failed
  /-- `[true, [[id, ip, port], ...]]`: `getNodeList()`. -/
  | nodes (ns : List Node)
  /-- `[true, { value }]` with a value: `hasValue()`. -/
  | value (v : Value)
deriving DecidableEq, Repr

/-- The nodes a response lists. -/
def FindResponse.listed : FindResponse → List Node
  | nodes ns => ns
  | _ => []

/-- How a round ends: `_nodesFound` calls `find()` again, returns, or throws. -/
inductive Step (σ α : Type) where
  | next (s : σ)
  | done (a : α)
  | throw

/-- `SpiderCrawl`: the node looked for, `ksize`, `alpha`, the `nearest` heap and
the ids crawled last. -/
structure SpiderCrawl where
  node : Node
  ksize : Nat
  alpha : Nat
  nearest : NodeHeap
  lastIDsCrawled : List Nat

namespace SpiderCrawl

/-- `new SpiderCrawl(protocol, node, peers, ksize, alpha)`: the peers pushed into
a heap of cap `ksize` around `node`; `lastIDsCrawled` is `''`, the join of no
ids. -/
def new (node : Node) (peers : List Node) (ksize alpha : Nat) : SpiderCrawl :=
  ⟨node, ksize, alpha, (NodeHeap.new node ksize).push peers, []⟩

/-- `count` in `_find`: `alpha`, or the length of the joined ids, 40 hex digits
each, when they are the ids crawled last. -/
def count (s : SpiderCrawl) : Nat :=
  if s.nearest.getIDs = s.lastIDsCrawled then 40 * s.nearest.getIDs.length else s.alpha

/-- `_find` up to the RPCs: the first `count` uncontacted nodes, each marked
contacted as its RPC is sent, and `lastIDsCrawled` set to the visible ids. -/
def sendRound (s : SpiderCrawl) : List Node × SpiderCrawl :=
  let uc := s.nearest.getUncontacted.take s.count
  (uc, { s with lastIDsCrawled := s.nearest.getIDs,
                nearest := uc.foldl NodeHeap.markContacted s.nearest })

end SpiderCrawl

/-- `find()` from round `r`: rounds until one returns (`some a`) or throws
(`none`), with the peers each round sent to; `none` when `fuel` rounds do not
suffice. -/
def crawl {σ α : Type} (round : Nat → σ → List Node × Step σ α) :
    Nat → Nat → σ → Option (Option α × List Node)
  | 0, _, _ => none
  | fuel + 1, r, s =>
    match round r s with
    | (sent, .next s') => (crawl round fuel (r + 1) s').map fun res => (res.1, sent ++ res.2)
    | (sent, .done a) => some (some a, sent)
    | (sent, .throw) => some (none, sent)

namespace NodeSpiderCrawl

/-- One answer in `NodeSpiderCrawl._nodesFound`: a failed peer is listed for
removal and a node list pushed; a value throws, as `getNodeList` maps an
object. -/
def nodesFoundStep (acc : NodeHeap × List Nat) (r : Nat × FindResponse) :
    Option (NodeHeap × List Nat) :=
  match r.2 with
  | .failed => some (acc.1, acc.2 ++ [r.1])
  | .nodes ns => some (acc.1.push ns, acc.2)
  | .value _ => none

/-- `NodeSpiderCrawl._nodesFound(responses)`. -/
def nodesFound (s : SpiderCrawl) (responses : List (Nat × FindResponse)) :
    Step SpiderCrawl (List Node) :=
  match responses.foldlM nodesFoundStep (s.nearest, []) with
  | none => .throw
  | some acc =>
    if (acc.1.remove acc.2).allBeenContacted then .done (acc.1.remove acc.2).iterator
    else .next { s with nearest := acc.1.remove acc.2 }

/-- A round of `NodeSpiderCrawl.find()`: `_find`, with the answers of round `r`
gathered in the order the RPCs were sent, then `_nodesFound`. -/
def round (answer : Nat → Node → FindResponse) (r : Nat) (s : SpiderCrawl) :
    List Node × Step SpiderCrawl (List Node) :=
  (s.sendRound.1, nodesFound s.sendRound.2 (s.sendRound.1.map fun p => (p.id, answer r p)))

/-- `NodeSpiderCrawl.find()`. -/
def find (answer : Nat → Node → FindResponse) (fuel : Nat) (s : SpiderCrawl) :
    Option (Option (List Node) × List Node) :=
  crawl (round answer) fuel 0 s

end NodeSpiderCrawl

/-- `ValueSpiderCrawl`: a spider crawl that also keeps the nearest node that
answered without the value. -/
structure ValueSpiderCrawl extends SpiderCrawl where
  nearestWithoutValue : NodeHeap

namespace ValueSpiderCrawl

/-- `new ValueSpiderCrawl(...)`: `nearestWithoutValue` has cap 1. -/
def new (node : Node) (peers : List Node) (ksize alpha : Nat) : ValueSpiderCrawl :=
  ⟨SpiderCrawl.new node peers ksize alpha, NodeHeap.new node 1⟩

/-- What the loop of `ValueSpiderCrawl._nodesFound` carries. -/
structure Found where
  nearest : NodeHeap
  nearestWithoutValue : NodeHeap
  toremove : List Nat
  foundValues : List Value

/-- One answer in `ValueSpiderCrawl._nodesFound`: a failed peer is listed for
removal, a value collected; a node list is pushed into `nearest` after the
peer, found by id, is pushed into `nearestWithoutValue` (a peer not found is
`null`, and pushing it throws). -/
def nodesFoundStep (acc : Found) (r : Nat × FindResponse) : Option Found :=
  match r.2 with
  | .failed => some { acc with toremove := acc.toremove ++ [r.1] }
  | .value v => some { acc with foundValues := acc.foundValues ++ [v] }
  | .nodes ns => (acc.nearest.getNodeById r.1).map fun peer =>
      { acc with nearestWithoutValue := acc.nearestWithoutValue.push [peer],
                 nearest := acc.nearest.push ns }

/-- One value of the loop of `_handleFoundValues`: its count is
`counter.get(key)` plus one, `counter` being read off the keys seen so far, and
a count above the largest so far makes it `most_common`. -/
def mostCommonStep {κ : Type} [DecidableEq κ] (key : Value → κ) (acc : List κ × Option Value × Nat)
    (v : Value) : List κ × Option Value × Nat :=
  (acc.1 ++ [key v],
    if acc.2.2 < acc.1.count (key v) + 1 then (some v, acc.1.count (key v) + 1) else acc.2)

/-- `most_common` in `_handleFoundValues`, with `counter` keyed by `key`
(`JSON.stringify(val)` in the source): the first value whose count passes every
count before it. -/
def mostCommonBy {κ : Type} [DecidableEq κ] (key : Value → κ) (values : List Value) :
    Option Value :=
  (values.foldl (mostCommonStep key) ([], none, 0)).2.1

/-- `_handleFoundValues(values)`: the most common value, `counter` keyed by
`stringify`, the text `JSON.stringify` writes of a decoded value; and the node
`nearestWithoutValue.popleft()` gives, at which the value is then stored with
`await callStore(peer, this.node.id, value)` from the node with id `sid`. The
`rpc` of that store throws when the request does not fit in 512 bytes, and
`_handleFoundValues` with it (`none`); otherwise the store's reply changes
nothing it returns. -/
def handleFoundValues (stringify : Value → String) (sid : Nat) (node : Node)
    (nearestWithoutValue : NodeHeap) (values : List Value) : Option (Option Value × Option Node) :=
  match mostCommonBy stringify values, nearestWithoutValue.popleft.1 with
  | some value, some peer =>
    if RPCProtocol.requestFits (utf8 "store") [.str (idText sid), .str (idText node.id), value] then
      some (some value, some peer)
    else none
  | value, peer => some (value, peer)

/-- `ValueSpiderCrawl._nodesFound(responses)`: a found value ends the crawl, so
does a heap with every node contacted (`null`). -/
def nodesFound (stringify : Value → String) (sid : Nat) (s : ValueSpiderCrawl)
    (responses : List (Nat × FindResponse)) :
    Step ValueSpiderCrawl (Option (Option Value × Option Node)) :=
  match responses.foldlM nodesFoundStep ⟨s.nearest, s.nearestWithoutValue, [], []⟩ with
  | none => .throw
  | some acc =>
    if 0 < acc.foundValues.length then
      match handleFoundValues stringify sid s.node acc.nearestWithoutValue acc.foundValues with
      | some res => .done (some res)
      | none => .throw
    else if (acc.nearest.remove acc.toremove).allBeenContacted then .done none
    else .next { s with nearest := acc.nearest.remove acc.toremove,
                        nearestWithoutValue := acc.nearestWithoutValue }

/-- A round of `ValueSpiderCrawl.find()`. -/
def round (stringify : Value → String) (sid : Nat) (answer : Nat → Node → FindResponse) (r : Nat)
    (s : ValueSpiderCrawl) :
    List Node × Step ValueSpiderCrawl (Option (Option Value × Option Node)) :=
  (s.sendRound.1, nodesFound stringify sid { s with toSpiderCrawl := s.sendRound.2 }
    (s.sendRound.1.map fun p => (p.id, answer r p)))

/-- `ValueSpiderCrawl.find()` of the node with id `sid`. -/
def find (stringify : Value → String) (sid : Nat) (answer : Nat → Node → FindResponse) (fuel : Nat)
    (s : ValueSpiderCrawl) : Option (Option (Option (Option Value × Option Node)) × List Node) :=
  crawl (round stringify sid answer) fuel 0 s

end ValueSpiderCrawl

/-! ## One round -/

namespace SpiderCrawl

/-- What every crawl state keeps, for a set `U` of ids: `nearest` holds no id
twice, and only ids of `U`. -/
structure Bounded (U : Finset Nat) (s : SpiderCrawl) : Prop where
  nodup : (s.nearest.heap.map fun e => e.2.id).Nodup
  mem : ∀ e ∈ s.nearest.heap, e.2.id ∈ U

/-- Twice the ids of `U` not yet contacted, plus one when the visible ids are
not the ones crawled last. -/
def measure (U : Finset Nat) (s : SpiderCrawl) : Nat :=
  2 * (U.filter fun i => i ∉ s.nearest.contacted).card +
    if s.nearest.getIDs = s.lastIDsCrawled then 0 else 1

variable {U : Finset Nat} {s : SpiderCrawl}

theorem sendRound_nearest (s : SpiderCrawl) :
    s.sendRound.2.nearest = { s.nearest with
      contacted := s.sendRound.1.foldl (fun c n => c.insert n.id) s.nearest.contacted } :=
  NodeHeap.foldl_markContacted _ _

@[simp] theorem sendRound_heap (s : SpiderCrawl) : s.sendRound.2.nearest.heap = s.nearest.heap := by
  rw [sendRound_nearest]

theorem mem_sendRound_contacted {i : Nat} : i ∈ s.sendRound.2.nearest.contacted ↔
    i ∈ s.nearest.contacted ∨ i ∈ s.sendRound.1.map Node.id := by
  rw [sendRound_nearest, NodeHeap.mem_foldl_insert]

theorem sendRound_nil (h : s.sendRound.1 = []) : s.sendRound.2.nearest = s.nearest := by
  rw [sendRound_nearest, h]
  rfl

/-- The peers a round sends to are distinct, uncontacted, and in `U`. -/
theorem Bounded.sendRound_fresh (hb : Bounded U s) :
    (s.sendRound.1.map Node.id).Nodup ∧ ∀ p ∈ s.sendRound.1, p.id ∉ s.nearest.contacted ∧ p.id ∈ U := by
  have hsub : s.sendRound.1.Sublist s.nearest.iterator :=
    (List.take_sublist _ _).trans (List.filter_sublist _)
  refine ⟨(hsub.map _).nodup (NodeHeap.iterator_ids_nodup hb.nodup), fun p hp => ⟨?_, ?_⟩⟩
  · exact (NodeHeap.mem_getUncontacted.1 (List.mem_of_mem_take hp)).2
  · obtain ⟨e, he, rfl⟩ := NodeHeap.mem_iterator (hsub.subset hp)
    exact hb.mem e he

/-- The nodes the answers of a round list have ids in `U`, when every peer of
`U` answers with ids of `U`. -/
theorem Bounded.listed_mem (hb : Bounded U s) {answer : Nat → Node → FindResponse} {r : Nat}
    (hU : ∀ r p, p.id ∈ U → ∀ n ∈ (answer r p).listed, n.id ∈ U) :
    ∀ n ∈ (s.sendRound.1.map fun p => (p.id, answer r p)).flatMap (·.2.listed), n.id ∈ U := by
  intro n hn
  simp only [List.flatMap, List.mem_flatten, List.mem_map] at hn
  obtain ⟨_, ⟨_, ⟨p, hp, rfl⟩, rfl⟩, hn⟩ := hn
  exact hU r p (hb.sendRound_fresh.2 p hp).2 n hn

/-- With nothing sent but something uncontacted, `count` was 0, so the visible
ids were not the ones crawled last. -/
theorem getIDs_ne_of_sendRound_nil (h : s.sendRound.1 = []) (hu : s.nearest.getUncontacted ≠ []) :
    s.nearest.getIDs ≠ s.lastIDsCrawled := by
  intro heq
  have hc : s.count = 0 := (List.take_eq_nil_iff.1 h).resolve_right hu
  rw [count, if_pos heq, NodeHeap.getIDs, List.length_map] at hc
  have hnil : s.nearest.iterator = [] := List.length_eq_zero.1 (by omega)
  exact hu (by simp [NodeHeap.getUncontacted, hnil])

/-- Contacting more ids leaves no more of `U` uncontacted, and contacting one
of them leaves fewer. -/
theorem card_uncontacted_lt {c c' : List Nat} (hsub : ∀ i, i ∈ c → i ∈ c') {q : Nat}
    (hq : q ∈ U) (hqc : q ∉ c) (hqc' : q ∈ c') :
    (U.filter fun i => i ∉ c').card < (U.filter fun i => i ∉ c).card := by
  refine Finset.card_lt_card ((Finset.ssubset_iff_of_subset fun i hi => ?_).2
    ⟨q, Finset.mem_filter.2 ⟨hq, hqc⟩, fun h => (Finset.mem_filter.1 h).2 hqc'⟩)
  simp only [Finset.mem_filter] at hi ⊢
  exact ⟨hi.1, fun h => hi.2 (hsub _ h)⟩

/-- **A round that goes on lowers the measure.** Let a round send from `s`, and
let `s'` be any state after it that keeps the contacted ids and
`lastIDsCrawled`, holds only ids of `U`, and keeps the heap when nothing was
sent. If `s'` shows an uncontacted node, the measure at `s` was at least 2, and
at `s'` it is lower. -/
theorem measure_lt {s' : SpiderCrawl} (hb : Bounded U s) (hb' : Bounded U s')
    (hc : s'.nearest.contacted = s.sendRound.2.nearest.contacted)
    (hl : s'.lastIDsCrawled = s.nearest.getIDs)
    (hnil : s.sendRound.1 = [] → s'.nearest = s.nearest)
    (hgo : s'.nearest.allBeenContacted = false) :
    2 ≤ measure U s ∧ measure U s' < measure U s := by
  have hsub : ∀ i, i ∈ s.nearest.contacted → i ∈ s'.nearest.contacted := fun i hi => by
    rw [hc]; exact mem_sendRound_contacted.2 (.inl hi)
  have hgo' := NodeHeap.allBeenContacted_eq_false.1 hgo
  obtain ⟨p, hp⟩ := List.exists_mem_of_ne_nil _ hgo'
  obtain ⟨hpi, hpc⟩ := NodeHeap.mem_getUncontacted.1 hp
  have hpU : p.id ∈ U := by
    obtain ⟨e, he, rfl⟩ := NodeHeap.mem_iterator hpi
    exact hb'.mem e he
  have hpos : 0 < (U.filter fun i => i ∉ s.nearest.contacted).card :=
    Finset.card_pos.2 ⟨p.id, Finset.mem_filter.2 ⟨hpU, fun h => hpc (hsub _ h)⟩⟩
  have hflag : ∀ t : SpiderCrawl,
      (if t.nearest.getIDs = t.lastIDsCrawled then 0 else 1) ≤ 1 := fun t => by
    split <;> omega
  refine ⟨by have := hflag s; unfold measure; omega, ?_⟩
  rcases huc : s.sendRound.1 with _ | ⟨q, uc⟩
  · -- nothing sent: the heap is kept, and the flag falls from 1 to 0
    have hs' := hnil huc
    have hne := getIDs_ne_of_sendRound_nil huc (by rwa [← hs'])
    unfold measure
    rw [hs', hl, if_pos rfl, if_neg hne]
    omega
  · -- `q` was sent: its id leaves the uncontacted ids of `U`
    have hqs : q ∈ s.sendRound.1 := by rw [huc]; exact List.mem_cons_self _ _
    have hq := hb.sendRound_fresh.2 q hqs
    have hq' : q.id ∈ s'.nearest.contacted := by
      rw [hc]; exact mem_sendRound_contacted.2 (.inr (List.mem_map_of_mem _ hqs))
    have hlt := card_uncontacted_lt hsub hq.2 hq.1 hq'
    have := hflag s'
    unfold measure
    omega

/-- **What a round that goes on keeps.** Let `s'` follow the RPCs of `s`: its
heap is the sent-from heap with nodes of `U` pushed and some ids removed, it
keeps the contacted ids and `lastIDsCrawled`, and it pushed and removed nothing
when nothing was sent. If it shows an uncontacted node, it is bounded, the
measure fell from at least 2, and what was sent is contacted. -/
theorem round_next (hb : Bounded U s) {s' : SpiderCrawl} {L : List Node} {ids : List Nat}
    (hL : ∀ n ∈ L, n.id ∈ U) (hs' : s'.nearest = (s.sendRound.2.nearest.push L).remove ids)
    (hl : s'.lastIDsCrawled = s.nearest.getIDs) (hnil : s.sendRound.1 = [] → L = [] ∧ ids = [])
    (hgo : s'.nearest.allBeenContacted = false) :
    Bounded U s' ∧ 2 ≤ measure U s ∧ measure U s' < measure U s ∧
      ∀ i, i ∈ s.nearest.contacted ∨ i ∈ s.sendRound.1.map Node.id → i ∈ s'.nearest.contacted := by
  have hc : s'.nearest.contacted = s.sendRound.2.nearest.contacted := by rw [hs']; simp
  have hb' : Bounded U s' := by
    have hsub := NodeHeap.remove_heap_sublist (s.sendRound.2.nearest.push L) ids
    rw [← hs'] at hsub
    refine ⟨(hsub.map _).nodup (NodeHeap.nodup_push (by simpa using hb.nodup) L), fun e he => ?_⟩
    rcases NodeHeap.mem_push_heap (hsub.subset he) with he | he
    · exact hb.mem e (by simpa using he)
    · exact hL _ he
  have hm := measure_lt hb hb' hc hl (fun h => by
    obtain ⟨rfl, rfl⟩ := hnil h
    rw [hs', ← sendRound_nil h]
    simp [NodeHeap.push, NodeHeap.remove]) hgo
  exact ⟨hb', hm.1, hm.2, fun i hi => by rw [hc]; exact mem_sendRound_contacted.2 hi⟩

theorem bounded_new {U : Finset Nat} {peers : List Node} (node : Node) (ksize alpha : Nat)
    (hpeers : ∀ p ∈ peers, p.id ∈ U) : Bounded U (new node peers ksize alpha) := by
  refine ⟨NodeHeap.nodup_push (by simp [NodeHeap.new]) peers, fun e he => ?_⟩
  rcases NodeHeap.mem_push_heap he with he | he
  · simp [NodeHeap.new] at he
  · exact hpeers _ he

theorem measure_le (U : Finset Nat) (s : SpiderCrawl) : measure U s ≤ 2 * U.card + 1 := by
  have := Finset.card_filter_le U fun i => i ∉ s.nearest.contacted
  unfold measure
  split <;> omega

end SpiderCrawl

/-! ## The driver -/

section Driver

variable {σ α : Type}

/-- What the driver needs of a crawl's rounds: each sends to distinct peers not
yet contacted, and one that goes on keeps `Inv`, lowers `μ` from at least 2,
and contacts what it sent. -/
structure Progress (round : Nat → σ → List Node × Step σ α) (Inv : σ → Prop) (μ : σ → Nat)
    (C : σ → List Nat) : Prop where
  fresh : ∀ r s, Inv s → ((round r s).1.map Node.id).Nodup ∧ ∀ p ∈ (round r s).1, p.id ∉ C s
  next : ∀ r s s', Inv s → (round r s).2 = .next s' →
    Inv s' ∧ 2 ≤ μ s ∧ μ s' < μ s ∧ ∀ i, i ∈ C s ∨ i ∈ (round r s).1.map Node.id → i ∈ C s'

variable {round : Nat → σ → List Node × Step σ α} {Inv : σ → Prop} {μ : σ → Nat}
  {C : σ → List Nat}

/-- **Enough fuel.** From a state that keeps `Inv`, `μ` rounds, and at least
one, suffice. -/
theorem Progress.crawl_isSome (hp : Progress round Inv μ C) :
    ∀ fuel r s, Inv s → μ s ≤ fuel → 0 < fuel → (crawl round fuel r s).isSome
  | 0, _, _, _, _, h0 => absurd h0 (Nat.lt_irrefl 0)
  | fuel + 1, r, s, hs, hμ, _ => by
    rcases hr : round r s with ⟨sent, s' | a | _⟩
    · obtain ⟨hs', h2, hlt, -⟩ := hp.next r s s' hs (by rw [hr])
      have := hp.crawl_isSome fuel (r + 1) s' hs' (by omega) (by omega)
      simpa [crawl, hr] using this
    · simp [crawl, hr]
    · simp [crawl, hr]

/-- **No peer twice.** A run from a state that keeps `Inv` sends to distinct
peers, none contacted at its start. -/
theorem Progress.crawl_sent (hp : Progress round Inv μ C) :
    ∀ fuel r s res, Inv s → crawl round fuel r s = some res →
      (res.2.map Node.id).Nodup ∧ ∀ p ∈ res.2, p.id ∉ C s
  | 0, _, _, _, _, h => by simp [crawl] at h
  | fuel + 1, r, s, res, hs, h => by
    have hf := hp.fresh r s hs
    rcases hr : round r s with ⟨sent, s' | a | _⟩
    · obtain ⟨hs', -, -, hC⟩ := hp.next r s s' hs (by rw [hr])
      rw [hr] at hf hC
      simp only [crawl, hr, Option.map_eq_some'] at h
      obtain ⟨res', h', rfl⟩ := h
      obtain ⟨hnd', hfr'⟩ := hp.crawl_sent fuel (r + 1) s' res' hs' h'
      refine ⟨?_, fun p hp' => ?_⟩
      · rw [List.map_append, List.nodup_append]
        refine ⟨hf.1, hnd', fun i hi hi' => ?_⟩
        obtain ⟨q, hq, rfl⟩ := List.mem_map.1 hi'
        exact hfr' q hq (hC _ (.inr hi))
      · rcases List.mem_append.1 hp' with hp' | hp'
        · exact hf.2 p hp'
        · exact fun hc => hfr' p hp' (hC _ (.inl hc))
    all_goals
      rw [hr] at hf
      simp only [crawl, hr, Option.some.injEq] at h
      subst h
      exact hf

end Driver

/-! ## The two crawls -/

namespace NodeSpiderCrawl

/-- The loop of `_nodesFound`, when it does not throw, pushes every listed node. -/
theorem foldlM_nodesFoundStep : ∀ (resp : List (Nat × FindResponse)) (acc acc' : NodeHeap × List Nat),
    resp.foldlM nodesFoundStep acc = some acc' →
      acc'.1 = acc.1.push (resp.flatMap fun r => r.2.listed)
  | [], acc, acc', h => by
    cases h
    rfl
  | r :: rs, acc, acc', h => by
    simp only [List.foldlM_cons, Option.bind_eq_bind, Option.bind_eq_some] at h
    obtain ⟨a, ha, h⟩ := h
    have hstep : a.1 = acc.1.push r.2.listed := by
      obtain ⟨i, _ | ns | v⟩ := r <;> simp [nodesFoundStep] at ha <;> subst ha <;> rfl
    rw [foldlM_nodesFoundStep rs a acc' h, hstep, List.flatMap_cons, NodeHeap.push_append]

variable {U : Finset Nat} {answer : Nat → Node → FindResponse}

theorem progress (hU : ∀ r p, p.id ∈ U → ∀ n ∈ (answer r p).listed, n.id ∈ U) :
    Progress (round answer) (SpiderCrawl.Bounded U) (SpiderCrawl.measure U)
      fun s => s.nearest.contacted where
  fresh _ _ hs := ⟨hs.sendRound_fresh.1, fun p hp => (hs.sendRound_fresh.2 p hp).1⟩
  next r s s' hs h := by
    simp only [round, nodesFound] at h
    split at h
    · cases h
    · rename_i acc hacc
      split at h
      · cases h
      · rename_i hgo
        cases h
        refine SpiderCrawl.round_next hs (hs.listed_mem hU)
          (by rw [foldlM_nodesFoundStep _ _ _ hacc]) rfl (fun h0 => ?_) (by simpa using hgo)
        rw [h0] at hacc ⊢
        cases hacc
        exact ⟨rfl, rfl⟩

/-- A round's `_nodesFound` keeps the contacted ids, and returns only contacted
nodes. -/
theorem nodesFound_contacted {s : SpiderCrawl} {resp : List (Nat × FindResponse)} :
    (∀ s', nodesFound s resp = .next s' → s'.nearest.contacted = s.nearest.contacted) ∧
      ∀ ns, nodesFound s resp = .done ns → ∀ n ∈ ns, n.id ∈ s.nearest.contacted := by
  cases hacc : resp.foldlM nodesFoundStep (s.nearest, []) with
  | none =>
    simp only [nodesFound, hacc]
    exact ⟨fun _ h => (nomatch h), fun _ h => (nomatch h)⟩
  | some acc =>
    have hc : (acc.1.remove acc.2).contacted = s.nearest.contacted := by
      rw [NodeHeap.remove_contacted, foldlM_nodesFoundStep _ _ _ hacc, NodeHeap.push_contacted]
    simp only [nodesFound, hacc]
    by_cases hall : (acc.1.remove acc.2).allBeenContacted = true
    · simp only [hall, if_true]
      refine ⟨fun _ h => (nomatch h), fun ns h n hn => ?_⟩
      cases h
      rw [← hc]
      by_contra hnc
      have := NodeHeap.allBeenContacted_eq_false.2
        (List.ne_nil_of_mem (NodeHeap.mem_getUncontacted.2 ⟨hn, hnc⟩))
      rw [hall] at this
      cases this
    · simp only [hall, if_false, Bool.false_eq_true]
      exact ⟨fun _ h => by cases h; exact hc, fun _ h => nomatch h⟩

/-- Every node a run returns has an id contacted at its start or sent a find
RPC during it. -/
theorem crawl_returned_contacted :
    ∀ fuel r s ns sent, crawl (round answer) fuel r s = some (some ns, sent) →
      ∀ n ∈ ns, n.id ∈ s.nearest.contacted ∨ n.id ∈ sent.map Node.id
  | 0, _, _, _, _, h => by simp [crawl] at h
  | fuel + 1, r, s, ns, sent, h => by
    rcases hr : round answer r s with ⟨uc, s' | a | _⟩
    · simp only [crawl, hr, Option.map_eq_some'] at h
      obtain ⟨⟨a, sent'⟩, h', heq⟩ := h
      simp only [Prod.mk.injEq] at heq
      obtain ⟨rfl, rfl⟩ := heq
      have hc := nodesFound_contacted.1 s' (congrArg Prod.snd hr)
      have huc : uc = s.sendRound.1 := (congrArg Prod.fst hr).symm
      intro n hn
      rcases crawl_returned_contacted fuel (r + 1) s' ns sent' h' n hn with hn | hn
      · rw [hc, SpiderCrawl.mem_sendRound_contacted, ← huc] at hn
        exact hn.imp_right fun hn => by rw [List.map_append]; exact List.mem_append_left _ hn
      · exact .inr (by rw [List.map_append]; exact List.mem_append_right _ hn)
    · simp only [crawl, hr, Option.some.injEq, Prod.mk.injEq] at h
      obtain ⟨rfl, rfl⟩ := h
      have huc : uc = s.sendRound.1 := (congrArg Prod.fst hr).symm
      intro n hn
      have := nodesFound_contacted.2 _ (congrArg Prod.snd hr) n hn
      rwa [SpiderCrawl.mem_sendRound_contacted, ← huc] at this
    · simp [crawl, hr] at h

/-- **A node crawl returns only nodes it asked.** Every node that
`NodeSpiderCrawl.find` returns has an id it sent a find RPC to during the
crawl; the RPC may have failed (`find_returns_timed_out_peer`). -/
theorem find_returns_sent (fuel : Nat) (node : Node) (peers : List Node) (ksize alpha : Nat)
    {ns sent : List Node} (h : find answer fuel (.new node peers ksize alpha) = some (some ns, sent)) :
    ∀ n ∈ ns, n.id ∈ sent.map Node.id := fun n hn =>
  (crawl_returned_contacted fuel 0 _ ns sent h n hn).resolve_left (by
    simp [SpiderCrawl.new, NodeHeap.push_contacted, NodeHeap.new])

/-- `find_returns_sent` on a crawl from the peer `1`, which lists `2` and `3`:
round 0 asks `1`, round 1 asks the two nodes it found, and the crawl returns
all three. -/
theorem find_returns_sent_found_nodes :
    ∃ ns sent, find (fun _ p => if p.id = 1 then
          .nodes [⟨2, some "10.0.0.2", some 8468⟩, ⟨3, some "10.0.0.3", some 8468⟩] else .nodes []) 3
        (.new ⟨0, none, none⟩ [⟨1, some "10.0.0.1", some 8468⟩] 20 3) = some (some ns, sent) ∧
      ns.map Node.id = [1, 2, 3] ∧ ∀ n ∈ ns, n.id ∈ sent.map Node.id := by
  have h : find (fun _ p => if p.id = 1 then
        .nodes [⟨2, some "10.0.0.2", some 8468⟩, ⟨3, some "10.0.0.3", some 8468⟩] else .nodes []) 3
      (.new ⟨0, none, none⟩ [⟨1, some "10.0.0.1", some 8468⟩] 20 3) =
      some (some [⟨1, some "10.0.0.1", some 8468⟩, ⟨2, some "10.0.0.2", some 8468⟩,
          ⟨3, some "10.0.0.3", some 8468⟩],
        [⟨1, some "10.0.0.1", some 8468⟩, ⟨2, some "10.0.0.2", some 8468⟩,
          ⟨3, some "10.0.0.3", some 8468⟩]) := by
    decide
  exact ⟨_, _, h, rfl, find_returns_sent 3 _ _ 20 3 h⟩

end NodeSpiderCrawl

namespace ValueSpiderCrawl

/-- The loop of `_nodesFound`, when it does not throw, pushes every listed node
into `nearest`. -/
theorem foldlM_nodesFoundStep : ∀ (resp : List (Nat × FindResponse)) (acc acc' : Found),
    resp.foldlM nodesFoundStep acc = some acc' →
      acc'.nearest = acc.nearest.push (resp.flatMap fun r => r.2.listed)
  | [], acc, acc', h => by
    cases h
    rfl
  | r :: rs, acc, acc', h => by
    simp only [List.foldlM_cons, Option.bind_eq_bind, Option.bind_eq_some] at h
    obtain ⟨a, ha, h⟩ := h
    have hstep : a.nearest = acc.nearest.push r.2.listed := by
      obtain ⟨i, _ | ns | v⟩ := r <;> simp [nodesFoundStep] at ha
      · subst ha; rfl
      · obtain ⟨peer, -, rfl⟩ := ha; rfl
      · subst ha; rfl
    rw [foldlM_nodesFoundStep rs a acc' h, hstep, List.flatMap_cons, NodeHeap.push_append]

variable {U : Finset Nat} {answer : Nat → Node → FindResponse}

theorem progress (stringify : Value → String) (sid : Nat)
    (hU : ∀ r p, p.id ∈ U → ∀ n ∈ (answer r p).listed, n.id ∈ U) :
    Progress (round stringify sid answer) (fun s => SpiderCrawl.Bounded U s.toSpiderCrawl)
      (fun s => SpiderCrawl.measure U s.toSpiderCrawl) fun s => s.nearest.contacted where
  fresh _ _ hs := ⟨hs.sendRound_fresh.1, fun p hp => (hs.sendRound_fresh.2 p hp).1⟩
  next r s s' hs h := by
    simp only [round, nodesFound] at h
    split at h
    · cases h
    · rename_i acc hacc
      split at h
      · split at h <;> cases h
      · split at h
        · cases h
        · rename_i hgo
          cases h
          refine SpiderCrawl.round_next hs (hs.listed_mem hU)
            (by rw [foldlM_nodesFoundStep _ _ _ hacc]) rfl (fun h0 => ?_) (by simpa using hgo)
          rw [h0] at hacc ⊢
          cases hacc
          exact ⟨rfl, rfl⟩

end ValueSpiderCrawl

/-- **The crawls terminate, and ask no peer twice.** Let `U` be any finite set
of ids holding the initial peers' and every id a peer of `U` answers with (only
peers of `U` are ever asked). For any
`alpha`, `ksize` and answers, `NodeSpiderCrawl.find` and `ValueSpiderCrawl.find`
return or throw within `2 * |U| + 1` rounds, and no id is sent a find RPC more
than once. -/
theorem find_terminates (U : Finset Nat) (node : Node) (peers : List Node) (ksize alpha : Nat)
    (answer : Nat → Node → FindResponse) (stringify : Value → String) (sid : Nat)
    (hpeers : ∀ p ∈ peers, p.id ∈ U)
    (hU : ∀ r p, p.id ∈ U → ∀ n ∈ (answer r p).listed, n.id ∈ U) :
    (∃ res, NodeSpiderCrawl.find answer (2 * U.card + 1) (.new node peers ksize alpha) = some res ∧
        (res.2.map Node.id).Nodup) ∧
      ∃ res, ValueSpiderCrawl.find stringify sid answer (2 * U.card + 1)
        (.new node peers ksize alpha) = some res ∧ (res.2.map Node.id).Nodup := by
  have hb := SpiderCrawl.bounded_new node ksize alpha hpeers
  constructor
  · obtain ⟨res, hres⟩ := Option.isSome_iff_exists.1 ((NodeSpiderCrawl.progress hU).crawl_isSome
      _ 0 _ hb (SpiderCrawl.measure_le U _) (Nat.succ_pos _))
    exact ⟨res, hres, ((NodeSpiderCrawl.progress hU).crawl_sent _ _ _ _ hb hres).1⟩
  · have hp := ValueSpiderCrawl.progress stringify sid hU
    obtain ⟨res, hres⟩ := Option.isSome_iff_exists.1 (hp.crawl_isSome _ 0
      (ValueSpiderCrawl.new node peers ksize alpha) hb (SpiderCrawl.measure_le U _) (Nat.succ_pos _))
    exact ⟨res, hres, (hp.crawl_sent _ _ _ _ hb hres).1⟩

/-- Answers where the peer with id 1 never answers, the one with id 2 lists the
node with id 3, and every other peer lists the one with id 1. -/
def deadPeerAnswers (_ : Nat) (p : Node) : FindResponse :=
  if p.id = 1 then .failed
  else if p.id = 2 then .nodes [⟨3, some "10.0.0.3", some 8468⟩]
  else .nodes [⟨1, some "10.0.0.1", some 8468⟩]

/-- The ids `1`, `2`, `3` bound the crawl of `find_returns_timed_out_peer`. -/
theorem find_terminates_dead_peer :
    (∀ p ∈ [(⟨1, some "10.0.0.1", some 8468⟩ : Node), ⟨2, some "10.0.0.2", some 8468⟩],
        p.id ∈ ({1, 2, 3} : Finset Nat)) ∧
      (∀ r p, p.id ∈ ({1, 2, 3} : Finset Nat) →
        ∀ n ∈ (deadPeerAnswers r p).listed, n.id ∈ ({1, 2, 3} : Finset Nat)) ∧
      (∃ res, NodeSpiderCrawl.find deadPeerAnswers (2 * ({1, 2, 3} : Finset Nat).card + 1)
          (.new ⟨0, none, none⟩ [⟨1, some "10.0.0.1", some 8468⟩, ⟨2, some "10.0.0.2", some 8468⟩]
            20 3) = some res ∧ (res.2.map Node.id).Nodup) ∧
        ∃ res, ValueSpiderCrawl.find (fun _ => "true") 0 deadPeerAnswers
          (2 * ({1, 2, 3} : Finset Nat).card + 1)
          (.new ⟨0, none, none⟩ [⟨1, some "10.0.0.1", some 8468⟩, ⟨2, some "10.0.0.2", some 8468⟩]
            20 3) = some res ∧ (res.2.map Node.id).Nodup := by
  have hU : ∀ r p, p.id ∈ ({1, 2, 3} : Finset Nat) →
      ∀ n ∈ (deadPeerAnswers r p).listed, n.id ∈ ({1, 2, 3} : Finset Nat) := by
    intro r p _ n hn
    unfold deadPeerAnswers at hn
    split_ifs at hn <;> simp_all [FindResponse.listed]
  exact ⟨by decide, hU, find_terminates _ _ _ _ _ _ _ _ (by decide) hU⟩

/-! ## A dead peer comes back -/

/-- A node crawl for id 0 from the peers with ids 1 and 2, `ksize` 20 and
`alpha` 3, under `deadPeerAnswers`: round 0 asks 1 and 2, removes 1 and pushes
3; round 1 asks 3, whose answer pushes 1 back. Every id shown is then contacted,
and the crawl returns 1, whose only RPC failed. -/
theorem find_returns_timed_out_peer :
    (∀ r, deadPeerAnswers r ⟨1, some "10.0.0.1", some 8468⟩ = .failed) ∧
      NodeSpiderCrawl.find deadPeerAnswers 2 (.new ⟨0, none, none⟩
          [⟨1, some "10.0.0.1", some 8468⟩, ⟨2, some "10.0.0.2", some 8468⟩] 20 3) =
        some (some [⟨1, some "10.0.0.1", some 8468⟩, ⟨2, some "10.0.0.2", some 8468⟩,
            ⟨3, some "10.0.0.3", some 8468⟩],
          [⟨1, some "10.0.0.1", some 8468⟩, ⟨2, some "10.0.0.2", some 8468⟩,
            ⟨3, some "10.0.0.3", some 8468⟩]) :=
  ⟨fun _ => rfl, by decide⟩

end Canbox.Kademlia
