import Canbox.Kademlia.ValueCrawl

/-!
# What a node crawl returns

`NodeSpiderCrawl.find` returns `Array.from(this.nearest)` once every node the
heap shows has been contacted. What the heap holds then is fixed by what the
crawl did to it: it pushed the initial peers, and each round pushed the node
lists its peers answered, in the order the RPCs were sent, then removed the
peers that did not answer (`roundOps`, `crawlOps`). Marking a peer contacted
leaves the entries alone.

So the crawl's heap holds, round after round, the members `HeapOp.heldAfter`
of that run of operations (`round_holds`, `crawl_done_holds`), and by the
nearest-`k` law of `NodeHeap` what a crawl returns is exactly the `ksize`
members nearest the key, strictly ascending in distance
(`find_returns_nearest`). The members are the nodes heard of and not removed
since: a peer whose RPC failed leaves them, and comes back if a later answer
lists it again.
-/

set_option autoImplicit false

namespace Canbox.Kademlia

namespace NodeHeap

/-- A heap with the same entries around the same node holds the same members;
the contacted ids and the cap play no part. -/
theorem Holds.of_heap {h h' : NodeHeap} {S : Finset Node} (hh : Holds h S) (heap : h'.heap = h.heap)
    (node : h'.node = h.node) : Holds h' S :=
  ⟨heap ▸ node ▸ hh.key, heap ▸ hh.nodup, heap ▸ hh.bits, heap ▸ hh.mem⟩

end NodeHeap

namespace NodeSpiderCrawl

/-! ## The heap operations of a crawl -/

/-- The heap operations of a round that sent find RPCs to `sent` in round `r`:
the node lists answered, pushed in the order the RPCs were sent, then the ids
of the peers that did not answer removed. -/
def roundOps (answer : Nat → Node → FindResponse) (r : Nat) (sent : List Node) : List HeapOp :=
  [.push (sent.flatMap fun p => (answer r p).listed),
    .remove ((sent.filter fun p => answer r p = .failed).map Node.id)]

/-- The heap operations of a crawl from `peers` through `rounds`: the peers
pushed by the constructor, then each round's. -/
def crawlOps (answer : Nat → Node → FindResponse) (peers : List Node)
    (rounds : List (Nat × List Node)) : List HeapOp :=
  .push peers :: rounds.flatMap fun rp => roundOps answer rp.1 rp.2

/-- The loop of `_nodesFound`, when it does not throw, lists for removal the
peers whose RPC failed, in order. -/
theorem foldlM_nodesFoundStep_ids : ∀ (resp : List (Nat × FindResponse))
    (acc acc' : NodeHeap × List Nat), resp.foldlM nodesFoundStep acc = some acc' →
      acc'.2 = acc.2 ++ (resp.filter fun r => r.2 = .failed).map Prod.fst
  | [], acc, acc', h => by
    cases h
    simp
  | r :: rs, acc, acc', h => by
    simp only [List.foldlM_cons, Option.bind_eq_bind, Option.bind_eq_some] at h
    obtain ⟨a, ha, h⟩ := h
    rw [foldlM_nodesFoundStep_ids rs a acc' h]
    obtain ⟨i, _ | ns | v⟩ := r <;> simp [nodesFoundStep] at ha <;> subst ha <;> simp

variable {answer : Nat → Node → FindResponse}

/-- **One round, on the heap.** A round that goes on leaves the heap it sent
from with the round's operations run on it, and a round that returns returns
that heap's iteration. -/
theorem round_heap {r : Nat} {s : SpiderCrawl} :
    (∀ s', (round answer r s).2 = .next s' →
        s'.nearest = s.sendRound.2.nearest.run (roundOps answer r s.sendRound.1)) ∧
      ∀ ns, (round answer r s).2 = .done ns →
        ns = (s.sendRound.2.nearest.run (roundOps answer r s.sendRound.1)).iterator := by
  have hrun : ∀ acc : NodeHeap × List Nat,
      (s.sendRound.1.map fun p => (p.id, answer r p)).foldlM nodesFoundStep
        (s.sendRound.2.nearest, []) = some acc →
      acc.1.remove acc.2 = s.sendRound.2.nearest.run (roundOps answer r s.sendRound.1) := by
    intro acc hacc
    rw [foldlM_nodesFoundStep _ _ _ hacc, foldlM_nodesFoundStep_ids _ _ _ hacc]
    simp [NodeHeap.run, NodeHeap.apply, roundOps, List.flatMap_map, List.filter_map,
      Function.comp_def]
  simp only [round, nodesFound]
  split
  · exact ⟨fun _ h => (nomatch h), fun _ h => (nomatch h)⟩
  · rename_i acc hacc
    split
    · exact ⟨fun _ h => (nomatch h), fun _ h => by cases h; rw [hrun acc hacc]⟩
    · exact ⟨fun _ h => by cases h; exact hrun acc hacc, fun _ h => (nomatch h)⟩

/-- The operations of a round push only nodes that the round's answers list. -/
theorem mem_pushed_roundOps {r : Nat} {sent : List Node} {op : HeapOp} (hop : op ∈ roundOps answer r sent)
    {n : Node} (hn : n ∈ op.pushed) : ∃ p, n ∈ (answer r p).listed := by
  simp only [roundOps, List.mem_cons, List.mem_singleton, List.not_mem_nil, or_false] at hop
  rcases hop with rfl | rfl
  · obtain ⟨p, -, hp⟩ := List.mem_flatMap.1 hn
    exact ⟨p, hp⟩
  · simp [HeapOp.pushed] at hn

/-! ## The run -/

/-- **What a returning run holds.** From a state whose heap holds `S`, a run
that returns nodes returns the iteration of a heap around the same node, with
the same cap, that holds what the run's operations leave of `S`. -/
theorem crawl_done_holds (hanswer : ∀ r p, ∀ n ∈ (answer r p).listed, n.id < 2 ^ 160) :
    ∀ (fuel r : Nat) (s : SpiderCrawl) (S : Finset Node) (ns sent : List Node),
      NodeHeap.Holds s.nearest S → crawl (round answer) fuel r s = some (some ns, sent) →
      ∃ h : NodeHeap, NodeHeap.Holds h (((crawlRounds (round answer) fuel r s).flatMap
          fun rp => roundOps answer rp.1 rp.2).foldl HeapOp.held S) ∧
        h.node = s.nearest.node ∧ h.maxsize = s.nearest.maxsize ∧ ns = h.iterator
  | 0, _, _, _, _, _, _, h => by simp [crawl] at h
  | fuel + 1, r, s, S, ns, sent, hs, h => by
    -- the round's operations keep `Holds`, from the heap the round sent from
    have hround : NodeHeap.Holds (s.sendRound.2.nearest.run (roundOps answer r s.sendRound.1))
        ((roundOps answer r s.sendRound.1).foldl HeapOp.held S) :=
      (hs.of_heap (by simp) (by simp [SpiderCrawl.sendRound_nearest])).run fun op hop n hn => by
        obtain ⟨p, hp⟩ := mem_pushed_roundOps hop hn
        exact hanswer r p n hp
    have hnode : (s.sendRound.2.nearest.run (roundOps answer r s.sendRound.1)).node = s.nearest.node ∧
        (s.sendRound.2.nearest.run (roundOps answer r s.sendRound.1)).maxsize = s.nearest.maxsize := by
      simp [SpiderCrawl.sendRound_nearest]
    rcases hr : round answer r s with ⟨sent', s' | a | _⟩
    · -- the round goes on
      have hs' := round_heap.1 s' (by rw [hr])
      simp only [crawl, hr, Option.map_eq_some', Prod.exists, Prod.mk.injEq] at h
      obtain ⟨_, sent'', h', rfl, -⟩ := h
      obtain ⟨h₁, hh, hn, hm, rfl⟩ :=
        crawl_done_holds hanswer fuel (r + 1) s' _ ns sent'' (hs' ▸ hround) h'
      have hfst : sent' = s.sendRound.1 := (congrArg Prod.fst hr).symm
      refine ⟨h₁, ?_, by rw [hn, hs', hnode.1], by rw [hm, hs', hnode.2], rfl⟩
      simpa only [crawlRounds, hr, List.flatMap_cons, List.foldl_append, hfst] using hh
    · -- the round returns
      simp only [crawl, hr, Option.some.injEq, Prod.mk.injEq] at h
      obtain ⟨rfl, rfl⟩ := h
      have hfst : sent' = s.sendRound.1 := (congrArg Prod.fst hr).symm
      refine ⟨_, ?_, hnode.1, hnode.2, round_heap.2 a (by rw [hr])⟩
      simpa [crawlRounds, hr, hfst] using hround
    · simp [crawl, hr] at h

/-- **A node crawl returns the nearest nodes it heard of.** For any answers
whose node lists carry 160-bit ids, and a key and initial peers with 160-bit
ids: when `NodeSpiderCrawl.find` returns nodes, they are exactly the `ksize`
members nearest the key (all of them, when fewer) of what the crawl's heap
operations leave, the initial peers and every answered node list pushed, the
peers that did not answer removed, round by round, and they come strictly
nearest first. -/
theorem find_returns_nearest (answer : Nat → Node → FindResponse) (fuel : Nat) (node : Node)
    (peers : List Node) (ksize alpha : Nat) {ns sent : List Node} (hnode : node.id < 2 ^ 160)
    (hpeers : ∀ p ∈ peers, p.id < 2 ^ 160)
    (hanswer : ∀ r p, ∀ n ∈ (answer r p).listed, n.id < 2 ^ 160)
    (h : find answer fuel (.new node peers ksize alpha) = some (some ns, sent)) :
    NodeHeap.IsNearest node ksize (HeapOp.heldAfter (crawlOps answer peers
      (crawlRounds (round answer) fuel 0 (.new node peers ksize alpha)))) ns := by
  have hnew : NodeHeap.Holds (SpiderCrawl.new node peers ksize alpha).nearest
      (peers.foldl HeapOp.heldPush ∅) :=
    (NodeHeap.holds_new node ksize).push hpeers
  obtain ⟨hh, hheld, hn, hm, rfl⟩ := crawl_done_holds hanswer fuel 0 _ _ ns sent hnew h
  have hnear := hheld.isNearest (by simpa [hn, SpiderCrawl.new] using hnode)
  simp only [hn, hm, SpiderCrawl.new, NodeHeap.push_node, NodeHeap.push_maxsize] at hnear
  exact hnear

/-- Answers where the peer with id 1 lists the nodes with ids 2 and 3, and
every other peer fails. -/
def listingAnswers (_ : Nat) (p : Node) : FindResponse :=
  if p.id = 1 then .nodes [⟨2, some "10.0.0.2", some 8468⟩, ⟨3, some "10.0.0.3", some 8468⟩]
  else .failed

/-- A node crawl for id 0 from the peer with id 1, `ksize` 2: round 0 asks 1,
which lists 2 and 3; rounds 1 and 2 ask 2 and 3, which fail and are removed.
The crawl returns 1, the one member left. -/
theorem find_returns_nearest_listing :
    (⟨0, none, none⟩ : Node).id < 2 ^ 160 ∧
      (∀ p ∈ [(⟨1, some "10.0.0.1", some 8468⟩ : Node)], p.id < 2 ^ 160) ∧
      (∀ r p, ∀ n ∈ (listingAnswers r p).listed, n.id < 2 ^ 160) ∧
      find listingAnswers 3 (.new ⟨0, none, none⟩ [⟨1, some "10.0.0.1", some 8468⟩] 2 3) =
        some (some [⟨1, some "10.0.0.1", some 8468⟩],
          [⟨1, some "10.0.0.1", some 8468⟩, ⟨2, some "10.0.0.2", some 8468⟩,
            ⟨3, some "10.0.0.3", some 8468⟩]) ∧
      NodeHeap.IsNearest ⟨0, none, none⟩ 2 (HeapOp.heldAfter (crawlOps listingAnswers
        [⟨1, some "10.0.0.1", some 8468⟩] (crawlRounds (round listingAnswers) 3 0
          (.new ⟨0, none, none⟩ [⟨1, some "10.0.0.1", some 8468⟩] 2 3))))
        [⟨1, some "10.0.0.1", some 8468⟩] := by
  have hanswer : ∀ r p, ∀ n ∈ (listingAnswers r p).listed, n.id < 2 ^ 160 := by
    intro r p n hn
    unfold listingAnswers at hn
    split_ifs at hn
    · simp only [FindResponse.listed, List.mem_cons, List.mem_singleton, List.not_mem_nil,
        or_false] at hn
      rcases hn with rfl | rfl <;> decide
    · simp [FindResponse.listed] at hn
  have hfind : find listingAnswers 3 (.new ⟨0, none, none⟩ [⟨1, some "10.0.0.1", some 8468⟩] 2 3) =
      some (some [⟨1, some "10.0.0.1", some 8468⟩],
        [⟨1, some "10.0.0.1", some 8468⟩, ⟨2, some "10.0.0.2", some 8468⟩,
          ⟨3, some "10.0.0.3", some 8468⟩]) := by
    decide
  exact ⟨by decide, by decide, hanswer, hfind,
    find_returns_nearest listingAnswers 3 ⟨0, none, none⟩ _ 2 3 (by decide) (by decide) hanswer hfind⟩

end NodeSpiderCrawl

end Canbox.Kademlia
