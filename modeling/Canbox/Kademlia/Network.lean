import Canbox.Kademlia.Crawling
import Canbox.Kademlia.Protocol

/-!
# `Server.set_digest` and its `any` (`network.js`)

`set_digest(dkey, value)` looks up the key's neighbours in the table, crawls
from them for the nodes nearest the key, stores the pair here too when this
node is nearer the key than the farthest node found, sends `callStore` to every
node found, and returns `await any(ds)` over those calls.

`any(iter)` is `Promise.race(iter)`: a fulfilled race is the result; a rejected
one shifts the head off `iter`, which need not be the call that rejected, and
races again. The calls settle one at a time in an order the network chooses
(`order`); each settles to `[true, result]`, to `[false, null]` on a timeout,
or rejects (`StoreOutcome`). `anyRun` is where `any` stands once they all have
settled: resolved with the first fulfilment it raced, or still waiting.

For every order, then: the first call to settle, when it is fulfilled, is the
result, a timeout included (`anyRun_first_fulfilled`); when every call rejects,
`any` never settles (`anyRun_all_rejected`), and neither does `any([])`, so
`set_digest` never settles after a crawl whose every peer timed out
(`setDigest_misreports_stores`). What `any` resolves with is always
the outcome of a call that has settled and did not reject
(`anyRun_resolves_settled`).
-/

set_option autoImplicit false

namespace Canbox.Kademlia

open Canbox.Rpcudp (Value)

/-- What a `callStore(node, key, value)` promise settles to. -/
inductive StoreOutcome where
  /-- Resolved `[true, result]`: the remote store answered. -/
  | stored (result : Value)
  /-- Resolved `[false, null]`: the RPC timed out. -/
  | timedOut
  /-- Rejected: `rpc()` or `handleCallResponse` threw. -/
  | rejected
deriving DecidableEq, Repr

/-- Where `any` stands: resolved with a fulfilled call's value, or waiting on
the calls left in its array. -/
inductive AnyState where
  | resolved (o : StoreOutcome)
  | waiting (iter : List Nat)
deriving DecidableEq, Repr

/-- `any(iter)` once the calls in `done` have settled: `Promise.race(iter)`
takes the first settled member in `iter` order; a fulfilment resolves `any`, a
rejection shifts the head off `iter` and races again; with no member settled,
`any` waits. -/
def anyAt (outcome : Nat → StoreOutcome) (done : List Nat) : List Nat → AnyState
  | [] => .waiting []
  | i :: rest =>
    match (i :: rest).find? done.contains with
    | none => .waiting (i :: rest)
    | some j => if outcome j = .rejected then anyAt outcome done rest else .resolved (outcome j)

/-- Call `j` settles: `any`, if still waiting, races its array again. -/
def anySettle (outcome : Nat → StoreOutcome) (acc : List Nat × AnyState) (j : Nat) :
    List Nat × AnyState :=
  (acc.1 ++ [j], match acc.2 with
    | .waiting iter => anyAt outcome (acc.1 ++ [j]) iter
    | st => st)

/-- `any(ds)` over the calls `0, …, n - 1`, as they settle in `order`. -/
def anyRun (outcome : Nat → StoreOutcome) (n : Nat) (order : List Nat) : AnyState :=
  (order.foldl (anySettle outcome) ([], .waiting (List.range n))).2

/-! ## `any` -/

section Any

variable {outcome : Nat → StoreOutcome}

theorem foldl_anySettle_resolved (o : StoreOutcome) :
    ∀ (order done : List Nat), (order.foldl (anySettle outcome) (done, .resolved o)).2 = .resolved o
  | [], _ => rfl
  | j :: order, done => foldl_anySettle_resolved o order (done ++ [j])

/-- With every call it races rejected, `any` waits on what is left of its array. -/
theorem anyAt_all_rejected (done : List Nat) :
    ∀ iter : List Nat, (∀ j ∈ iter, outcome j = .rejected) →
      ∃ l, l.Sublist iter ∧ anyAt outcome done iter = .waiting l
  | [], _ => ⟨[], .refl _, rfl⟩
  | i :: rest, h => by
    unfold anyAt
    split
    · exact ⟨_, .refl _, rfl⟩
    · rename_i j hj
      rw [if_pos (h j (List.mem_of_find?_eq_some hj))]
      obtain ⟨l, hl, heq⟩ := anyAt_all_rejected done rest fun k hk => h k (List.mem_cons_of_mem _ hk)
      exact ⟨l, hl.cons _, heq⟩

/-- **When every call rejects, `any` never settles**, for every order, and
with no call at all (`n = 0`) it never settles either. -/
theorem anyRun_all_rejected (n : Nat) (h : ∀ j < n, outcome j = .rejected) (order : List Nat) :
    ∃ l, anyRun outcome n order = .waiting l := by
  suffices ∀ done iter, iter.Sublist (List.range n) →
      ∃ l, (order.foldl (anySettle outcome) (done, .waiting iter)).2 = .waiting l from
    this [] _ (.refl _)
  induction order with
  | nil => exact fun _ iter _ => ⟨iter, rfl⟩
  | cons j order ih =>
    intro done iter hiter
    obtain ⟨l, hl, heq⟩ := @anyAt_all_rejected outcome (done ++ [j]) iter
      fun k hk => h k (List.mem_range.1 (hiter.subset hk))
    have := ih (done ++ [j]) l (hl.trans hiter)
    simpa only [List.foldl_cons, anySettle, heq] using this

/-- `anyRun_all_rejected` on two stores that both reject, the second first. -/
theorem anyRun_all_rejected_two :
    (∀ j < 2, (fun _ => StoreOutcome.rejected) j = .rejected) ∧
      ∃ l, anyRun (fun _ => .rejected) 2 [1, 0] = .waiting l :=
  ⟨fun _ _ => rfl, @anyRun_all_rejected (fun _ => .rejected) 2 (fun _ _ => rfl) [1, 0]⟩

/-- **The first call to settle decides, when it is fulfilled.** If call `j`
settles first and does not reject, `any` resolves with its value, whatever the
others do: a timeout first makes `set_digest` report failure even when a later
store succeeds. -/
theorem anyRun_first_fulfilled {n j : Nat} (hj : j < n) (ho : outcome j ≠ .rejected)
    (order : List Nat) : anyRun outcome n (j :: order) = .resolved (outcome j) := by
  have hfind : (List.range n).find? [j].contains = some j := by
    cases hf : (List.range n).find? [j].contains with
    | none =>
      have := List.find?_eq_none.1 hf j (List.mem_range.2 hj)
      simp at this
    | some k =>
      have := List.find?_some hf
      simp only [List.contains_cons, List.contains_nil, Bool.or_false, beq_iff_eq] at this
      rw [this]
  have hat : anyAt outcome [j] (List.range n) = .resolved (outcome j) := by
    obtain ⟨m, hm⟩ : ∃ m, n = m + 1 := ⟨n - 1, by omega⟩
    subst hm
    rw [List.range_succ_eq_map] at hfind ⊢
    rw [anyAt, hfind]
    exact if_neg ho
  simp only [anyRun, List.foldl_cons, anySettle, List.nil_append, hat]
  exact foldl_anySettle_resolved _ _ _

/-- `anyRun_first_fulfilled` on two stores whose first to settle times out:
`any` resolves with the timeout although the other store succeeds. -/
theorem anyRun_first_fulfilled_timeout :
    0 < 2 ∧ StoreOutcome.timedOut ≠ .rejected ∧
      anyRun (fun i => if i = 0 then .timedOut else .stored (.bool true)) 2 [0, 1] =
        .resolved .timedOut :=
  ⟨by decide, by decide,
    @anyRun_first_fulfilled (fun i => if i = 0 then .timedOut else .stored (.bool true)) 2 0
      (by decide) (by decide) [1]⟩

/-- One race of `any`: it waits on part of its array, or resolves with a call
of the array that has settled and did not reject. -/
theorem anyAt_cases (done : List Nat) : ∀ iter : List Nat,
    (∃ l, l.Sublist iter ∧ anyAt outcome done iter = .waiting l) ∨
      ∃ j ∈ iter, j ∈ done ∧ outcome j ≠ .rejected ∧ anyAt outcome done iter = .resolved (outcome j)
  | [] => .inl ⟨[], .refl _, rfl⟩
  | i :: rest => by
    unfold anyAt
    split
    · exact .inl ⟨_, .refl _, rfl⟩
    · rename_i j hj
      have hdone : j ∈ done := by simpa using List.find?_some hj
      split_ifs with hrej
      · rcases anyAt_cases done rest with ⟨l, hl, heq⟩ | ⟨k, hk, hkd, hko, heq⟩
        · exact .inl ⟨l, hl.cons _, heq⟩
        · exact .inr ⟨k, List.mem_cons_of_mem _ hk, hkd, hko, heq⟩
      · exact .inr ⟨j, List.mem_of_find?_eq_some hj, hdone, hrej, rfl⟩

/-- **`any` resolves only with a call that settled without rejecting.** For
every number of calls, all their outcomes and every order they settle in: once
`any` has resolved, its value is the outcome of a call `j < n` that has settled,
and that outcome is a fulfilment, `[true, result]` or a timeout's
`[false, null]`, never a rejection. -/
theorem anyRun_resolves_settled {n : Nat} {order : List Nat} {o : StoreOutcome}
    (h : anyRun outcome n order = .resolved o) :
    ∃ j ∈ order, j < n ∧ outcome j = o ∧ o ≠ .rejected := by
  suffices ∀ order done iter : List Nat, iter.Sublist (List.range n) →
      (order.foldl (anySettle outcome) (done, .waiting iter)).2 = .resolved o →
      ∃ j ∈ done ++ order, j < n ∧ outcome j = o ∧ o ≠ .rejected by
    simpa using this order [] _ (.refl _) h
  intro order
  induction order with
  | nil => intro _ _ _ h; cases h
  | cons k order ih =>
    intro done iter hiter h
    rcases @anyAt_cases outcome (done ++ [k]) iter with
      ⟨l, hl, heq⟩ | ⟨j, hj, hjd, hjo, heq⟩
    · simp only [List.foldl_cons, anySettle, heq] at h
      simpa using ih (done ++ [k]) l (hl.trans hiter) h
    · simp only [List.foldl_cons, anySettle, heq, foldl_anySettle_resolved,
        AnyState.resolved.injEq] at h
      subst h
      refine ⟨j, ?_, List.mem_range.1 (hiter.subset hj), rfl, hjo⟩
      rw [← List.singleton_append, ← List.append_assoc]
      exact List.mem_append_left _ hjd

/-- `anyRun_resolves_settled` on two stores, the first rejecting before the
second succeeds: the race shifts the rejected call off the array, and resolves
with the second when it settles. -/
theorem anyRun_resolves_settled_second :
    anyRun (fun i => if i = 0 then .rejected else .stored (.bool true)) 2 [0, 1] =
        .resolved (.stored (.bool true)) ∧
      ∃ j ∈ [0, 1], j < 2 ∧
        (if j = 0 then StoreOutcome.rejected else .stored (.bool true)) = .stored (.bool true) ∧
        StoreOutcome.stored (.bool true) ≠ .rejected :=
  ⟨by decide, anyRun_resolves_settled (by decide)⟩

end Any

/-! ## `set_digest` -/

/-- `Server`: `ksize`, `alpha`, and the protocol, whose `sourceNode` is
`this.node` and whose `storage` is `this.storage`. -/
structure Server where
  ksize : Nat
  alpha : Nat
  protocol : KademliaProtocol

/-- How `set_digest` ends. -/
inductive SetDigestEnd where
  /-- `return false`: the table knows no neighbour of the key. -/
  | noNeighbors
  /-- `return await any(ds)` over the stores to the nodes the crawl found. -/
  | stores (nodes : List Node) (result : AnyState)
deriving DecidableEq, Repr

namespace Server

/-- `set_digest(dkey, value)`, with the crawl's RPCs answered by `answer` for at
most `fuel` rounds and the stores settling to `outcome` in `order`: the server
after it, the `callStore` requests, and how it ends; `none` when the crawl
threw or ran out of fuel. `max.apply(null, [])` is `NaN`, which no distance is
below. -/
def setDigest (s : Server) (dkey : Nat) (value : Value) (now : Int)
    (answer : Nat → Node → FindResponse) (fuel : Nat) (outcome : Nat → StoreOutcome)
    (order : List Nat) : Option (Server × List Outbound × SetDigestEnd) := do
  let node : Node := ⟨dkey, none, none⟩
  let (router, nearest) ← s.protocol.router.findNeighbors node none none now
  let s := { s with protocol := { s.protocol with router } }
  if nearest.length = 0 then pure (s, [], .noNeighbors)
  else
    let (found, _) ← NodeSpiderCrawl.find answer fuel (.new node nearest s.ksize s.alpha)
    let nodes ← found
    let here := match (nodes.map (·.distanceTo node)).max? with
      | some biggest => decide (s.protocol.sourceNode.distanceTo node < biggest)
      | none => false
    let s := if here then { s with protocol := { s.protocol with
      storage := s.protocol.storage.set dkey value now now } } else s
    pure (s, nodes.map fun n => .store n dkey value,
      .stores nodes (anyRun outcome nodes.length order))

end Server

/-- **`set_digest` does not report its stores.** With local id 0, `ksize` 20
and `alpha` 3, and a table that knows the nodes with ids 1 and 2: when both
time out in the crawl, the crawl returns no node, no store is sent, and `any([])`
leaves `set_digest` waiting for ever; when both answer, and the store to the
first times out before the store to the second succeeds, `set_digest` resolves
with the timeout. -/
theorem setDigest_misreports_stores :
    ∃ t, RoutingTable.Reachable ⟨0, none, none⟩ 20 t ∧
      ((Server.mk 20 3 ⟨t, .new 604800, ⟨0, none, none⟩⟩).setDigest (2 ^ 159) (.bool true) 0
          (fun _ _ => .failed) 1 (fun _ => .rejected) []).map (·.2) =
        some ([], .stores [] (.waiting [])) ∧
      ((Server.mk 20 3 ⟨t, .new 604800, ⟨0, none, none⟩⟩).setDigest (2 ^ 159) (.bool true) 0
          (fun _ _ => .nodes []) 1 (fun i => if i = 0 then .timedOut else .stored (.bool true))
          [0, 1]).map (·.2.2) =
        some (.stores [⟨1, some "10.0.0.1", some 8468⟩, ⟨2, some "10.0.0.2", some 8468⟩]
          (.resolved .timedOut)) := by
  have h : ((RoutingTable.flush ⟨0, none, none⟩ 20 0).runOps
      [.addContact 1 ⟨1, some "10.0.0.1", some 8468⟩ 0,
        .addContact 1 ⟨2, some "10.0.0.2", some 8468⟩ 0]).map (fun t =>
      (((Server.mk 20 3 ⟨t, .new 604800, ⟨0, none, none⟩⟩).setDigest (2 ^ 159) (.bool true) 0
          (fun _ _ => .failed) 1 (fun _ => .rejected) []).map (·.2),
        ((Server.mk 20 3 ⟨t, .new 604800, ⟨0, none, none⟩⟩).setDigest (2 ^ 159) (.bool true) 0
          (fun _ _ => .nodes []) 1 (fun i => if i = 0 then .timedOut else .stored (.bool true))
          [0, 1]).map (·.2.2))) =
      some (some ([], .stores [] (.waiting [])),
        some (.stores [⟨1, some "10.0.0.1", some 8468⟩, ⟨2, some "10.0.0.2", some 8468⟩]
          (.resolved .timedOut))) := by
    decide
  obtain ⟨t, ht, hv⟩ := Option.map_eq_some'.1 h
  exact ⟨t, (RoutingTable.Reachable.flush 0).runOps ht, (Prod.mk.inj hv).1, (Prod.mk.inj hv).2⟩

end Canbox.Kademlia
