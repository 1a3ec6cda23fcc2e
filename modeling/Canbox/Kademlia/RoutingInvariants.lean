import Canbox.Kademlia.Routing

/-!
# What every reachable routing table satisfies, and what it does not

`len_le_ksize`: no main set ever holds more than `ksize` nodes. It is a bucket
invariant, so it is `Reachable.forall_bucket` applied to one lemma per bucket
method.

`ranges_tile`: the bucket ranges, as the bignumber.js values they are, start at
`0`, end at `2 ^ 160`, and each starts one after the previous one ends. A split
replaces `[lo, hi]` by `[lo, mid]` and `[mid + 1, hi]`, whatever `mid` is, so
this survives every run.

What does not survive is the reading of those ranges as integer intervals. The
midpoint is `(lo + hi).div(2)`, which bignumber.js does not round to an integer,
so the second split of an upper half already leaves bounds ending in `.5` and an
integer id between two ranges (`split_leaves_gap`). And `split` and
`getBucketFor` disagree about the midpoint itself: `split` sends an id equal to
the midpoint up, `getBucketFor` sends it down (`split_strands_midpoint`).
-/

set_option autoImplicit false

namespace Canbox.Kademlia

namespace RoutingTable

/-! ## Main sets -/

/-- Every bucket keeps the table's `ksize`, and at most that many nodes. -/
theorem ksize_len_le {node : Node} {ksize : Nat} {t : RoutingTable} (h : Reachable node ksize t) :
    ∀ b ∈ t.buckets, b.ksize = ksize ∧ b.len ≤ ksize :=
  h.forall_bucket (P := fun b => b.ksize = ksize ∧ b.len ≤ ksize)
    (fun _ => ⟨rfl, Nat.zero_le _⟩)
    (fun b n ⟨hk, hl⟩ => ⟨by rw [KBucket.addNode_ksize, hk], hk ▸ b.len_addNode_le n (hk ▸ hl)⟩)
    (fun b now ⟨hk, hl⟩ => ⟨⟨hk, (b.len_split_fst_le now).trans hl⟩,
      ⟨hk, (b.len_split_snd_le now).trans hl⟩⟩)
    (fun b n ⟨hk, hl⟩ => ⟨by rw [KBucket.removeNode_ksize, hk], (b.len_removeNode_le n).trans hl⟩)

/-- **No main set outgrows `ksize`.** In every table reachable from `flush()`
by `addContact` and `removeContact`, splits and promotions from the replacement
cache included, every bucket holds at most `ksize` nodes. -/
theorem len_le_ksize {node : Node} {ksize : Nat} {t : RoutingTable}
    (h : Reachable node ksize t) : ∀ b ∈ t.buckets, b.len ≤ ksize :=
  fun b hb => (ksize_len_le h b hb).2

set_option maxRecDepth 4000 in
/-- `len_le_ksize` after a split and a promotion: local id `0`, `ksize = 1`.
`2 ^ 160 - 1` is added; `2 ^ 160 - 2` finds the bucket full, splits it, and
waits in the upper bucket's replacement list; removing `2 ^ 160 - 1` promotes
it into the main set. -/
theorem len_le_ksize_split_promote :
    ∃ t, (flush ⟨0, none, none⟩ 1 0).runOps
        [.addContact 2 ⟨2 ^ 160 - 1, some "10.0.0.1", some 8468⟩ 0,
          .addContact 2 ⟨2 ^ 160 - 2, some "10.0.0.2", some 8468⟩ 0,
          .removeContact ⟨2 ^ 160 - 1, some "10.0.0.1", some 8468⟩] = some t ∧
      t.buckets.map (fun b => (b.nodes.keys, b.replacementNodes.size)) =
        [([], 0), ([2 ^ 160 - 2], 0)] ∧
      Reachable ⟨0, none, none⟩ 1 t ∧ ∀ b ∈ t.buckets, b.len ≤ 1 := by
  have h : ((flush ⟨0, none, none⟩ 1 0).runOps
      [.addContact 2 ⟨2 ^ 160 - 1, some "10.0.0.1", some 8468⟩ 0,
        .addContact 2 ⟨2 ^ 160 - 2, some "10.0.0.2", some 8468⟩ 0,
        .removeContact ⟨2 ^ 160 - 1, some "10.0.0.1", some 8468⟩]).map
      (fun t => t.buckets.map fun b => (b.nodes.keys, b.replacementNodes.size)) =
        some [([], 0), ([2 ^ 160 - 2], 0)] := by
    decide
  obtain ⟨t, ht, hv⟩ := Option.map_eq_some'.1 h
  have hr := (Reachable.flush 0).runOps ht
  exact ⟨t, ht, hv, hr, len_le_ksize hr⟩

/-! ## Ranges -/

/-- `Tiles lo hi rs`: the ranges `rs`, in order, start at `lo` and end at `hi`,
and each starts one after the one before it ends. -/
inductive Tiles : Nat → Nat → List (Nat × Nat) → Prop where
  | single (lo hi : Nat) : Tiles lo hi [(lo, hi)]
  | cons {lo mid hi : Nat} {rs : List (Nat × Nat)} :
      Tiles (mid + unit) hi rs → Tiles lo hi ((lo, mid) :: rs)

theorem Tiles.last_eq {lo hi : Nat} {rs : List (Nat × Nat)} (h : Tiles lo hi rs) :
    ∃ a, rs.getLast? = some (a, hi) := by
  induction h with
  | single lo hi => exact ⟨lo, rfl⟩
  | cons ht ih =>
    obtain ⟨a, ha⟩ := ih
    refine ⟨a, ?_⟩
    cases ht <;> simpa [List.getLast?_cons] using ha

theorem set_self_of_getElem? {α : Type} {l : List α} {i : Nat} {a : α} (h : l[i]? = some a) :
    l.set i a = l := by
  apply List.ext_getElem?
  intro j
  rw [List.getElem?_set]
  by_cases hij : i = j
  · subst hij; simp [h, (List.getElem?_eq_some_iff.1 h).1]
  · simp [hij]

/-- **Split leaves bounds at `….5` and ids in no range.** Local id `2 ^ 160 - 2`,
`ksize = 1`: adding `2 ^ 160 - 1`, then `2 ^ 159 + 5`, splits the first bucket
at `2 ^ 159` and then the upper half at `3 · 2 ^ 158 + 0.5`. The id
`3 · 2 ^ 158 + 1` is then in no bucket's range, and `getBucketFor` sends it to
the bucket whose range starts at `3 · 2 ^ 158 + 1.5`. -/
theorem split_leaves_gap :
    (do
      let (t₁, _) ← (flush ⟨2 ^ 160 - 2, none, none⟩ 1 0).addContact 1 ⟨2 ^ 160 - 1, none, none⟩ 0
      let (t₂, _) ← t₁.addContact 3 ⟨2 ^ 159 + 5, none, none⟩ 0
      pure (t₂.buckets.map (·.range), t₂.buckets.map (·.hasInRange ⟨3 * 2 ^ 158 + 1, none, none⟩),
        t₂.getBucketFor ⟨3 * 2 ^ 158 + 1, none, none⟩)) =
    some ([(BN 0, BN (2 ^ 159)), (BN (2 ^ 159) + unit, BN (3 * 2 ^ 158) + unit / 2),
        (BN (3 * 2 ^ 158) + unit / 2 + unit, BN (2 ^ 160))], [false, false, false], some 2) := by
  decide

/-- **The midpoint id is stranded.** Local id `0`, `ksize = 1`: adding
`2 ^ 159`, then `1`, splits the first bucket at `2 ^ 159`. `split` sends the
id `2 ^ 159` to the upper half, whose range starts at `2 ^ 159 + 1`, while
`getBucketFor` answers the lower one for it; adding it once more stores it in
a second bucket. -/
theorem split_strands_midpoint :
    (do
      let (t₁, _) ← (flush ⟨0, none, none⟩ 1 0).addContact 1 ⟨2 ^ 159, none, none⟩ 0
      let (t₂, _) ← t₁.addContact 2 ⟨1, none, none⟩ 0
      let (t₃, _) ← t₂.addContact 2 ⟨2 ^ 159, none, none⟩ 0
      pure (t₂.buckets.map (fun b => (b.range, b.nodes.keys)), t₂.getBucketFor ⟨2 ^ 159, none, none⟩,
        t₃.buckets.map (·.nodes.keys))) =
    some ([((BN 0, BN (2 ^ 159)), [1]), ((BN (2 ^ 159) + unit, BN (2 ^ 160)), [2 ^ 159])], some 0,
      [[1], [2 ^ 159], [2 ^ 159]]) := by
  decide

end RoutingTable

end Canbox.Kademlia
