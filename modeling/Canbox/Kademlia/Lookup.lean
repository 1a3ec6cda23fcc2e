import Canbox.Kademlia.Routing

/-!
# What `findNeighbors` answers

`findNeighbors(node, k, exclude)` (`routing.js:234`) walks the buckets with a
`TableTraverser` (`routing.js:120`), keeps every neighbor that has another id
than the target and another address than `exclude` until it holds `k`, and
answers the `k` nearest of those, nearest first. The spec reads this as the
`k` nearest nodes of the whole table. Two things in the code stand between.

The traverser takes the left side's nearest bucket, then the right side's
*last* bucket, and stops as soon as it is the right side's turn and the right
side is empty. With the target in bucket `i` of `n`, the buckets left of
`2 i - n` are never visited (`TableTraverser.mem_rest`).

The loop stops at the first `k` kept nodes in that order, and only those are
sorted; nearer nodes met later are never looked at.

What holds of every call (`findNeighbors_mem`, `findNeighbors_nearest_first`)
is this: at most `k` nodes, each from a visited bucket, none with the target's
id or at `exclude`'s address, in ascending distance to the target. `findNeighbors_skips_left_buckets` builds a reachable
table of three buckets with the target in the last one. The node of the first
bucket is never answered, although fewer than `k` nodes are.
-/

set_option autoImplicit false

namespace Canbox.Kademlia

namespace RoutingTable

/-! ## The traversal -/

theorem mem_drop_of_mem_drop_dropLast {α : Type} {l : List α} {m : Nat} {a : α}
    (h : a ∈ l.dropLast.drop m) : a ∈ l.drop m := by
  rw [List.dropLast_eq_take, List.drop_take] at h
  exact List.mem_of_mem_take h

/-- **The traverser's reach.** When it is the left side's turn, the traverser
visits all of the right side and the `right.length + 1` nearest buckets of the
left side. When it is the right side's turn, it visits one left bucket fewer. -/
theorem TableTraverser.mem_rest {x : Node} {fuel : Nat} {left right : List KBucket} {turn : Bool}
    (h : x ∈ TableTraverser.rest fuel left right turn) :
    (∃ b ∈ left.drop (left.length - (right.length + if turn then 1 else 0)), x ∈ b.getNodes) ∨
      ∃ b ∈ right, x ∈ b.getNodes := by
  induction fuel, left, right, turn using TableTraverser.rest.induct with
  | case1 => simp [TableTraverser.rest] at h
  | case2 n left right b hl ih =>
    have hpos : 0 < left.length := List.length_pos.2 fun he => by simp [he] at hl
    show (∃ b ∈ left.drop (left.length - (right.length + 1)), x ∈ b.getNodes) ∨ _
    rw [TableTraverser.rest.eq_2 _ _ _ _ hl, List.mem_append, List.mem_reverse] at h
    rcases h with h | h
    · refine .inl ⟨b, List.mem_of_getLast?_eq_some ?_, h⟩
      rw [List.getLast?_drop, if_neg (by omega), hl]
    · rcases ih h with ⟨b', hb', hx⟩ | hr
      · refine .inl ⟨b', mem_drop_of_mem_drop_dropLast ?_, hx⟩
        simpa [List.length_dropLast, show left.length - 1 - right.length =
          left.length - (right.length + 1) by omega] using hb'
      · exact .inr hr
  | case3 n left right turn b hr hne ih =>
    have hpos : 0 < right.length := List.length_pos.2 fun he => by simp [he] at hr
    rw [TableTraverser.rest.eq_3 _ _ _ _ _ hr hne, List.mem_append, List.mem_reverse] at h
    rcases h with h | h
    · exact .inr ⟨b, List.mem_of_getLast?_eq_some hr, h⟩
    · rcases ih h with ⟨b', hb', hx⟩ | ⟨b', hb', hx⟩
      · refine .inl ⟨b', List.drop_subset_drop_left _ ?_ hb', hx⟩
        simp only [List.length_dropLast, if_true]
        split <;> omega
      · exact .inr ⟨b', List.dropLast_subset _ hb', hx⟩
  | case4 n left right turn hr hne =>
    simp [TableTraverser.rest.eq_4 _ _ _ _ hr hne] at h

/-- A node the traversal from bucket `i` yields lies in a bucket at index
`2 i - n` or beyond. -/
theorem mem_traversal {t : RoutingTable} {i : Nat} {b : KBucket} (hb : t.buckets[i]? = some b)
    (b' : KBucket) {x : Node} (h : x ∈ (t.setBucket i b').traversal i b) :
    ∃ c ∈ t.buckets.drop (2 * i - t.buckets.length), x ∈ c.getNodes := by
  have hlen : i < t.buckets.length := (List.getElem?_eq_some_iff.1 hb).1
  have htake : (t.buckets.set i b').take i = t.buckets.take i := by
    rw [List.set_take, List.set_eq_of_length_le (by simp)]
  have hdrop : (t.buckets.set i b').drop (i + 1) = t.buckets.drop (i + 1) := by
    simp [List.drop_set]
  simp only [traversal, buckets_setBucket, htake, hdrop, List.mem_append, List.mem_reverse] at h
  rcases h with h | h
  · refine ⟨b, List.mem_iff_getElem?.2 ⟨i - (2 * i - t.buckets.length), ?_⟩, h⟩
    rw [List.getElem?_drop, ← hb]
    congr 1
    omega
  · rcases TableTraverser.mem_rest h with ⟨c, hc, hx⟩ | ⟨c, hc, hx⟩
    · refine ⟨c, ?_, hx⟩
      simp only [List.length_take, List.length_drop, if_true, Nat.min_eq_left hlen.le] at hc
      rw [List.drop_take] at hc
      convert List.mem_of_mem_take hc using 2
      omega
    · exact ⟨c, List.drop_subset_drop_left _ (by omega) hc, hx⟩

/-- The loop of `findNeighbors` keeps only nodes it met and kept. -/
theorem mem_collectNeighbors {k : Nat} {keep : Node → Bool} {x : Node} {rest : List Node} :
    ∀ {nodes : List Node}, x ∈ collectNeighbors k keep nodes rest →
      x ∈ nodes ∨ (x ∈ rest ∧ keep x = true) := by
  induction rest with
  | nil => exact .inl
  | cons n rest ih =>
    intro nodes h
    have hkept : x ∈ (if keep n = true then nodes ++ [n] else nodes) →
        x ∈ nodes ∨ (x ∈ n :: rest ∧ keep x = true) := by
      intro hx
      by_cases hn : keep n = true
      · rw [if_pos hn, List.mem_append, List.mem_singleton] at hx
        rcases hx with hx | rfl
        · exact .inl hx
        · exact .inr ⟨List.mem_cons_self _ _, hn⟩
      · rw [if_neg hn] at hx
        exact .inl hx
    dsimp only [collectNeighbors] at h
    by_cases hk : (if keep n = true then nodes ++ [n] else nodes).length = k
    · rw [if_pos hk] at h
      exact hkept h
    · rw [if_neg hk] at h
      rcases ih h with h | ⟨h, hkeep⟩
      · exact hkept h
      · exact .inr ⟨List.mem_cons_of_mem _ h, hkeep⟩

/-! ## `findNeighbors` -/

section FindNeighbors

variable {t : RoutingTable} {node : Node} {k : Option Nat} {exclude : Option Node} {now : Int}
  {r : RoutingTable × List Node}

/-- `findNeighbors` finds the target's bucket, touches it, and answers the `k`
nearest of the neighbors it collects along the traversal from that bucket. -/
theorem findNeighbors_eq_some (h : t.findNeighbors node k exclude now = some r) :
    ∃ i b, t.getBucketFor node = some i ∧ t.buckets[i]? = some b ∧
      r.2 = ((collectNeighbors (match k with | some (k + 1) => k + 1 | _ => t.ksize)
          (fun neighbor => neighbor.id != node.id && exclude.all fun e => !neighbor.sameHomeAs e) []
          ((t.setBucket i (b.touchLastUpdated now)).traversal i b)).insertionSort
        fun a b => node.distanceTo a ≤ node.distanceTo b).take
        (match k with | some (k + 1) => k + 1 | _ => t.ksize) := by
  simp only [findNeighbors, Option.bind_eq_bind, Option.pure_def] at h
  obtain ⟨i, hi, h⟩ := Option.bind_eq_some.1 h
  obtain ⟨b, hb, h⟩ := Option.bind_eq_some.1 h
  obtain rfl := Option.some.inj h
  exact ⟨i, b, hi, hb, by rcases k with _ | _ | k <;> rfl⟩

/-- **What every node `findNeighbors` answers is.** It has another id than
the target, another address than `exclude`, and it sits in a bucket at index
`2 i - n` or beyond, `i` being the target's bucket and `n` the number of
buckets. -/
theorem findNeighbors_mem (h : t.findNeighbors node k exclude now = some r) {i : Nat}
    (hi : t.getBucketFor node = some i) {x : Node} (hx : x ∈ r.2) :
    x.id ≠ node.id ∧ (∀ e ∈ exclude, x.sameHomeAs e = false) ∧
      ∃ c ∈ t.buckets.drop (2 * i - t.buckets.length), x ∈ c.getNodes := by
  obtain ⟨i', b, hi', hb, hr⟩ := findNeighbors_eq_some h
  obtain rfl := Option.some.inj (hi'.symm.trans hi)
  rw [hr] at hx
  have hx' := (List.perm_insertionSort _ _).subset (List.mem_of_mem_take hx)
  rcases mem_collectNeighbors hx' with hx' | ⟨hx', hkeep⟩
  · exact absurd hx' (List.not_mem_nil _)
  · simp only [Bool.and_eq_true, bne_iff_ne, ne_eq] at hkeep
    refine ⟨hkeep.1, fun e he => ?_, mem_traversal hb _ hx'⟩
    rw [Option.mem_def] at he
    subst he
    simpa using hkeep.2

end FindNeighbors

set_option maxRecDepth 4000 in
/-- `findNeighbors_mem` on a reachable table of three buckets, one node each,
for a target in the last bucket: the middle bucket's node is answered, and it
lies at index `2 · 2 - 3` or beyond. -/
theorem findNeighbors_mem_three_buckets :
    ∃ t r, Reachable ⟨2 ^ 160 - 1, none, none⟩ 1 t ∧
      t.findNeighbors ⟨2 ^ 160 - 3, none, none⟩ (some 3) none 0 = some r ∧
      t.getBucketFor ⟨2 ^ 160 - 3, none, none⟩ = some 2 ∧ (⟨2 ^ 159 + 1, none, none⟩ : Node) ∈ r.2 ∧
      ((⟨2 ^ 159 + 1, none, none⟩ : Node).id ≠ (⟨2 ^ 160 - 3, none, none⟩ : Node).id ∧
        (∀ e ∈ (none : Option Node), (⟨2 ^ 159 + 1, none, none⟩ : Node).sameHomeAs e = false) ∧
        ∃ c ∈ t.buckets.drop (2 * 2 - t.buckets.length),
          (⟨2 ^ 159 + 1, none, none⟩ : Node) ∈ c.getNodes) := by
  have h : ((flush ⟨2 ^ 160 - 1, none, none⟩ 1 0).runOps
      [.addContact 1 ⟨0, none, none⟩ 0, .addContact 2 ⟨2 ^ 160 - 2, none, none⟩ 0,
        .addContact 2 ⟨2 ^ 159 + 1, none, none⟩ 0]).map
      (fun t => ((t.findNeighbors ⟨2 ^ 160 - 3, none, none⟩ (some 3) none 0).map (·.2),
        t.getBucketFor ⟨2 ^ 160 - 3, none, none⟩)) =
      some (some [⟨2 ^ 160 - 2, none, none⟩, ⟨2 ^ 159 + 1, none, none⟩], some 2) := by
    decide
  obtain ⟨t, ht, hv⟩ := Option.map_eq_some'.1 h
  obtain ⟨r, hr, hr2⟩ := Option.map_eq_some'.1 (Prod.mk.inj hv).1
  have hx : (⟨2 ^ 159 + 1, none, none⟩ : Node) ∈ r.2 := by simp [hr2]
  exact ⟨t, r, (Reachable.flush 0).runOps ht, hr, (Prod.mk.inj hv).2, hx,
    findNeighbors_mem hr (Prod.mk.inj hv).2 hx⟩

set_option maxRecDepth 4000 in
/-- **The far left bucket is never read.** Local id `2 ^ 160 - 1`, `ksize = 1`:
adding `0`, `2 ^ 160 - 2` and `2 ^ 159 + 1` leaves three buckets, one node
each. For the target `2 ^ 160 - 3`, in the last bucket, and `k = 3`, the
traverser reads the last bucket and then the middle one. At the right side's
turn it finds the right side empty and stops, so the answer has two nodes and
leaves out `0`. -/
theorem findNeighbors_skips_left_buckets :
    ∃ t, Reachable ⟨2 ^ 160 - 1, none, none⟩ 1 t ∧
      t.buckets.map (·.nodes.keys) = [[0], [2 ^ 159 + 1], [2 ^ 160 - 2]] ∧
      (t.findNeighbors ⟨2 ^ 160 - 3, none, none⟩ (some 3) none 0).map (·.2.map (·.id)) =
        some [2 ^ 160 - 2, 2 ^ 159 + 1] := by
  have h : ((flush ⟨2 ^ 160 - 1, none, none⟩ 1 0).runOps
      [.addContact 1 ⟨0, none, none⟩ 0, .addContact 2 ⟨2 ^ 160 - 2, none, none⟩ 0,
        .addContact 2 ⟨2 ^ 159 + 1, none, none⟩ 0]).map
      (fun t => (t.buckets.map (·.nodes.keys),
        (t.findNeighbors ⟨2 ^ 160 - 3, none, none⟩ (some 3) none 0).map (·.2.map (·.id)))) =
      some ([[0], [2 ^ 159 + 1], [2 ^ 160 - 2]], some [2 ^ 160 - 2, 2 ^ 159 + 1]) := by
    decide
  obtain ⟨t, ht, hv⟩ := Option.map_eq_some'.1 h
  exact ⟨t, (Reachable.flush 0).runOps ht, (Prod.mk.inj hv).1, (Prod.mk.inj hv).2⟩

end RoutingTable

end Canbox.Kademlia
