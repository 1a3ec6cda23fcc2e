import Canbox.Kademlia.KBucket
import Mathlib.Data.Nat.Digits

/-!
# `KBucket.depth`: the longest bit prefix the ids share

`depth()` writes every id of the bucket as a bit string, `bytesToBitString` of
its 20 bytes, and answers the length of `sharedPrefix` of those strings.

`sharedPrefix` scans the positions below the shortest length and stops at the
first where the strings do not all carry one character. What it returns is the
longest common prefix of its arguments (`sharedPrefix_longest`): a prefix of
each, and every common prefix is a prefix of it.

`bytesToBitString` pads each byte to eight binary digits, so an id's string is
the id's 160 bits, most significant first (`bytesToBitString_idBytes`), and two
ids' strings share their first `d` characters exactly when the ids agree on
their `d` leading bits (`take_lowBits_eq_iff`). Together: the depth of a
bucket of 160-bit ids is the largest `d` such that all of them agree on their
`d` leading bits (`depth_eq_common_bits`).
-/

set_option autoImplicit false

namespace Canbox.Kademlia

/-! ## `sharedPrefix` -/

section SharedPrefix

variable {args : List (List Char)}

/-- Every string carries one character at position `j`. -/
def AgreeAt (args : List (List Char)) (j : Nat) : Prop :=
  ∀ v ∈ args, ∀ w ∈ args, v[j]? = w[j]?

/-- A non-empty list has one distinct element exactly when all its elements are
equal. -/
theorem dedup_length_eq_one {α : Type} [DecidableEq α] {l : List α} (hl : l ≠ []) :
    l.dedup.length = 1 ↔ ∀ x ∈ l, ∀ y ∈ l, x = y := by
  have hpos : 0 < l.toFinset.card := by
    obtain ⟨x, hx⟩ := List.exists_mem_of_ne_nil l hl
    exact Finset.card_pos.2 ⟨x, List.mem_toFinset.2 hx⟩
  rw [← List.card_toFinset]
  simp only [← List.mem_toFinset]
  rw [← Finset.card_le_one]
  omega

/-- The loop's test at a position below every length: it goes on exactly when
the strings agree there. -/
theorem dedup_length_eq_one_iff (hargs : args ≠ []) (j : Nat) :
    ((args.map fun v => v[j]?).dedup).length = 1 ↔ AgreeAt args j := by
  rw [dedup_length_eq_one (by simpa using hargs)]
  simp [AgreeAt]

/-- **The `while` loop of `sharedPrefix`.** From position `i` with `fuel`
positions left below every length, the loop stops at some `L` with all the
strings agreeing from `i` up to `L`, and not at `L` unless the fuel ran out. -/
theorem sharedPrefix.loop_spec (hargs : args ≠ []) :
    ∀ fuel i, i ≤ sharedPrefix.loop args i fuel ∧ sharedPrefix.loop args i fuel ≤ i + fuel ∧
      (∀ j, i ≤ j → j < sharedPrefix.loop args i fuel → AgreeAt args j) ∧
      (sharedPrefix.loop args i fuel < i + fuel → ¬ AgreeAt args (sharedPrefix.loop args i fuel))
  | 0, i => by
    rw [sharedPrefix.loop]
    exact ⟨le_rfl, le_rfl, fun _ h h' => absurd h' (by omega), fun h => absurd h (by omega)⟩
  | fuel + 1, i => by
    by_cases hstop : ((args.map fun v => v[i]?).dedup).length ≠ 1
    · rw [sharedPrefix.loop, if_pos hstop]
      exact ⟨le_rfl, by omega, fun _ h h' => absurd h' (by omega),
        fun _ => mt (dedup_length_eq_one_iff hargs i).2 hstop⟩
    · rw [sharedPrefix.loop, if_neg hstop]
      have hi := (dedup_length_eq_one_iff hargs i).1 (not_not.1 hstop)
      obtain ⟨h₁, h₂, h₃, h₄⟩ := sharedPrefix.loop_spec hargs fuel (i + 1)
      refine ⟨by omega, by omega, fun j hj hjL => ?_, fun h => h₄ (by omega)⟩
      rcases Nat.eq_or_lt_of_le hj with rfl | hj
      · exact hi
      · exact h₃ j hj hjL

/-- The loop's bound: a number is below the minimum of the lengths exactly when
it is below each. -/
theorem le_foldl_min_iff (k : Nat) :
    ∀ (l : List Nat) (init : Nat), k ≤ l.foldl min init ↔ k ≤ init ∧ ∀ x ∈ l, k ≤ x
  | [], _ => by simp
  | x :: l, init => by
    rw [List.foldl_cons, le_foldl_min_iff k l, le_min_iff]
    simp [and_assoc]

theorem getElem?_of_isPrefix {q v : List Char} (h : q <+: v) {j : Nat} (hj : j < q.length) :
    v[j]? = q[j]? := by
  rw [List.prefix_iff_eq_take.1 h, List.getElem?_take, if_pos hj]

/-- **`sharedPrefix` is the longest common prefix.** For every non-empty list
of strings it answers a prefix of each, and every common prefix is a prefix of
it. -/
theorem sharedPrefix_longest (hargs : args ≠ []) :
    ∃ p, sharedPrefix args = some p ∧ (∀ s ∈ args, p <+: s) ∧
      ∀ q, (∀ s ∈ args, q <+: s) → q <+: p := by
  obtain ⟨a, rest, rfl⟩ := List.exists_cons_of_ne_nil hargs
  set m := (rest.map List.length).foldl min a.length
  set L := sharedPrefix.loop (a :: rest) 0 m
  have hm : ∀ k, k ≤ m ↔ ∀ s ∈ a :: rest, k ≤ s.length := fun k => by
    rw [le_foldl_min_iff]
    simp
  obtain ⟨-, -, hagree, hstop⟩ := sharedPrefix.loop_spec hargs m 0
  have htake : ∀ s ∈ a :: rest, s.take L = a.take L := fun s hs =>
    List.ext_getElem? fun j => by
      simp only [List.getElem?_take]
      split
      · exact hagree j (Nat.zero_le j) ‹_› s hs a (List.mem_cons_self _ _)
      · rfl
  refine ⟨a.take L, rfl, fun s hs => htake s hs ▸ List.take_prefix L s, fun q hq => ?_⟩
  have hqm : q.length ≤ m := (hm _).2 fun s hs => (hq s hs).length_le
  have hqL : q.length ≤ L := by
    by_contra hlt
    refine hstop (by omega) fun v hv w hw => ?_
    have hL : L < q.length := by omega
    rw [getElem?_of_isPrefix (hq v hv) hL, getElem?_of_isPrefix (hq w hw) hL]
  rw [List.prefix_iff_eq_take.1 (hq a (List.mem_cons_self _ _)), ← Nat.min_eq_left hqL,
    ← List.take_take]
  exact List.take_prefix _ _

end SharedPrefix

/-! ## An id's bit string -/

/-- The low `m` bits of `n` as binary digits, most significant first. -/
def lowBits (m n : Nat) : List Char :=
  (List.range m).map fun k => if n.testBit (m - 1 - k) then '1' else '0'

@[simp] theorem length_lowBits (m n : Nat) : (lowBits m n).length = m := by
  simp [lowBits]

/-- The low `a + b` bits are the `a` bits above the low `b`, then those. -/
theorem lowBits_add (a b n : Nat) : lowBits (a + b) n = lowBits a (n >>> b) ++ lowBits b n := by
  simp only [lowBits, List.range_add, List.map_append, List.map_map]
  congr 1
  · refine List.map_congr_left fun k hk => ?_
    rw [Nat.testBit_shiftRight, show b + (a - 1 - k) = a + b - 1 - k by
      have := List.mem_range.1 hk; omega]
  · refine List.map_congr_left fun k _ => ?_
    simp only [Function.comp_apply, show a + b - 1 - (a + k) = b - 1 - k by omega]

theorem lowBits_mod (a n : Nat) : lowBits a (n % 2 ^ a) = lowBits a n := by
  refine List.map_congr_left fun k hk => ?_
  rw [Nat.testBit_mod_two_pow, decide_eq_true (by have := List.mem_range.1 hk; omega),
    Bool.true_and]

theorem lowBits_zero (m : Nat) : lowBits m 0 = List.replicate m '0' := by
  simp [lowBits, List.map_const']

/-- Below `2 ^ a`, the low `a` bits tell numbers apart. -/
theorem lowBits_inj {a u v : Nat} (hu : u < 2 ^ a) (hv : v < 2 ^ a) (h : lowBits a u = lowBits a v) :
    u = v := by
  refine Nat.eq_of_testBit_eq fun i => ?_
  by_cases hi : i < a
  · have hc := congrArg (·[a - 1 - i]?) h
    simp only [lowBits, List.getElem?_map, List.getElem?_range (show a - 1 - i < a by omega),
      Option.map_some', Option.some.injEq, show a - 1 - (a - 1 - i) = i by omega] at hc
    cases hu' : u.testBit i <;> cases hv' : v.testBit i <;> simp_all
  · have hle : 2 ^ a ≤ 2 ^ i := Nat.pow_le_pow_right (by decide) (by omega)
    rw [Nat.testBit_lt_two_pow (by omega), Nat.testBit_lt_two_pow (by omega)]

/-- `Nat.toDigitsCore` writes its digits in front of what it was given. -/
theorem toDigitsCore_append (b f n : Nat) (ds : List Char) :
    Nat.toDigitsCore b f n ds = Nat.toDigitsCore b f n [] ++ ds := by
  induction f generalizing n ds with
  | zero => rfl
  | succ f ih =>
    simp only [Nat.toDigitsCore]
    split
    · rfl
    · rw [ih _ (_ :: ds), ih _ [_], List.append_assoc, List.singleton_append]

theorem lowBits_one (n : Nat) : lowBits 1 n = [Nat.digitChar (n % 2)] := by
  rcases Nat.mod_two_eq_zero_or_one n with h | h <;> simp [lowBits, Nat.testBit_zero, h, Nat.digitChar]

/-- **Binary digits, padded.** `toString(2)` of a number below `2 ^ m`,
left-padded with `0`s to `m` digits, is its low `m` bits. -/
theorem toDigitsCore_two_padded :
    ∀ f n, n < f → ∀ m, 0 < m → n < 2 ^ m →
      List.replicate (m - (Nat.toDigitsCore 2 f n []).length) '0' ++ Nat.toDigitsCore 2 f n [] =
        lowBits m n
  | 0, n, h => absurd h (Nat.not_lt_zero n)
  | f + 1, n, hn => by
    intro m hm hnm
    obtain ⟨k, rfl⟩ : ∃ k, m = k + 1 := ⟨m - 1, by omega⟩
    rw [Nat.pow_succ] at hnm
    rw [lowBits_add k 1 n, lowBits_one, Nat.shiftRight_eq_div_pow, Nat.pow_one]
    simp only [Nat.toDigitsCore]
    split
    · rename_i h0
      rw [h0, lowBits_zero]
      rfl
    · rename_i h0
      have hk : 0 < k := by
        by_contra hk
        rw [show k = 0 by omega, Nat.pow_zero] at hnm
        omega
      rw [toDigitsCore_append, List.length_append, List.length_singleton, Nat.add_sub_add_right,
        ← toDigitsCore_two_padded f (n / 2) (by omega) k hk (by omega), List.append_assoc]

/-- **One byte of `bytesToBitString`** is its eight bits. -/
theorem byteBits_eq {b : Nat} (hb : b < 256) : byteBits b = lowBits 8 b := by
  have hT : (Nat.toDigits 2 b).length ≤ 8 :=
    Nat.toDigitsCore_length 2 le_rfl (b + 1) b 8 hb (by decide)
  have hz : "00000000".toList = List.replicate 8 '0' := rfl
  rw [byteBits, hz, List.length_append, List.length_replicate, Nat.add_sub_cancel_left,
    List.drop_append_of_le_length (by simpa using hT), List.drop_replicate]
  exact toDigitsCore_two_padded (b + 1) b (Nat.lt_succ_self b) 8 (by decide) hb

theorem bytesToBitString_append_singleton (l : List Nat) (b : Nat) :
    bytesToBitString (l ++ [b]) = bytesToBitString l ++ byteBits b := by
  simp [bytesToBitString]

/-- The last `n` bytes of `x`, most significant first, written out: the low
`8 n` bits of `x`. -/
theorem bytesToBitString_bytes (n x : Nat) :
    bytesToBitString ((List.range n).map fun i => x / 256 ^ (n - 1 - i) % 256) = lowBits (8 * n) x := by
  induction n generalizing x with
  | zero => rfl
  | succ n ih =>
    have hlow : (List.range n).map (fun i => x / 256 ^ (n + 1 - 1 - i) % 256) =
        (List.range n).map fun i => x / 256 / 256 ^ (n - 1 - i) % 256 :=
      List.map_congr_left fun i hi => by
        rw [Nat.div_div_eq_div_mul, ← Nat.pow_succ',
          show n + 1 - 1 - i = n - 1 - i + 1 by have := List.mem_range.1 hi; omega]
    rw [List.range_succ, List.map_append, hlow, List.map_singleton, bytesToBitString_append_singleton,
      ih, show n + 1 - 1 - n = 0 by omega, Nat.pow_zero, Nat.div_one, byteBits_eq (Nat.mod_lt _ (by decide)),
      show (256 : Nat) = 2 ^ 8 from rfl, lowBits_mod, Nat.mul_succ, lowBits_add,
      Nat.shiftRight_eq_div_pow]

/-- **An id's bit string.** `bytesToBitString(Buffer.from(id, 'hex'))` is the
id's 160 bits, most significant first. -/
theorem bytesToBitString_idBytes (x : Nat) : bytesToBitString (idBytes x) = lowBits 160 x :=
  bytesToBitString_bytes 20 x

/-- **Shared prefixes are shared leading bits.** Two 160-bit ids' strings
agree on their first `d` characters exactly when the ids agree on their `d`
leading bits. -/
theorem take_lowBits_eq_iff {d x y : Nat} (hd : d ≤ 160) (hx : x < 2 ^ 160) (hy : y < 2 ^ 160) :
    (lowBits 160 x).take d = (lowBits 160 y).take d ↔ x / 2 ^ (160 - d) = y / 2 ^ (160 - d) := by
  have hsplit : ∀ z, lowBits 160 z = lowBits d (z >>> (160 - d)) ++ lowBits (160 - d) z := fun z => by
    rw [← lowBits_add, Nat.add_sub_cancel' hd]
  have hlt : ∀ z, z < 2 ^ 160 → z / 2 ^ (160 - d) < 2 ^ d := fun z hz => by
    rw [Nat.div_lt_iff_lt_mul (Nat.two_pow_pos _), ← Nat.pow_add, Nat.add_sub_cancel' hd]
    exact hz
  rw [hsplit x, hsplit y, List.take_left' (length_lowBits _ _), List.take_left' (length_lowBits _ _),
    Nat.shiftRight_eq_div_pow, Nat.shiftRight_eq_div_pow]
  exact ⟨lowBits_inj (hlt x hx) (hlt y hy), fun h => by rw [h]⟩

/-! ## `depth()` -/

/-- **`depth()` is the longest shared bit prefix.** `sharedPrefix` answers the
longest common prefix of any non-empty list of strings; and for a bucket
holding at least one node, all with 160-bit ids, `depth()` is the largest
`d ≤ 160` such that all the ids agree on their `d` leading bits. -/
theorem depth_eq_common_bits {args : List (List Char)} (hargs : args ≠ []) {b : KBucket}
    (hb : b.nodes.keys ≠ []) (hbits : ∀ id ∈ b.nodes.keys, id < 2 ^ 160) :
    (∃ p, sharedPrefix args = some p ∧ (∀ s ∈ args, p <+: s) ∧
        ∀ q, (∀ s ∈ args, q <+: s) → q <+: p) ∧
      ∃ d, b.depth = some d ∧ d ≤ 160 ∧
        (∀ x ∈ b.nodes.keys, ∀ y ∈ b.nodes.keys, x / 2 ^ (160 - d) = y / 2 ^ (160 - d)) ∧
        ∀ d' ≤ 160, (∀ x ∈ b.nodes.keys, ∀ y ∈ b.nodes.keys, x / 2 ^ (160 - d') = y / 2 ^ (160 - d')) →
          d' ≤ d := by
  refine ⟨sharedPrefix_longest hargs, ?_⟩
  obtain ⟨p, hp, hpre, hlong⟩ :=
    @sharedPrefix_longest (b.nodes.keys.map fun id => lowBits 160 id) (by simpa using hb)
  have hmem : ∀ x ∈ b.nodes.keys, lowBits 160 x ∈ b.nodes.keys.map fun id => lowBits 160 id :=
    fun x hx => List.mem_map_of_mem _ hx
  obtain ⟨k, hk⟩ := List.exists_mem_of_ne_nil _ hb
  have hd : p.length ≤ 160 := by simpa using (hpre _ (hmem k hk)).length_le
  refine ⟨p.length, by simp [KBucket.depth, bytesToBitString_idBytes, hp], hd,
    fun x hx y hy => ?_, fun d' hd' hagree => ?_⟩
  · -- `p` is the first `|p|` characters of every id's string
    refine (take_lowBits_eq_iff hd (hbits x hx) (hbits y hy)).1 ?_
    rw [← List.prefix_iff_eq_take.1 (hpre _ (hmem x hx)), ← List.prefix_iff_eq_take.1 (hpre _ (hmem y hy))]
  · -- the first `d'` bits of `k` are a common prefix, so no longer than `p`
    have hq := hlong ((lowBits 160 k).take d') fun s hs => by
      obtain ⟨x, hx, rfl⟩ := List.mem_map.1 hs
      rw [(take_lowBits_eq_iff hd' (hbits k hk) (hbits x hx)).2 (hagree k hk x hx)]
      exact List.take_prefix _ _
    simpa [Nat.min_eq_left hd'] using hq.length_le

/-- `sharedPrefix(['ab', 'ac'])`, and a bucket holding the ids `1` and `3`. -/
theorem depth_eq_common_bits_one_three :
    [['a', 'b'], ['a', 'c']] ≠ [] ∧
      (((NodeMap.empty.set ⟨1, none, none⟩).set ⟨3, none, none⟩).keys ≠ []) ∧
      (∀ id ∈ ((NodeMap.empty.set ⟨1, none, none⟩).set ⟨3, none, none⟩).keys, id < 2 ^ 160) ∧
      (∃ p, sharedPrefix [['a', 'b'], ['a', 'c']] = some p ∧
          (∀ s ∈ [['a', 'b'], ['a', 'c']], p <+: s) ∧
          ∀ q, (∀ s ∈ [['a', 'b'], ['a', 'c']], q <+: s) → q <+: p) ∧
        ∃ d, KBucket.depth ⟨(0, 0), (NodeMap.empty.set ⟨1, none, none⟩).set ⟨3, none, none⟩,
            .empty, 0, 20⟩ = some d ∧ d ≤ 160 ∧
          (∀ x ∈ ((NodeMap.empty.set ⟨1, none, none⟩).set ⟨3, none, none⟩).keys,
            ∀ y ∈ ((NodeMap.empty.set ⟨1, none, none⟩).set ⟨3, none, none⟩).keys,
              x / 2 ^ (160 - d) = y / 2 ^ (160 - d)) ∧
          ∀ d' ≤ 160, (∀ x ∈ ((NodeMap.empty.set ⟨1, none, none⟩).set ⟨3, none, none⟩).keys,
            ∀ y ∈ ((NodeMap.empty.set ⟨1, none, none⟩).set ⟨3, none, none⟩).keys,
              x / 2 ^ (160 - d') = y / 2 ^ (160 - d')) → d' ≤ d :=
  ⟨by decide, by decide, by decide,
    depth_eq_common_bits (b := ⟨(0, 0), (NodeMap.empty.set ⟨1, none, none⟩).set ⟨3, none, none⟩,
      .empty, 0, 20⟩) (by decide) (by decide) (by decide)⟩

end Canbox.Kademlia
