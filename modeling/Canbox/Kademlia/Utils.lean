import Mathlib.Data.List.Dedup
import Mathlib.Algebra.Group.Nat.Basic

/-!
# `utils.js`, and the bignumber.js arithmetic of bucket bounds

`OrderedSet` is a k-bucket's replacement cache; `sharedPrefix` and
`bytesToBitString` are what `KBucket.depth` is computed from.

Bucket bounds are bignumber.js values. bignumber.js keeps a sum exact and rounds
a quotient to `DECIMAL_PLACES = 20` fraction digits, half up, so every bound the
routing table ever builds is a non-negative multiple of `10⁻²⁰`, and it is held
here as the natural number of those: `plus` is `+`, `div(2)` is `half`, and an
id `x` is compared with a bound as `BN x`. Nothing says a bound is an integer:
the midpoint of an odd sum is `….5`, and that is what `half` keeps.
-/

set_option autoImplicit false

namespace Canbox.Kademlia

/-! ## Bounds -/

/-- bignumber.js's `DECIMAL_PLACES`, to which `div` rounds. -/
def DECIMAL_PLACES : Nat := 20

/-- `BN(1)`, counted in `10⁻²⁰`s. -/
def unit : Nat := 10 ^ DECIMAL_PLACES

/-- `BN(x)` for a natural number `x`, e.g. an id read as `BN(node.id, 16)`. -/
def BN (x : Nat) : Nat := x * unit

/-- `x.div(2)`: an odd count of `10⁻²⁰`s has a half that ends in `5` at the
twenty-first place, and `ROUND_HALF_UP` takes it up. -/
def half (x : Nat) : Nat := (x + 1) / 2

theorem unit_pos : 0 < unit := Nat.pos_pow_of_pos _ (by decide)

@[simp] theorem BN_lt_BN {x y : Nat} : BN x < BN y ↔ x < y :=
  Nat.mul_lt_mul_right unit_pos

@[simp] theorem BN_le_BN {x y : Nat} : BN x ≤ BN y ↔ x ≤ y := by
  simp only [← Nat.not_lt, BN_lt_BN]

/-- The midpoint of an interval whose ends are ordered lies between them. -/
theorem half_le_of_le {lo hi : Nat} (h : lo ≤ hi) : lo ≤ half (lo + hi) ∧ half (lo + hi) ≤ hi := by
  unfold half; omega

/-! ## `OrderedSet` -/

/-- `OrderedSet` (`utils.js`): a `Map` keyed by `JSON.stringify(thing)`, in
insertion order. A node's JSON is `[id, ip, port]`, so for the nodes it holds two
keys agree exactly when the nodes do: the set is a duplicate-free list. -/
structure OrderedSet (α : Type) where
  items : List α
  nodup : items.Nodup
deriving DecidableEq

namespace OrderedSet

variable {α : Type}

/-- `new OrderedSet`. -/
def empty : OrderedSet α := ⟨[], List.nodup_nil⟩

/-- `len(set)`: the `Map`'s `size`. -/
def size (s : OrderedSet α) : Nat := s.items.length

/-- `push(thing)`: a present item is deleted first, then the item is set at the
end. -/
def push [DecidableEq α] (s : OrderedSet α) (x : α) : OrderedSet α :=
  ⟨s.items.erase x ++ [x], List.nodup_append.2 ⟨s.nodup.erase x, List.nodup_singleton x,
    fun _ hy hy' => s.nodup.not_mem_erase (List.mem_singleton.1 hy' ▸ hy)⟩⟩

/-- `pop()`: the last item, deleted; `null` on an empty set. -/
def pop (s : OrderedSet α) : Option (α × OrderedSet α) :=
  s.items.getLast?.map fun x => (x, ⟨s.items.dropLast, s.nodup.sublist (List.dropLast_sublist _)⟩)

@[simp] theorem size_empty : (empty : OrderedSet α).size = 0 := rfl

@[simp] theorem items_push [DecidableEq α] (s : OrderedSet α) (x : α) : (s.push x).items = s.items.erase x ++ [x] :=
  rfl

/-- A push grows the set by one, unless the item was already there. -/
theorem size_push [DecidableEq α] (s : OrderedSet α) (x : α) :
    (s.push x).size = if x ∈ s.items then s.size else s.size + 1 := by
  unfold size
  split_ifs with h
  · simp [List.length_erase_of_mem h, Nat.sub_add_cancel (List.length_pos_of_mem h)]
  · simp [List.erase_of_not_mem h]

theorem size_push_le [DecidableEq α] (s : OrderedSet α) (x : α) : (s.push x).size ≤ s.size + 1 := by
  rw [size_push]; split_ifs <;> omega

theorem size_push_of_not_mem [DecidableEq α] {s : OrderedSet α} {x : α} (h : x ∉ s.items) :
    (s.push x).size = s.size + 1 := by
  rw [size_push, if_neg h]

/-- A pop takes one item off a non-empty set, and fails only on an empty one. -/
theorem pop_eq_some {s : OrderedSet α} {x : α} {s' : OrderedSet α} (h : s.pop = some (x, s')) :
    s'.items = s.items.dropLast ∧ s.items.getLast? = some x := by
  unfold pop at h
  cases hl : s.items.getLast? with
  | none => simp [hl] at h
  | some y =>
    simp only [hl, Option.map_some', Option.some.injEq, Prod.mk.injEq] at h
    obtain ⟨rfl, rfl⟩ := h
    exact ⟨rfl, rfl⟩

theorem pop_eq_none {s : OrderedSet α} : s.pop = none ↔ s.size = 0 := by
  simp [pop, size]

end OrderedSet

/-! ## `sharedPrefix` and `bytesToBitString` -/

/-- The `while` loop of `sharedPrefix`, at position `i` with `fuel` positions
left below the shortest length: it stops at the first position where the strings
do not all carry the same character. -/
def sharedPrefix.loop (args : List (List Char)) : Nat → Nat → Nat
  | i, 0 => i
  | i, fuel + 1 =>
    if ((args.map fun v => v[i]?).dedup).length ≠ 1 then i else sharedPrefix.loop args (i + 1) fuel

/-- `sharedPrefix(args)`: the longest prefix all the strings share. With no
strings `Math.min` is `Infinity`, the loop stops at once and `args[0]` is
`undefined`, so the call throws: that is `none`. -/
def sharedPrefix : List (List Char) → Option (List Char)
  | [] => none
  | a :: rest =>
    some (a.take (sharedPrefix.loop (a :: rest) 0 ((rest.map List.length).foldl min a.length)))

/-- One byte of `bytesToBitString`: `('00000000' + bite.toString(2)).slice(-8)`. -/
def byteBits (bite : Nat) : List Char :=
  let s := "00000000".toList ++ Nat.toDigits 2 bite
  s.drop (s.length - 8)

/-- `bytesToBitString(bites)`: the binary digits of the bytes, eight to a byte. -/
def bytesToBitString (bites : List Nat) : List Char :=
  (bites.map byteBits).flatten

theorem length_byteBits (bite : Nat) : (byteBits bite).length = 8 := by
  simp only [byteBits, List.length_drop, List.length_append]
  have : "00000000".toList.length = 8 := rfl
  omega

theorem length_bytesToBitString (bites : List Nat) :
    (bytesToBitString bites).length = 8 * bites.length := by
  induction bites with
  | nil => rfl
  | cons b bs ih =>
    simp only [bytesToBitString, List.map_cons, List.flatten_cons, List.length_append,
      length_byteBits, List.length_cons] at ih ⊢
    omega

/-- On a single string the loop runs to the end: every position carries one
character. -/
theorem sharedPrefix.loop_singleton (a : List Char) :
    ∀ i fuel, i + fuel ≤ a.length → sharedPrefix.loop [a] i fuel = i + fuel := by
  intro i fuel
  induction fuel generalizing i with
  | zero => intro _; rfl
  | succ n ih =>
    intro h
    obtain ⟨c, hc⟩ : ∃ c, a[i]? = some c := ⟨a[i], List.getElem?_eq_getElem (by omega)⟩
    simp only [loop, List.map_cons, List.map_nil, hc, List.dedup_cons_of_not_mem
      (List.not_mem_nil _), List.dedup_nil, List.length_singleton, ne_eq, not_true_eq_false,
      ↓reduceIte]
    rw [ih (i + 1) (by omega)]
    omega

/-- The shared prefix of one string is the string. -/
@[simp] theorem sharedPrefix_singleton (a : List Char) : sharedPrefix [a] = some a := by
  simp [sharedPrefix, sharedPrefix.loop_singleton a 0 a.length (by omega)]

end Canbox.Kademlia
