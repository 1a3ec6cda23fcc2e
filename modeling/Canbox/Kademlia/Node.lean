import Canbox.Kademlia.Utils
import Mathlib.Data.Nat.Bitwise

/-!
# `node.js`: a node and the XOR distance

A node id is a 40-hex-digit SHA-1 digest. Two such strings are the same `Map`
key exactly when they spell the same number, so the id is held as that number,
below `2 ^ 160`; `ip` and `port` are `null` for a node built from a key
(`new Node(key)`). `long_id` is the id's 20 bytes, most significant first, and
`distanceTo` XORs them byte by byte and reads the result back as a big-endian
number, as the source does. That number is the XOR of the ids cut to 160 bits
(`Node.distanceTo_eq`), so from a fixed node two ids below `2 ^ 160` are at the
same distance only when they are equal (`Node.distanceTo_inj`), and the
distance is a metric on them: symmetric, zero only between equal ids, and
strictly ordering the ids seen from one node (`Node.distanceTo_xor_metric`).
-/

set_option autoImplicit false

namespace Canbox.Kademlia

/-- `Node` (`node.js`): the id as the number its hex digits spell, and the
address it was heard from. -/
structure Node where
  id : Nat
  ip : Option String := none
  port : Option Nat := none
deriving DecidableEq, Repr

/-- `Buffer.from(node_id, 'hex')` for a 40-hex-digit id: its 20 bytes, most
significant first. -/
def idBytes (id : Nat) : List Nat :=
  (List.range 20).map fun i => id / 256 ^ (19 - i) % 256

/-- A byte string read as a big-endian number, as `new BN(buf.toString('hex'), 16)`
reads it. -/
def bytesToNat (bites : List Nat) : Nat :=
  bites.foldl (fun acc b => acc * 256 + b) 0

namespace Node

/-- `long_id`. -/
def longId (n : Node) : List Nat := idBytes n.id

/-- `sameHomeAs(node)`: the same `ip` and the same `port`; the id plays no part. -/
def sameHomeAs (a b : Node) : Bool := a.ip == b.ip && a.port == b.port

/-- `distanceTo(node)`: the ids' bytes XORed pairwise, read as one number. -/
def distanceTo (a b : Node) : Nat :=
  bytesToNat (List.zipWith (· ^^^ ·) a.longId b.longId)

end Node

@[simp] theorem length_idBytes (id : Nat) : (idBytes id).length = 20 := by
  simp [idBytes]

/-! ## The distance as a number -/

theorem bytesToNat_append_singleton (l : List Nat) (x : Nat) :
    bytesToNat (l ++ [x]) = bytesToNat l * 256 + x := by
  simp [bytesToNat]

/-- The last `m` base-256 digits of `c`, most significant first, read back. -/
theorem bytesToNat_digits (c m : Nat) :
    bytesToNat ((List.range m).map fun i => c / 256 ^ (m - 1 - i) % 256) = c % 256 ^ m := by
  induction m generalizing c with
  | zero => simp [bytesToNat, Nat.mod_one]
  | succ m ih =>
    have hlow : (List.range m).map (fun i => c / 256 ^ (m + 1 - 1 - i) % 256) =
        (List.range m).map fun i => c / 256 / 256 ^ (m - 1 - i) % 256 :=
      List.map_congr_left fun i hi => by
        rw [Nat.div_div_eq_div_mul, ← Nat.pow_succ',
          show m + 1 - 1 - i = m - 1 - i + 1 by have := List.mem_range.1 hi; omega]
    rw [List.range_succ, List.map_append, hlow, List.map_singleton,
      bytesToNat_append_singleton, ih, Nat.pow_succ', Nat.mod_mul]
    simp only [Nat.sub_self, Nat.pow_zero, Nat.div_one, show m + 1 - 1 - m = 0 by omega]
    omega

/-- A byte of an XOR is the XOR of the bytes. -/
theorem xor_div_mod (a b m : Nat) :
    (a ^^^ b) / 256 ^ m % 256 = (a / 256 ^ m % 256) ^^^ (b / 256 ^ m % 256) := by
  rw [show (256 : Nat) = 2 ^ 8 from rfl, ← Nat.pow_mul]
  simp only [← Nat.shiftRight_eq_div_pow]
  refine Nat.eq_of_testBit_eq fun i => ?_
  simp only [Nat.testBit_mod_two_pow, Nat.testBit_shiftRight, Nat.testBit_xor]
  cases decide (i < 8) <;> rfl

namespace Node

/-- **XOR distance.** The byte-wise XOR of `distanceTo`, read back, is the XOR
of the ids cut to 160 bits. -/
theorem distanceTo_eq (a b : Node) : a.distanceTo b = (a.id ^^^ b.id) % 2 ^ 160 := by
  have h := bytesToNat_digits (a.id ^^^ b.id) 20
  simp only [xor_div_mod] at h
  rw [show (2 : Nat) ^ 160 = 256 ^ 20 by rw [show (256 : Nat) = 2 ^ 8 from rfl, ← Nat.pow_mul],
    ← h]
  simp only [distanceTo, longId, idBytes, List.zipWith_map, List.zipWith_same]

theorem distanceTo_eq_xor {a b : Node} (ha : a.id < 2 ^ 160) (hb : b.id < 2 ^ 160) :
    a.distanceTo b = a.id ^^^ b.id := by
  rw [distanceTo_eq, Nat.mod_eq_of_lt (Nat.xor_lt_two_pow ha hb)]

/-- From a node with a 160-bit id, two 160-bit ids at the same distance are one id. -/
theorem distanceTo_inj {t a b : Node} (ht : t.id < 2 ^ 160) (ha : a.id < 2 ^ 160)
    (hb : b.id < 2 ^ 160) (h : t.distanceTo a = t.distanceTo b) : a.id = b.id := by
  rwa [distanceTo_eq_xor ht ha, distanceTo_eq_xor ht hb, Nat.xor_right_inj] at h

/-- **The XOR metric on 160-bit ids.** Between nodes with 40-hex-digit ids the
distance is the XOR of the ids. It is symmetric, zero exactly between equal
ids, and injective in the second node, so from a fixed node two distinct ids
lie at distinct distances, one strictly nearer than the other. -/
theorem distanceTo_xor_metric {x y z : Node} (hx : x.id < 2 ^ 160) (hy : y.id < 2 ^ 160)
    (hz : z.id < 2 ^ 160) :
    x.distanceTo y = x.id ^^^ y.id ∧ x.distanceTo y = y.distanceTo x ∧
      (x.distanceTo y = 0 ↔ x.id = y.id) ∧ (x.distanceTo y = x.distanceTo z → y.id = z.id) ∧
      (y.id ≠ z.id → x.distanceTo y < x.distanceTo z ∨ x.distanceTo z < x.distanceTo y) := by
  have hxy := distanceTo_eq_xor hx hy
  refine ⟨hxy, by rw [hxy, distanceTo_eq_xor hy hx, Nat.xor_comm], by rw [hxy, Nat.xor_eq_zero],
    distanceTo_inj hx hy hz, fun hne => Nat.lt_or_gt_of_ne (mt (distanceTo_inj hx hy hz) hne)⟩

/-- `new Node('00…01')`, `new Node('00…02')` and `new Node('00…03')`. -/
theorem distanceTo_xor_metric_one_two_three :
    (1 : Nat) < 2 ^ 160 ∧ (2 : Nat) < 2 ^ 160 ∧ (3 : Nat) < 2 ^ 160 ∧
      distanceTo ⟨1, none, none⟩ ⟨2, none, none⟩ = 1 ^^^ 2 ∧
      distanceTo ⟨1, none, none⟩ ⟨2, none, none⟩ = distanceTo ⟨2, none, none⟩ ⟨1, none, none⟩ ∧
      (distanceTo ⟨1, none, none⟩ ⟨2, none, none⟩ = 0 ↔ 1 = 2) ∧
      (distanceTo ⟨1, none, none⟩ ⟨2, none, none⟩ = distanceTo ⟨1, none, none⟩ ⟨3, none, none⟩ →
        2 = 3) ∧
      (2 ≠ 3 → distanceTo ⟨1, none, none⟩ ⟨2, none, none⟩ < distanceTo ⟨1, none, none⟩ ⟨3, none, none⟩ ∨
        distanceTo ⟨1, none, none⟩ ⟨3, none, none⟩ < distanceTo ⟨1, none, none⟩ ⟨2, none, none⟩) :=
  ⟨by decide, by decide, by decide,
    distanceTo_xor_metric (x := ⟨1, none, none⟩) (y := ⟨2, none, none⟩) (z := ⟨3, none, none⟩)
      (by decide) (by decide) (by decide)⟩

end Node

end Canbox.Kademlia
