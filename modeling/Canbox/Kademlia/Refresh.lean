import Canbox.Kademlia.Protocol
import Canbox.Kademlia.Depth
import Mathlib.Tactic.Ring

/-!
# `getRefreshIDs` (`protocol.js:179`)

For each lonely bucket `[min, max]`, `getRefreshIDs` draws `rnd = random()`,
computes `num = (max - min) · rnd + (max - min)` and rounds it to an integer.
It writes `num` in hex after `BIT_EMPTY`, forty `0`s, and keeps the last forty
characters. `random()` answers `k · 10⁻²⁰` with `k < 10²⁰`, since bignumber.js
draws `DECIMAL_PLACES` digits, and `times` and `plus` are exact.
`integerValue()` rounds half up, away from zero. Bounds are counts of `10⁻²⁰`,
as everywhere in this model.

The forty digits spell `num mod 2 ^ 160` (`hexValue_refreshID`). `num` lies
between the bucket's width and twice it, whatever `min` is, so for a bucket that
does not start at `0` the id can fall below `min`
(`getRefreshIDs_below_bucket`).
-/

set_option autoImplicit false

namespace Canbox.Kademlia

/-! ## Hex digits -/

/-- The value of a hex digit; any other character has none. -/
def hexDigitValue (c : Char) : Option Nat :=
  if '0' ≤ c ∧ c ≤ '9' then some (c.toNat - '0'.toNat)
  else if 'a' ≤ c ∧ c ≤ 'f' then some (c.toNat - 'a'.toNat + 10)
  else none

/-- One more digit read, most significant first. -/
def hexStep (acc : Nat) (c : Char) : Option Nat := (hexDigitValue c).map (acc * 16 + ·)

/-- The number a string of hex digits spells; `none` if a character is not a
hex digit. -/
def hexValue (s : String) : Option Nat := s.data.foldlM hexStep 0

theorem hexDigitValue_lt {c : Char} {d : Nat} (h : hexDigitValue c = some d) : d < 16 := by
  have h0 : '0'.toNat = 48 := rfl
  have h9 : '9'.toNat = 57 := rfl
  have ha : 'a'.toNat = 97 := rfl
  have hf : 'f'.toNat = 102 := rfl
  unfold hexDigitValue at h
  split_ifs at h with h₁ h₂ <;> cases h
  · have : c.toNat ≤ '9'.toNat := h₁.2
    omega
  · have : c.toNat ≤ 'f'.toNat := h₂.2
    omega

theorem hexDigitValue_digitChar : ∀ d, d < 16 → hexDigitValue (Nat.digitChar d) = some d := by
  decide

/-- Reading a list from `acc` is reading it from `0`, shifted past `acc`. -/
theorem foldlM_hexStep (l : List Char) (acc : Nat) :
    l.foldlM hexStep acc = (l.foldlM hexStep 0).map (acc * 16 ^ l.length + ·) := by
  induction l generalizing acc with
  | nil => simp
  | cons c l ih =>
    rw [List.foldlM_cons, List.foldlM_cons]
    cases hd : hexDigitValue c with
    | none => simp [hexStep, hd]
    | some d =>
      have e1 : hexStep acc c = some (acc * 16 + d) := by simp [hexStep, hd]
      have e2 : hexStep 0 c = some d := by simp [hexStep, hd]
      rw [e1, e2]
      show l.foldlM hexStep (acc * 16 + d) = (l.foldlM hexStep d).map _
      rw [ih (acc * 16 + d), ih d, Option.map_map]
      congr 1
      funext v
      simp only [Function.comp_apply, List.length_cons]
      ring

theorem foldlM_hexStep_append (l l' : List Char) :
    (l ++ l').foldlM hexStep 0 =
      (l.foldlM hexStep 0).bind fun v => (l'.foldlM hexStep 0).map (v * 16 ^ l'.length + ·) := by
  rw [List.foldlM_append]
  cases l.foldlM hexStep 0 with
  | none => rfl
  | some v => exact foldlM_hexStep l' v

theorem foldlM_hexStep_lt {l : List Char} {v : Nat} (h : l.foldlM hexStep 0 = some v) :
    v < 16 ^ l.length := by
  induction l generalizing v with
  | nil => cases h; simp
  | cons c l ih =>
    rw [List.foldlM_cons] at h
    cases hd : hexDigitValue c with
    | none => simp [hexStep, hd] at h
    | some d =>
      have e : hexStep 0 c = some d := by simp [hexStep, hd]
      rw [e] at h
      change l.foldlM hexStep d = some v at h
      rw [foldlM_hexStep] at h
      obtain ⟨w, hw, rfl⟩ := Option.map_eq_some'.1 h
      have hd16 := hexDigitValue_lt hd
      calc d * 16 ^ l.length + w < d * 16 ^ l.length + 16 ^ l.length :=
            Nat.add_lt_add_left (ih hw) _
        _ = (d + 1) * 16 ^ l.length := (Nat.succ_mul d _).symm
        _ ≤ 16 * 16 ^ l.length := Nat.mul_le_mul_right _ hd16
        _ = 16 ^ (c :: l).length := by rw [List.length_cons, Nat.pow_succ, Nat.mul_comm]

/-- The digits `Nat.toDigits` writes spell the number. -/
theorem foldlM_hexStep_toDigitsCore :
    ∀ f n, n < f → (Nat.toDigitsCore 16 f n []).foldlM hexStep 0 = some n := by
  intro f
  induction f with
  | zero => intro n h; omega
  | succ f ih =>
    intro n hn
    have hd := hexDigitValue_digitChar (n % 16) (Nat.mod_lt _ (by decide))
    simp only [Nat.toDigitsCore]
    split
    · rename_i h0
      rw [Nat.mod_eq_of_lt (show n < 16 by omega)] at hd ⊢
      simp [hexStep, hd]
    · rw [toDigitsCore_append, foldlM_hexStep_append, ih (n / 16) (by omega)]
      simp only [Option.some_bind, List.foldlM_cons, List.foldlM_nil, hexStep, hd]
      simp only [List.length_singleton, pow_one, zero_mul, zero_add]
      show Option.map (fun x => n / 16 * 16 + x) (some (n % 16)) = some n
      rw [Option.map_some']
      congr 1
      omega

/-- **Left-padding to forty digits.** The last forty characters of forty `0`s
followed by the hex digits of `n` spell `n mod 2 ^ 160`. -/
theorem foldlM_hexStep_last40 (n : Nat) :
    let s := List.replicate 40 '0' ++ Nat.toDigits 16 n
    (s.drop (s.length - 40)).foldlM hexStep 0 = some (n % 2 ^ 160) := by
  intro s
  have hz : ∀ m, (List.replicate m '0').foldlM hexStep 0 = some 0 := by
    intro m
    induction m with
    | zero => rfl
    | succ m ih =>
      rw [List.replicate_succ', foldlM_hexStep_append, ih]
      rfl
  have hs : s.foldlM hexStep 0 = some n := by
    have ht : (Nat.toDigits 16 n).foldlM hexStep 0 = some n :=
      foldlM_hexStep_toDigitsCore _ _ (Nat.lt_succ_self n)
    rw [foldlM_hexStep_append, hz, Option.some_bind, ht]
    simp
  rw [← List.take_append_drop (s.length - 40) s, foldlM_hexStep_append] at hs
  obtain ⟨vp, -, hvs⟩ := Option.bind_eq_some.1 hs
  obtain ⟨vs, hvs, hn⟩ := Option.map_eq_some'.1 hvs
  have hlen : (s.drop (s.length - 40)).length = 40 := by
    simp only [List.length_drop, s, List.length_append, List.length_replicate]
    omega
  have hlt := foldlM_hexStep_lt hvs
  rw [hlen] at hlt hn
  rw [hvs, ← hn, show (2 : Nat) ^ 160 = 16 ^ 40 by rw [show (16 : Nat) = 2 ^ 4 from rfl, ← Nat.pow_mul],
    Nat.add_comm, Nat.add_mul_mod_self_right, Nat.mod_eq_of_lt hlt]

/-! ## The refresh ids -/

/-- `BIT_EMPTY`. -/
def BIT_EMPTY : String := "0000000000000000000000000000000000000000"

/-- `BIT_SPACE`. -/
def BIT_SPACE : Nat := 40

theorem BIT_EMPTY_data : BIT_EMPTY.data = List.replicate 40 '0' := rfl

/-- `integerValue()` of the rational `a / d` (`d > 0`) in bignumber.js's
default `ROUND_HALF_UP`: the nearest integer, a half rounded away from zero. -/
def integerValue (a : Int) (d : Nat) : Int :=
  if a < 0 then -(((2 * a.natAbs + d) / (2 * d) : Nat) : Int)
  else (((2 * a.toNat + d) / (2 * d) : Nat) : Int)

/-- `num.toString(16)` of an integer: its hex digits, lowercase, after a `-`
when it is negative. -/
def toHexString (num : Int) : List Char :=
  if num < 0 then '-' :: Nat.toDigits 16 num.natAbs else Nat.toDigits 16 num.toNat

/-- The id `getRefreshIDs` draws for the range `[min, max]` when `random()`
answers `k · 10⁻²⁰`. -/
def refreshID (range : Nat × Nat) (k : Nat) : String :=
  let sub : Int := (range.2 : Int) - range.1
  let num := integerValue (sub * (k + unit)) (unit * unit)
  let s := BIT_EMPTY.data ++ toHexString num
  ⟨s.drop (s.length - BIT_SPACE)⟩

namespace KademliaProtocol

/-- `getRefreshIDs()`: one id for each lonely bucket, the `j`-th drawn with
`random j`. -/
def getRefreshIDs (p : KademliaProtocol) (now : Int) (random : Nat → Nat) : List String :=
  (p.router.getLonelyBuckets now).mapIdx fun j b => refreshID b.range (random j)

end KademliaProtocol

/-- **The id `getRefreshIDs` draws.** For a bucket `[lo, hi]` with `lo ≤ hi`
and the draw `k · 10⁻²⁰`, the forty hex digits spell `(hi - lo) · (1 + rnd)`,
rounded half up, modulo `2 ^ 160`. Nothing in it depends on `lo` but the
bucket's width. -/
theorem hexValue_refreshID {lo hi : Nat} (h : lo ≤ hi) (k : Nat) :
    hexValue (refreshID (lo, hi) k) =
      some ((2 * ((hi - lo) * (k + unit)) + unit * unit) / (2 * (unit * unit)) % 2 ^ 160) := by
  have hsub : ((hi : Int) - lo) * (k + unit) = (((hi - lo) * (k + unit) : Nat) : Int) := by
    push_cast [Nat.cast_sub h]
    ring
  have hnum : integerValue (((hi : Int) - lo) * (k + unit)) (unit * unit) =
      (((2 * ((hi - lo) * (k + unit)) + unit * unit) / (2 * (unit * unit)) : Nat) : Int) := by
    rw [hsub, integerValue, if_neg (by omega), Int.toNat_ofNat]
  have hhex : ∀ n : Nat, toHexString (n : Int) = Nat.toDigits 16 n := fun n =>
    (if_neg (by omega)).trans (by rw [Int.toNat_ofNat])
  simp only [hexValue, refreshID]
  rw [hnum, hhex, BIT_EMPTY_data]
  exact foldlM_hexStep_last40 _

/-- `hexValue_refreshID` for the bucket of the whole id space and the draw `0`. -/
theorem hexValue_refreshID_whole_space :
    BN 0 ≤ BN (2 ^ 160) ∧ hexValue (refreshID (BN 0, BN (2 ^ 160)) 0) =
      some ((2 * ((BN (2 ^ 160) - BN 0) * (0 + unit)) + unit * unit) / (2 * (unit * unit)) % 2 ^ 160) :=
  ⟨by decide, hexValue_refreshID (by decide) 0⟩

set_option maxRecDepth 4000 in
/-- **A refresh id below its bucket.** Local id `2 ^ 159 + 1`, `ksize = 1`:
adding `2 ^ 159`, then `1`, leaves the buckets `[0, 2 ^ 159]` and
`[2 ^ 159 + 1, 2 ^ 160]`, lonely an hour later. With the draw `0` the second
bucket's id spells its width, `2 ^ 159 - 1`, which lies in the first bucket. -/
theorem getRefreshIDs_below_bucket :
    ∃ t, RoutingTable.Reachable ⟨2 ^ 159 + 1, none, none⟩ 1 t ∧
      (t.getLonelyBuckets 3600001).map (·.range) =
        [(BN 0, BN (2 ^ 159)), (BN (2 ^ 159 + 1), BN (2 ^ 160))] ∧
      ∀ storage : ForgetfulStorage Nat Canbox.Rpcudp.Value,
        ((KademliaProtocol.mk t storage ⟨2 ^ 159 + 1, none, none⟩).getRefreshIDs 3600001
          fun _ => 0).map hexValue = [some (2 ^ 159), some (2 ^ 159 - 1)] := by
  have h : ((RoutingTable.flush ⟨2 ^ 159 + 1, none, none⟩ 1 0).runOps
      [.addContact 1 ⟨2 ^ 159, none, none⟩ 0, .addContact 2 ⟨1, none, none⟩ 0]).map
      (fun t => ((t.getLonelyBuckets 3600001).map (·.range),
        ((t.getLonelyBuckets 3600001).mapIdx fun _ b => refreshID b.range 0).map hexValue)) =
      some ([(BN 0, BN (2 ^ 159)), (BN (2 ^ 159 + 1), BN (2 ^ 160))],
        [some (2 ^ 159), some (2 ^ 159 - 1)]) := by
    decide
  obtain ⟨t, ht, hv⟩ := Option.map_eq_some'.1 h
  exact ⟨t, (RoutingTable.Reachable.flush 0).runOps ht, (Prod.mk.inj hv).1,
    fun _ => (Prod.mk.inj hv).2⟩

end Canbox.Kademlia
