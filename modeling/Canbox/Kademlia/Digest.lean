import Canbox.Kademlia.Node

/-!
# `digest` (`utils.js`): SHA-1

`digest(s)` is `createHash('sha1').update(s).digest('hex')`. Node's `crypto`
is outside the repository, so SHA-1 is written here from FIPS 180-4: the
message is padded to 64-byte blocks, each block's sixteen big-endian words are
expanded to eighty, and eighty rounds fold them into five 32-bit registers,
which are added back into the state. Words are natural numbers below `2 ^ 32`,
with every sum and shift cut back explicitly. The FIPS example "abc" checks the
implementation.

The keys of a node's store are themselves digests, 40 lowercase hex digits.
`digest(key)` hashes the key's text: its 40 ASCII digits (`keyText`), not the
20 bytes they spell.
-/

set_option autoImplicit false

namespace Canbox.Kademlia

namespace Sha1

/-- A 32-bit word rotated left by `n`, for `0 < n < 32`. -/
def rotl (x n : Nat) : Nat := (x <<< n % 0x100000000) ||| (x >>> (32 - n))

/-- The message, `0x80`, zeros up to 56 bytes modulo 64, and the bit length as
eight big-endian bytes. -/
def pad (msg : List Nat) : List Nat :=
  msg ++ 0x80 :: List.replicate ((119 - msg.length % 64) % 64) 0 ++
    (List.range 8).reverse.map fun i => msg.length * 8 / 256 ^ i % 256

/-- A block's sixteen big-endian words. -/
def words (block : List Nat) : List Nat :=
  (List.range 16).map fun i => bytesToNat ((block.drop (4 * i)).take 4)

/-- The next `n` words of the schedule from the last sixteen `w`:
`W[t] = rotl(W[t-3] ^ W[t-8] ^ W[t-14] ^ W[t-16], 1)`. -/
def expand : Nat → List Nat → List Nat
  | 0, _ => []
  | n + 1, w =>
    let x := rotl (w.getD 13 0 ^^^ w.getD 8 0 ^^^ w.getD 2 0 ^^^ w.getD 0 0) 1
    x :: expand n (w.tail ++ [x])

/-- The round function of round `t`. -/
def f (t b c d : Nat) : Nat :=
  if t < 20 then (b &&& c) ||| ((b ^^^ 0xFFFFFFFF) &&& d)
  else if t < 40 then b ^^^ c ^^^ d
  else if t < 60 then (b &&& c) ||| (b &&& d) ||| (c &&& d)
  else b ^^^ c ^^^ d

/-- The constant of round `t`. -/
def k (t : Nat) : Nat :=
  if t < 20 then 0x5A827999 else if t < 40 then 0x6ED9EBA1 else if t < 60 then 0x8F1BBCDC
  else 0xCA62C1D6

/-- The five working registers. -/
structure Regs where
  a : Nat
  b : Nat
  c : Nat
  d : Nat
  e : Nat

/-- Round `t` with schedule word `w`. -/
def round (st : Regs) (tw : Nat × Nat) : Regs :=
  ⟨(rotl st.a 5 + f tw.1 st.b st.c st.d + st.e + k tw.1 + tw.2) % 0x100000000,
    st.a, rotl st.b 30, st.c, st.d⟩

/-- One 64-byte block into the state. -/
def compress (h : Regs) (block : List Nat) : Regs :=
  let w := words block
  let r := ((List.range 80).zip (w ++ expand 64 w)).foldl round h
  ⟨(h.a + r.a) % 0x100000000, (h.b + r.b) % 0x100000000, (h.c + r.c) % 0x100000000,
    (h.d + r.d) % 0x100000000, (h.e + r.e) % 0x100000000⟩

end Sha1

/-- SHA-1 of a byte string, as the 160-bit number its hex digest spells. -/
def sha1 (msg : List Nat) : Nat :=
  let m := Sha1.pad msg
  let h := ((List.range (m.length / 64)).map fun i => (m.drop (64 * i)).take 64).foldl
    Sha1.compress ⟨0x67452301, 0xEFCDAB89, 0x98BADCFE, 0x10325476, 0xC3D2E1F0⟩
  [h.a, h.b, h.c, h.d, h.e].foldl (fun acc x => acc * 0x100000000 + x) 0

set_option maxRecDepth 20000 in
example : sha1 [97, 98, 99] = 0xa9993e364706816aba3e25717850c26c9cd0d89d := by decide

/-- The 40 lowercase hex digits `digest(..., 'hex')` writes for a 160-bit key, as
the bytes `update(key)` hashes. -/
def keyText (key : Nat) : List Nat :=
  (List.range 40).reverse.map fun i => (Nat.digitChar (key / 16 ^ i % 16)).toNat

/-- `digest(key)` for a key that is itself a digest: SHA-1 of its hex text, read
as an id. -/
def digest (key : Nat) : Nat := sha1 (keyText key)

/-- The forty lowercase hex digits `digest` writes an id or a key with, as the
UTF-8 bytes of the string a request carries. -/
def idText (id : Nat) : List UInt8 := (keyText id).map Nat.toUInt8

@[simp] theorem length_idText (id : Nat) : (idText id).length = 40 := by
  simp [idText, keyText]

end Canbox.Kademlia
