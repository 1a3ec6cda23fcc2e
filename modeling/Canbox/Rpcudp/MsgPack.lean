import Mathlib.Algebra.Group.Nat.Basic
import Mathlib.Data.List.Basic

/-!
# MessagePack, as `rpcudp` reads and writes it with `msgpack5`

Every datagram body is `encode(x)` on the way out and `decode(buf)` on the way
in. The library is not part of the repository; what is modelled is the format
it implements. The first byte of a value names its format (`Format.ofByte`,
the MessagePack table), and the bytes after it hold a number, a length and that
many bytes, or that many further values.

`decode` answers the first value of a buffer and ignores what follows it. It
throws when the buffer ends inside the value (`IncompleteBufferError`), on the
byte `0xc1`, which the format never uses, and on an extension value, since no
extension type is registered anywhere in the repository. `decodeValue` hands
the rest of the buffer back, so that containers decode element after element.
Its fuel, the buffer's length, is there for structural recursion only: more
of it changes no answer (`decodeValue_fuel`, in `Canbox.Rpcudp.RoundTrip`).

`encode` writes each value in the narrowest format that holds it. The law the
rest of the development leans on is the round trip in prefix form,
`decodeValue fuel (v.encode ++ rest) = .ok (v, rest)` for every value whose
numbers and lengths fit the format (`decodeValue_encode`), and from it
`decode_encode`; both are proved in `Canbox.Rpcudp.RoundTrip`.

Strings are held as the UTF-8 bytes they carry: the protocol only compares and
forwards them.
-/

set_option autoImplicit false

namespace Canbox.Rpcudp

/-- Equality of results, so that a run that throws can be compared too. -/
instance decEqExcept {ε α : Type} [DecidableEq ε] [DecidableEq α] : DecidableEq (Except ε α)
  | .ok a, .ok b => if h : a = b then isTrue (h ▸ rfl) else isFalse (h ∘ Except.ok.inj)
  | .error a, .error b => if h : a = b then isTrue (h ▸ rfl) else isFalse (h ∘ Except.error.inj)
  | .ok _, .error _ | .error _, .ok _ => isFalse Except.noConfusion

/-! ## Values -/

/-- A MessagePack value: what `decode` answers and `encode` takes. A float is
held as its IEEE 754 bits, a string as its UTF-8 bytes. -/
inductive Value where
  | nil
  | bool (b : Bool)
  | int (i : Int)
  | float32 (bits : Nat)
  | float64 (bits : Nat)
  | str (utf8 : List UInt8)
  | bin (bytes : List UInt8)
  | arr (xs : List Value)
  | map (kvs : List (Value × Value))
deriving Repr

mutual
/-- Equality of values, by structural recursion through the nested lists. -/
def Value.decEq : (a b : Value) → Decidable (a = b)
  | .nil, .nil => isTrue rfl
  | .bool x, .bool y => if h : x = y then isTrue (h ▸ rfl) else isFalse (h ∘ Value.bool.inj)
  | .int x, .int y => if h : x = y then isTrue (h ▸ rfl) else isFalse (h ∘ Value.int.inj)
  | .float32 x, .float32 y =>
    if h : x = y then isTrue (h ▸ rfl) else isFalse (h ∘ Value.float32.inj)
  | .float64 x, .float64 y =>
    if h : x = y then isTrue (h ▸ rfl) else isFalse (h ∘ Value.float64.inj)
  | .str x, .str y => if h : x = y then isTrue (h ▸ rfl) else isFalse (h ∘ Value.str.inj)
  | .bin x, .bin y => if h : x = y then isTrue (h ▸ rfl) else isFalse (h ∘ Value.bin.inj)
  | .arr xs, .arr ys =>
    match Value.decEqList xs ys with
    | isTrue h => isTrue (h ▸ rfl)
    | isFalse h => isFalse (h ∘ Value.arr.inj)
  | .map xs, .map ys =>
    match Value.decEqPairs xs ys with
    | isTrue h => isTrue (h ▸ rfl)
    | isFalse h => isFalse (h ∘ Value.map.inj)
  | .nil, .bool _ | .nil, .int _ | .nil, .float32 _ | .nil, .float64 _ | .nil, .str _
  | .nil, .bin _ | .nil, .arr _ | .nil, .map _
  | .bool _, .nil | .bool _, .int _ | .bool _, .float32 _ | .bool _, .float64 _
  | .bool _, .str _ | .bool _, .bin _ | .bool _, .arr _ | .bool _, .map _
  | .int _, .nil | .int _, .bool _ | .int _, .float32 _ | .int _, .float64 _
  | .int _, .str _ | .int _, .bin _ | .int _, .arr _ | .int _, .map _
  | .float32 _, .nil | .float32 _, .bool _ | .float32 _, .int _ | .float32 _, .float64 _
  | .float32 _, .str _ | .float32 _, .bin _ | .float32 _, .arr _ | .float32 _, .map _
  | .float64 _, .nil | .float64 _, .bool _ | .float64 _, .int _ | .float64 _, .float32 _
  | .float64 _, .str _ | .float64 _, .bin _ | .float64 _, .arr _ | .float64 _, .map _
  | .str _, .nil | .str _, .bool _ | .str _, .int _ | .str _, .float32 _
  | .str _, .float64 _ | .str _, .bin _ | .str _, .arr _ | .str _, .map _
  | .bin _, .nil | .bin _, .bool _ | .bin _, .int _ | .bin _, .float32 _
  | .bin _, .float64 _ | .bin _, .str _ | .bin _, .arr _ | .bin _, .map _
  | .arr _, .nil | .arr _, .bool _ | .arr _, .int _ | .arr _, .float32 _
  | .arr _, .float64 _ | .arr _, .str _ | .arr _, .bin _ | .arr _, .map _
  | .map _, .nil | .map _, .bool _ | .map _, .int _ | .map _, .float32 _
  | .map _, .float64 _ | .map _, .str _ | .map _, .bin _ | .map _, .arr _ => isFalse Value.noConfusion
/-- Equality of lists of values. -/
def Value.decEqList : (a b : List Value) → Decidable (a = b)
  | [], [] => isTrue rfl
  | x :: xs, y :: ys =>
    match Value.decEq x y, Value.decEqList xs ys with
    | isTrue h, isTrue h' => isTrue (h ▸ h' ▸ rfl)
    | isFalse h, _ => isFalse fun e => h (List.cons.inj e).1
    | _, isFalse h => isFalse fun e => h (List.cons.inj e).2
  | [], _ :: _ | _ :: _, [] => isFalse List.noConfusion
/-- Equality of lists of key-value pairs. -/
def Value.decEqPairs : (a b : List (Value × Value)) → Decidable (a = b)
  | [], [] => isTrue rfl
  | (k, v) :: xs, (k', v') :: ys =>
    match Value.decEq k k', Value.decEq v v', Value.decEqPairs xs ys with
    | isTrue h, isTrue h', isTrue h'' => isTrue (h ▸ h' ▸ h'' ▸ rfl)
    | isFalse h, _, _ => isFalse fun e => h (Prod.mk.inj (List.cons.inj e).1).1
    | _, isFalse h, _ => isFalse fun e => h (Prod.mk.inj (List.cons.inj e).1).2
    | _, _, isFalse h => isFalse fun e => h (List.cons.inj e).2
  | [], _ :: _ | _ :: _, [] => isFalse List.noConfusion
end

instance : DecidableEq Value := Value.decEq

/-- The UTF-8 bytes of a string literal of the source. -/
def utf8 (s : String) : List UInt8 := s.data.flatMap String.utf8EncodeChar

/-! ## The format table -/

/-- What the first byte of an encoded value says follows it. A width `w` is the
number of bytes of the length or number after the first byte. -/
inductive Format where
  | posFixint (n : Nat)
  | fixmap (n : Nat)
  | fixarray (n : Nat)
  | fixstr (n : Nat)
  | nil
  | neverUsed
  | bool (b : Bool)
  | bin (w : Nat)
  | ext (w : Nat)
  | float32
  | float64
  | uint (w : Nat)
  | int (w : Nat)
  | fixext (size : Nat)
  | str (w : Nat)
  | array (w : Nat)
  | map (w : Nat)
  | negFixint (n : Int)
deriving DecidableEq, Repr

/-- The MessagePack format table, byte by byte. -/
def Format.ofByte (b : Nat) : Format :=
  if b < 0x80 then .posFixint b
  else if b < 0x90 then .fixmap (b - 0x80)
  else if b < 0xa0 then .fixarray (b - 0x90)
  else if b < 0xc0 then .fixstr (b - 0xa0)
  else if 0xe0 ≤ b then .negFixint (b - 0x100)
  else match b with
    | 0xc0 => .nil | 0xc1 => .neverUsed | 0xc2 => .bool false | 0xc3 => .bool true
    | 0xc4 => .bin 1 | 0xc5 => .bin 2 | 0xc6 => .bin 4
    | 0xc7 => .ext 1 | 0xc8 => .ext 2 | 0xc9 => .ext 4
    | 0xca => .float32 | 0xcb => .float64
    | 0xcc => .uint 1 | 0xcd => .uint 2 | 0xce => .uint 4 | 0xcf => .uint 8
    | 0xd0 => .int 1 | 0xd1 => .int 2 | 0xd2 => .int 4 | 0xd3 => .int 8
    | 0xd4 => .fixext 1 | 0xd5 => .fixext 2 | 0xd6 => .fixext 4 | 0xd7 => .fixext 8
    | 0xd8 => .fixext 16
    | 0xd9 => .str 1 | 0xda => .str 2 | 0xdb => .str 4
    | 0xdc => .array 2 | 0xdd => .array 4
    | 0xde => .map 2 | _ => .map 4

/-! ## Decoding -/

/-- Why `decode` throws. -/
inductive DecodeError where
  /-- `IncompleteBufferError`: the buffer ends inside the value. -/
  | incompleteBuffer
  /-- The byte `0xc1`, which the format never uses. -/
  | neverUsed
  /-- An extension value of a type no decoder is registered for. -/
  | unknownExt (type : Int)
deriving DecidableEq, Repr

/-- A number held big-endian in `bs`. -/
def beNat (bs : List UInt8) : Nat := bs.foldl (fun acc b => acc * 256 + b.toNat) 0

/-- `n` bytes off the front of the buffer. -/
def readBytes (n : Nat) (bs : List UInt8) : Except DecodeError (List UInt8 × List UInt8) :=
  if n ≤ bs.length then .ok (bs.take n, bs.drop n) else .error .incompleteBuffer

/-- A `w`-byte big-endian number off the front of the buffer. -/
def readUInt (w : Nat) (bs : List UInt8) : Except DecodeError (Nat × List UInt8) :=
  (fun (x, rest) => (beNat x, rest)) <$> readBytes w bs

/-- The `w`-byte two's complement number whose bits are `u`. -/
def signed (w u : Nat) : Int := if u < 2 ^ (8 * w - 1) then u else (u : Int) - (2 ^ (8 * w) : Nat)

/-- `n` values, one after another, each read by `f`. -/
def decodeMany (f : List UInt8 → Except DecodeError (Value × List UInt8)) :
    Nat → List UInt8 → Except DecodeError (List Value × List UInt8)
  | 0, bs => .ok ([], bs)
  | n + 1, bs => do
    let (v, bs) ← f bs
    let (vs, bs) ← decodeMany f n bs
    pure (v :: vs, bs)

/-- Consecutive elements paired: the keys and values of a map, in order. -/
def pairUp {α : Type} : List α → List (α × α)
  | a :: b :: rest => (a, b) :: pairUp rest
  | _ => []

/-- An extension value: its type byte and data are read, then it throws, as
no extension type is registered. -/
def decodeExt (size : Nat) (bs : List UInt8) : Except DecodeError (Value × List UInt8) := do
  let (type, bs) ← readUInt 1 bs
  let _ ← readBytes size bs
  throw (.unknownExt (signed 1 type))

/-- One value off the front of the buffer, and the rest of the buffer. The
fuel bounds the nesting of containers. -/
def decodeValue : Nat → List UInt8 → Except DecodeError (Value × List UInt8)
  | 0, _ => .error .incompleteBuffer
  | _ + 1, [] => .error .incompleteBuffer
  | fuel + 1, first :: bs =>
    match Format.ofByte first.toNat with
    | .posFixint n => pure (.int n, bs)
    | .negFixint n => pure (.int n, bs)
    | .fixmap n => (fun (xs, r) => (.map (pairUp xs), r)) <$> decodeMany (decodeValue fuel) (2 * n) bs
    | .fixarray n => (fun (xs, r) => (.arr xs, r)) <$> decodeMany (decodeValue fuel) n bs
    | .fixstr n => (fun (s, r) => (.str s, r)) <$> readBytes n bs
    | .nil => pure (.nil, bs)
    | .neverUsed => throw .neverUsed
    | .bool b => pure (.bool b, bs)
    | .bin w => do
      let (n, bs) ← readUInt w bs
      (fun (b, r) => (.bin b, r)) <$> readBytes n bs
    | .ext w => do
      let (n, bs) ← readUInt w bs
      decodeExt n bs
    | .fixext size => decodeExt size bs
    | .float32 => (fun (x, r) => (.float32 x, r)) <$> readUInt 4 bs
    | .float64 => (fun (x, r) => (.float64 x, r)) <$> readUInt 8 bs
    | .uint w => (fun (x, r) => (.int x, r)) <$> readUInt w bs
    | .int w => (fun (x, r) => (.int (signed w x), r)) <$> readUInt w bs
    | .str w => do
      let (n, bs) ← readUInt w bs
      (fun (s, r) => (.str s, r)) <$> readBytes n bs
    | .array w => do
      let (n, bs) ← readUInt w bs
      (fun (xs, r) => (.arr xs, r)) <$> decodeMany (decodeValue fuel) n bs
    | .map w => do
      let (n, bs) ← readUInt w bs
      (fun (xs, r) => (.map (pairUp xs), r)) <$> decodeMany (decodeValue fuel) (2 * n) bs

/-- `decode(buf)`: the first value of the buffer. -/
def decode (bs : List UInt8) : Except DecodeError Value :=
  Prod.fst <$> decodeValue (bs.length + 1) bs

/-! ## Encoding -/

/-- `n` as `w` bytes, big-endian. -/
def beBytes : Nat → Nat → List UInt8
  | 0, _ => []
  | w + 1, n => beBytes w (n / 256) ++ [(n % 256).toUInt8]

/-- An integer as `msgpack5` writes a whole number: in the narrowest format
that holds it, except that a negative number takes `int 32` only above
`-214748365`, the bound its encoder tests (`obj > -214748365`), and `int 64`
from there down, `-2 ^ 31` included. -/
def encodeInt (i : Int) : List UInt8 :=
  if 0 ≤ i then
    let n := i.toNat
    if n < 0x80 then [n.toUInt8]
    else if n < 2 ^ 8 then 0xcc :: beBytes 1 n
    else if n < 2 ^ 16 then 0xcd :: beBytes 2 n
    else if n < 2 ^ 32 then 0xce :: beBytes 4 n
    else 0xcf :: beBytes 8 n
  else if -0x20 ≤ i then [(i + 0x100).toNat.toUInt8]
  else if -0x80 ≤ i then 0xd0 :: beBytes 1 (i + 0x100).toNat
  else if -0x8000 ≤ i then 0xd1 :: beBytes 2 (i + 0x10000).toNat
  else if -214748365 < i then 0xd2 :: beBytes 4 (i + 0x100000000).toNat
  else 0xd3 :: beBytes 8 (i + 0x10000000000000000).toNat

/-- The header of a string of `n` bytes. -/
def strHeader (n : Nat) : List UInt8 :=
  if n < 32 then [(0xa0 + n).toUInt8]
  else if n < 2 ^ 8 then 0xd9 :: beBytes 1 n
  else if n < 2 ^ 16 then 0xda :: beBytes 2 n
  else 0xdb :: beBytes 4 n

/-- The header of a byte array of `n` bytes. -/
def binHeader (n : Nat) : List UInt8 :=
  if n < 2 ^ 8 then 0xc4 :: beBytes 1 n
  else if n < 2 ^ 16 then 0xc5 :: beBytes 2 n
  else 0xc6 :: beBytes 4 n

/-- The header of an array of `n` values. -/
def arrayHeader (n : Nat) : List UInt8 :=
  if n < 16 then [(0x90 + n).toUInt8]
  else if n < 2 ^ 16 then 0xdc :: beBytes 2 n
  else 0xdd :: beBytes 4 n

/-- The header of a map of `n` pairs. -/
def mapHeader (n : Nat) : List UInt8 :=
  if n < 16 then [(0x80 + n).toUInt8]
  else if n < 2 ^ 16 then 0xde :: beBytes 2 n
  else 0xdf :: beBytes 4 n

mutual
/-- `encode(x)`. -/
def Value.encode : Value → List UInt8
  | .nil => [0xc0]
  | .bool b => [if b then 0xc3 else 0xc2]
  | .int i => encodeInt i
  | .float32 x => 0xca :: beBytes 4 x
  | .float64 x => 0xcb :: beBytes 8 x
  | .str s => strHeader s.length ++ s
  | .bin b => binHeader b.length ++ b
  | .arr xs => arrayHeader xs.length ++ Value.encodeList xs
  | .map kvs => mapHeader kvs.length ++ Value.encodePairs kvs
/-- The values of an array, one after another. -/
def Value.encodeList : List Value → List UInt8
  | [] => []
  | x :: xs => x.encode ++ Value.encodeList xs
/-- The keys and values of a map, alternating. -/
def Value.encodePairs : List (Value × Value) → List UInt8
  | [] => []
  | (k, v) :: kvs => k.encode ++ v.encode ++ Value.encodePairs kvs
end

theorem encodeInt_ne_nil (i : Int) : encodeInt i ≠ [] := by
  dsimp only [encodeInt]
  simp only [ne_eq, ite_eq_iff, List.cons_ne_nil, and_false, or_self, not_false_eq_true]

/-- Every encoding starts with its format byte. -/
theorem encode_ne_nil (v : Value) : v.encode ≠ [] := by
  cases v <;> simp only [Value.encode, encodeInt_ne_nil, strHeader, binHeader, arrayHeader,
    mapHeader, ne_eq, List.append_eq_nil, ite_eq_iff, List.cons_ne_nil, false_and, and_false,
    or_self, not_false_eq_true]

end Canbox.Rpcudp
