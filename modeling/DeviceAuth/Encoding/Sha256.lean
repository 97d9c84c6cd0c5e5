/-! The SHA-256 digest: the padded message in blocks of sixteen words, each block expanded to a
schedule of sixty-four words and folded into eight chaining words. -/
namespace DeviceAuth.Encoding.Sha256

def roundConstants : Array UInt32 := #[
  0x428a2f98, 0x71374491, 0xb5c0fbcf, 0xe9b5dba5, 0x3956c25b, 0x59f111f1, 0x923f82a4, 0xab1c5ed5,
  0xd807aa98, 0x12835b01, 0x243185be, 0x550c7dc3, 0x72be5d74, 0x80deb1fe, 0x9bdc06a7, 0xc19bf174,
  0xe49b69c1, 0xefbe4786, 0x0fc19dc6, 0x240ca1cc, 0x2de92c6f, 0x4a7484aa, 0x5cb0a9dc, 0x76f988da,
  0x983e5152, 0xa831c66d, 0xb00327c8, 0xbf597fc7, 0xc6e00bf3, 0xd5a79147, 0x06ca6351, 0x14292967,
  0x27b70a85, 0x2e1b2138, 0x4d2c6dfc, 0x53380d13, 0x650a7354, 0x766a0abb, 0x81c2c92e, 0x92722c85,
  0xa2bfe8a1, 0xa81a664b, 0xc24b8b70, 0xc76c51a3, 0xd192e819, 0xd6990624, 0xf40e3585, 0x106aa070,
  0x19a4c116, 0x1e376c08, 0x2748774c, 0x34b0bcb5, 0x391c0cb3, 0x4ed8aa4a, 0x5b9cca4f, 0x682e6ff3,
  0x748f82ee, 0x78a5636f, 0x84c87814, 0x8cc70208, 0x90befffa, 0xa4506ceb, 0xbef9a3f7, 0xc67178f2]

structure Chain where
  a : UInt32
  b : UInt32
  c : UInt32
  d : UInt32
  e : UInt32
  f : UInt32
  g : UInt32
  h : UInt32

def Chain.initial : Chain :=
  ⟨0x6a09e667, 0xbb67ae85, 0x3c6ef372, 0xa54ff53a, 0x510e527f, 0x9b05688c, 0x1f83d9ab, 0x5be0cd19⟩

def Chain.add (x y : Chain) : Chain :=
  ⟨x.a + y.a, x.b + y.b, x.c + y.c, x.d + y.d, x.e + y.e, x.f + y.f, x.g + y.g, x.h + y.h⟩

def Chain.words (x : Chain) : List UInt32 :=
  [x.a, x.b, x.c, x.d, x.e, x.f, x.g, x.h]

def rotate (w : UInt32) (n : UInt32) : UInt32 :=
  (w >>> n) ||| (w <<< (32 - n))

def bigEndian (count n : Nat) : List UInt8 :=
  (List.range count).map fun i => UInt8.ofNat (n >>> (8 * (count - 1 - i)))

/-- One set bit, zeros, and the length in bits fill the last block. -/
def pad (message : List UInt8) : List UInt8 :=
  let zeros := (119 - message.length % 64) % 64
  message ++ 0x80 :: List.replicate zeros 0 ++ bigEndian 8 (message.length * 8)

def words : List UInt8 → List UInt32
  | a :: b :: c :: d :: rest =>
    ((a.toUInt32 <<< 24) ||| (b.toUInt32 <<< 16) ||| (c.toUInt32 <<< 8) ||| d.toUInt32) ::
      words rest
  | _ => []

def schedule (block : List UInt32) : Array UInt32 :=
  (List.range 48).foldl (fun w i =>
    let s0 := w.getD (i + 1) 0
    let s1 := w.getD (i + 14) 0
    w.push (w.getD i 0 + (rotate s0 7 ^^^ rotate s0 18 ^^^ (s0 >>> 3)) + w.getD (i + 9) 0 +
      (rotate s1 17 ^^^ rotate s1 19 ^^^ (s1 >>> 10)))) block.toArray

def round (x : Chain) (k w : UInt32) : Chain :=
  let t1 := x.h + (rotate x.e 6 ^^^ rotate x.e 11 ^^^ rotate x.e 25) +
    ((x.e &&& x.f) ^^^ ((~~~x.e) &&& x.g)) + k + w
  let t2 := (rotate x.a 2 ^^^ rotate x.a 13 ^^^ rotate x.a 22) +
    ((x.a &&& x.b) ^^^ (x.a &&& x.c) ^^^ (x.b &&& x.c))
  ⟨t1 + t2, x.a, x.b, x.c, x.d + t1, x.e, x.f, x.g⟩

def compress (chain : Chain) (block : List UInt32) : Chain :=
  chain.add ((List.zip roundConstants.toList (schedule block).toList).foldl
    (fun x (k, w) => round x k w) chain)

def absorb : Nat → Chain → List UInt32 → Chain
  | 0, chain, _ => chain
  | count + 1, chain, ws => absorb count (compress chain (ws.take 16)) (ws.drop 16)

def digest (message : List UInt8) : List UInt8 :=
  let ws := words (pad message)
  (absorb (ws.length / 16) .initial ws).words.flatMap fun w => bigEndian 4 w.toNat

end DeviceAuth.Encoding.Sha256
