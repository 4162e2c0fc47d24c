/-!
XXH64, the 64-bit hash of a run of bytes, with seed zero.

* `XXH64.hash` : four lanes over stripes of 32 bytes, then the remaining bytes by eights, by a four,
  and one by one, then the final mix.
* `XXH64.hexDigest` : the hash as sixteen hexadecimal digits.
-/

namespace Concordance.XXH64

/-- The first of the five primes. -/
def prime1 : UInt64 := 0x9E3779B185EBCA87
/-- The second prime. -/
def prime2 : UInt64 := 0xC2B2AE3D27D4EB4F
/-- The third prime. -/
def prime3 : UInt64 := 0x165667B19E3779F9
/-- The fourth prime. -/
def prime4 : UInt64 := 0x85EBCA77C2B2AE63
/-- The fifth prime. -/
def prime5 : UInt64 := 0x27D4EB2F165667C5

/-- A word turned to the left. -/
def rotate (x : UInt64) (n : UInt64) : UInt64 := (x <<< n) ||| (x >>> (64 - n))

/-- The word that bytes write, least significant first. -/
def word (bs : List UInt8) : UInt64 := bs.foldr (fun b w => (w <<< 8) ||| b.toUInt64) 0

/-- A lane after one more word. -/
def round (lane input : UInt64) : UInt64 := rotate (lane + input * prime2) 31 * prime1

/-- The four lanes. -/
structure Lanes where
  a : UInt64
  b : UInt64
  c : UInt64
  d : UInt64

/-- The lanes before the first stripe. -/
def Lanes.start : Lanes := ⟨prime1 + prime2, prime2, 0, 0 - prime1⟩

/-- The lanes after one more stripe of 32 bytes. -/
def Lanes.stripe (l : Lanes) (bs : List UInt8) : Lanes :=
  ⟨round l.a (word (bs.take 8)), round l.b (word ((bs.drop 8).take 8)),
    round l.c (word ((bs.drop 16).take 8)), round l.d (word ((bs.drop 24).take 8))⟩

/-- The hash so far after one lane is folded in. -/
def merge (h lane : UInt64) : UInt64 := (h ^^^ round 0 lane) * prime1 + prime4

/-- The lanes folded into one word. -/
def Lanes.converge (l : Lanes) : UInt64 :=
  let h := rotate l.a 1 + rotate l.b 7 + rotate l.c 12 + rotate l.d 18
  merge (merge (merge (merge h l.a) l.b) l.c) l.d

/-- The lanes after all whole stripes, and the bytes after those. -/
def stripes (l : Lanes) (bs : List UInt8) : Lanes × List UInt8 :=
  if 32 ≤ bs.length then stripes (l.stripe (bs.take 32)) (bs.drop 32) else (l, bs)
termination_by bs.length
decreasing_by simp_wf; omega

/-- The hash after the bytes that fill no stripe. -/
def tail (h : UInt64) (bs : List UInt8) : UInt64 :=
  if 8 ≤ bs.length then
    tail (rotate (h ^^^ round 0 (word (bs.take 8))) 27 * prime1 + prime4) (bs.drop 8)
  else if 4 ≤ bs.length then
    tail (rotate (h ^^^ (word (bs.take 4) * prime1)) 23 * prime2 + prime3) (bs.drop 4)
  else match bs with
    | [] => h
    | b :: rest => tail (rotate (h ^^^ (b.toUInt64 * prime5)) 11 * prime1) rest
termination_by bs.length
decreasing_by all_goals (simp_wf; try omega)

/-- The final mix. -/
def avalanche (h : UInt64) : UInt64 :=
  let h := (h ^^^ (h >>> 33)) * prime2
  let h := (h ^^^ (h >>> 29)) * prime3
  h ^^^ (h >>> 32)

/-- The hash of a run of bytes. -/
def hash (bs : List UInt8) : UInt64 :=
  let (lanes, rest) := stripes .start bs
  let h := if 32 ≤ bs.length then lanes.converge else prime5
  avalanche (tail (h + bs.length.toUInt64) rest)

/-- The sixteen hexadecimal digits of a hash. -/
def hexDigest (bs : List UInt8) : String :=
  let ds := Nat.toDigits 16 (hash bs).toNat
  String.ofList (List.replicate (16 - ds.length) '0' ++ ds)

end Concordance.XXH64
