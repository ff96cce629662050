
namespace Karst.ChaCha

structure Key where
  k0 : UInt32
  k1 : UInt32
  k2 : UInt32
  k3 : UInt32
  k4 : UInt32
  k5 : UInt32
  k6 : UInt32
  k7 : UInt32
deriving DecidableEq, Inhabited

structure Matrix where
  x0 : UInt32
  x1 : UInt32
  x2 : UInt32
  x3 : UInt32
  x4 : UInt32
  x5 : UInt32
  x6 : UInt32
  x7 : UInt32
  x8 : UInt32
  x9 : UInt32
  x10 : UInt32
  x11 : UInt32
  x12 : UInt32
  x13 : UInt32
  x14 : UInt32
  x15 : UInt32
deriving DecidableEq

structure Quarter where
  a : UInt32
  b : UInt32
  c : UInt32
  d : UInt32

@[inline] def rotateLeft (x amount : UInt32) : UInt32 := (x <<< amount) ||| (x >>> (32 - amount))

@[inline] def quarterRound (a b c d : UInt32) : Quarter :=
  let a := a + b
  let d := rotateLeft (d ^^^ a) 16
  let c := c + d
  let b := rotateLeft (b ^^^ c) 12
  let a := a + b
  let d := rotateLeft (d ^^^ a) 8
  let c := c + d
  let b := rotateLeft (b ^^^ c) 7
  ⟨a, b, c, d⟩

def doubleRound (m : Matrix) : Matrix :=
  let c0 := quarterRound m.x0 m.x4 m.x8 m.x12
  let c1 := quarterRound m.x1 m.x5 m.x9 m.x13
  let c2 := quarterRound m.x2 m.x6 m.x10 m.x14
  let c3 := quarterRound m.x3 m.x7 m.x11 m.x15
  let d0 := quarterRound c0.a c1.b c2.c c3.d
  let d1 := quarterRound c1.a c2.b c3.c c0.d
  let d2 := quarterRound c2.a c3.b c0.c c1.d
  let d3 := quarterRound c3.a c0.b c1.c c2.d
  ⟨d0.a, d1.a, d2.a, d3.a, d3.b, d0.b, d1.b, d2.b, d2.c, d3.c, d0.c, d1.c, d1.d, d2.d, d3.d, d0.d⟩

def initial (key : Key) (counter : UInt64) : Matrix :=
  ⟨0x61707865, 0x3320646e, 0x79622d32, 0x6b206574, key.k0, key.k1, key.k2, key.k3, key.k4, key.k5,
    key.k6, key.k7, counter.toUInt32, (counter >>> 32).toUInt32, 0, 0⟩

def block (key : Key) (counter : UInt64) : Array UInt32 :=
  let start := initial key counter
  let m := doubleRound (doubleRound (doubleRound (doubleRound start)))
  #[m.x0 + start.x0, m.x1 + start.x1, m.x2 + start.x2, m.x3 + start.x3, m.x4 + start.x4,
    m.x5 + start.x5, m.x6 + start.x6, m.x7 + start.x7, m.x8 + start.x8, m.x9 + start.x9,
    m.x10 + start.x10, m.x11 + start.x11, m.x12 + start.x12, m.x13 + start.x13, m.x14 + start.x14,
    m.x15 + start.x15]

def seedStep (state : UInt64) : UInt64 := state * 6364136223846793005 + 11634580027462260723

def seedWord (state : UInt64) : UInt32 :=
  let x := (((state >>> 18) ^^^ state) >>> 27).toUInt32
  let r := (state >>> 59).toUInt32
  (x >>> r) ||| (x <<< (32 - r))

/-- Eight successive outputs of a permuted congruential generator started at `seed`. -/
def Key.ofSeed (seed : UInt64) : Key :=
  let s0 := seedStep seed
  let s1 := seedStep s0
  let s2 := seedStep s1
  let s3 := seedStep s2
  let s4 := seedStep s3
  let s5 := seedStep s4
  let s6 := seedStep s5
  let s7 := seedStep s6
  ⟨seedWord s0, seedWord s1, seedWord s2, seedWord s3, seedWord s4, seedWord s5, seedWord s6,
    seedWord s7⟩

end Karst.ChaCha
