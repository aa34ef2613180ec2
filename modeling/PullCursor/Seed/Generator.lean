import PullCursor.Seed.Basic

/-! A generator is started from a seed, and says which before it is used. The one that runs is
ChaCha with twelve rounds; the seed is its key, and its stream number is zero. -/
namespace PullCursor

inductive Draw where
  | word
  | doubleWord
  | bytes (n : Nat)

inductive Drawn where
  | word (w : UInt32)
  | doubleWord (w : UInt64)
  | bytes (bs : List UInt8)

/-- A family of generators, one for each seed. -/
structure Rng (γ : Type) where
  ofSeed : Seed → γ
  word : γ → UInt32 × γ
  doubleWord : γ → UInt64 × γ
  bytes : γ → Nat → List UInt8 × γ
  length_bytes : ∀ g n, (bytes g n).1.length = n

namespace Rng

variable {γ : Type} (rng : Rng γ) (codec : Hex.Codec)

def draw (g : γ) : Draw → Drawn × γ
  | .word => let (w, g) := rng.word g; (.word w, g)
  | .doubleWord => let (w, g) := rng.doubleWord g; (.doubleWord w, g)
  | .bytes n => let (bs, g) := rng.bytes g n; (.bytes bs, g)

def draws (g : γ) : List Draw → List Drawn
  | [] => []
  | d :: rest => let (x, g) := rng.draw g d; x :: draws g rest

def start (fresh : Seed) (choice : SeedChoice) : String × γ :=
  let seed := choice.seed fresh
  (codec.announce seed, rng.ofSeed seed)

def startFrom (fresh : Seed) (value : Option ByteArray) : Except SeedError (String × γ) :=
  (codec.chooseFrom value).map fun choice => rng.start codec fresh (choice.getD .random)

end Rng

def Seed.announced (line : String) : String × String :=
  let chars := line.toList
  (String.ofList (chars.takeWhile (· ≠ '=')),
    String.ofList ((chars.dropWhile (· ≠ '=')).drop 1 |>.takeWhile (· ≠ '\n')))

/-- Does the seed announced give a generator that starts with the same double word? -/
def Rng.reproduces {γ : Type} (rng : Rng γ) (codec : Hex.Codec) (line : String) (g : γ) : Bool :=
  match codec.parse? (Seed.announced line).2 with
  | some seed => (rng.doubleWord (rng.ofSeed seed)).1 == (rng.doubleWord g).1
  | none => false

namespace Keystream

abbrev Block := Vector UInt32 16

def rotateLeft (x : UInt32) (n : UInt32) : UInt32 := (x <<< n) ||| (x >>> (32 - n))

def quarterRound (a b c d : Fin 16) (x : Block) : Block :=
  let x := x.set a (x[a] + x[b])
  let x := x.set d (rotateLeft (x[d] ^^^ x[a]) 16)
  let x := x.set c (x[c] + x[d])
  let x := x.set b (rotateLeft (x[b] ^^^ x[c]) 12)
  let x := x.set a (x[a] + x[b])
  let x := x.set d (rotateLeft (x[d] ^^^ x[a]) 8)
  let x := x.set c (x[c] + x[d])
  x.set b (rotateLeft (x[b] ^^^ x[c]) 7)

def doubleRound (x : Block) : Block :=
  quarterRound 3 4 9 14 <| quarterRound 2 7 8 13 <| quarterRound 1 6 11 12 <|
  quarterRound 0 5 10 15 <| quarterRound 3 7 11 15 <| quarterRound 2 6 10 14 <|
  quarterRound 1 5 9 13 <| quarterRound 0 4 8 12 x

def wordOfBytes (b₀ b₁ b₂ b₃ : UInt8) : UInt32 :=
  b₀.toUInt32 ||| (b₁.toUInt32 <<< 8) ||| (b₂.toUInt32 <<< 16) ||| (b₃.toUInt32 <<< 24)

def bytesOfWord (w : UInt32) : List UInt8 :=
  [w.toUInt8, (w >>> 8).toUInt8, (w >>> 16).toUInt8, (w >>> 24).toUInt8]

/-- Four constants, the key, the number of the block in two words, and the stream number. -/
def initial (key : Seed) (counter : UInt64) : Block :=
  let k (i : Fin 8) : UInt32 := wordOfBytes key[4 * i.val] key[4 * i.val + 1] key[4 * i.val + 2]
    key[4 * i.val + 3]
  #v[0x61707865, 0x3320646e, 0x79622d32, 0x6b206574, k 0, k 1, k 2, k 3, k 4, k 5, k 6, k 7,
    counter.toUInt32, (counter >>> 32).toUInt32, 0, 0]

/-- The block with the given number: six double rounds, added to where they started. -/
def block (key : Seed) (counter : UInt64) : Block :=
  let start := initial key counter
  let mixed := doubleRound <| doubleRound <| doubleRound <| doubleRound <| doubleRound <|
    doubleRound start
  Vector.zipWith (· + ·) start mixed

def word (key : Seed) (n : Nat) : UInt32 :=
  (block key (UInt64.ofNat (n / 16))).get ⟨n % 16, Nat.mod_lt _ (by decide)⟩

end Keystream

/-- A place in a keystream: the key, and the number of words handed out. -/
structure Generator where
  seed : Seed
  used : Nat

namespace Generator

def word (g : Generator) : UInt32 × Generator :=
  (Keystream.word g.seed g.used, { g with used := g.used + 1 })

def doubleWord (g : Generator) : UInt64 × Generator :=
  let (low, g) := g.word
  let (high, g) := g.word
  (low.toUInt64 ||| (high.toUInt64 <<< 32), g)

def words (g : Generator) (n : Nat) : List UInt32 × Generator :=
  ((List.range n).map fun i => Keystream.word g.seed (g.used + i), { g with used := g.used + n })

/-- Bytes of as many words as are needed, the lowest byte of each first. What is left of the last
word is dropped. -/
def bytes (g : Generator) (n : Nat) : List UInt8 × Generator :=
  let (ws, g) := g.words ((n + 3) / 4)
  ((ws.flatMap Keystream.bytesOfWord).take n, g)

theorem length_bytes (g : Generator) (n : Nat) : (g.bytes n).1.length = n := by
  have hwords (ws : List UInt32) : (ws.flatMap Keystream.bytesOfWord).length = 4 * ws.length := by
    induction ws with
    | nil => rfl
    | cons w rest ih =>
      rw [List.flatMap_cons, List.length_append, ih, List.length_cons]
      simp only [Keystream.bytesOfWord, List.length_cons, List.length_nil]
      omega
  simp only [bytes, words, List.length_take, hwords, List.length_map, List.length_range]
  omega

def chacha : Rng Generator where
  ofSeed seed := ⟨seed, 0⟩
  word := word
  doubleWord := doubleWord
  bytes := bytes
  length_bytes := length_bytes

def draws (g : Generator) (ds : List Draw) : List Drawn := chacha.draws g ds

def reproduces (line : String) (g : Generator) : Bool := chacha.reproduces Hex.standard line g

end Generator

namespace SeedChoice

def generator (fresh : Seed) (choice : SeedChoice) : String × Generator :=
  Generator.chacha.start Hex.standard fresh choice

def generatorOfVariable (fresh : Seed) (value : Option ByteArray) :
    Except SeedError (String × Generator) :=
  Generator.chacha.startFrom Hex.standard fresh value

end SeedChoice

end PullCursor
