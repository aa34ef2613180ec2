import PullCursor.Seed.Hex
import PullCursor.Text

/-! Where the seed of a generator comes from. A fixed seed can be written down, so that a run can
be repeated; whatever is written down for a seed reads back as that seed. -/
namespace PullCursor

abbrev Seed := Vector UInt8 32

namespace Seed

/-- The first bytes of a list, filled up with zeros. -/
def ofBytes (bytes : List UInt8) : Seed := Vector.ofFn fun i => bytes.getD i.val 0

def fixed : Seed := ofBytes "iteration tests, fixed seed #001".toUTF8.toList

def variableName : String := "ITERATION_TEST_PRNG"

end Seed

inductive SeedChoice where
  | random
  | deterministic
  | seeded (seed : Seed)
deriving DecidableEq

inductive SeedError where
  | notText
  | unrecognized (s : String)
deriving DecidableEq

def SeedError.message : SeedError → String
  | .notText => "Value was not UTF-8"
  | .unrecognized s => s!"Could not interpret {Text.quote s} as a PRNG seed."

namespace Hex.Codec

variable (codec : Codec)

def print (seed : Seed) : String := String.ofList (codec.encode seed.toList)

/-- A text of digits, longer or shorter than a seed. The empty text is not a seed. -/
def parse? (s : String) : Option Seed :=
  if s.isEmpty then none else (codec.decode s.toList).map .ofBytes

def announce (seed : Seed) : String :=
  s!"  Using RNG seed {Seed.variableName}={codec.print seed}\n"

def choose (s : String) : Except SeedError SeedChoice :=
  if s = "random" then .ok .random
  else if s = "deterministic" then .ok .deterministic
  else
    match codec.parse? s with
    | some seed => .ok (.seeded seed)
    | none => .error (.unrecognized s)

def chooseFrom (value : Option ByteArray) : Except SeedError (Option SeedChoice) :=
  match value with
  | none => .ok none
  | some bytes =>
      match String.fromUTF8? bytes with
      | none => .error .notText
      | some s => if s.isEmpty then .ok none else (codec.choose s).map some

end Hex.Codec

def Seed.toText (seed : Seed) : String := Hex.standard.print seed

namespace SeedChoice

def complaint (e : SeedError) : String :=
  s!"Bad value for {Seed.variableName}: {e.message}\n"
    ++ "We recognize `random`, `deterministic`, or a hexadecimal seed."

def seed (fresh : Seed) : SeedChoice → Seed
  | random => fresh
  | deterministic => .fixed
  | seeded s => s

def ofText (s : String) : Except SeedError SeedChoice := Hex.standard.choose s

def ofVariable (value : Option ByteArray) : Except SeedError (Option SeedChoice) :=
  Hex.standard.chooseFrom value

end SeedChoice

end PullCursor
