import PullCursor.Lookahead

/-! Leaves that hold their elements: a list, a single value, a range of numbers, or nothing at
all. -/
namespace PullCursor.Leaf

variable {α ε : Type}

def items : FiniteSource (List α) α ε where
  pull
    | [] => ⟨.ok none, [], []⟩
    | x :: rest => ⟨.ok (some x), rest, []⟩
  close := pure ()
  size := List.length
  pull_spends s := by cases s <;> simp [Outcome.weigh, arrived]
  close_spends := .pure rfl

def single : FiniteSource (Option α) α ε where
  pull s := ⟨.ok s, none, []⟩
  close := pure ()
  size := arrived
  pull_spends s := by simp [Outcome.weigh, arrived]
  close_spends := .pure rfl

def nothing : FiniteCursor Unit α ε where
  pull := pure none
  close := pure ()
  hasNext := pure false
  next := Action.fail .exhausted
  size _ := 0
  pull_spends := .pure rfl
  close_spends := .pure rfl
  hasNext_spends := .pure rfl
  next_spends := .fail _

/-- The next number, and the first one that is not reached any more, if there is one. -/
structure Counter where
  next : Int64
  stop : Option Int64

namespace Counter

def size (s : Counter) : Nat := ((s.stop.getD Int64.maxValue).toInt - s.next.toInt).toNat

/-- The next number. Counting past the largest one panics. -/
def pull {ε : Type} : Action Counter ε (Option Element) := fun s =>
  if s.stop.any (· ≤ s.next) then ⟨.ok none, s, []⟩
  else if s.next = Int64.maxValue then ⟨.panic "attempt to add with overflow", s, []⟩
  else ⟨.ok (some (.int s.next)), { s with next := s.next + 1 }, []⟩

theorem toInt_succ {n : Int64} (h : n ≠ Int64.maxValue) : (n + 1).toInt = n.toInt + 1 := by
  have hne : n.toInt ≠ Int64.maxValue.toInt := fun he => h (Int64.toInt_inj.1 he)
  have hle := n.toInt_le
  have hge := n.le_toInt
  have hmax : Int64.maxValue.toInt = 9223372036854775807 := by decide
  rw [Int64.toInt_add]
  exact Int.bmod_eq_of_le (by simp; omega) (by simp; omega)

theorem pull_spends {ε : Type} : (pull : Action Counter ε _).Spends size arrived := by
  intro s
  unfold pull
  split
  · simp [Outcome.weigh, arrived]
  split
  · simp [Outcome.weigh]
  next hs h =>
    have h₁ : s.next.toInt ≠ Int64.maxValue.toInt := fun e => h (Int64.toInt_inj.1 e)
    have h₂ := s.next.toInt_le
    have h₃ := s.next.le_toInt
    have h₄ : Int64.maxValue.toInt = 9223372036854775807 := by decide
    have h₅ := toInt_succ h
    have h₆ : s.next.toInt < (s.stop.getD Int64.maxValue).toInt := by
      cases e : s.stop with
      | none => simp only [Option.getD_none]; omega
      | some h =>
        simp only [e, Option.any_some, decide_eq_true_eq, Int64.le_iff_toInt_le] at hs
        simpa using hs
    simp only [size, Outcome.weigh, arrived, h₅]
    omega

end Counter

def counter {ε : Type} : FiniteSource Counter Element ε where
  pull := Counter.pull
  close := pure ()
  size := Counter.size
  pull_spends := Counter.pull_spends
  close_spends := .pure rfl

end PullCursor.Leaf
