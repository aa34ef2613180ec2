import PullCursor.Sweep

/-! A feed hands out the elements of a source one by one, a fault in the place of an element. The
first fault, the end or a close finishes it, and a finished feed leaves its source alone. The
source is never closed on the feed's own account. -/
namespace PullCursor

structure Feed (σ : Type) where
  inner : σ
  finished : Bool

namespace Feed

variable {σ α ε ε' : Type}

def start (inner : σ) : Feed σ := ⟨inner, false⟩

def next (c : Source σ α ε) : Action (Feed σ) ε' (Option (Except ε α)) := fun s =>
  if s.finished then ⟨.ok none, s, []⟩
  else
    match c.pull s.inner with
    | ⟨.ok (some x), inner, t⟩ => ⟨.ok (some (.ok x)), ⟨inner, false⟩, t⟩
    | ⟨.ok none, inner, t⟩ => ⟨.ok none, ⟨inner, true⟩, t⟩
    | ⟨.error e, inner, t⟩ => ⟨.ok (some (.error e)), ⟨inner, true⟩, t⟩
    | ⟨.panic m, inner, t⟩ => ⟨.panic m, ⟨inner, false⟩, t⟩

section Next

variable {c : Source σ α ε} {s s' : σ} {t : List Event}

theorem next_finished (c : Source σ α ε) (s : σ) :
    (next c ⟨s, true⟩ : Reply _ ε' _) = ⟨.ok none, ⟨s, true⟩, []⟩ := rfl

theorem next_element {x : α} (h : c.pull s = ⟨.ok (some x), s', t⟩) :
    (next c ⟨s, false⟩ : Reply _ ε' _) = ⟨.ok (some (.ok x)), ⟨s', false⟩, t⟩ := by
  simp [next, h]

theorem next_ended (h : c.pull s = ⟨.ok none, s', t⟩) :
    (next c ⟨s, false⟩ : Reply _ ε' _) = ⟨.ok none, ⟨s', true⟩, t⟩ := by
  simp [next, h]

theorem next_failed {e : ε} (h : c.pull s = ⟨.error e, s', t⟩) :
    (next c ⟨s, false⟩ : Reply _ ε' _) = ⟨.ok (some (.error e)), ⟨s', true⟩, t⟩ := by
  simp [next, h]

theorem next_panic {m : String} (h : c.pull s = ⟨.panic m, s', t⟩) :
    (next c ⟨s, false⟩ : Reply _ ε' _) = ⟨.panic m, ⟨s', false⟩, t⟩ := by
  simp [next, h]

end Next

def close (c : Source σ α ε) : Action (Feed σ) ε Unit := fun s =>
  c.close.on s.inner (fun inner _ => ⟨inner, true⟩) s

/-- While the feed is not finished: what the source can still deliver, and one fault. -/
def size (inner : σ → Nat) (s : Feed σ) : Nat := if s.finished then 0 else inner s.inner + 1

def source (c : EndingSource σ α ε) : EndingSource (Feed σ) (Except ε α) ε where
  pull := next c.toSource
  close := close c.toSource
  size := size c.size
  pull_lowers {s s' x t} h := by
    obtain ⟨inner, finished⟩ := s
    cases finished
    · rcases e : c.pull inner with ⟨(_ | y) | _ | _, inner', t'⟩ <;>
        simp [next, e] at h <;> obtain ⟨rfl, rfl, rfl⟩ := h
      · have := c.pull_lowers e
        simpa [size] using this
      · simp [size]
    · simp [next] at h

def rest (c : EndingSource σ α ε) : Action (Feed σ) ε (List (Except ε α)) :=
  (fun r => r.2.reverse) <$> Action.withLocal []
    ((source c).sweep (return ()) (Sweep.onward Sweep.gather))

def gather : Except ε α → Action (List α) ε (Turn Unit)
  | .error e => Action.fail e
  | .ok x => Sweep.onward Sweep.gather x

def collect (c : EndingSource σ α ε) : Action (Feed σ) ε (List α) :=
  (fun r => r.2.reverse) <$> Action.withLocal [] ((source c).sweep (return ()) gather)

end Feed

end PullCursor
