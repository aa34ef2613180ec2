import PullCursor.Event
import PullCursor.Cursor

/-! Schedules of calls. A caller may call the operations of a cursor in any order and may go on
after a failure or a panic, so a run is a list of operations and nothing about it depends on how a
call ended. -/
namespace PullCursor

variable {σ α ε : Type}

inductive Answer (α ε : Type) where
  | hasNext (o : Outcome ε Bool)
  | next (o : Outcome (Stop ε) α)
  | pull (o : Outcome ε (Option α))
  | close (o : Outcome ε Unit)

structure Called (σ α ε : Type) where
  answer : Answer α ε
  state : σ
  trace : List Event

structure Run (σ α ε : Type) where
  answers : List (Answer α ε)
  state : σ
  trace : List Event

namespace Cursor

def call (c : Cursor σ α ε) (s : σ) : Operation → Called σ α ε
  | .hasNext => ⟨.hasNext (c.hasNext s).outcome, (c.hasNext s).state, (c.hasNext s).trace⟩
  | .next => ⟨.next (c.next s).outcome, (c.next s).state, (c.next s).trace⟩
  | .pull => ⟨.pull (c.pull s).outcome, (c.pull s).state, (c.pull s).trace⟩
  | .close => ⟨.close (c.close s).outcome, (c.close s).state, (c.close s).trace⟩

def run (c : Cursor σ α ε) (s : σ) : List Operation → Run σ α ε
  | [] => ⟨[], s, []⟩
  | op :: rest =>
      let first := c.call s op
      let later := c.run first.state rest
      ⟨first.answer :: later.answers, later.state, first.trace ++ later.trace⟩

def extend (c : Cursor σ α ε) (r : Run σ α ε) (op : Operation) : Run σ α ε :=
  let last := c.call r.state op
  ⟨r.answers ++ [last.answer], last.state, r.trace ++ last.trace⟩

theorem run_concat (c : Cursor σ α ε) (s : σ) (ops : List Operation) (op : Operation) :
    c.run s (ops ++ [op]) = c.extend (c.run s ops) op := by
  induction ops generalizing s with
  | nil => simp [run, extend]
  | cons first rest ih => simp [run, extend, ih]

theorem run_append (c : Cursor σ α ε) (s : σ) (ops later : List Operation) :
    c.run s (ops ++ later) =
      let r := c.run s ops
      let r' := c.run r.state later
      ⟨r.answers ++ r'.answers, r'.state, r.trace ++ r'.trace⟩ := by
  induction ops generalizing s with
  | nil => simp [run]
  | cons first rest ih => simp [run, ih]

theorem run_preserves {c : Cursor σ α ε} {P : σ → Prop}
    (hcall : ∀ s op, P s → P (c.call s op).state) (ops : List Operation) {s : σ} (h : P s) :
    P (c.run s ops).state := by
  induction ops generalizing s with
  | nil => exact h
  | cons op rest ih => exact ih (hcall s op h)

end Cursor

end PullCursor
