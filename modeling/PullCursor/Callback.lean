import PullCursor.Action

/-! Functions that somebody else supplies. They may remember how they were called before and may
panic, so each is a function of its earlier arguments and the present one. -/
namespace PullCursor

structure History (α : Type) where
  /-- Latest first. -/
  args : List α
  count : Nat
  count_eq : count = args.length

namespace History

variable {α : Type}

def empty : History α := ⟨[], 0, rfl⟩

def add (h : History α) (x : α) : History α := ⟨x :: h.args, h.count + 1, by simp [h.count_eq]⟩

@[simp] theorem args_empty : (empty : History α).args = [] := rfl

@[simp] theorem args_add (h : History α) (x : α) : (h.add x).args = x :: h.args := rfl

@[simp] theorem count_empty : (empty : History α).count = 0 := rfl

@[simp] theorem count_add (h : History α) (x : α) : (h.add x).count = h.count + 1 := rfl

end History

structure Callback (α β : Type) where
  id : Option String
  /-- The answer after earlier calls; an error is the message of a panic. -/
  answer : History α → α → Except String β

namespace Callback

variable {α β ε : Type}

/-- One call. It is seen before the function runs, and the argument is remembered even if the
function panics. -/
def call (f : Callback α β) (mark : String → α → Event) (x : α) : Action (History α) ε β :=
  fun earlier =>
    let seen := f.id.toList.map (mark · x)
    match f.answer earlier x with
    | .ok y => ⟨.ok y, earlier.add x, seen⟩
    | .error m => ⟨.panic m, earlier.add x, seen⟩

def Returns (f : Callback α β) : Prop := ∀ earlier x, ∃ y, f.answer earlier x = .ok y

variable {f : Callback α β} {mark : String → α → Event} {earlier : History α} {x : α}

theorem call_ok {y : β} (h : f.answer earlier x = .ok y) :
    (f.call mark x earlier : Reply _ ε β) =
      ⟨.ok y, earlier.add x, f.id.toList.map (mark · x)⟩ := by
  unfold call
  rw [h]

theorem call_panic {m : String} (h : f.answer earlier x = .error m) :
    (f.call mark x earlier : Reply _ ε β) =
      ⟨.panic m, earlier.add x, f.id.toList.map (mark · x)⟩ := by
  unfold call
  rw [h]

theorem call_seen (f : Callback α β) (mark : String → α → Event) (earlier : History α) (x : α) :
    (f.call mark x earlier : Reply _ ε β).state = earlier.add x ∧
      (f.call mark x earlier : Reply _ ε β).trace = f.id.toList.map (mark · x) := by
  cases h : f.answer earlier x with
  | ok y => rw [call_ok h]; exact ⟨rfl, rfl⟩
  | error m => rw [call_panic h]; exact ⟨rfl, rfl⟩

end Callback

end PullCursor
