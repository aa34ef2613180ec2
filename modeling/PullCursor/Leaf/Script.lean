import PullCursor.Lookahead

/-! Scripts: what a leaf written by somebody else answers, call by call. A script may go on after
its end or a failure; nothing makes it keep the rules that other leaves keep. In a manual leaf every
operation follows a script of its own, so it may even answer yes and then have no element. -/
namespace PullCursor

inductive Act where
  | value (x : Element)
  | finish
  | fail (e : Fault)
  | panic (message : String)

namespace Act

variable {σ : Type}

def element? : Act → Outcome Fault (Option Element)
  | .value x => .ok (some x)
  | .finish => .ok none
  | .fail e => .error e
  | .panic m => .panic m

def element : Act → Outcome (Stop Fault) Element
  | .value x => .ok x
  | .finish => .error .exhausted
  | .fail e => .error (.failed e)
  | .panic m => .panic m

def yes : Act → Outcome Fault Bool
  | .value x => .ok (x = .bool true)
  | .finish => .ok false
  | .fail e => .error e
  | .panic m => .panic m

def done : Act → Outcome Fault Unit
  | .value _ | .finish => .ok ()
  | .fail e => .error e
  | .panic m => .panic m

def item? {ε : Type} : Act → Outcome ε (Option Element)
  | .value x => .ok (some x)
  | .finish | .fail _ => .ok none
  | .panic m => .panic m

end Act

/-- The acts to come. A script that is used up goes on with ends. -/
abbrev Script := List Act

namespace Script

variable {ε α : Type}

def step (seen : List Event) (read : Act → Outcome ε α) : Action Script ε α
  | [] => ⟨read .finish, [], seen⟩
  | act :: rest => ⟨read act, rest, seen⟩

theorem step_spends {seen : List Event} {read : Act → Outcome ε α} {w : α → Nat}
    (h : ∀ a, (read a).weigh w ≤ 1) (h₀ : (read .finish).weigh w = 0) :
    (step seen read).Spends List.length w := by
  intro s
  cases s with
  | nil => simp [step, h₀]
  | cons a rest => simpa [step] using h a

end Script

namespace Leaf

def iterator {ε : Type} (seen : List Event) : FiniteSource Script Element ε where
  pull := Script.step seen Act.item?
  close := pure ()
  size := List.length
  pull_spends := Script.step_spends
    (by rintro (_ | _ | _ | _) <;> simp [Act.item?, Outcome.weigh, arrived])
    (by simp [Act.item?, Outcome.weigh, arrived])
  close_spends := .pure rfl

/-- Elements from a function that follows a script. A release that does something can be seen. -/
def generator (id : String) (release : Option Act) : FiniteSource Script Element Fault where
  pull := Script.step [.computed id] Act.element?
  close := match release with
    | none => pure ()
    | some act => fun s => ⟨act.done, s, [.released id]⟩
  size := List.length
  pull_spends := Script.step_spends
    (by rintro (_ | _ | _ | _) <;> simp [Act.element?, Outcome.weigh, arrived])
    (by simp [Act.element?, Outcome.weigh, arrived])
  close_spends := by
    cases release
    · exact .pure rfl
    · intro s; simp

structure Manual where
  hasNext : Script
  next : Script
  close : Script
  pull : Script

namespace Manual

def askNext (id : String) : Action Manual Fault Bool :=
  (Script.step [.called id .hasNext] Act.yes).within (·.hasNext) fun t s => { s with hasNext := t }

def takeNext (id : String) : Action Manual (Stop Fault) Element :=
  (Script.step [.called id .next] Act.element).within (·.next) fun t s => { s with next := t }

def askClose (id : String) : Action Manual Fault Unit :=
  (Script.step [.called id .close] Act.done).within (·.close) fun t s => { s with close := t }

def askPull (id : String) : Action Manual Fault (Option Element) :=
  (Script.step [.called id .pull] Act.element?).within (·.pull) fun t s => { s with pull := t }

def size (s : Manual) : Nat := s.next.length + s.pull.length

theorem askNext_spends (id : String) : (askNext id).Spends size fun _ => 0 := fun s => by
  simp [askNext, Action.within, Action.on, size]

theorem askClose_spends (id : String) : (askClose id).Spends size fun _ => 0 := fun s => by
  simp [askClose, Action.within, Action.on, size]

theorem takeNext_spends (id : String) : (takeNext id).Spends size fun _ => 1 := fun s => by
  have h := @Script.step_spends _ _ [.called id .next] Act.element (fun _ => 1)
    (by rintro (_ | _ | _ | _) <;> simp [Act.element, Outcome.weigh]) rfl s.next
  simp only [takeNext, Action.within, Action.on, size] at h ⊢
  omega

theorem askPull_spends (id : String) : (askPull id).Spends size arrived := fun s => by
  have h := @Script.step_spends _ _ [.called id .pull] Act.element? arrived
    (by rintro (_ | _ | _ | _) <;> simp [Act.element?, Outcome.weigh, arrived]) rfl s.pull
  simp only [askPull, Action.within, Action.on, size] at h ⊢
  omega

end Manual

/-- A leaf whose pull is made of its other steps, unless it follows a script of its own. -/
def manual (id : String) (ownPull : Bool) : FiniteCursor Manual Element Fault where
  pull := if ownPull then Manual.askPull id else pullByNext (Manual.askNext id) (Manual.takeNext id)
  close := Manual.askClose id
  hasNext := Manual.askNext id
  next := Manual.takeNext id
  size := Manual.size
  pull_spends := by
    split
    · exact Manual.askPull_spends id
    · exact pullByNext_spends (Manual.askNext_spends id) (Manual.takeNext_spends id)
  close_spends := Manual.askClose_spends id
  hasNext_spends := Manual.askNext_spends id
  next_spends := Manual.takeNext_spends id

end Leaf

end PullCursor
