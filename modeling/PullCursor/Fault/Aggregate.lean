/-! The failures of one pass that closes several resources, in the order in which they were
recorded. Recording goes on after a failure; the end of the pass decides whether there were any. -/
namespace PullCursor

/-- The resource that a failure belongs to: its position among those being closed or, where the
caller gave none, the failure's own number among all of them, from one. -/
inductive Label where
  | nth (n : Nat)
  | indexed (i : Nat)
deriving DecidableEq

structure Aggregate (ε : Type) where
  closing : String
  entries : List (Label × ε)

namespace Aggregate

variable {ε : Type}

def empty (closing : String) : Aggregate ε := ⟨closing, []⟩

def fresh : Aggregate ε := .empty "resources"

def size (a : Aggregate ε) : Nat := a.entries.length

def isEmpty (a : Aggregate ε) : Bool := a.entries.isEmpty

def failures (a : Aggregate ε) : List ε := a.entries.map (·.2)

def push (a : Aggregate ε) (e : ε) : Aggregate ε :=
  { a with entries := a.entries ++ [(.nth (a.size + 1), e)] }

def pushAt (a : Aggregate ε) (i : Nat) (e : ε) : Aggregate ε :=
  { a with entries := a.entries ++ [(.indexed i, e)] }

def record (a : Aggregate ε) : Except ε Unit → Aggregate ε
  | .ok _ => a
  | .error e => a.push e

def pushAll (a : Aggregate ε) (es : List ε) : Aggregate ε := es.foldl push a

def first? (a : Aggregate ε) : Option ε := a.failures.head?

def result (a : Aggregate ε) : Except (Aggregate ε) Unit :=
  if a.isEmpty then .ok () else .error a

def cause? (a : Aggregate ε) : Option ε :=
  match a.entries with
  | [(_, e)] => some e
  | _ => none

/-- The failures on their way to another owner, those still to come. -/
structure Handover (ε : Type) where
  left : List (Label × ε)

namespace Handover

def next : Handover ε → Option ε × Handover ε
  | ⟨[]⟩ => (none, ⟨[]⟩)
  | ⟨(_, e) :: rest⟩ => (some e, ⟨rest⟩)

def bounds (h : Handover ε) : Nat × Option Nat := (h.left.length, some h.left.length)

def taken (h : Handover ε) : Nat → List (ε × Nat × Option Nat)
  | 0 => []
  | n + 1 =>
      match h.next with
      | (some e, rest) => (e, rest.bounds) :: rest.taken n
      | (none, _) => []

end Handover

def handover (a : Aggregate ε) : Handover ε := ⟨a.entries⟩

def drained (a : Aggregate ε) : List (ε × Nat × Option Nat) := a.handover.taken a.size

end Aggregate

def Label.text : Label → String
  | .nth n => s!"failure {n}"
  | .indexed i => s!"resource #{i}"

def Label.heading (label : Label) : String :=
  match label.text.toList with
  | [] => ""
  | c :: rest => String.ofList (c.toUpper :: rest)

/-- What an aggregate says, given what each failure says. One failure stands on the line itself,
with its label only if it has a position; several get a line each. -/
def Aggregate.text (closing : String) : List (Label × String) → String
  | [] => s!"Unable to close {closing}. (No errors given)"
  | [(.nth _, said)] => s!"Unable to close {closing}: {said}"
  | [(label, said)] => s!"Unable to close {closing}: {label.text}: {said}"
  | entries =>
      s!"Unable to close {closing}: {entries.length} failures"
        ++ String.join (entries.map fun e => s!"\n{e.1.heading}: {e.2}")

end PullCursor
