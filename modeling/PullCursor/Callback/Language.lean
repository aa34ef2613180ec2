import PullCursor.Callback
import PullCursor.Element.Order

/-! A small language for the functions that a session supplies: predicates and functions on
elements, functions on faults, and partial conversions of faults. Those that count know the number
of the present call, from one. -/
namespace PullCursor

inductive Predicate where
  | always
  | never
  | even
  | lessThan (v : Element)
  | equals (v : Element)
  | not (p : Predicate)
  /-- Each `n`-th call; there is no zeroth. -/
  | every (n : Nat)
  | panicOn (v : Element) (message : String)

namespace Predicate

def answer (call : Nat) (x : Element) : Predicate → Except String Bool
  | always => .ok true
  | never => .ok false
  | even =>
      match x with
      | .int n => .ok (n.toInt % 2 == 0)
      | _ => .ok false
  | lessThan v => .ok (Element.order x v).isLT
  | equals v => .ok (x = v)
  | not p => (p.answer call x).map (!·)
  | every n =>
      if n = 0 then .error "attempt to calculate the remainder with a divisor of zero"
      else .ok (call % n == 0)
  | panicOn v m => if x = v then .error m else .ok true

def callback (id : Option String) (p : Predicate) : Callback Element Bool where
  id := id
  answer earlier x := p.answer (earlier.count + 1) x

end Predicate

inductive Transform where
  | same
  | const (v : Element)
  | wrap
  | text
  /-- Integers only, modulo two to the power of 64. -/
  | add (n : Int64)
  | mul (n : Int64)
  | size
  | append (s : String)
  | number
  | panicOn (v : Element) (message : String)

namespace Transform

def answer (call : Nat) (x : Element) : Transform → Except String Element
  | same => .ok x
  | const v => .ok v
  | wrap => .ok (.list [x])
  | text => .ok (.text x.toText)
  | add n =>
      match x with
      | .int m => .ok (.int (m + n))
      | _ => .ok x
  | mul n =>
      match x with
      | .int m => .ok (.int (m * n))
      | _ => .ok x
  | size => .ok (.int (Int64.ofNat x.size))
  | append s => .ok (.text (x.toText ++ s))
  | number => .ok (.list [.int (Int64.ofNat call), x])
  | panicOn v m => if x = v then .error m else .ok x

def callback (id : Option String) (f : Transform) : Callback Element Element where
  id := id
  answer earlier x := f.answer (earlier.count + 1) x

end Transform

inductive Rewording where
  | same
  | replace (message : String)
  | wrap (message : String)
  | number
  | panic (message : String)

namespace Rewording

def answer (call : Nat) (e : Fault) : Rewording → Except String Fault
  | same => .ok e
  | replace m => .ok (.custom m)
  | wrap m => .ok (.wrapped m e)
  | number => .ok (.wrapped s!"#{call}" e)
  | panic m => .error m

def callback (id : Option String) (f : Rewording) : Callback Fault Fault where
  id := id
  answer earlier e := f.answer (earlier.count + 1) e

end Rewording

inductive FaultKind where
  | element
  | release
  | custom
  | next
  | aggregate
  | unconverted
deriving DecidableEq

def Fault.kind : Fault → FaultKind
  | .element _ => .element
  | .release => .release
  | .custom _ | .wrapped _ _ => .custom
  | .exhausted | .failed _ => .next
  | .aggregate _ _ => .aggregate
  | .unconverted _ => .unconverted

inductive Scope where
  | all
  | none
  | kind (k : FaultKind)
  | elementAt (index : Nat)

def Scope.covers (e : Fault) : Scope → Bool
  | all => true
  | none => false
  | kind k => e.kind = k
  | elementAt i =>
      match e with
      | .element j => i = j
      | _ => false

/-- Faults in scope are converted; the others are reworded and handed back. Each of the two
functions counts its own calls. -/
structure Conversion where
  scope : Scope
  inScope : Rewording
  outOfScope : Rewording

namespace Conversion

def answer (t : Conversion) (earlier : History Fault) (e : Fault) :
    Except String (Except Fault Fault) :=
  let covered := t.scope.covers e
  let call := earlier.args.countP (fun e => t.scope.covers e == covered) + 1
  if covered then (t.inScope.answer call e).map .ok else (t.outOfScope.answer call e).map .error

def callback (id : Option String) (t : Conversion) : Callback Fault (Except Fault Fault) where
  id := id
  answer := t.answer

end Conversion

end PullCursor
