import PullCursor.Callback.Language
import PullCursor.Plan.Tree

/-! What can be done in a session, what can be answered, and what is counted meanwhile. -/
namespace PullCursor

structure Tally where
  computed : Nat
  released : Nat
  closeCalls : Nat

namespace Tally

def zero : Tally := ⟨0, 0, 0⟩

def add (t : Tally) : ProbeUse → Tally
  | .compute => { t with computed := t.computed + 1 }
  | .release => { t with released := t.released + 1 }
  | .closeCall => { t with closeCalls := t.closeCalls + 1 }

/-- The uses seen in a trace, added to those of each probe; a probe's label is its place. -/
def count (tallies : List Tally) (trace : List Event) : List Tally :=
  trace.foldl step tallies
where
  step (tallies : List Tally) : Event → List Tally
    | .probed label use => tallies.modify label (add · use)
    | _ => tallies

theorem count_append (tallies : List Tally) (t u : List Event) :
    count tallies (t ++ u) = count (count tallies t) u := List.foldl_append

end Tally

def Plan.probes : Plan → Nat
  | .probe _ _ => 1
  | .filter _ p | .map _ p | .reword _ p | .convert _ p | .distinct p | .peekable p
  | .limit _ p | .boxed p => p.probes
  | .concat _ n children _ => (List.finRange n).foldr (fun i m => (children i).probes + m) 0
  | _ => 0

namespace Session

inductive Container where
  | sequence
  | set
  | text

inductive Drain where
  | collect (into : Container)
  | count
  | visitEach (f : Transform) (id : Option String)
  | first
  | limited (n : Nat)
  | closeOnly

inductive Command where
  | hasNext
  | next
  | pull
  | close
  | peek
  | modifyHead (f : Transform)
  | takeIf (p : Predicate)
  | shown
  | shownInner
  | flags
  | seenCount
  | remaining
  | push (x : Element)
  /-- Closes with a release action that shows the number of items left, and panics if told to. -/
  | closeBy (panic : Option String)
  | closeGathering
  | closeAll (slots : List Nat) (byValue : Bool)
  | wrap (layer : Layer)
  | chain (other : Nat)
  | drop
  | agree (other : Nat)
  | drain (how : Drain) (byValue : Bool)
  | feed
  | feedNext
  | feedRest
  | feedCollect
  | feedClose
  | feedShownInner
  | feedBack

structure Step where
  slot : Nat
  command : Command

inductive Delivery where
  | done
  | flag (b : Bool)
  | element (x : Element)
  | optional (x : Option Element)
  | elements (xs : List Element)
  | number (n : Nat)
  | optionalNumber (n : Option Nat)
  | text (s : String)

inductive Answer where
  | silent
  | ok (d : Delivery)
  | fault (e : Fault)
  | panicked (message : String)
  | stopped (why : Stop Fault)
  | gathered (a : Aggregate Fault)
  | flags (closed failed : Bool)
  | number (n : Nat)
  | text (s : String)
  | fed (r : Option (Except Fault Element))
  | fedRest (rs : List (Except Fault Element))
  | refused

end Session

end PullCursor
