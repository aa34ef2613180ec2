import PullCursor.Callback
import PullCursor.Combinator.Budget
import PullCursor.Combinator.Mapping
import PullCursor.Combinator.Selection
import PullCursor.Combinator.Series
import PullCursor.Element.Order
import PullCursor.Leaf.Items
import PullCursor.Leaf.Probe
import PullCursor.Leaf.Script

/-! A plan says how a cursor is put together. It never changes while the cursor works: what changes
is the state, whose type is read off the plan, and so are the operations on it. -/
namespace PullCursor

inductive Plan where
  | items (xs : List Element)
  | counter (next : Int64) (stop : Option Int64)
  | iterator (id : Option String) (acts : Script)
  | single (x : Element)
  | nothing
  | generator (id : String) (acts : Script) (release : Option Act)
  | queue (xs : List Element)
  | probe (orders : Leaf.ProbeOrders) (xs : List Element)
  | manual (id : String) (scripts : Leaf.Manual) (ownPull : Bool)
  | filter (test : Callback Element Bool) (below : Plan)
  | map (f : Callback Element Element) (below : Plan)
  | reword (f : Callback Fault Fault) (below : Plan)
  | convert (f : Callback Fault (Except Fault Fault)) (below : Plan)
  | distinct (below : Plan)
  | peekable (below : Plan)
  | limit (n : Nat) (below : Plan)
  | boxed (below : Plan)
  /-- Child after child. The supply gives `gaps i` answers without a child before child `i`. -/
  | concat (id : Option String) (n : Nat) (children : Fin n → Plan) (gaps : Fin n → Nat)

namespace Plan

def chain (a b : Plan) : Plan :=
  .concat none 2 (fun i => if i.val = 0 then a else b) fun _ => 0

def concatOf (id : Option String) (supply : List (Option Plan)) : Plan :=
  let parts := (split 0 supply).toArray
  .concat id parts.size (fun i => parts[i].1) fun i => parts[i].2
where
  split (gaps : Nat) : List (Option Plan) → List (Plan × Nat)
    | [] => []
    | none :: rest => split (gaps + 1) rest
    | some p :: rest => (p, gaps) :: split 0 rest

def State : Plan → Type
  | .items _ => Lookahead (List Element) Element
  | .counter _ _ => Lookahead Leaf.Counter Element
  | .iterator _ _ => Lookahead Script Element
  | .single _ => Lookahead (Option Element) Element
  | .nothing => Unit
  | .generator _ _ _ => Lookahead Script Element
  | .queue _ => Lookahead (List Element) Element
  | .probe _ _ => Lookahead (Leaf.Probe Element) Element
  | .manual _ _ _ => Leaf.Manual
  | .filter _ p => Lookahead (p.State × History Element) Element
  | .map _ p => p.State × History Element
  | .reword _ p => p.State × History Fault
  | .convert _ p => p.State × History Fault
  | .distinct p => Lookahead (p.State × Element.SortedSet) Element
  | .peekable p => Lookahead p.State Element
  | .limit _ p => p.State × Nat
  | .boxed p => p.State
  | .concat _ _ children _ => Lookahead (Series (Σ i, (children i).State)) Element

def start : (p : Plan) → p.State
  | .items xs => .start xs
  | .counter next stop => .start ⟨next, stop⟩
  | .iterator _ acts => .start acts
  | .single x => .start (some x)
  | .nothing => ()
  | .generator _ acts _ => .start acts
  | .queue xs => .start xs
  | .probe _ xs => .start ⟨xs, 0⟩
  | .manual _ scripts _ => scripts
  | .filter _ p => .start (p.start, .empty)
  | .map _ p => (p.start, .empty)
  | .reword _ p => (p.start, .empty)
  | .convert _ p => (p.start, .empty)
  | .distinct p => .start (p.start, ∅)
  | .peekable p => .start p.start
  | .limit n p => (p.start, n)
  | .boxed p => p.start
  | .concat _ n children gaps =>
      .start (.start ((List.finRange n).flatMap fun i =>
        List.replicate (gaps i) none ++ [some ⟨i, (children i).start⟩]))

/-- What can be seen of the `n`-th request to the supply of children. -/
def watch (id : Option String) (n : Nat) : List Event := id.toList.map (.taken · n)

def cursor : (p : Plan) → FiniteCursor p.State Element Fault
  | .items _ => .lookahead Leaf.items
  | .counter _ _ => .lookahead Leaf.counter
  | .iterator id _ => .lookahead (Leaf.iterator (id.toList.map .polled))
  | .single _ => .lookahead Leaf.single
  | .nothing => Leaf.nothing
  | .generator id _ release => .lookahead (Leaf.generator id release)
  | .queue _ => .lookahead Leaf.items
  | .probe orders _ => Leaf.probe orders
  | .manual id _ ownPull => Leaf.manual id ownPull
  | .filter test p => .lookahead (Filter.finite p.cursor.toFiniteSource .tested test)
  | .map f p => Map.finite p.cursor .applied f
  | .reword f p => p.cursor.answering (Reword.answer .reworded f)
  | .convert f p => p.cursor.answering (Convert.answer .reworded f .unconverted)
  | .distinct p => .lookahead (Distinct.finite p.cursor.toFiniteSource)
  | .peekable p => .lookahead p.cursor.toFiniteSource
  | .limit _ p => Budget.finite p.cursor
  | .boxed p => p.cursor
  | .concat id _ children _ =>
      .lookahead (Series.finite (FiniteCursor.family fun i => (children i).cursor).toFiniteSource
        (watch id))

end Plan

abbrev Tree : Type := Σ p : Plan, p.State

namespace Tree

def ofPlan (p : Plan) : Tree := ⟨p, p.start⟩

def cursor : FiniteCursor Tree Element Fault := .family Plan.cursor

def source : EndingSource Tree Element Fault := cursor.toEndingSource

end Tree

end PullCursor
