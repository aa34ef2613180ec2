import PullCursor.Plan.Basic

/-! Operations that only some cursors have, found by the plan's root. Each is the operation, or
nothing where the root has no such operation. -/
namespace PullCursor

inductive Layer where
  | filter (test : Callback Element Bool)
  | map (f : Callback Element Element)
  | reword (f : Callback Fault Fault)
  | convert (f : Callback Fault (Except Fault Fault))
  | distinct
  | peekable
  | limit (n : Nat)
  | boxed

namespace Layer

def onto (p : Plan) : Layer → Plan
  | filter test => .filter test p
  | map f => .map f p
  | reword f => .reword f p
  | convert f => .convert f p
  | distinct => .distinct p
  | peekable => .peekable p
  | limit n => .limit n p
  | boxed => .boxed p

def around (t : Tree) : Layer → Tree
  | filter test => ⟨.filter test t.1, .start (t.2, .empty)⟩
  | map f => ⟨.map f t.1, (t.2, .empty)⟩
  | reword f => ⟨.reword f t.1, (t.2, .empty)⟩
  | convert f => ⟨.convert f t.1, (t.2, .empty)⟩
  | distinct => ⟨.distinct t.1, .start (t.2, ∅)⟩
  | peekable => ⟨.peekable t.1, .start t.2⟩
  | limit n => ⟨.limit n t.1, (t.2, n)⟩
  | boxed => ⟨.boxed t.1, t.2⟩

end Layer

namespace Tree

variable {β : Type}

def chain (a b : Tree) : Tree :=
  ⟨.chain a.1 b.1, .start (.start [some ⟨⟨0, by decide⟩, a.2⟩, some ⟨⟨1, by decide⟩, b.2⟩])⟩

def ofReply {ε : Type} (p : Plan) (r : Reply p.State ε β) : Reply Tree ε β :=
  ⟨r.outcome, ⟨p, r.state⟩, r.trace⟩

/-- A call on a lookahead that callers may look into: a generator, a queue or a peekable layer. -/
def atLookahead?
    (m : {κ : Type} → Source κ Element Fault → Action (Lookahead κ Element) Fault β) :
    Tree → Option (Reply Tree Fault β)
  | ⟨.peekable p, s⟩ => some (ofReply (.peekable p) (m p.cursor.toSource s))
  | ⟨.generator id acts release, s⟩ =>
      some (ofReply (.generator id acts release) (m (Leaf.generator id release).toSource s))
  | ⟨.queue xs, s⟩ => some (ofReply (.queue xs) (m Leaf.items.toSource s))
  | _ => none

def peek? : Tree → Option (Reply Tree Fault (Option Element)) := atLookahead? Lookahead.peek

def modifyHead? (f : Element → Except String Element) :
    Tree → Option (Reply Tree Fault (Option Element)) :=
  atLookahead? fun c => Lookahead.modifyHead c f

def takeIf? (accept : Element → Except String Bool) :
    Tree → Option (Reply Tree Fault (Option Element))
  | ⟨.peekable p, s⟩ =>
      some (ofReply (.peekable p) (Lookahead.takeIf p.cursor.toSource accept s))
  | _ => none

def flags? : Tree → Option (Bool × Bool)
  | ⟨.generator _ _ _, s⟩ => some ((Lookahead.stage s).isClosed, (Lookahead.stage s).isFailed)
  | ⟨.queue _, s⟩ => some ((Lookahead.stage s).isClosed, (Lookahead.stage s).isFailed)
  | _ => none

def seenCount? : Tree → Option Nat
  | ⟨.distinct p, s⟩ => some (Lookahead.inner (κ := p.State × Element.SortedSet) s).2.size
  | _ => none

def remaining? : Tree → Option Nat
  | ⟨.limit _ _, s⟩ => some (Prod.snd s)
  | _ => none

def push? (x : Element) : Tree → Option (Reply Tree Fault Nat)
  | ⟨.queue xs, s⟩ =>
      some (ofReply (.queue xs) (ε := Fault) ((do
        Lookahead.modifyInner (· ++ [x])
        return (← Action.get).inner.length : Action (Lookahead (List Element) Element) _ _) s))
  | _ => none

/-- A queue closed with the caller's own release action, which learns how many items are left. -/
def closeBy? (release : Nat → Action (List Element) Fault β) :
    Tree → Option (Reply Tree Fault (Option β))
  | ⟨.queue xs, s⟩ =>
      some (ofReply (.queue xs)
        (Lookahead.closeBy (fun items => release items.length items) s))
  | _ => none

def closeGathering? : Tree → Option (Reply Tree Fault (Except (Aggregate Fault) Unit))
  | ⟨.concat id n children gaps, s⟩ =>
      some (ofReply (.concat id n children gaps) ((Series.gatheringResult <$> Lookahead.closeBy
        (Series.closeAll (FiniteCursor.family fun i => (children i).cursor).toSource
          (Plan.watch id))) s))
  | _ => none

end Tree

end PullCursor
