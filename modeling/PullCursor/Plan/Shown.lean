import PullCursor.Plan.Basic

/-! Diagnostic text of cursors at work: how they are put together and what they hold, but no
functions and no element kept ahead. -/
namespace PullCursor

open Text

def Lookahead.shown {κ α : Type} (inner : String) (s : Lookahead κ α) : String :=
  shownRecord "Lazy" [("compute", inner), ("state", quote s.stage.name)]

def Lookahead.shownIterator {κ α : Type} (iter : String) (s : Lookahead κ α) : String :=
  shownTagged "FromIter" [s.shown (shownRecord "Adapter" [("iter", iter)])]

def Leaf.Counter.shown (s : Leaf.Counter) : String :=
  shownRecord "Range" [("next", toString s.next.toInt),
    ("end", shownOption (s.stop.map fun n => toString n.toInt))]

def shownBool (b : Bool) : String := if b then "true" else "false"

def shownElements (xs : List Element) : String := shownList (xs.map Element.shown)

namespace Plan

def shown : (p : Plan) → p.State → String
  | .items _, s => Lookahead.shownIterator (shownTagged "IntoIter" [shownElements s.inner]) s
  | .counter _ _, s => Lookahead.shownIterator s.inner.shown s
  | .iterator _ _, s =>
      Lookahead.shownIterator (shownTagged "ScriptIter" [toString s.inner.length]) s
  | .single _, s =>
      shownTagged "Once" [Lookahead.shown
        (shownRecord "Single" [("value", shownOption (s.inner.map Element.shown))]) s]
  | .nothing, _ => "Empty"
  | .generator _ _ _, s => Lookahead.shown (shownPartly "FnCompute" []) s
  | .queue _, s =>
      Lookahead.shown (shownRecord "Queue" [("items", shownElements s.inner)]) s
  | .probe _ _, s =>
      shownPartly "Probe" [("remaining", shownElements s.inner.items),
        ("closed", shownBool s.stage.isClosed)]
  | .manual id _ _, _ => shownTagged "Raw" [id]
  | .filter _ p, s =>
      shownTagged "Filter" [Lookahead.shown
        (shownRecord "Filtering" [("inner", p.shown s.inner.1)]) s]
  | .map _ p, s => shownPartly "Map" [("inner", p.shown s.1)]
  | .reword _ p, s => shownPartly "MapErr" [("inner", p.shown s.1)]
  | .convert _ p, s => shownPartly "TranslateErr" [("inner", p.shown s.1)]
  | .distinct p, s =>
      shownTagged "Unique" [Lookahead.shown
        (shownRecord "Deduplicating" [("inner", p.shown s.inner.1),
          ("seen", shownSet (s.inner.2.toList.map Element.shown))]) s]
  | .peekable p, s => shownTagged "Peekable" [p.shown s.inner]
  | .limit _ p, s =>
      shownRecord "Limit" [("inner", p.shown s.1), ("remaining", toString s.2)]
  | .boxed _, _ => "Boxed"
  | .concat _ _ children _, s =>
      shownPartly "Concat"
        [("current", shownOption (s.inner.current.map fun c => (children c.1).shown c.2)),
          ("position", toString s.inner.position)]

end Plan

namespace Tree

def shown (t : Tree) : String := t.1.shown t.2

/-- What can be seen below a lookahead that is no more than one. -/
def shownInner : Tree → Option String
  | ⟨.peekable p, s⟩ => some (p.shown (Lookahead.inner s))
  | _ => none

end Tree

end PullCursor
