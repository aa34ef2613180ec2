import PullCursor.Plan.Shown
import PullCursor.Session.Step
import PullCursor.Sink.Basic
import PullCursor.Sink.Feed

/-! Sessions: cursors in numbered slots, and steps on them. A panic ends one step and not the
session; the next step finds the state that the panic left behind. -/
namespace PullCursor

inductive Slot where
  | empty
  | cursor (t : Tree)
  | feed (f : Feed Tree)

structure Session where
  slots : List Slot
  tallies : List Tally

namespace Session

def ofPlans (plans : List Plan) : Session where
  slots := plans.map fun p => .cursor (.ofPlan p)
  tallies := List.replicate (plans.foldr (fun p n => p.probes + n) 0) .zero

structure Change where
  answer : Answer
  slot : Slot
  trace : List Event

def answerOf {α : Type} (deliver : α → Answer) : Outcome Fault α → Answer
  | .ok a => deliver a
  | .error e => .fault e
  | .panic m => .panicked m

def answerOfNext : Outcome (Stop Fault) Element → Answer
  | .ok x => .ok (.element x)
  | .error why => .stopped why
  | .panic m => .panicked m

def answerOfPass : Except (Aggregate Fault) Unit → Answer
  | .ok () => .ok .done
  | .error a => .gathered a

def Change.ofReply {ε α : Type} (answer : Outcome ε α → Answer) (r : Reply Tree ε α) : Change :=
  ⟨answer r.outcome, .cursor r.state, r.trace⟩

def Change.ofFeed {ε α : Type} (answer : Outcome ε α → Answer) (r : Reply (Feed Tree) ε α) :
    Change :=
  ⟨answer r.outcome, .feed r.state, r.trace⟩

def Drain.run : Drain → Action Tree Fault Delivery
  | .collect .sequence => .elements <$> Sink.toList Tree.source
  | .collect .set =>
      (fun xs => .elements xs.toList) <$>
        Sink.fold Tree.source (fun (xs : Element.SortedSet) x => xs.insert x) ∅
  | .collect .text =>
      (fun xs => .text (String.join (xs.map Element.toText))) <$> Sink.toList Tree.source
  | .count => .number <$> Sink.count Tree.source
  | .visitEach f id =>
      (fun _ => .done) <$>
        Sink.visitEach Tree.source .applied (f.callback id) .visited
  | .first => .optional <$> Sink.first Tree.cursor.toSource
  | .limited n =>
      (fun r => .elements r.1) <$>
        (Sink.toList (Budget.source Tree.cursor.toCursor)).withLocal n
  | .closeOnly => (fun _ => .done) <$> Sink.closeLogged Tree.cursor.toSource Fault.report

def onCursor (t : Tree) : Command → Option Change
  | .hasNext => some (.ofReply (answerOf (.ok ∘ .flag)) (Tree.cursor.hasNext t))
  | .next => some (.ofReply answerOfNext (Tree.cursor.next t))
  | .pull => some (.ofReply (answerOf (.ok ∘ .optional)) (Tree.cursor.pull t))
  | .close => some (.ofReply (answerOf fun _ => .ok .done) (Tree.cursor.close t))
  | .peek => t.peek?.map (.ofReply (answerOf (.ok ∘ .optional)))
  | .modifyHead f => (t.modifyHead? (f.answer 1)).map (.ofReply (answerOf (.ok ∘ .optional)))
  | .takeIf p => (t.takeIf? (p.answer 1)).map (.ofReply (answerOf (.ok ∘ .optional)))
  | .shown => some ⟨.text t.shown, .cursor t, []⟩
  | .shownInner => t.shownInner.map fun s => ⟨.text s, .cursor t, []⟩
  | .flags => t.flags?.map fun f => ⟨.flags f.1 f.2, .cursor t, []⟩
  | .seenCount => t.seenCount?.map fun n => ⟨.number n, .cursor t, []⟩
  | .remaining => t.remaining?.map fun n => ⟨.text (toString n), .cursor t, []⟩
  | .push x => (t.push? x).map (.ofReply (answerOf .number))
  | .closeBy panic =>
      (t.closeBy? fun n => do
        Action.emit [.closedWith n]
        match panic with
        | some m => Action.panic m
        | none => return n).map (.ofReply (answerOf (.ok ∘ .optionalNumber)))
  | .closeGathering => t.closeGathering?.map (.ofReply (answerOf answerOfPass))
  | .wrap layer => some ⟨.silent, .cursor (layer.around t), []⟩
  | .drain how byValue =>
      let change := Change.ofReply (answerOf .ok) (how.run t)
      some (if byValue then { change with slot := .empty } else change)
  | .feed => some ⟨.silent, .feed (.start t), []⟩
  | _ => none

def onFeed (f : Feed Tree) : Command → Option Change
  | .feedNext => some (.ofFeed (answerOf .fed) (Feed.next Tree.cursor.toSource f))
  | .feedRest => some (.ofFeed (answerOf .fedRest) (Feed.rest Tree.source f))
  | .feedCollect =>
      some (.ofFeed (answerOf (.ok ∘ .elements)) (Feed.collect Tree.source f))
  | .feedClose => some (.ofFeed (answerOf fun _ => .ok .done) (Feed.close Tree.cursor.toSource f))
  | .feedShownInner => some ⟨.text f.inner.shown, .feed f, []⟩
  | .feedBack => some ⟨.silent, .cursor f.inner, []⟩
  | .shown =>
      some ⟨.text (Text.shownRecord "StdIter"
        [("inner", f.inner.shown), ("finished", shownBool f.finished)]), .feed f, []⟩
  | _ => none

def cursorsAt (slots : List Slot) (places : List Nat) : List (Nat × Tree) :=
  places.filterMap fun i =>
    match slots[i]? with
    | some (Slot.cursor t) => some (i, t)
    | _ => none

/-- Closes the cursors in several slots, from the lowest slot on. Given away by value, they are
closed in the order named, and their slots are empty afterwards. -/
def closeAll (slots : List Slot) (places : List Nat) (byValue : Bool) :
    Answer × List Slot × List Event :=
  let chosen := if byValue then places.eraseDups else (List.range slots.length).filter (· ∈ places)
  let cursors := cursorsAt slots chosen
  let r := (Sink.closeAll Tree.cursor.toSource : Action (List Tree) Fault _) (cursors.map (·.2))
  let put := (cursors.map (·.1)).zip
    (if byValue then r.state.map fun _ => .empty else r.state.map .cursor)
  (answerOf (answerOfPass ·.result) r.outcome, put.foldl (fun slots p => slots.set p.1 p.2) slots,
    r.trace)

def stepSlots (slots : List Slot) (step : Step) : Answer × List Slot × List Event :=
  let refusal := (.refused, slots, [])
  let i := step.slot
  match step.command with
  | .drop => (.silent, slots.set i .empty, [])
  | .closeAll places byValue => closeAll slots places byValue
  | .chain j =>
      match slots[i]?, slots[j]? with
      | some (.cursor a), some (.cursor b) =>
          if i = j then refusal
          else (.silent, (slots.set j .empty).set i (.cursor (a.chain b)), [])
      | _, _ => refusal
  | .agree j =>
      match slots[i]?, slots[j]? with
      | some (.cursor a), some (.cursor b) =>
          if i = j then refusal else
          let r := Sink.agree Tree.source Tree.cursor.toCursor
            (fun x y : Element => x = y) (a, b)
          (answerOf (.ok ∘ .flag) r.outcome,
            (slots.set i (.cursor r.state.1)).set j (.cursor r.state.2), r.trace)
      | _, _ => refusal
  | command =>
      let change := match slots[i]? with
        | some (.cursor t) => onCursor t command
        | some (.feed f) => onFeed f command
        | _ => none
      match change with
      | some c => (c.answer, slots.set i c.slot, c.trace)
      | none => refusal

structure Record where
  answer : Answer
  trace : List Event
  tallies : List Tally

def step (s : Session) (step : Step) : Record × Session :=
  let (answer, slots, trace) := stepSlots s.slots step
  let tallies := Tally.count s.tallies trace
  (⟨answer, trace, tallies⟩, ⟨slots, tallies⟩)

def run (s : Session) : List Step → List Record
  | [] => []
  | first :: rest =>
      let (record, s) := s.step first
      record :: s.run rest

end Session

end PullCursor
