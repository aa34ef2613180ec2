import PullCursor.Fault.Aggregate
import PullCursor.Text

/-! Faults and what they say: each has a message of its own, and a report goes on to those of its
causes. -/
namespace PullCursor

def occursIn (needle : List Char) : List Char → Bool
  | [] => needle.isEmpty
  | c :: rest => needle.isPrefixOf (c :: rest) || occursIn needle rest

/-- What is written for the messages to come: those not contained in the one directly before them,
which may itself have been left out. Each is written after the separator; once one is, that is the
colon. -/
def chainFrom (last separator : String) : List String → String
  | [] => ""
  | m :: rest =>
      if occursIn m.toList last.toList then chainFrom m separator rest
      else separator ++ m ++ chainFrom m ": " rest

def chainText (messages : List String) : String := chainFrom "" "" messages

inductive Fault where
  | element (index : Nat)
  | release
  | custom (message : String)
  | wrapped (message : String) (cause : Fault)
  | exhausted
  | failed (cause : Fault)
  | unconverted (cause : Fault)
  | aggregate (closing : String) (entries : List (Label × Fault))

namespace Fault

def injectedAt (index : Nat) : String := s!"injected failure at element {index}"

mutual

def message : Fault → String
  | .element i => injectedAt i
  | .release => "injected failure while closing"
  | .custom m => m
  | .wrapped m _ => m
  | .exhausted => "no more elements"
  | .failed _ => "iteration failed"
  | .unconverted _ => "error could not be translated"
  | .aggregate closing entries => Aggregate.text closing (explained entries)

def causeMessages : Fault → List String
  | .wrapped _ cause | .failed cause | .unconverted cause => cause.message :: cause.causeMessages
  | .aggregate _ [(_, only)] => only.message :: only.causeMessages
  | _ => []

def explained : List (Label × Fault) → List (Label × String)
  | [] => []
  | (label, f) :: rest => (label, chainText (f.message :: f.causeMessages)) :: explained rest

end

def chain (f : Fault) : List String := f.message :: f.causeMessages

def explanation (f : Fault) : String := chainText f.chain

def report (f : Fault) : String := "error: " ++ f.explanation

def ofAggregate (a : Aggregate Fault) : Fault := .aggregate a.closing a.entries

def cause? : Fault → Option Fault
  | .wrapped _ cause | .failed cause | .unconverted cause => some cause
  | .aggregate _ [(_, only)] => some only
  | _ => none

def shownLabel : Label → String
  | .nth n => Text.shownTagged "Nth" [toString n]
  | .indexed i => Text.shownTagged "Indexed" [toString i]

mutual

def shown : Fault → String
  | .element i => Text.shownTagged "Element" [toString i]
  | .release => "Close"
  | .custom m => Text.shownTagged "Custom" [Text.quote m]
  | .wrapped m cause => Text.shownTagged "Custom" [Text.quote m, cause.shown]
  | .exhausted => "Exhausted"
  | .failed cause => Text.shownTagged "Failed" [cause.shown]
  | .unconverted cause => Text.shownTagged "Untranslated" [cause.shown]
  | .aggregate closing entries =>
      Text.shownRecord "CloseErrors"
        [("closing", Text.quote closing), ("errors", Text.shownList (shownEntries entries))]

def shownEntries : List (Label × Fault) → List String
  | [] => []
  | (label, f) :: rest => Text.shownTagged "" [shownLabel label, f.shown] :: shownEntries rest

end

end Fault

def Aggregate.nest (a : Aggregate Fault) : Aggregate Fault :=
  Aggregate.fresh.push (Fault.ofAggregate a)

def Aggregate.message (a : Aggregate Fault) : String := (Fault.ofAggregate a).message

end PullCursor
