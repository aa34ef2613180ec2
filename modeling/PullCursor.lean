import PullCursor.Plan.Shown
import PullCursor.Plan.Tree
import PullCursor.Proofs.Custody.Series
import PullCursor.Proofs.Schedule
import PullCursor.Seed.Generator
import PullCursor.Session.Run
import PullCursor.Proofs.Custody.Tree
import PullCursor.Proofs.Combinator.Steps
import PullCursor.Proofs.Contract.Basic
import PullCursor.Proofs.Contract.Run
import PullCursor.Proofs.Contract.Tree
import PullCursor.Proofs.Lookahead.Requests
import PullCursor.Proofs.Lookahead.Once
import PullCursor.Proofs.Lookahead.Queue
import PullCursor.Proofs.Course.Basic
import PullCursor.Proofs.Course.Run
import PullCursor.Proofs.Course.Combinator
import PullCursor.Proofs.Course.Series
import PullCursor.Proofs.Course.Tree
import PullCursor.Proofs.Fault.Chain
import PullCursor.Proofs.Fault.Repetition
import PullCursor.Proofs.Loop
import PullCursor.Proofs.Sink.Once
import PullCursor.Proofs.Mirrors
import PullCursor.Proofs.Series.Requests
import PullCursor.Proofs.Series.Ledger
import PullCursor.Proofs.Series.Accounts
import PullCursor.Proofs.Combinator.Pull
import PullCursor.Proofs.Ahead.Basic
import PullCursor.Proofs.Ahead.Tree
import PullCursor.Proofs.Alike
import PullCursor.Proofs.Series.Line
import PullCursor.Proofs.Series.Nested
import PullCursor.Proofs.Series.Closings
import PullCursor.Proofs.Course.Follows
import PullCursor.Proofs.Sink.Agreement
import PullCursor.Proofs.Sink.Draining
import PullCursor.Proofs.Sink.Feeding
import PullCursor.Proofs.Combinator.Budget
import PullCursor.Proofs.Combinator.Distinct
import PullCursor.Proofs.Sink.Limited
import PullCursor.Proofs.Finite.Safe
import PullCursor.Proofs.Finite.Bound
import PullCursor.Proofs.Finite.Tree
import PullCursor.Proofs.Seed.Hex
import PullCursor.Proofs.Seed.Text
import PullCursor.Proofs.Combinator.Tower
import PullCursor.Proofs.Leaf.Probe
import PullCursor.Proofs.Rule
import PullCursor.Proofs.Session
