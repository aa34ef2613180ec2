import PullCursor.Plan.Basic
import PullCursor.Proofs.Series.Ledger
import PullCursor.Proofs.Series.Line

/-! Concatenations of concatenations. However the children are grouped, a caller gets the same
answers and the children the same calls. -/
namespace PullCursor

variable {τ σ σ' α ε : Type}

theorem Reply.first_assoc (r : Reply σ ε Unit) (r₁ r₂ : Reply Unit ε Unit) :
    (r.first r₁).first r₂ = r.first (r₁.first r₂) := by
  rcases r with ⟨_ | _ | _, _, t⟩ <;> rcases r₁ with ⟨_ | _ | _, _, t₁⟩ <;>
    rcases r₂ with ⟨_ | _ | _, _, t₂⟩ <;> simp [first, Outcome.first]

theorem Reply.Alike.first {r' : Reply σ' ε Unit} {r : Reply σ ε Unit}
    {others' others : Reply Unit ε Unit} (h : r'.Alike r) (hothers : others'.Alike others) :
    (r'.first others').Alike (r.first others) := by
  obtain ⟨o', s', t'⟩ := r'
  obtain ⟨o, s, t⟩ := r
  obtain ⟨rfl, ht⟩ := h
  obtain ⟨ho, htrace⟩ := hothers
  have htraces : outward (t' ++ others'.trace) = outward (t ++ others.trace) := by
    rw [outward_append, outward_append, htrace]
    exact congrArg (· ++ _) ht
  cases o' with
  | ok _ => exact ⟨ho, htraces⟩
  | error e => exact ⟨congrArg (Outcome.first (.error e)) ho, htraces⟩
  | panic m => exact ⟨rfl, ht⟩

namespace Series

variable (c : Source τ α ε)

theorem closeEach_append (xs ys : List τ) :
    closeEach c (xs ++ ys) = (closeEach c xs).first (closeEach c ys) := by
  induction xs with
  | nil => rfl
  | cons x xs ih => rw [List.cons_append, closeEach, ih, closeEach, Reply.first_assoc]

def followed (more : List τ) (after : Reply (Line τ) ε (Option α)) :
    Reply (Line τ) ε (Option α) → Reply (Line τ) ε (Option α)
  | ⟨.ok none, _, t⟩ => ⟨after.outcome, after.state, t ++ after.trace⟩
  | ⟨o, l, t⟩ => ⟨o, ⟨l.current, l.rest ++ more⟩, t⟩

theorem takeFrom_followed (child : τ) (rest more : List τ)
    (between after : Reply (Line τ) ε (Option α)) :
    takeFrom c child (rest ++ more) (followed more after between) =
      followed more after (takeFrom c child rest between) := by
  unfold takeFrom
  rcases c.pull child with ⟨(_ | x) | e | m, child', t⟩
  · dsimp only
    rcases c.close child' with ⟨_ | e | m, child'', u⟩
    · rcases between with ⟨(_ | x) | e | m, l, v⟩ <;> simp [followed]
    · rfl
    · rfl
  · rfl
  · rfl
  · rfl

theorem takeRest_append (rest more : List τ) :
    takeRest c (rest ++ more) = followed more (takeRest c more) (takeRest c rest) := by
  induction rest with
  | nil => rfl
  | cons child rest ih => rw [List.cons_append, takeRest, ih, takeFrom_followed, takeRest]

theorem take_append (current : Option τ) (rest more : List τ) :
    take c ⟨current, rest ++ more⟩ = followed more (takeRest c more) (take c ⟨current, rest⟩) := by
  cases current with
  | none => exact takeRest_append c rest more
  | some child => rw [take, takeRest_append, takeFrom_followed, take]

theorem takeFrom_end (child : τ) (rest : List τ) {after : Reply (Line τ) ε (Option α)}
    (hafter : after.outcome = .ok none → after.state = ⟨none, []⟩) :
    (takeFrom c child rest after).outcome = .ok none →
      (takeFrom c child rest after).state = ⟨none, []⟩ := by
  unfold takeFrom
  rcases c.pull child with ⟨(_ | x) | e | m, child', t⟩
  · dsimp only
    rcases c.close child' with ⟨_ | e | m, child'', u⟩
    · exact hafter
    · exact nofun
    · exact nofun
  · exact nofun
  · exact nofun
  · exact nofun

theorem takeRest_end (rest : List τ) :
    (takeRest c rest).outcome = .ok none → (takeRest c rest).state = ⟨none, []⟩ := by
  induction rest with
  | nil => exact fun _ => rfl
  | cons child rest ih => exact takeFrom_end c child rest ih

theorem take_end (l : Line τ) : (take c l).outcome = .ok none → (take c l).state = ⟨none, []⟩ := by
  obtain ⟨_ | child, rest⟩ := l
  · exact takeRest_end c rest
  · exact takeFrom_end c child rest (takeRest_end c rest)

def concatenation (watch : Nat → List Event) : Cursor (Lookahead (Series τ) α) α ε :=
  Lookahead.cursor (source c watch)

def ofChildren (children : List τ) : Lookahead (Series τ) α := .start (.start (children.map some))

/-- A line of concatenations holds the children of the one in use, and behind them those of the
others, which have not been touched. -/
inductive Spread (unclosed : Stage α → Prop) : Line (Lookahead (Series τ) α) → Line τ → Prop
  | between (groups : List (List τ)) :
      Spread unclosed ⟨none, groups.map ofChildren⟩ ⟨none, groups.flatten⟩
  | within {s : Series τ} {stage : Stage α} {current : Option τ} {rest : List τ} :
      unclosed stage → LinesUp s ⟨current, rest⟩ → ∀ groups : List (List τ),
      Spread unclosed ⟨some ⟨s, stage⟩, groups.map ofChildren⟩ ⟨current, rest ++ groups.flatten⟩

variable {c} {inner : Nat → List Event} (hinner : ∀ n, outward (inner n) = [])

/-- What comes of pulling a line of concatenations, and of pulling the line of what they hold. -/
structure Together (r' : Reply (Line (Lookahead (Series τ) α)) ε (Option α))
    (r : Reply (Line τ) ε (Option α)) : Prop where
  alike : r'.Alike r
  element {x : α} : r.outcome = .ok (some x) → Spread (· = .idle) r'.state r.state
  unclosed : Spread (·.isClosed = false) r'.state r.state

include hinner

theorem close_alike {s : Series τ} {l : Line τ} (hs : LinesUp s l) {stage : Stage α}
    (hstage : stage.isClosed = false) :
    ((concatenation c inner).close ⟨s, stage⟩).Alike (closeEach c l.children) := by
  obtain ⟨ho, ht⟩ := release_alike (c := c) hinner hs
  have hopen : (concatenation c inner).close ⟨s, stage⟩ = _ :=
    Lookahead.close_open (source c inner) hstage
  rw [hopen]
  refine ⟨ho, (outward_append _ _).trans ?_⟩
  cases stage <;> exact ht

theorem takeFrom_together {s : Series τ} {l : Line τ} (hs : LinesUp s l) (groups : List (List τ))
    {after' : Reply (Line (Lookahead (Series τ) α)) ε (Option α)}
    {after : Reply (Line τ) ε (Option α)} (hafter : Together after' after) :
    Together
      (takeFrom (concatenation c inner).toSource ⟨s, .idle⟩ (groups.map ofChildren) after')
      (followed groups.flatten after (take c l)) := by
  have hidle : (concatenation c inner).pull ⟨s, .idle⟩ = _ := Lookahead.pull_idle (source c inner) s
  have hpull : ((source c inner).pull s).Matches LinesUp (take c l) := pull_matches hinner s l hs
  have hend := take_end c l
  rw [takeFrom, hidle]
  generalize (source c inner).pull s = r' at hpull ⊢
  generalize take c l = r at hpull hend ⊢
  obtain ⟨o, s', t'⟩ := r'
  obtain ⟨_, l', t⟩ := r
  have hs' : LinesUp s' l' := hpull.2
  have ht : outward t' = outward t := hpull.1.2
  obtain rfl : o = _ := hpull.1.1
  have hwithin (unclosed : Stage α → Prop) {stage : Stage α} (h : unclosed stage) :
      Spread unclosed ⟨some ⟨s', stage⟩, groups.map ofChildren⟩
        ⟨l'.current, l'.rest ++ groups.flatten⟩ := .within h hs' groups
  rcases o with (_ | x) | e | m
  · -- The group has come to its end, so that closing it does nothing more.
    obtain rfl : l' = ⟨none, []⟩ := hend rfl
    have hended : (Stage.ended : Stage α).isClosed = false := rfl
    have hclose := close_alike (c := c) hinner hs' hended
    dsimp only
    generalize (concatenation c inner).close ⟨s', .ended⟩ = closed at hclose ⊢
    obtain ⟨_, s'', u⟩ := closed
    obtain rfl : _ = Outcome.ok () := hclose.1
    have hu : outward u = [] := hclose.2
    refine ⟨⟨hafter.alike.1, ?_⟩, hafter.element, hafter.unclosed⟩
    simp only [followed, outward_append, hu, List.append_nil, ht, hafter.alike.2]
  · exact ⟨⟨rfl, ht⟩, fun _ => hwithin (· = .idle) rfl, hwithin (·.isClosed = false) rfl⟩
  · refine ⟨⟨rfl, ?_⟩, (fun h => by cases h), hwithin (·.isClosed = false) rfl⟩
    exact (outward_append _ _).trans ((List.append_nil _).trans ht)
  · exact ⟨⟨rfl, ht⟩, (fun h => by cases h), hwithin (·.isClosed = false) rfl⟩

theorem takeRest_together (groups : List (List τ)) :
    Together (takeRest (concatenation c inner).toSource (groups.map ofChildren))
      (takeRest c groups.flatten) := by
  induction groups with
  | nil => exact ⟨⟨rfl, rfl⟩, nofun, .between []⟩
  | cons group groups ih =>
    rw [List.flatten_cons, takeRest_append]
    exact takeFrom_together hinner (.intro none 0 0 group) groups ih

theorem take_together {l' : Line (Lookahead (Series τ) α)} {l : Line τ}
    (h : Spread (· = .idle) l' l) :
    Together (take (concatenation c inner).toSource l') (take c l) := by
  cases h with
  | between groups => exact takeRest_together hinner groups
  | within hstage hs groups =>
    subst hstage
    rw [take_append]
    exact takeFrom_together hinner hs groups (takeRest_together hinner groups)

theorem closeEach_alike (groups : List (List τ)) :
    (closeEach (concatenation c inner).toSource (groups.map ofChildren)).Alike
      (closeEach c groups.flatten) := by
  induction groups with
  | nil => exact ⟨rfl, rfl⟩
  | cons group groups ih =>
    rw [List.flatten_cons, closeEach_append]
    exact (close_alike hinner (.intro none 0 0 group) rfl).first ih

theorem close_together {l' : Line (Lookahead (Series τ) α)} {l : Line τ}
    (h : Spread (·.isClosed = false) l' l) :
    ((line (concatenation c inner).toSource).close l').Alike ((line c).close l) := by
  cases h with
  | between groups => exact closeEach_alike hinner groups
  | @within s stage current rest hstage hs groups =>
    have hall :=
      (close_alike (c := c) hinner hs hstage).first (closeEach_alike (c := c) hinner groups)
    rw [← closeEach_append, Line.children, List.append_assoc] at hall
    exact hall

theorem line_matches : Source.Matches (Spread (· = .idle)) (Spread (·.isClosed = false))
    (line (concatenation c inner).toSource) (line c) where
  pull hs := (take_together hinner hs).alike
  element hs := (take_together hinner hs).element
  pulled hs := (take_together hinner hs).unclosed
  close hs := close_together hinner hs

omit hinner

/-- What comes of calls on a concatenation of concatenations, one for each group of children. The
names are those under which the supplies are seen. -/
def runNested (c : Source τ α ε) (outer inner : Option String) (groups : List (List τ))
    (ops : List Operation) : Run (Lookahead (Series (Lookahead (Series τ) α)) α) α ε :=
  (concatenation (concatenation c (Plan.watch inner)).toSource (Plan.watch outer)).run
    (ofChildren (groups.map ofChildren)) ops

def runFlat (c : Source τ α ε) (id : Option String) (groups : List (List τ))
    (ops : List Operation) : Run (Lookahead (Series τ) α) α ε :=
  (concatenation c (Plan.watch id)).run (ofChildren groups.flatten) ops

theorem outward_watch (id : Option String) (n : Nat) : outward (Plan.watch id n) = [] := by
  cases id <;> rfl

/-- A concatenation of concatenations and one of all their children are the same line of children,
as far as anybody can see. -/
theorem nested_alike (c : Source τ α ε) (outer inner flat : Option String)
    (groups : List (List τ)) (ops : List Operation) :
    (runNested c outer inner groups ops).answers = (runFlat c flat groups ops).answers ∧
      outward (runNested c outer inner groups ops).trace =
        outward (runFlat c flat groups ops).trace := by
  have houter := Lookahead.cursor_matches (source_matches
    (c := (concatenation c (Plan.watch inner)).toSource) (outward_watch outer))
  have hline := Lookahead.cursor_matches (line_matches (c := c) (outward_watch inner))
  have hflat := Lookahead.cursor_matches (source_matches (c := c) (outward_watch flat))
  have hnested := houter.run (.start (.intro none 0 0 (groups.map ofChildren)) (.intro ..)) ops
  have hspread := hline.run (.start (.between groups) (.between groups)) ops
  have hplain := hflat.run (.start (.intro none 0 0 groups.flatten) (.intro ..)) ops
  exact ⟨(hnested.1.trans hspread.1).trans hplain.1.symm,
    (hnested.2.trans hspread.2).trans hplain.2.symm⟩

def calls (seen : List Event) : List (String × Operation) :=
  seen.filterMap fun
    | .called name op => some (name, op)
    | _ => none

theorem calls_outward (seen : List Event) : calls (outward seen) = calls seen := by
  unfold calls outward
  rw [List.filterMap_filter]
  congr
  funext e
  cases e <;> rfl

theorem runFlat_numbered (c : Cursor τ α ε) (id : Option String) (groups : List (List (Nat × τ)))
    (ops : List Operation) :
    (runFlat c.toSource id (groups.map (List.map Prod.snd)) ops).answers =
      (runFlat c.numbered.toSource id groups ops).answers := by
  have hpull : Action.Mirrors (rewrite Prod.snd) (source c.numbered.toSource (Plan.watch id)).pull
      (source c.toSource (Plan.watch id)).pull :=
    .loop (turn_mirrors c.pull_mirrors c.close_mirrors _)
  have hclose : Action.Mirrors (rewrite Prod.snd) (source c.numbered.toSource (Plan.watch id)).close
      (source c.toSource (Plan.watch id)).close := release_mirrors c.close_mirrors _
  have hrun := Lookahead.run_mirrors hpull hclose (ofChildren groups.flatten) ops
  have hstart : (ofChildren groups.flatten).rewrite (rewrite Prod.snd) =
      (ofChildren (groups.map (List.map Prod.snd)).flatten : Lookahead (Series τ) α) := by
    simp [ofChildren, Lookahead.rewrite, Lookahead.start, rewrite, start, List.map_flatten,
      Function.comp_def]
  rw [hstart] at hrun
  exact hrun

/-- Concatenation is associative. Whatever is called on it, a concatenation of concatenations gives
the same answers as one concatenation of all their children: elements, faults, failures to close and
ends. It shows the same of the children; and if each call on a child is seen under the child's
number, which makes no other difference, the same calls are seen, over all children and in the same
order. There may be empty groups, and the children need not keep any rules: they may fail, go on
after their end, fail to close, and panic. -/
theorem nesting_unseen (c : Cursor τ α ε) (groups : List (List (Nat × τ)))
    (outer inner flat : Option String) (ops : List Operation) :
    let bare := groups.map (List.map Prod.snd)
    let nested := runNested c.toSource outer inner bare ops
    let plain := runFlat c.toSource flat bare ops
    let nestedSeen := runNested c.numbered.toSource outer inner groups ops
    let plainSeen := runFlat c.numbered.toSource flat groups ops
    nested.answers = plain.answers ∧ outward nested.trace = outward plain.trace ∧
      nestedSeen.answers = nested.answers ∧ plainSeen.answers = plain.answers ∧
      calls nestedSeen.trace = calls plainSeen.trace := by
  intro bare nested plain nestedSeen plainSeen
  obtain ⟨hanswers, htraces⟩ := nested_alike c.toSource outer inner flat bare ops
  obtain ⟨hanswers', htraces'⟩ := nested_alike c.numbered.toSource outer inner flat groups ops
  have hnumbered : plain.answers = plainSeen.answers := runFlat_numbered c flat groups ops
  refine ⟨hanswers, htraces, ?_, hnumbered.symm, ?_⟩
  · rw [hanswers', ← hnumbered, hanswers]
  · rw [← calls_outward, htraces', calls_outward]

end Series

end PullCursor
