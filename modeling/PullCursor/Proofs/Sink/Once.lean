import PullCursor.Proofs.Loop
import PullCursor.Sink.Basic

/-! Every sink that uses a source up closes it once and last, whatever comes of the draining and of
the close. The source need not run out of elements; it is enough that the draining ends. -/
namespace PullCursor

variable {σ α β γ ν ε : Type}

def Action.noted (op : Operation) (m : Action σ ε α) : Action (σ × List Operation) ε α := fun s =>
  let r := m s.1
  ⟨r.outcome, (r.state, s.2 ++ [op]), r.trace⟩

/-- The same cursor, which takes note of the calls made on it. -/
def Cursor.noted (c : Cursor σ α ε) : Cursor (σ × List Operation) α ε where
  pull := c.pull.noted .pull
  close := c.close.noted .close
  hasNext := c.hasNext.noted .hasNext
  next := c.next.noted .next

def Reply.noting (r : Reply σ ε α) (calls : List Operation) : Reply (σ × List Operation) ε α :=
  ⟨r.outcome, (r.state, calls), r.trace⟩

theorem Action.map_withLocal (g : α × ν → β) (init : ν) (m : Action (σ × ν) ε α) (s : σ) :
    (g <$> m.withLocal init) s =
      ⟨(m (s, init)).outcome.map fun a => g (a, (m (s, init)).state.2), (m (s, init)).state.1,
        (m (s, init)).trace⟩ := by
  rw [Action.map_apply]
  unfold Action.withLocal
  rcases m (s, init) with ⟨_ | _ | _, _, _⟩ <;> rfl

namespace Sink

/-- The sinks that use a source up, with what they deliver. -/
inductive Use (α ε : Type) : Type → Type 1 where
  | toList : Use α ε (List α)
  | fold {ν : Type} (extend : ν → α → ν) (empty : ν) : Use α ε ν
  | count : Use α ε Nat
  | visitAll {ν : Type} (visit : α → Action ν ε Unit) (start : ν) : Use α ε ν
  | visitEach {γ : Type} (mark : String → α → Event) (f : Callback α γ) (shown : γ → Event) :
      Use α ε Unit
  | first : Use α ε (Option α)

def Visits (c : Source σ α ε) (visit : α → Action ν ε Unit) (start : ν) (finish : ν → β) (s : σ)
    (body : Reply σ ε β) : Prop :=
  ∃ r, Action.Ends (Sweep.turn c (pure ()) (Sweep.onward visit)) (s, start) r ∧
    body = ⟨r.outcome.map fun _ => finish r.state.2, r.state.1, r.trace⟩

namespace Use

def run (c : EndingSource σ α ε) : Use α ε β → Action σ ε β
  | .toList => Sink.toList c
  | .fold extend empty => Sink.fold c extend empty
  | .count => Sink.count c
  | .visitAll visit start => Sink.visitAll c visit start
  | .visitEach mark f shown => Sink.visitEach c mark f shown
  | .first => Sink.first c.toSource

def Drains (c : Source σ α ε) (s : σ) : Use α ε β → Reply σ ε β → Prop
  | .toList => Visits c Sweep.gather [] List.reverse s
  | .fold extend empty => Visits c (fun x => Action.modify (extend · x)) empty id s
  | .count => Visits c (fun _ => Action.modify (· + 1)) 0 id s
  | .visitAll visit start => Visits c visit start id s
  | .visitEach mark f shown =>
      Visits c (fun x => do Action.emit [shown (← f.call mark x)]) .empty (fun _ => ()) s
  | .first => fun body => body = c.pull s

/-- The sink's reply, if the draining comes to an end. -/
def EndsIn (c : Source σ α ε) (s : σ) (u : Use α ε β) (r : Reply σ ε β) : Prop :=
  ∃ body, u.Drains c s body ∧ r = thenClose (fun _ => body) c.close s

end Use

theorem map_thenClose (f : β → γ) (body : Action σ ε β) (close : Action σ ε Unit) (s : σ) :
    (f <$> thenClose body close) s = thenClose (f <$> body) close s := by
  rw [Action.map_apply]
  unfold thenClose
  rw [Action.map_apply]
  rcases body s with ⟨b | e | m, s', t⟩
  · simp only [Outcome.map]
    cases (close s').outcome <;> rfl
  · simp only [Outcome.map]
    rcases close s' with ⟨_ | _ | _, s'', t'⟩ <;> rfl
  · simp only [Outcome.map]
    rcases close s' with ⟨_ | _ | _, s'', t'⟩ <;> rfl

theorem thenClose_of_body {body : Action σ ε β} {close : Action σ ε Unit} {s : σ}
    {r : Reply σ ε β} (h : body s = r) :
    thenClose body close s = thenClose (fun _ => r) close s := by
  unfold thenClose
  rw [h]

theorem drain_ends (c : EndingSource σ α ε) (visit : α → Action ν ε Unit) (s : σ × ν) :
    Action.Ends (Sweep.turn c.toSource (pure ()) (Sweep.onward visit)) s
      (drain c visit s) :=
  c.sweep_ends _ _ s

theorem map_visitAll (c : EndingSource σ α ε) (visit : α → Action ν ε Unit) (start : ν)
    (finish : ν → β) (s : σ) :
    ∃ body, Visits c.toSource visit start finish s body ∧
      (finish <$> visitAll c visit start) s = thenClose (fun _ => body) c.close s := by
  refine ⟨_, ⟨_, drain_ends c visit (s, start), rfl⟩, ?_⟩
  rw [visitAll, map_thenClose]
  apply thenClose_of_body
  rw [← comp_map]
  exact Action.map_withLocal (finish ∘ Prod.snd) start _ s

theorem visitAll_eq (c : EndingSource σ α ε) (visit : α → Action ν ε Unit) (start : ν) (s : σ) :
    ∃ body, Visits c.toSource visit start id s body ∧
      visitAll c visit start s = thenClose (fun _ => body) c.close s := by
  have h := map_visitAll c visit start id s
  rwa [id_map] at h

theorem Use.run_endsIn (c : EndingSource σ α ε) (s : σ) (u : Use α ε β) :
    u.EndsIn c.toSource s (u.run c s) := by
  cases u with
  | toList => exact map_visitAll c Sweep.gather [] List.reverse s
  | fold extend empty => exact visitAll_eq c (fun x => Action.modify (extend · x)) empty s
  | count => exact visitAll_eq c (fun _ => Action.modify (· + 1)) 0 s
  | visitAll visit start => exact visitAll_eq c visit start s
  | visitEach mark f shown =>
    exact map_visitAll c (fun x => do Action.emit [shown (← f.call mark x)]) .empty
      (fun _ => ()) s
  | first => exact ⟨_, rfl, rfl⟩

theorem Visits.unique {c : Source σ α ε} {visit : α → Action ν ε Unit} {start : ν}
    {finish : ν → β} {s : σ} {body body' : Reply σ ε β} (h : Visits c visit start finish s body)
    (h' : Visits c visit start finish s body') : body = body' := by
  obtain ⟨r, hr, rfl⟩ := h
  obtain ⟨r', hr', rfl⟩ := h'
  rw [hr.unique hr']

theorem Use.Drains.unique {c : Source σ α ε} {s : σ} {u : Use α ε β} {body body' : Reply σ ε β}
    (h : u.Drains c s body) (h' : u.Drains c s body') : body = body' := by
  cases u with
  | first => exact h.trans h'.symm
  | _ =>
    simp only [Drains] at h h'
    exact h.unique h'

theorem Use.endsIn_iff (c : EndingSource σ α ε) (s : σ) (u : Use α ε β) (r : Reply σ ε β) :
    u.EndsIn c.toSource s r ↔ r = u.run c s := by
  constructor
  · rintro ⟨body, hbody, rfl⟩
    obtain ⟨body', hbody', h⟩ := u.run_endsIn c s
    rw [h, hbody.unique hbody']
  · rintro rfl
    exact u.run_endsIn c s

theorem turn_noted (c : Cursor σ α ε) (atEnd : Action ν ε β) (visit : α → Action ν ε (Turn β))
    (s : σ) (calls : List Operation) (v : ν) :
    Sweep.turn c.noted.toSource atEnd visit ((s, calls), v) =
      let r := Sweep.turn c.toSource atEnd visit (s, v)
      ⟨r.outcome, ((r.state.1, calls ++ [.pull]), r.state.2), r.trace⟩ := by
  simp only [Sweep.turn, Action.bind_apply, Action.onFst, Cursor.noted, Action.noted]
  rcases c.pull s with ⟨(_ | x) | _ | _, s', t⟩
  · simp only [bind_pure_comp, Action.map_apply, Action.onSnd]
  · rfl
  · rfl
  · rfl

theorem ends_noted {c : Cursor σ α ε} {atEnd : Action ν ε β} {visit : α → Action ν ε (Turn β)}
    {s : σ × ν} {r : Reply (σ × ν) ε β}
    (h : Action.Ends (Sweep.turn c.toSource atEnd visit) s r) (calls : List Operation) :
    ∃ n, Action.Ends (Sweep.turn c.noted.toSource atEnd visit) ((s.1, calls), s.2)
      ⟨r.outcome, ((r.state.1, calls ++ List.replicate n .pull), r.state.2), r.trace⟩ := by
  have turn {s : σ × ν} {r : Reply (σ × ν) ε (Turn β)} (calls : List Operation)
      (h : Sweep.turn c.toSource atEnd visit s = r) :
      Sweep.turn c.noted.toSource atEnd visit ((s.1, calls), s.2) =
        ⟨r.outcome, ((r.state.1, calls ++ [.pull]), r.state.2), r.trace⟩ := by
    rw [turn_noted, h]
  induction h generalizing calls with
  | again hturn _ ih =>
    obtain ⟨n, hn⟩ := ih (calls ++ [.pull])
    rw [List.append_assoc] at hn
    exact ⟨n + 1, .again (turn calls hturn) hn⟩
  | stop hturn => exact ⟨1, .stop (turn calls hturn)⟩
  | error hturn => exact ⟨1, .error (turn calls hturn)⟩
  | panic hturn => exact ⟨1, .panic (turn calls hturn)⟩

theorem Visits.noted {c : Cursor σ α ε} {visit : α → Action ν ε Unit} {start : ν}
    {finish : ν → β} {s : σ} {body : Reply σ ε β}
    (h : Visits c.toSource visit start finish s body) :
    ∃ n, Visits c.noted.toSource visit start finish (s, []) (body.noting (.replicate n .pull)) := by
  obtain ⟨r, hr, rfl⟩ := h
  obtain ⟨n, hn⟩ := ends_noted hr []
  exact ⟨n, _, hn, rfl⟩

theorem Use.Drains.noted {c : Cursor σ α ε} {s : σ} {u : Use α ε β} {body : Reply σ ε β}
    (h : u.Drains c.toSource s body) :
    ∃ n, u.Drains c.noted.toSource (s, []) (body.noting (.replicate n .pull)) := by
  cases u with
  | first =>
    subst h
    exact ⟨1, rfl⟩
  | _ =>
    simp only [Drains] at h ⊢
    exact h.noted

theorem thenClose_noted (c : Cursor σ α ε) (s : σ) (body : Reply σ ε β) (calls : List Operation) :
    thenClose (fun _ => body.noting calls) c.noted.close (s, []) =
      (thenClose (fun _ => body) c.close s).noting (calls ++ [.close]) := by
  obtain ⟨_ | _ | _, s', t⟩ := body
  · rfl
  all_goals
    simp only [thenClose, Reply.noting, Cursor.noted, Action.noted]
    rcases c.close s' with ⟨_ | _ | _, s'', t'⟩ <;> rfl

/-- How the draining and the close came out decides how the sink does, and which notices it adds
to what the two had to show. Nothing is said about two panics, which no process survives. -/
def Verdict (notices : List Notice) : Outcome ε β → Outcome ε Unit → Outcome ε β → Prop
  | .ok b, .ok _, o => o = .ok b ∧ notices = []
  | .ok _, .error e, o => o = .error e ∧ notices = []
  | .ok _, .panic m, o => o = .panic m ∧ notices = []
  | .error e, .ok _, o => o = .error e ∧ notices = []
  | .error e, .error _, o => o = .error e ∧ notices.map Notice.level = [.debug]
  | .error _, .panic m, o => o = .panic m ∧ notices = []
  | .panic m, .ok _, o => o = .panic m ∧ notices = []
  | .panic m, .error _, o => o = .panic m ∧ notices.map Notice.level = [.warn]
  | .panic _, .panic _, _ => True

theorem thenClose_verdict (body : Reply σ ε β) (close : Action σ ε Unit) (s : σ) :
    ∃ notices, Verdict notices body.outcome (close body.state).outcome
        (thenClose (fun _ => body) close s).outcome ∧
      (thenClose (fun _ => body) close s).state = (close body.state).state ∧
      (thenClose (fun _ => body) close s).trace =
        body.trace ++ (close body.state).trace ++ notices.map .log := by
  obtain ⟨b | e | m, s', t⟩ := body
  · refine ⟨[], ?_, rfl, (List.append_nil _).symm⟩
    simp only [thenClose]
    cases (close s').outcome <;> exact ⟨rfl, rfl⟩
  · simp only [thenClose]
    rcases close s' with ⟨_ | _ | _, s'', t'⟩
    · exact ⟨[], ⟨rfl, rfl⟩, rfl, (List.append_nil _).symm⟩
    · exact ⟨[.closeFailedToo], ⟨rfl, rfl⟩, rfl, rfl⟩
    · exact ⟨[], ⟨rfl, rfl⟩, rfl, (List.append_nil _).symm⟩
  · simp only [thenClose]
    rcases close s' with ⟨_ | _ | _, s'', t'⟩
    · exact ⟨[], ⟨rfl, rfl⟩, rfl, (List.append_nil _).symm⟩
    · exact ⟨[.closeFailedUnwinding], ⟨rfl, rfl⟩, rfl, rfl⟩
    · exact ⟨[], trivial, rfl, (List.append_nil _).symm⟩

end Sink

end PullCursor
