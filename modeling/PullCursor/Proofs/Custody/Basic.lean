import Mathlib.Data.Multiset.OrderedMonoid
import PullCursor.Combinator.Budget
import PullCursor.Combinator.Mapping
import PullCursor.Combinator.Selection
import PullCursor.Combinator.Series
import PullCursor.Proofs.Lookahead.Steps
import PullCursor.Proofs.Rule

/-! Custody of release actions. A state owes the release actions that have yet to run. A call may
run some of them, and what it runs is owed no more: what has run and what is owed always add up to
the same. Closing runs all that is owed. -/
namespace PullCursor

variable {σ τ α β ν ε ε' : Type}

def Event.isRelease : Event → Bool
  | .released _ | .probed _ .release => true
  | _ => false

def released (t : List Event) : Multiset Event := (t.filter Event.isRelease : List Event)

@[simp] theorem released_nil : released [] = 0 := rfl

@[simp] theorem released_append (t u : List Event) :
    released (t ++ u) = released t + released u := by
  unfold released
  rw [List.filter_append, Multiset.coe_add]

theorem released_eq_zero {t : List Event} (h : ∀ e ∈ t, e.isRelease = false) : released t = 0 := by
  unfold released
  rw [List.filter_eq_nil_iff.mpr (by simpa using h)]
  rfl

/-- What the states of a cursor owe. The states that count as sound are those in which every
release action that is owed can still be reached. -/
structure Custody (σ : Type) where
  owed : σ → Multiset Event
  sound : σ → Prop

namespace Custody

def keeping (k : Custody σ) : Rule σ := fun s _ t s' =>
  k.sound s → k.sound s' ∧ released t + k.owed s' = k.owed s

instance (k : Custody σ) : Rule.Composes k.keeping where
  nil s hs := ⟨hs, zero_add _⟩
  append h h' hs := by
    obtain ⟨hs', hsum⟩ := h hs
    obtain ⟨hs'', hsum'⟩ := h' hs'
    rw [released_append, add_assoc, hsum', hsum]
    exact ⟨hs'', rfl⟩

def Keeps (k : Custody σ) (m : Action σ ε α) : Prop := m.Observes k.keeping

def Pays (k : Custody σ) (m : Action σ ε α) : Prop :=
  ∀ s, k.sound s → k.sound (m s).state ∧ released (m s).trace = k.owed s ∧
    ∀ p, (m s).outcome ≠ .panic p

/-- The call runs all that is owed and comes back, and nothing is owed afterwards. A source may be
unable to tell that it was closed; a cursor has to. -/
def PaysOff (k : Custody σ) (m : Action σ ε α) : Prop :=
  k.Pays m ∧ ∀ s, k.sound s → k.owed (m s).state = 0

structure Secures (k : Custody σ) (c : Source σ α ε) : Prop where
  pull : k.Keeps c.pull
  close : k.Pays c.close

structure SecuresAll (k : Custody σ) (c : Cursor σ α ε) : Prop where
  pull : k.Keeps c.pull
  close : k.PaysOff c.close
  hasNext : k.Keeps c.hasNext
  next : k.Keeps c.next

variable {k : Custody σ}

theorem SecuresAll.secures {c : Cursor σ α ε} (h : k.SecuresAll c) : k.Secures c.toSource :=
  ⟨h.pull, h.close.1⟩

theorem spares {m : Action τ ε α} (h : ∀ v, released (m v).trace = 0) : m.Spares k.keeping := by
  intro s v hs
  rw [h, zero_add]
  exact ⟨hs, rfl⟩

theorem PaysOff.handle {m : Action σ ε α} {f : ε → Action σ ε' α} (hm : k.PaysOff m)
    (hf : ∀ e, k.Keeps (f e)) (hback : ∀ e s p, (f e s).outcome ≠ .panic p) :
    k.PaysOff (m.handle f) := by
  have hall : ∀ s, k.sound s → k.sound (m.handle f s).state ∧ k.owed (m.handle f s).state = 0 ∧
      released (m.handle f s).trace = k.owed s ∧ ∀ p, (m.handle f s).outcome ≠ .panic p := by
    intro s hs
    obtain ⟨hsound, hpaid, hcome⟩ := hm.1 s hs
    have hzero := hm.2 s hs
    unfold Action.handle
    rcases e : m s with ⟨a | e₁ | p, s₁, t₁⟩
    · simp only [e] at hsound hpaid hzero ⊢
      exact ⟨hsound, hzero, hpaid, nofun⟩
    · simp only [e] at hsound hpaid hzero ⊢
      obtain ⟨hsound', hsum⟩ := hf e₁ s₁ hsound
      rw [hzero] at hsum
      obtain ⟨htrace, howed⟩ := add_eq_zero.mp hsum
      refine ⟨hsound', howed, ?_, hback e₁ s₁⟩
      rw [released_append, htrace, add_zero, hpaid]
    · exact absurd (congrArg Reply.outcome e) (hcome p)
  exact ⟨fun s hs => ⟨(hall s hs).1, (hall s hs).2.2⟩, fun s hs => (hall s hs).2.1⟩

theorem Pays.afterModify {f : σ → σ} {m : Action σ ε α} (h : k.Pays m)
    (hsound : ∀ s, k.sound s → k.sound (f s)) (howed : ∀ s, k.owed (f s) = k.owed s) :
    k.Pays (Action.modify f >>= fun _ => m) := by
  intro s hs
  rw [Action.modify_bind_apply, ← howed s]
  exact h (f s) (hsound s hs)

theorem PaysOff.afterModify {f : σ → σ} {m : Action σ ε α} (h : k.PaysOff m)
    (hsound : ∀ s, k.sound s → k.sound (f s)) (howed : ∀ s, k.owed (f s) = k.owed s) :
    k.PaysOff (Action.modify f >>= fun _ => m) := by
  refine ⟨h.1.afterModify hsound howed, fun s hs => ?_⟩
  rw [Action.modify_bind_apply]
  exact h.2 (f s) (hsound s hs)

theorem PaysOff.afterEmit {events : List Event} {m : Action σ ε α} (h : k.PaysOff m)
    (hevents : released events = 0) : k.PaysOff (Action.emit events >>= fun _ => m) := by
  have hbind : ∀ s, (Action.emit events >>= fun _ => m) s =
      ⟨(m s).outcome, (m s).state, events ++ (m s).trace⟩ := fun _ => rfl
  refine ⟨fun s hs => ?_, fun s hs => ?_⟩
  · rw [hbind]
    obtain ⟨hsound, hpaid, hback⟩ := h.1 s hs
    exact ⟨hsound, by rw [released_append, hevents, zero_add, hpaid], hback⟩
  · rw [hbind]
    exact h.2 s hs

def fst (k : Custody σ) : Custody (σ × τ) where
  owed s := k.owed s.1
  sound s := k.sound s.1

theorem Pays.onFst {m : Action σ ε α} (h : k.Pays m) :
    (k.fst (τ := τ)).Pays m.onFst := fun s => h s.1

theorem PaysOff.onFst {m : Action σ ε α} (h : k.PaysOff m) :
    (k.fst (τ := τ)).PaysOff m.onFst := ⟨h.1.onFst, fun s => h.2 s.1⟩

theorem SecuresAll.ofSteps {hasNext : Action σ ε Bool} {next : Action σ (Stop ε) α}
    {close : Action σ ε Unit} (hask : k.Keeps hasNext) (hnext : k.Keeps next)
    (hclose : k.PaysOff close) : k.SecuresAll (.ofSteps hasNext next close) where
  pull := hask.pullByNext hnext
  close := hclose
  hasNext := hask
  next := hnext

def ahead (k : Custody σ) : Custody (Lookahead σ α) where
  owed s := if s.stage.isClosed then 0 else k.owed s.inner
  sound s := k.sound s.inner

theorem Secures.look {c : Source σ α ε} (h : k.Secures c) :
    (k.ahead (α := α)).Keeps (Lookahead.look c) := by
  rintro ⟨inner, stage⟩ hs
  cases stage with
  | idle =>
    have hpull := h.pull inner hs
    rw [Lookahead.look_idle]
    rcases e : c.pull inner with ⟨(_ | x) | _ | _, inner', t⟩ <;>
      simpa [e, ahead, Stage.isClosed, released, Event.isRelease] using hpull
  | _ => exact ⟨hs, zero_add _⟩

theorem Secures.next {c : Source σ α ε} (h : k.Secures c) :
    (k.ahead (α := α)).Keeps (Lookahead.next c) := by
  rintro ⟨inner, stage⟩ hs
  cases stage with
  | idle =>
    have hpull := h.pull inner hs
    rw [Lookahead.next_idle]
    rcases e : c.pull inner with ⟨(_ | x) | _ | _, inner', t⟩ <;>
      simpa [e, ahead, Stage.isClosed, released, Event.isRelease] using hpull
  | _ => exact ⟨hs, zero_add _⟩

theorem Secures.closeLookahead {c : Source σ α ε} (h : k.Secures c) :
    (k.ahead (α := α)).PaysOff (Lookahead.close c) := by
  refine ⟨fun s hs => ?_, fun s hs => ?_⟩ <;> cases hclosed : s.stage.isClosed
  · obtain ⟨hsound, hpaid, hback⟩ := h.close s.inner hs
    rw [Lookahead.close_open c hclosed]
    refine ⟨hsound, ?_, hback⟩
    rw [released_append, hpaid, released_eq_zero, zero_add]
    · simp [ahead, hclosed]
    · split <;> simp [Event.isRelease]
  · rw [Lookahead.close_again c hclosed]
    exact ⟨hs, by simp [ahead, hclosed], nofun⟩
  · rw [Lookahead.close_open c hclosed]
    rfl
  · rw [Lookahead.close_again c hclosed]
    simp [ahead, hclosed]

theorem Secures.lookahead {c : Source σ α ε} (h : k.Secures c) :
    (k.ahead (α := α)).SecuresAll (Lookahead.cursor c) :=
  .ofSteps h.look h.next h.closeLookahead

theorem released_call (f : Callback α β) {mark : String → α → Event}
    (hmark : ∀ id x, (mark id x).isRelease = false) (x : α) (earlier : History α) :
    released (f.call mark x earlier : Reply _ ε β).trace = 0 := by
  rw [(f.call_seen mark earlier x).2]
  apply released_eq_zero
  intro e he
  obtain ⟨id, -, rfl⟩ := List.mem_map.mp he
  exact hmark id x

theorem Secures.filter {c : EndingSource σ α ε} (h : k.Secures c.toSource)
    {mark : String → α → Event} (hmark : ∀ id x, (mark id x).isRelease = false)
    (test : Callback α Bool) :
    (k.fst (τ := History α)).Secures (Filter.source c mark test) where
  pull := by
    refine h.pull.sweep (spares fun _ => rfl) fun x => spares fun s => ?_
    have hcall := released_call (ε := ε) test hmark x s
    unfold Filter.visit
    rw [Action.bind_apply]
    rcases e : (test.call mark x s : Reply _ ε Bool) with ⟨(_ | _) | _ | _, _, _⟩ <;>
      simpa [e] using hcall
  close := h.close.onFst

theorem Secures.distinct {c : EndingSource σ α ε} (h : k.Secures c.toSource)
    (cmp : α → α → Ordering) :
    (k.fst (τ := Std.TreeSet α cmp)).Secures (Distinct.source c) where
  pull := by
    refine h.pull.sweep (spares fun _ => rfl) fun x => spares fun s => ?_
    unfold Distinct.visit
    rw [Action.get_bind_apply]
    split <;> rfl
  close := h.close.onFst.afterModify (fun _ hs => hs) fun _ => rfl

theorem SecuresAll.map {c : Cursor σ α ε} (h : k.SecuresAll c) {mark : String → α → Event}
    (hmark : ∀ id x, (mark id x).isRelease = false) (f : Callback α β) :
    (k.fst (τ := History α)).SecuresAll (Map.cursor c mark f) where
  pull := by
    refine h.pull.onFst.bind fun x => ?_
    cases x with
    | none => exact .pure _
    | some x => exact (spares (released_call f hmark x)).onSnd.bind fun _ => .pure _
  close := h.close.onFst
  hasNext := h.hasNext.onFst
  next := h.next.onFst.bind fun x => (spares (released_call f hmark x)).onSnd

theorem SecuresAll.limit {c : Cursor σ α ε} (h : k.SecuresAll c) :
    (k.fst (τ := Nat)).SecuresAll (Budget.cursor c) := by
  apply SecuresAll.ofSteps
  · refine Action.Observes.get.bind fun s => ?_
    split
    · exact .pure _
    · exact h.hasNext.onFst
  · refine Action.Observes.get.bind fun s => ?_
    split
    · exact .fail _
    · refine h.next.onFst.bind fun x => ?_
      intro s hs
      exact ⟨hs, zero_add _⟩
  · exact h.close.onFst.afterModify (fun _ hs => hs) fun _ => rfl

theorem failWith_ne_panic {δ : Type} {answer : Action (History ε) δ ε'}
    (h : ∀ s p, (answer s).outcome ≠ .panic p) (wrap : ε' → δ) (s : σ × History ε) (p : String) :
    (answer.failWith wrap s : Reply _ δ β).outcome ≠ .panic p := by
  unfold Action.failWith
  rw [Action.bind_apply]
  have hs := h s.2 p
  unfold Action.onSnd
  rcases e : answer s.2 with ⟨_ | _ | _, _, _⟩ <;> simp_all [Action.fail]

theorem SecuresAll.answering {c : Cursor σ α ε} (h : k.SecuresAll c)
    {answer : {δ : Type} → ε → Action (History ε) δ ε'}
    (hquiet : ∀ {δ} e s, released (answer (δ := δ) e s).trace = 0)
    (hback : ∀ {δ} e s p, (answer (δ := δ) e s).outcome ≠ .panic p) :
    (k.fst (τ := History ε)).SecuresAll (c.answering answer) where
  pull := h.pull.onFst.handle fun e => (spares (hquiet e)).failWith _
  close := h.close.onFst.handle (fun e => (spares (hquiet e)).failWith _) fun e =>
    failWith_ne_panic (hback e) _
  hasNext := h.hasNext.onFst.handle fun e => (spares (hquiet e)).failWith _
  next := h.next.onFst.handle fun e => by
    cases e with
    | exhausted => exact .fail _
    | failed e => exact (spares (hquiet e)).failWith _

end Custody

end PullCursor
