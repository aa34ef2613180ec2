import Mathlib.Data.List.TakeWhile
import PullCursor.Proofs.Course.Follows
import PullCursor.Proofs.Lookahead.Once
import PullCursor.Proofs.Sink.Draining

/-! A lookahead above a cursor on a course behaves like a queue of the elements still to come. The
element ahead is the head of the queue; nothing is lost, repeated or reordered by looking at it,
changing it or refusing it. -/
namespace PullCursor

variable {σ κ α ε : Type}

namespace Lookahead

inductive Ask (α : Type) where
  | poll (p : Poll α)
  | takeIf (accept : α → Except String Bool)

def ask (c : Source κ α ε) (s : Lookahead κ α) : Ask α → Served κ α Unit ε
  | .poll p => serve c s (.poll p)
  | .takeIf accept => .ofReply .pulled (takeIf c accept s)

def asks (c : Source κ α ε) (s : Lookahead κ α) :
    List (Ask α) → List (Response α Unit ε) × Lookahead κ α
  | [] => ([], s)
  | a :: rest =>
      let first := ask c s a
      let later := asks c first.state rest
      (first.response :: later.1, later.2)

theorem takeIf_eq (c : Source κ α ε) (accept : α → Except String Bool) (s : Lookahead κ α) :
    takeIf c accept s = match look c s with
      | ⟨.ok _, ⟨inner, .ready x⟩, t⟩ => match accept x with
          | .ok true => ⟨.ok (some x), ⟨inner, .idle⟩, t⟩
          | .ok false => ⟨.ok none, ⟨inner, .ready x⟩, t⟩
          | .error m => ⟨.panic m, ⟨inner, .ready x⟩, t⟩
      | ⟨.ok _, s', t⟩ => ⟨.ok none, s', t⟩
      | ⟨.error e, s', t⟩ => ⟨.error e, s', t⟩
      | ⟨.panic m, s', t⟩ => ⟨.panic m, s', t⟩ := by
  unfold takeIf
  rw [Action.bind_apply, peek_eq]
  rcases look c s with ⟨b | _ | _, ⟨inner, stage⟩, t⟩
  · cases stage with
    | ready x =>
      rcases h : accept x with m | _ | _ <;>
        simp [Stage.head?, h, Action.ofExcept, Action.bind_apply, Action.panic, Action.mapOutcome,
          Stop.settle]
    | _ => simp [Stage.head?]
  · rfl
  · rfl

end Lookahead

/-- The elements still to come, and how they end, until that has been told. -/
structure Queue (α ε : Type) where
  elements : List α
  ending : Option ε

namespace Queue

open Lookahead

def askHead (x : α) (rest : List α) (e : Option ε) : Ask α → Response α Unit ε × Queue α ε
  | .poll .hasNext => (.asked (.ok true), ⟨x :: rest, e⟩)
  | .poll .next => (.next (.ok x), ⟨rest, e⟩)
  | .poll .pull => (.pulled (.ok (some x)), ⟨rest, e⟩)
  | .poll .peek => (.peeked (.ok (some x)), ⟨x :: rest, e⟩)
  | .poll (.modifyHead f) => match f x with
      | .ok y => (.peeked (.ok (some y)), ⟨y :: rest, e⟩)
      | .error m => (.peeked (.panic m), ⟨x :: rest, e⟩)
  | .takeIf accept => match accept x with
      | .ok true => (.pulled (.ok (some x)), ⟨rest, e⟩)
      | .ok false => (.pulled (.ok none), ⟨x :: rest, e⟩)
      | .error m => (.pulled (.panic m), ⟨x :: rest, e⟩)

def askEmpty (e : Option ε) : Ask α → Response α Unit ε
  | .poll .hasNext => .asked (e.elim (.ok false) .error)
  | .poll .next => .next (.error (e.elim .exhausted .failed))
  | .poll .pull | .takeIf _ => .pulled (e.elim (.ok none) .error)
  | .poll .peek | .poll (.modifyHead _) => .peeked (e.elim (.ok none) .error)

def ask : Queue α ε → Ask α → Response α Unit ε × Queue α ε
  | ⟨x :: rest, e⟩, a => askHead x rest e a
  | ⟨[], e⟩, a => (askEmpty e a, ⟨[], none⟩)

def asks (q : Queue α ε) : List (Ask α) → List (Response α Unit ε) × Queue α ε
  | [] => ([], q)
  | a :: rest =>
      let first := q.ask a
      let later := first.2.asks rest
      (first.1 :: later.1, later.2)

end Queue

namespace Lookahead

section Ask

variable {c : Source κ α ε} {s : Lookahead κ α} {inner : κ} {t : List Event}

theorem ask_head {x : α} (h : look c s = ⟨.ok true, ⟨inner, .ready x⟩, t⟩) (rest : List α)
    (e : Option ε) (a : Ask α) :
    ∃ stage, ask c s a = ⟨(Queue.askHead x rest e a).1, ⟨inner, stage⟩, t⟩ ∧
      (Queue.askHead x rest e a).2 = ⟨stage.head?.toList ++ rest, e⟩ ∧
      (stage = .idle ∨ ∃ y, stage = .ready y) := by
  cases a with
  | poll p =>
    simp only [ask]
    rw [serve_poll, h]
    cases p with
    | hasNext | peek => exact ⟨.ready x, rfl, rfl, .inr ⟨x, rfl⟩⟩
    | next | pull => exact ⟨.idle, rfl, rfl, .inl rfl⟩
    | modifyHead f =>
      simp only [Poll.answer, Poll.settle, Poll.change, Queue.askHead]
      cases f x with
      | ok y => exact ⟨.ready y, rfl, rfl, .inr ⟨y, rfl⟩⟩
      | error m => exact ⟨.ready x, rfl, rfl, .inr ⟨x, rfl⟩⟩
  | takeIf accept =>
    simp only [ask, Queue.askHead]
    rw [takeIf_eq, h]
    dsimp only
    rcases accept x with m | _ | _
    · exact ⟨.ready x, rfl, rfl, .inr ⟨x, rfl⟩⟩
    · exact ⟨.ready x, rfl, rfl, .inr ⟨x, rfl⟩⟩
    · exact ⟨.idle, rfl, rfl, .inl rfl⟩

theorem ask_empty {e : Option ε} {stage : Stage α}
    (h : look c s = ⟨e.elim (.ok false) .error, ⟨inner, stage⟩, t⟩) (hover : stage.isOver)
    (a : Ask α) : ask c s a = ⟨Queue.askEmpty e a, ⟨inner, stage⟩, t⟩ := by
  cases a with
  | poll p =>
    simp only [ask]
    rw [serve_poll, h]
    cases e with
    | none => cases stage <;> cases p <;> first | rfl | cases hover
    | some e => cases p <;> rfl
  | takeIf accept =>
    simp only [ask]
    rw [takeIf_eq, h]
    cases e with
    | none => cases stage <;> first | rfl | cases hover
    | some e => rfl

end Ask

end Lookahead

namespace Queue

open Lookahead

theorem ask_balance (q : Queue α ε) (a : Ask α) :
    (q.ask a).1.element?.toList.length + (q.ask a).2.elements.length = q.elements.length ∧
      (q.ask a).1.fault?.toList ++ (q.ask a).2.ending.toList = q.ending.toList ∧
      ((q.ask a).1.fault? ≠ none → q.elements = []) := by
  obtain ⟨_ | ⟨x, rest⟩, e⟩ := q
  · rcases a with (_ | _ | _ | _ | f) | accept <;> cases e <;>
      simp [ask, askEmpty, Response.element?, Response.fault?]
  · rcases a with (_ | _ | _ | _ | f) | accept
    case poll.modifyHead => cases h : f x <;>
      simp [ask, askHead, h, Response.element?, Response.fault?]
    case takeIf => rcases h : accept x with _ | _ | _ <;>
      simp [ask, askHead, h, Response.element?, Response.fault?, Nat.add_comm]
    all_goals simp [ask, askHead, Response.element?, Response.fault?, Nat.add_comm]

theorem asks_balance (q : Queue α ε) (as : List (Ask α)) :
    let r := q.asks as
    (r.1.filterMap Response.element?).length + r.2.elements.length = q.elements.length ∧
      r.1.filterMap Response.fault? ++ r.2.ending.toList = q.ending.toList ∧
      (r.1.filterMap Response.fault? ≠ [] → r.2.elements = []) := by
  induction as generalizing q with
  | nil => exact ⟨Nat.zero_add _, rfl, fun h => absurd rfl h⟩
  | cons a rest ih =>
    obtain ⟨hcount, hfault, hempty⟩ := q.ask_balance a
    obtain ⟨hcountLater, hfaultLater, hemptyLater⟩ := ih (q.ask a).2
    simp only [asks, filterMap_cons_toList]
    refine ⟨?_, ?_, fun hne => ?_⟩
    · rw [List.length_append]
      omega
    · rw [List.append_assoc, hfaultLater, hfault]
    · by_cases hfirst : (q.ask a).1.fault? = none
      · rw [hfirst] at hne
        exact hemptyLater hne
      · have hnil := hempty hfirst
        rw [hnil, List.length_nil] at hcount
        exact List.eq_nil_of_length_eq_zero (by omega)

end Queue

def Cursor.afterPulls (c : Cursor σ α ε) (s : σ) (k : Nat) : σ :=
  (c.run s (.replicate k .pull)).state

theorem Cursor.afterPulls_succ (c : Cursor σ α ε) (s : σ) (k : Nat) :
    c.afterPulls s (k + 1) = (c.pull (c.afterPulls s k)).state := by
  unfold afterPulls
  rw [List.replicate_succ', run_concat]
  rfl

section Follows

variable {c : Cursor σ α ε} {m : Course α ε} {s : σ}

theorem Cursor.Follows.pull_element (h : c.Follows m s) {k : Nat} {x : α} {rest : List α}
    (hdrop : m.elements.drop k = x :: rest) :
    ∃ t, c.pull (c.afterPulls s k) = ⟨.ok (some x), c.afterPulls s (k + 1), t⟩ := by
  have hk : k ≤ m.elements.length := by
    by_contra hk
    rw [List.drop_of_length_le (Nat.le_of_not_le hk)] at hdrop
    cases hdrop
  have hpast := h.past k
  rw [Course.past, if_pos hk, hdrop] at hpast
  obtain ⟨hpull, -⟩ := hpast.pull rfl
  exact ⟨_, hpull.trans (by rw [c.afterPulls_succ]; rfl)⟩

theorem Cursor.Follows.pull_ending (h : c.Follows m s) :
    ∃ t, c.pull (c.afterPulls s m.elements.length) =
      ⟨m.ending.elim (.ok none) .error, c.afterPulls s (m.elements.length + 1), t⟩ := by
  have hpast := h.past m.elements.length
  rw [Course.past, if_pos (Nat.le_refl _), List.drop_length] at hpast
  have hstep : ((⟨[], m.ending, m.closing⟩ : Course α ε).step .pull).1 =
      .pull (m.ending.elim (.ok none) .error) := by
    cases m.ending <;> rfl
  obtain ⟨hpull, -⟩ := hpast.pull hstep
  exact ⟨_, hpull.trans (by rw [c.afterPulls_succ]; rfl)⟩

end Follows

namespace Lookahead

/-- After so many pulls the queue consists of the element ahead, if there is one, which may have
been changed, and of the elements that have not been pulled yet. -/
inductive Holds (c : Cursor σ α ε) (m : Course α ε) (s : σ) :
    Nat → Queue α ε → Lookahead σ α → Prop
  | idle {k} : k ≤ m.elements.length →
      Holds c m s k ⟨m.elements.drop k, m.ending⟩ ⟨c.afterPulls s k, .idle⟩
  | ready {k x} : k ≤ m.elements.length →
      Holds c m s k ⟨x :: m.elements.drop k, m.ending⟩ ⟨c.afterPulls s k, .ready x⟩
  | spent {stage} : stage.isOver →
      Holds c m s (m.elements.length + 1) ⟨[], none⟩
        ⟨c.afterPulls s (m.elements.length + 1), stage⟩

section Holds

variable {c : Cursor σ α ε} {m : Course α ε} {s : σ} {k : Nat} {s' : Lookahead σ α}

theorem Holds.start (c : Cursor σ α ε) (m : Course α ε) (s : σ) :
    Holds c m s 0 ⟨m.elements, m.ending⟩ (.start s) :=
  .idle (Nat.zero_le _)

theorem Holds.look_head (h : c.Follows m s) {x : α} {rest : List α} {e : Option ε}
    (hs : Holds c m s k ⟨x :: rest, e⟩ s') :
    ∃ k' t, k' ≤ m.elements.length ∧ rest = m.elements.drop k' ∧ e = m.ending ∧
      look c.toSource s' = ⟨.ok true, ⟨c.afterPulls s k', .ready x⟩, t⟩ := by
  generalize hq : (⟨x :: rest, e⟩ : Queue α ε) = q at hs
  cases hs with
  | idle hk =>
    obtain ⟨hdrop, he⟩ := Queue.mk.inj hq
    obtain ⟨t, hpull⟩ := h.pull_element hdrop.symm
    have hlt : k < m.elements.length := by
      by_contra hlt
      rw [List.drop_of_length_le (Nat.le_of_not_lt hlt)] at hdrop
      cases hdrop
    rw [List.drop_eq_getElem_cons hlt] at hdrop
    refine ⟨k + 1, t, hlt, (List.cons.inj hdrop).2, he, ?_⟩
    rw [look_idle, hpull]
  | ready hk =>
    cases hq
    exact ⟨k, [], hk, rfl, rfl, rfl⟩
  | spent => cases hq

theorem Holds.look_empty (h : c.Follows m s) {e : Option ε} (hs : Holds c m s k ⟨[], e⟩ s') :
    ∃ stage t, stage.isOver ∧
      look c.toSource s' =
        ⟨e.elim (.ok false) .error, ⟨c.afterPulls s (m.elements.length + 1), stage⟩, t⟩ := by
  generalize hq : (⟨[], e⟩ : Queue α ε) = q at hs
  cases hs with
  | idle hk =>
    obtain ⟨hdrop, rfl⟩ := Queue.mk.inj hq
    obtain ⟨t, hpull⟩ := h.pull_ending
    obtain rfl : k = m.elements.length := Nat.le_antisymm hk (List.drop_eq_nil_iff.mp hdrop.symm)
    rw [look_idle, hpull]
    cases m.ending with
    | none => exact ⟨.ended, t, rfl, rfl⟩
    | some e => exact ⟨.failed, _, rfl, rfl⟩
  | ready => cases hq
  | spent hover =>
    cases hq
    exact ⟨_, [], hover, look_over _ hover⟩

theorem Holds.ask (h : c.Follows m s) {q : Queue α ε} (hs : Holds c m s k q s') (a : Ask α) :
    (ask c.toSource s' a).response = (q.ask a).1 ∧
      ∃ k', Holds c m s k' (q.ask a).2 (ask c.toSource s' a).state := by
  obtain ⟨_ | ⟨x, rest⟩, e⟩ := q
  · obtain ⟨stage, t, hover, hlook⟩ := hs.look_empty h
    rw [ask_empty hlook hover]
    exact ⟨rfl, _, .spent hover⟩
  · obtain ⟨k', t, hk', rfl, rfl, hlook⟩ := hs.look_head h
    obtain ⟨stage, hask, hleft, rfl | ⟨y, rfl⟩⟩ :=
      ask_head hlook (m.elements.drop k') m.ending a
    · rw [hask, Queue.ask, hleft]
      exact ⟨rfl, k', .idle hk'⟩
    · rw [hask, Queue.ask, hleft]
      exact ⟨rfl, k', .ready hk'⟩

theorem Holds.asks (h : c.Follows m s) {q : Queue α ε} (hs : Holds c m s k q s')
    (as : List (Ask α)) :
    (asks c.toSource s' as).1 = (q.asks as).1 ∧
      ∃ k', Holds c m s k' (q.asks as).2 (asks c.toSource s' as).2 := by
  induction as generalizing k q s' with
  | nil => exact ⟨rfl, k, hs⟩
  | cons a rest ih =>
    obtain ⟨hresponse, k', hleft⟩ := hs.ask h a
    obtain ⟨hlater, hend⟩ := ih hleft
    exact ⟨congr (congrArg List.cons hresponse) hlater, hend⟩

theorem Holds.pulls_le {q : Queue α ε} (hs : Holds c m s k q s') :
    k + q.elements.length ≤ m.elements.length + 1 := by
  cases hs with
  | idle hk | ready hk =>
    simp only [List.length_cons, List.length_drop]
    omega
  | spent => exact Nat.le_refl _

theorem Holds.inner_eq {q : Queue α ε} (hs : Holds c m s k q s') : s'.inner = c.afterPulls s k := by
  cases hs <;> rfl

theorem Holds.yields (h : c.Follows m s) (keep : α → Bool) {a : Ask α}
    {d : Source (Lookahead σ α) α ε}
    (hpull : ∀ s', Lookahead.ask c.toSource s' a = .ofReply .pulled (d.pull s'))
    (hhead : ∀ x rest, Queue.askHead x rest none a = if keep x
      then (.pulled (.ok (some x)), (⟨rest, none⟩ : Queue α ε))
      else (.pulled (.ok none), ⟨x :: rest, none⟩))
    (hempty : Queue.askEmpty none a = (.pulled (.ok none) : Response α Unit ε))
    {xs : List α} (hs : Holds c m s k ⟨xs, none⟩ s') :
    ∃ y k', Yields d s' y ∧ y.elements = xs.takeWhile keep ∧ y.fault = none ∧
      Holds c m s k' ⟨xs.dropWhile keep, none⟩ y.state := by
  -- Each element that is to be kept costs one request and leaves the rest of the queue.
  induction xs generalizing k s' with
  | nil =>
    obtain ⟨hresponse, k', hleft⟩ := hs.ask h a
    rw [hpull] at hresponse hleft
    have hnone := Response.pulled.inj (hresponse.trans hempty)
    rcases e : d.pull s' with ⟨_, s'', t⟩
    rw [e] at hnone hleft
    subst hnone
    exact ⟨_, k', .ended e, rfl, rfl, hleft⟩
  | cons x xs ih =>
    obtain ⟨hresponse, k', hleft⟩ := hs.ask h a
    rw [hpull, Queue.ask, hhead] at hresponse hleft
    rcases e : d.pull s' with ⟨_, s'', t⟩
    rw [e] at hresponse hleft
    by_cases hkeep : keep x
    · rw [if_pos hkeep] at hresponse hleft
      obtain rfl := Response.pulled.inj hresponse
      obtain ⟨y, k'', hyields, helements, hfault, hend⟩ := ih hleft
      refine ⟨_, k'', .element e hyields, ?_, hfault, ?_⟩
      · rw [List.takeWhile_cons_of_pos hkeep, ← helements]
        rfl
      · rwa [List.dropWhile_cons_of_pos hkeep]
    · rw [if_neg hkeep] at hresponse hleft
      obtain rfl := Response.pulled.inj hresponse
      refine ⟨_, k', .ended e, ?_, rfl, ?_⟩
      · rw [List.takeWhile_cons_of_neg hkeep]
        rfl
      · rwa [List.dropWhile_cons_of_neg hkeep]

end Holds

def taking (c : Source κ α ε) (keep : α → Bool) : Source (Lookahead κ α) α ε where
  pull := takeIf c fun x => .ok (keep x)
  close := close c

/-- A lookahead above a cursor on a course answers like a queue of the elements on it, whatever is
asked in whatever order, also when a caller's function panics. The cursor below is only ever pulled,
at most once more often than elements have been handed out, and gives each element once. If the
course ends without a fault, taking elements for as long as they are wanted gets the longest such
beginning of the queue, and whoever drains the lookahead then gets exactly the rest. -/
theorem behaves_like_queue {c : Cursor σ α ε} {m : Course α ε} {s : σ} (h : c.Follows m s)
    (as : List (Ask α)) :
    let run := asks c.toSource (.start s) as
    let noted := asks c.noted.toSource (.start (s, [])) as
    let queue := Queue.asks ⟨m.elements, m.ending⟩ as
    let handed := queue.1.filterMap Response.element?
    let faults := queue.1.filterMap Response.fault?
    run.1 = queue.1 ∧ noted.1 = queue.1 ∧
    handed.length + queue.2.elements.length = m.elements.length ∧
    faults ++ queue.2.ending.toList = m.ending.toList ∧ (faults ≠ [] → queue.2.elements = []) ∧
    (∃ k, k ≤ handed.length + 1 ∧
      noted.2.inner = ((c.run s (.replicate k .pull)).state, .replicate k .pull) ∧
      delivered (c.run s (.replicate k .pull)).answers = m.elements.take k) ∧
    (m.ending = none → ∀ keep : α → Bool, ∃ taken rest,
      Yields (taking c.toSource keep) run.2 taken ∧
      taken.elements = queue.2.elements.takeWhile keep ∧ taken.fault = none ∧
      Yields (cursor c.toSource).toSource taken.state rest ∧
      rest.elements = queue.2.elements.dropWhile keep ∧ rest.fault = none) := by
  intro run noted queue handed faults
  obtain ⟨hrun, _, hleft⟩ : run.1 = queue.1 ∧ ∃ k, Holds c m s k queue.2 run.2 :=
    (Holds.start c m s).asks h as
  obtain ⟨hnoted, k, hpulled⟩ : noted.1 = queue.1 ∧
      ∃ k, Holds c.noted m (s, []) k queue.2 noted.2 :=
    (Holds.start c.noted m (s, [])).asks (h.noted []) as
  obtain ⟨hcount, hfaults, hempty⟩ :
      handed.length + queue.2.elements.length = m.elements.length ∧
      faults ++ queue.2.ending.toList = m.ending.toList ∧ (faults ≠ [] → queue.2.elements = []) :=
    Queue.asks_balance ⟨m.elements, m.ending⟩ as
  refine ⟨hrun, hnoted, hcount, hfaults, hempty, ⟨k, ?_, ?_, ?_⟩, fun hending keep => ?_⟩
  · have hpulls := hpulled.pulls_le
    omega
  · rw [hpulled.inner_eq, Cursor.afterPulls, Cursor.run_noted]
    rfl
  · have hpolls : Operation.close ∉ List.replicate k .pull := fun h =>
      nomatch List.eq_of_mem_replicate h
    rw [h _ hpolls, Course.delivered_pulls]
  · rw [hending] at hfaults
    have hnone := Option.toList_eq_nil_iff.mp (List.append_eq_nil_iff.mp hfaults).2
    have hqueue : queue.2 = ⟨queue.2.elements, none⟩ := congrArg (Queue.mk _) hnone
    rw [hqueue] at hleft
    obtain ⟨taken, _, htaken, helements, hfault, hrest⟩ :=
      hleft.yields h keep (a := .takeIf fun x => .ok (keep x)) (d := taking c.toSource keep)
        (fun _ => rfl) (fun x rest => by cases hx : keep x <;> simp [Queue.askHead, hx]) rfl
    obtain ⟨rest, _, hyields, hrestElements, hrestFault, -⟩ :=
      hrest.yields h (fun _ => true) (a := .poll .pull) (d := (cursor c.toSource).toSource)
        (fun _ => rfl) (fun _ _ => rfl) rfl
    rw [List.takeWhile_eq_self_iff.mpr fun _ _ => rfl] at hrestElements
    exact ⟨taken, rest, htaken, helements, hfault, hyields, hrestElements, hrestFault⟩

/-- The head is changed and then refused by a function that panics, above a source that would fail
behind its third element. -/
theorem behaves_like_queue_refusing :
    let p : Plan := .limit 3 (.probe ⟨0, some 3, false⟩ [.int 7, .int 2, .text "end"])
    let as : List (Ask Element) :=
      [.poll (.modifyHead fun _ => .ok (.int 1)), .takeIf fun _ => .error "refused", .poll .peek]
    let number : Element → Bool
      | .int _ => true
      | _ => false
    let run := asks p.cursor.toSource (.start p.start) as
    p.cursor.toCursor.Follows p.course p.start ∧ p.course.ending = none ∧
      run.1 = [.peeked (.ok (some (.int 1))), .pulled (.panic "refused"),
        .peeked (.ok (some (.int 1)))] ∧
      ∃ taken rest, Yields (taking p.cursor.toSource number) run.2 taken ∧
        taken.elements = [.int 1, .int 2] ∧
        Yields (cursor p.cursor.toSource).toSource taken.state rest ∧
        rest.elements = [.text "end"] := by
  intro p as number run
  have hplain : p.Plain := trivial
  have hfollows := hplain.follows
  obtain ⟨hrun, -, -, -, -, -, hyields⟩ := behaves_like_queue hfollows as
  obtain ⟨taken, rest, htaken, helements, -, hrest, hrestElements, -⟩ := hyields rfl number
  exact ⟨hfollows, rfl, hrun, taken, rest, htaken, helements, hrest, hrestElements⟩

end Lookahead

end PullCursor
