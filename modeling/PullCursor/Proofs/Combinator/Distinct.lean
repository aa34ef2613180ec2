import Std.Data.TreeSet.Lemmas
import PullCursor.Plan.Tree
import PullCursor.Proofs.Combinator.Budget

/-! What a cursor without repetitions remembers. An element is remembered when it is computed, and
so before it is handed out: the elements remembered are those handed out and the one ahead. -/
namespace PullCursor

variable {σ κ α ε : Type}

namespace Lookahead

/-- What a source knows of the elements that it has given away, a lookahead above it knows of those
handed out and the one ahead. -/
def Knows (R : List α → κ → Prop) (handed : List α) (s : Lookahead κ α) : Prop :=
  R (handed ++ s.stage.head?.toList) s.inner

section Knows

variable {R : List α → κ → Prop} {c : Source κ α ε} {handed : List α}

theorem call_knows
    (hpull : ∀ {given inner}, R given inner →
      R (given ++ (Answer.pull (c.pull inner).outcome).element?.toList) (c.pull inner).state)
    {s : Lookahead κ α} (hs : Knows R handed s) {op : Operation} (hop : op ≠ .close) :
    Knows R (handed ++ ((cursor c).call s op).answer.element?.toList)
      ((cursor c).call s op).state := by
  obtain ⟨inner, stage⟩ := s
  cases stage with
  | idle =>
    have hinner : R handed inner := by simpa [Knows, Stage.head?] using hs
    have hpulled := hpull hinner
    cases op with
    | hasNext =>
      show Knows R (handed ++ []) (look c ⟨inner, .idle⟩).state
      rw [look_idle, List.append_nil]
      rcases e : c.pull inner with ⟨(_ | x) | _ | _, inner', t⟩ <;> rw [e] at hpulled <;>
        exact hpulled
    | next =>
      show Knows R (handed ++ (Answer.next (next c ⟨inner, .idle⟩).outcome).element?.toList)
        (next c ⟨inner, .idle⟩).state
      rw [next_idle]
      rcases e : c.pull inner with ⟨(_ | x) | _ | _, inner', t⟩ <;> rw [e] at hpulled <;>
        simpa [Knows, Stage.head?, Answer.element?] using hpulled
    | pull =>
      show Knows R
        (handed ++ (Answer.pull ((cursor c).pull ⟨inner, .idle⟩).outcome).element?.toList)
        ((cursor c).pull ⟨inner, .idle⟩).state
      rw [pull_idle]
      rcases e : c.pull inner with ⟨(_ | x) | _ | _, inner', t⟩ <;> rw [e] at hpulled <;>
        simpa [Knows, Stage.head?, Answer.element?] using hpulled
    | close => exact absurd rfl hop
  | _ =>
    unfold Knows at hs ⊢
    rw [List.append_assoc]
    cases op with
    | close => exact absurd rfl hop
    | _ => exact hs

theorem run_knows
    (hpull : ∀ {given inner}, R given inner →
      R (given ++ (Answer.pull (c.pull inner).outcome).element?.toList) (c.pull inner).state)
    {s : Lookahead κ α} (hs : Knows R handed s) {polls : List Operation} (hpolls : .close ∉ polls) :
    Knows R (handed ++ delivered ((cursor c).run s polls).answers)
      ((cursor c).run s polls).state := by
  induction polls generalizing s handed with
  | nil => rwa [Cursor.run, delivered, List.filterMap_nil, List.append_nil]
  | cons op rest ih =>
    obtain ⟨hop, hrest⟩ := not_or.mp (mt List.mem_cons.mpr hpolls)
    have hlater := ih (call_knows hpull hs (Ne.symm hop)) hrest
    rw [List.append_assoc, ← delivered_cons] at hlater
    exact hlater

end Knows

end Lookahead

namespace Distinct

variable {cmp : α → α → Ordering}

structure Remembers (given : List α) (seen : Std.TreeSet α cmp) : Prop where
  nodup : given.Nodup
  mem_iff : ∀ x, x ∈ seen ↔ x ∈ given
  size : seen.size = given.length

section Visits

variable {seen : Std.TreeSet α cmp} {x : α}

theorem visit_old (h : x ∈ seen) : (visit x : Action _ ε _) seen = ⟨.ok .again, seen, []⟩ := by
  rw [visit, Action.get_bind_apply, if_pos (Std.TreeSet.mem_iff_contains.mp h)]
  rfl

theorem visit_new (h : x ∉ seen) :
    (visit x : Action _ ε _) seen = ⟨.ok (.stop (some x)), seen.insert x, []⟩ := by
  rw [visit, Action.get_bind_apply, if_neg (mt Std.TreeSet.mem_iff_contains.mpr h)]
  rfl

end Visits

section Remembers

variable [Std.TransCmp cmp] [Std.LawfulEqCmp cmp] {given : List α} {seen : Std.TreeSet α cmp}

theorem Remembers.insert (h : Remembers given seen) {x : α} (hx : x ∉ seen) :
    Remembers (given ++ [x]) (seen.insert x) where
  nodup := by
    refine List.nodup_append.mpr ⟨h.nodup, List.pairwise_singleton _ x, ?_⟩
    rintro a ha b hb rfl
    rw [List.mem_singleton.mp hb] at ha
    exact hx ((h.mem_iff x).mpr ha)
  mem_iff y := by
    rw [Std.TreeSet.mem_insert, Std.LawfulEqCmp.compare_eq_iff_eq, h.mem_iff, List.mem_append,
      List.mem_singleton, or_comm, eq_comm]
  size := by
    rw [Std.TreeSet.size_insert, if_neg (mt Std.TreeSet.mem_iff_contains.mpr hx), h.size,
      List.length_append, List.length_singleton]

theorem pull_remembers (c : EndingSource σ α ε) {s : σ × Std.TreeSet α cmp}
    (h : Remembers given s.2) :
    Remembers (given ++ (Answer.pull ((source c).pull s).outcome).element?.toList)
      ((source c).pull s).state.2 := by
  have hturn : Action.Leads (fun _ (s : σ × Std.TreeSet α cmp) => Remembers given s.2)
      (Sweep.turn c.toSource (return none) visit)
      (Action.OrAgain (fun _ s => Remembers given s.2) fun o _ s =>
        Remembers (given ++ (Answer.pull o).element?.toList) s.2) := by
    rintro _ ⟨inner, set⟩ h
    rcases e : c.pull inner with ⟨(_ | x) | _ | _, inner', t⟩
    · rw [Sweep.turn_none _ _ _ e]
      simpa [Action.OrAgain, Answer.element?, Outcome.map] using h
    · rw [Sweep.turn_some _ _ _ e]
      by_cases hx : x ∈ set
      · rw [visit_old hx]
        exact h
      · rw [visit_new hx]
        exact h.insert hx
    · rw [Sweep.turn_error _ _ _ e]
      simpa [Action.OrAgain, Answer.element?] using h
    · rw [Sweep.turn_panic _ _ _ e]
      simpa [Action.OrAgain, Answer.element?] using h
  exact hturn.loop [] s h

theorem run_remembers (c : EndingSource σ α ε) (s : σ) {polls : List Operation}
    (hpolls : .close ∉ polls) :
    let run := (Lookahead.cursor (source c)).run (.start (s, (∅ : Std.TreeSet α cmp))) polls
    Remembers (delivered run.answers ++ run.state.stage.head?.toList) run.state.inner.2 := by
  have hstart : Lookahead.Knows (fun given (s : σ × Std.TreeSet α cmp) => Remembers given s.2) []
      (.start (s, ∅)) := ⟨.nil, by simp [Lookahead.start, Stage.head?], rfl⟩
  exact Lookahead.run_knows (pull_remembers c) hstart hpolls

/-- Without a close, a cursor without repetitions has handed out distinct elements, and the one
ahead differs from them all. These are the elements that are remembered, and what can be asked for
is their number. It is the number of elements handed out exactly when there is none ahead. -/
theorem seen_counts_ahead :
    (∀ (c : EndingSource σ α ε) s polls, .close ∉ polls →
      let run := (Lookahead.cursor (source c)).run (.start (s, (∅ : Std.TreeSet α cmp))) polls
      let given := delivered run.answers ++ run.state.stage.head?.toList
      given.Nodup ∧ (∀ x, x ∈ run.state.inner.2 ↔ x ∈ given) ∧
        run.state.inner.2.size = given.length) ∧
    ∀ (p : Plan) polls, .close ∉ polls →
      let run := (Plan.distinct p).cursor.run (Plan.distinct p).start polls
      let handed := delivered run.answers
      let ahead := Stage.head? (Lookahead.stage run.state)
      handed.Nodup ∧
      Tree.seenCount? ⟨.distinct p, run.state⟩ = some (handed.length + arrived ahead) ∧
      (Tree.seenCount? ⟨.distinct p, run.state⟩ = some handed.length ↔ ahead = none) := by
  refine ⟨fun c s polls hpolls => ?_, fun p polls hpolls => ?_⟩
  · intro run given
    have hrun : Remembers given run.state.inner.2 := run_remembers c s hpolls
    exact ⟨hrun.nodup, hrun.mem_iff, hrun.size⟩
  · intro run handed ahead
    have hrun : Remembers (handed ++ ahead.toList)
        (Lookahead.inner (κ := p.State × Element.SortedSet) run.state).2 :=
      run_remembers p.cursor.toEndingSource p.start hpolls
    have hsize := hrun.size
    rw [List.length_append, length_toList] at hsize
    have hcount : Tree.seenCount? ⟨.distinct p, run.state⟩ = some (handed.length + arrived ahead) :=
      congrArg some hsize
    refine ⟨(List.nodup_append.mp hrun.nodup).1, hcount, ?_⟩
    rw [hcount, Option.some_inj, Nat.add_eq_left]
    cases ahead with
    | none => exact iff_of_true rfl rfl
    | some x => exact iff_of_false (Nat.succ_ne_zero 0) nofun

end Remembers

theorem seen_counts_ahead_of_two :
    let p : Plan := .items [.int 1, .int 1, .int 2]
    let polls : List Operation := [.pull, .hasNext]
    let run := (Plan.distinct p).cursor.run (Plan.distinct p).start polls
    .close ∉ polls ∧ (delivered run.answers).length = 1 ∧
      Tree.seenCount? ⟨.distinct p, run.state⟩ = some 2 := by
  intro p polls run
  have hpolls : .close ∉ polls := by decide
  have hcounts := @seen_counts_ahead p.State Element Fault Element.order _ _
  obtain ⟨-, hcount, -⟩ := hcounts.2 p polls hpolls
  have hhanded : (delivered run.answers).length = 1 := by decide +kernel
  have hahead : arrived (Stage.head? (Lookahead.stage run.state)) = 1 := by decide +kernel
  rw [hhanded, hahead] at hcount
  exact ⟨hpolls, hhanded, hcount⟩

/-- The count runs ahead of the caller: an element that has only been asked for is in it. -/
theorem seen_counts_before_handing_out :
    let p : Plan := .distinct (.items [.int 1])
    let run := p.cursor.run p.start [.hasNext]
    (delivered run.answers).length = 0 ∧ Tree.seenCount? ⟨p, run.state⟩ = some 1 := by
  decide +kernel

end Distinct

end PullCursor
