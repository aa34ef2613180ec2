import Mathlib.Data.List.Induction
import PullCursor.Plan.Basic
import PullCursor.Proofs.Ahead.Basic
import PullCursor.Proofs.Schedule

/-! A tree keeps at most one element between calls, however many of its cursors have a lookahead. -/
namespace PullCursor

variable {σ α β ε : Type}

namespace Keeping

variable {k : Keeping σ β} {c : Cursor σ α ε}

theorem KeepsInFront.call (h : k.KeepsInFront c) {s : σ} (hs : k.sound s) (op : Operation) :
    k.sound (c.call s op).state ∧
      (k.kept (c.call s op).state ≠ [] → (c.call s op).answer = .hasNext (.ok true)) := by
  cases op with
  | hasNext =>
    refine ⟨h.hasNext hs, fun hkept => congrArg Answer.hasNext ?_⟩
    exact Classical.not_not.mp (mt (h.unless_yes hs) hkept)
  | next => exact ⟨h.sound (h.next hs), fun hkept => absurd (h.next hs) hkept⟩
  | pull => exact ⟨h.sound (h.pull hs), fun hkept => absurd (h.pull hs) hkept⟩
  | close => exact ⟨h.sound (h.close hs), fun hkept => absurd (h.close hs) hkept⟩

theorem KeepsInFront.run (h : k.KeepsInFront c) {s : σ} (hs : k.kept s = [])
    (ops : List Operation) :
    k.sound (c.run s ops).state ∧ (k.kept (c.run s ops).state ≠ [] →
      (c.run s ops).answers.getLast? = some (.hasNext (.ok true))) := by
  induction ops using List.reverseRecOn with
  | nil => exact ⟨h.sound hs, fun hkept => absurd hs hkept⟩
  | append_singleton ops op ih =>
    obtain ⟨hsound, hanswer⟩ := h.call ih.1 op
    rw [Cursor.run_concat]
    refine ⟨hsound, fun hkept => ?_⟩
    rw [Cursor.extend, List.getLast?_concat, hanswer hkept]

theorem Rests.leaf (c : Source σ α ε) : Rests (fun _ => ([] : List β)) c :=
  ⟨fun _ _ => rfl, fun _ _ => rfl⟩

theorem keepsInFront_bare (c : Cursor σ α ε) :
    (⟨fun _ => none, fun _ => [], fun _ => True⟩ : Keeping σ β).KeepsInFront c where
  behind _ := rfl
  sound _ := trivial
  hasNext _ := trivial
  unless_yes _ _ := rfl
  next _ := rfl
  pull _ := rfl
  close _ := rfl

end Keeping

namespace Plan

/-- The element in the first lookahead that is reached from the root through layers without one. -/
def front : (p : Plan) → p.State → Option Element
  | .nothing, _ | .manual _ _ _, _ => none
  | .map _ p, s | .reword _ p, s | .convert _ p, s | .limit _ p, s => p.front (Prod.fst s)
  | .boxed p, s => p.front s
  | .items _, s | .queue _, s => (s : Lookahead (List Element) Element).stage.head?
  | .counter _ _, s => (s : Lookahead Leaf.Counter Element).stage.head?
  | .iterator _ _, s | .generator _ _ _, s => (s : Lookahead Script Element).stage.head?
  | .single _, s => (s : Lookahead (Option Element) Element).stage.head?
  | .probe _ _, s => (s : Lookahead (Leaf.Probe Element) Element).stage.head?
  | .filter _ p, s => (s : Lookahead (p.State × History Element) Element).stage.head?
  | .distinct p, s => (s : Lookahead (p.State × Element.SortedSet) Element).stage.head?
  | .peekable p, s => (s : Lookahead p.State Element).stage.head?
  | .concat _ _ children _, s =>
      (s : Lookahead (Series (Σ i, (children i).State)) Element).stage.head?

def behind : (p : Plan) → p.State → List Element
  | .map _ p, s | .reword _ p, s | .convert _ p, s | .limit _ p, s => p.behind (Prod.fst s)
  | .boxed p, s => p.behind s
  | .filter _ p, s =>
      let below := (s : Lookahead (p.State × History Element) Element).inner.1
      (p.front below).toList ++ p.behind below
  | .distinct p, s =>
      let below := (s : Lookahead (p.State × Element.SortedSet) Element).inner.1
      (p.front below).toList ++ p.behind below
  | .peekable p, s =>
      let below := (s : Lookahead p.State Element).inner
      (p.front below).toList ++ p.behind below
  | .concat _ _ children _, s =>
      Keeping.series (fun below => ((children below.1).front below.2).toList ++
        (children below.1).behind below.2)
        (s : Lookahead (Series (Σ i, (children i).State)) Element).inner
  | _, _ => []

def kept (p : Plan) (s : p.State) : List Element := (p.front s).toList ++ p.behind s

def Sound : (p : Plan) → p.State → Prop
  | .map _ p, s | .reword _ p, s | .convert _ p, s => p.Sound (Prod.fst s)
  | .boxed p, s => p.Sound s
  | .limit _ p, s => p.Sound (Prod.fst s) ∧ (Prod.snd s = 0 → p.kept (Prod.fst s) = [])
  | .nothing, _ | .manual _ _ _, _ => True
  | p, s => p.behind s = []

def keeping (p : Plan) : Keeping p.State Element := ⟨p.front, p.behind, p.Sound⟩

theorem probe_keepsInFront (o : Leaf.ProbeOrders) :
    (Keeping.ahead fun _ => ([] : List Element)).KeepsInFront (Leaf.probe o).toCursor := by
  refine (Keeping.Rests.leaf (Leaf.Probe.source o).toSource).lookaheadBy fun {s} hs => ?_
  -- Each close is counted before the lookahead closes.
  exact (Keeping.Rests.leaf (Leaf.Probe.source o).toSource).close_empties hs

theorem keepsInFront (p : Plan) : p.keeping.KeepsInFront p.cursor.toCursor := by
  -- A lookahead empties what is below it; the other layers hand on what is kept there.
  induction p with
  | nothing => exact Keeping.keepsInFront_bare _
  | manual id scripts ownPull => exact Keeping.keepsInFront_bare _
  | probe orders xs => exact probe_keepsInFront orders
  | filter test p ih =>
    have hbelow : Keeping.Rests p.kept p.cursor.toEndingSource.toSource := ih.rests
    exact (hbelow.filter .tested test).lookahead
  | distinct p ih =>
    have hbelow : Keeping.Rests p.kept p.cursor.toEndingSource.toSource := ih.rests
    exact (hbelow.distinct _).lookahead
  | map f p ih => exact ih.map .applied f
  | reword f p ih => exact ih.answering (Reword.answer .reworded f)
  | convert f p ih => exact ih.answering (Convert.answer .reworded f .unconverted)
  | peekable p ih => exact ih.rests.lookahead
  | limit n p ih => exact ih.limit
  | boxed p ih => exact ih
  | concat id n children gaps ih => exact (Keeping.Rests.family ih).series.lookahead
  | _ => exact (Keeping.Rests.leaf _).lookahead

theorem kept_start (p : Plan) : p.kept p.start = [] := by
  induction p with
  | filter test p ih => exact ih
  | map f p ih => exact ih
  | reword f p ih => exact ih
  | convert f p ih => exact ih
  | distinct p ih => exact ih
  | peekable p ih => exact ih
  | limit n p ih => exact ih
  | boxed p ih => exact ih
  | concat id n children gaps ih =>
    refine Keeping.series_eq_nil.mpr ⟨nofun, fun child hchild => ?_⟩
    obtain ⟨i, -, hi⟩ := List.mem_flatMap.mp hchild
    rcases List.mem_append.mp hi with hgap | hi
    · exact absurd (List.eq_of_mem_replicate hgap) nofun
    · cases List.mem_singleton.mp hi
      exact ih i
  | _ => rfl

/-- Between the calls of any run of a tree, failures and panics included, no lookahead below another
one keeps an element. So the tree keeps one element at most, however many lookaheads stand on top
of each other or side by side, and it is where a single one would keep it: in the first lookahead
below the root. That happens only after a question that was answered with yes; every other call
leaves nothing read ahead. -/
theorem keeps_one_ahead (p : Plan) (ops : List Operation) :
    let r := p.cursor.toCursor.run p.start ops
    p.behind r.state = [] ∧ p.kept r.state = (p.front r.state).toList ∧
      (p.kept r.state).length ≤ 1 ∧
      (p.kept r.state ≠ [] → r.answers.getLast? = some (.hasNext (.ok true))) := by
  intro r
  obtain ⟨hsound, hanswer⟩ := p.keepsInFront.run p.kept_start ops
  have hbehind : p.behind r.state = [] := p.keepsInFront.behind hsound
  have hkept : p.kept r.state = (p.front r.state).toList := by
    rw [kept, hbehind, List.append_nil]
  refine ⟨hbehind, hkept, ?_, hanswer⟩
  rw [hkept]
  cases p.front r.state <;> simp

end Plan

end PullCursor
