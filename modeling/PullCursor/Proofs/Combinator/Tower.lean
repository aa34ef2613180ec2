import PullCursor.Proofs.Combinator.Pull
import PullCursor.Proofs.Course.Follows

/-! Towers of layers that answer faults. A fault from below goes through the layers from the lowest
to the highest, and each of them asks its function once. Nothing else is touched on its way up. -/
namespace PullCursor

variable {σ α β ε ε' ε'' : Type}

namespace Stop

def map (f : ε → ε') : Stop ε → Stop ε'
  | .exhausted => .exhausted
  | .failed e => .failed (f e)

def fault? : Stop ε → Option ε
  | .exhausted => none
  | .failed e => some e

end Stop

namespace Answer

def failure? : Answer α ε → Option ε
  | .hasNext o => o.fault?
  | .next o => o.fault?.bind Stop.fault?
  | .pull o => o.fault?
  | .close o => o.fault?

def mapFault (f : ε → ε') : Answer α ε → Answer α ε'
  | .hasNext o => .hasNext (o.mapError f)
  | .next o => .next (o.mapError (Stop.map f))
  | .pull o => .pull (o.mapError f)
  | .close o => .close (o.mapError f)

theorem failure?_mapFault (f : ε → ε') (a : Answer α ε) :
    (a.mapFault f).failure? = a.failure?.map f := by
  cases a with
  | next o => rcases o with _ | (_ | _) | _ <;> rfl
  | _ o => cases o <;> rfl

theorem mapFault_id (a : Answer α ε) : a.mapFault id = a := by
  cases a with
  | next o => rcases o with _ | (_ | _) | _ <;> rfl
  | _ o => cases o <;> rfl

theorem mapFault_mapFault (f : ε → ε') (g : ε' → ε'') (a : Answer α ε) :
    (a.mapFault f).mapFault g = a.mapFault fun e => g (f e) := by
  cases a with
  | next o => rcases o with _ | (_ | _) | _ <;> rfl
  | _ o => cases o <;> rfl

end Answer

def failures (answers : List (Answer α ε)) : List ε := answers.filterMap Answer.failure?

theorem failures_cons (a : Answer α ε) (answers : List (Answer α ε)) :
    failures (a :: answers) = a.failure?.toList ++ failures answers :=
  filterMap_cons_toList Answer.failure? a answers

namespace Callback

def value (f : Callback α β) (returns : f.Returns) (earlier : History α) (x : α) : β :=
  match h : f.answer earlier x with
  | .ok y => y
  | .error _ => by
    exfalso
    obtain ⟨y, hy⟩ := returns earlier x
    rw [hy] at h
    cases h

theorem answer_eq (f : Callback α β) (returns : f.Returns) (earlier : History α) (x : α) :
    f.answer earlier x = .ok (f.value returns earlier x) := by
  unfold value
  split
  · next y h => exact h
  · next m h =>
    obtain ⟨y, hy⟩ := returns earlier x
    rw [hy] at h
    cases h

def values (f : Callback α β) (returns : f.Returns) : History α → List α → List β
  | _, [] => []
  | earlier, x :: rest => f.value returns earlier x :: values f returns (earlier.add x) rest

/-- A function that may decline, made into one that does not: what it declines is wrapped. -/
def settled (f : Callback ε (Except ε ε')) (declined : ε → ε') : Callback ε ε' where
  id := f.id
  answer earlier e := (f.answer earlier e).map fun
    | .ok converted => converted
    | .error kept => declined kept

theorem Returns.settled {f : Callback ε (Except ε ε')} (h : f.Returns) (declined : ε → ε') :
    (f.settled declined).Returns := by
  intro earlier e
  obtain ⟨y, hy⟩ := h earlier e
  exact ⟨_, congrArg (Except.map _) hy⟩

end Callback

theorem Convert.answer_eq_reword {δ : Type} (mark : String → ε → Event)
    (f : Callback ε (Except ε ε')) (declined : ε → ε') (e : ε) :
    (Convert.answer mark f declined e : Action (History ε) δ ε') =
      Reword.answer mark (f.settled declined) e := by
  funext earlier
  unfold Convert.answer Reword.answer
  rw [Action.bind_apply]
  cases h : f.answer earlier e with
  | ok y =>
    rw [Callback.call_ok h, Callback.call_ok (f := f.settled declined) (congrArg (Except.map _) h)]
    cases y <;> simp <;> rfl
  | error m =>
    rw [Callback.call_panic h,
      Callback.call_panic (f := f.settled declined) (congrArg (Except.map _) h)]
    rfl

theorem Cursor.answering_convert (c : Cursor σ α ε) (mark : String → ε → Event)
    (f : Callback ε (Except ε ε')) (declined : ε → ε') :
    c.answering (Convert.answer mark f declined) =
      c.answering (Reword.answer mark (f.settled declined)) := by
  unfold Cursor.answering
  simp only [Convert.answer_eq_reword]

inductive FaultLayer (ε ε' : Type) where
  | reword (f : Callback ε ε') (returns : f.Returns)
  | convert (f : Callback ε (Except ε ε')) (returns : f.Returns) (declined : ε → ε')

namespace FaultLayer

def function : FaultLayer ε ε' → Callback ε ε'
  | reword f _ => f
  | convert f _ declined => f.settled declined

theorem returns : (layer : FaultLayer ε ε') → layer.function.Returns
  | reword _ returns => returns
  | convert _ returns declined => returns.settled declined

def above (c : Cursor σ α ε) (mark : String → ε → Event) :
    FaultLayer ε ε' → Cursor (σ × History ε) α ε'
  | reword f _ => c.answering (Reword.answer mark f)
  | convert f _ declined => c.answering (Convert.answer mark f declined)

theorem above_eq (c : Cursor σ α ε) (mark : String → ε → Event) (layer : FaultLayer ε ε') :
    layer.above c mark = c.answering (Reword.answer mark layer.function) := by
  cases layer with
  | reword f returns => rfl
  | convert f returns declined => exact c.answering_convert mark f declined

def answer (layer : FaultLayer ε ε') : History ε → ε → ε' := layer.function.value layer.returns

/-- The layer hands every fault back, and `unwrap` takes off what it wraps around it. -/
def UndoneBy : FaultLayer ε ε' → (ε' → Option ε) → Prop
  | reword _ _, _ => False
  | convert f _ declined, unwrap =>
      (∀ earlier e, f.answer earlier e = .ok (.error e)) ∧ ∀ e, unwrap (declined e) = some e

theorem UndoneBy.answer {layer : FaultLayer ε ε'} {unwrap : ε' → Option ε}
    (h : layer.UndoneBy unwrap) (earlier : History ε) (e : ε) :
    unwrap (layer.answer earlier e) = some e := by
  cases layer with
  | reword f returns => exact h.elim
  | convert f returns declined =>
    have hsettled : (f.settled declined).answer earlier e = .ok (declined e) :=
      congrArg (Except.map _) (h.1 earlier e)
    have hvalue := (f.settled declined).answer_eq (returns.settled declined) earlier e
    rw [hsettled] at hvalue
    show unwrap ((f.settled declined).value (returns.settled declined) earlier e) = some e
    rw [← Except.ok.inj hvalue]
    exact h.2 e

section Above

variable (c : Cursor σ α ε) (mark : String → ε → Event) (layer : FaultLayer ε ε')
  (s : σ × History ε)

def noted (earlier : History ε) (fault : Option ε) : History ε := fault.elim earlier earlier.add

def heard (fault : Option ε) : List Event :=
  fault.elim [] fun e => layer.function.id.toList.map (mark · e)

theorem answer_apply {δ : Type} (earlier : History ε) (e : ε) :
    (Reword.answer mark layer.function e earlier : Reply _ δ ε') =
      ⟨.ok (layer.answer earlier e), earlier.add e, layer.function.id.toList.map (mark · e)⟩ :=
  Callback.call_ok (layer.function.answer_eq layer.returns earlier e)

theorem handle_apply (m : Action σ ε β) :
    m.onFst.handle (fun e => (Reword.answer mark layer.function e).failWith id) s =
      let r := m s.1
      ⟨r.outcome.mapError (layer.answer s.2), (r.state, noted s.2 r.outcome.fault?),
        r.trace ++ heard mark layer r.outcome.fault?⟩ := by
  rw [Action.handle_onFst]
  rcases m s.1 with ⟨x | e | p, s', t⟩
  · simp [Outcome.mapError, Outcome.fault?, noted, heard]
  · simp only [Action.failWith_apply, answer_apply]
    rfl
  · simp [Outcome.mapError, Outcome.fault?, noted, heard]

theorem next_apply :
    (c.answering (Reword.answer mark layer.function)).next s =
      let r := c.next s.1
      let fault := r.outcome.fault?.bind Stop.fault?
      ⟨r.outcome.mapError (Stop.map (layer.answer s.2)), (r.state, noted s.2 fault),
        r.trace ++ heard mark layer fault⟩ := by
  rw [Cursor.PullsByNext.answering_next_eq]
  rcases c.next s.1 with ⟨x | (_ | e) | p, s', t⟩
  · simp [Outcome.mapError, Outcome.fault?, noted, heard]
  · simp [Outcome.mapError, Outcome.fault?, noted, heard, Stop.map, Stop.fault?]
  · simp only [Action.failWith_apply, answer_apply]
    rfl
  · simp [Outcome.mapError, Outcome.fault?, noted, heard]

theorem call_above (op : Operation) :
    (layer.above c mark).call s op =
      let r := c.call s.1 op
      ⟨r.answer.mapFault (layer.answer s.2), (r.state, noted s.2 r.answer.failure?),
        r.trace ++ heard mark layer r.answer.failure?⟩ := by
  rw [above_eq]
  cases op with
  | hasNext =>
    exact congrArg (fun r => Called.mk (.hasNext r.outcome) r.state r.trace)
      (handle_apply mark layer s c.hasNext)
  | next =>
    exact congrArg (fun r => Called.mk (.next r.outcome) r.state r.trace)
      (next_apply c mark layer s)
  | pull =>
    exact congrArg (fun r => Called.mk (.pull r.outcome) r.state r.trace)
      (handle_apply mark layer s c.pull)
  | close =>
    exact congrArg (fun r => Called.mk (.close r.outcome) r.state r.trace)
      (handle_apply mark layer s c.close)

end Above

end FaultLayer

/-- Layers on top of one another, the lowest on the ground. The faults that come from below are of
the first type, those that leave the highest layer of the second. -/
inductive Tower (ε : Type) : Type → Type 1 where
  | ground : Tower ε ε
  | add {ε' ε'' : Type} (below : Tower ε ε') (mark : String → ε' → Event)
      (layer : FaultLayer ε' ε'') : Tower ε ε''

namespace Tower

def State (σ : Type) {ε : Type} : {ε' : Type} → Tower ε ε' → Type
  | _, .ground => σ
  | _, @add _ ε' _ below _ _ => below.State σ × History ε'

def cursor (c : Cursor σ α ε) : {ε' : Type} → (t : Tower ε ε') → Cursor (t.State σ) α ε'
  | _, .ground => c
  | _, .add below mark layer => layer.above (below.cursor c) mark

/-- What the functions of all layers have been asked about. -/
def Past {ε : Type} : {ε' : Type} → Tower ε ε' → Type
  | _, .ground => Unit
  | _, @add _ ε' _ below _ _ => below.Past × History ε'

def fresh : {ε' : Type} → (t : Tower ε ε') → t.Past
  | _, .ground => ()
  | _, .add below _ _ => (below.fresh, .empty)

def join (s : σ) : {ε' : Type} → (t : Tower ε ε') → t.Past → t.State σ
  | _, .ground, _ => s
  | _, .add below _ _, past => (below.join s past.1, past.2)

def answer : {ε' : Type} → (t : Tower ε ε') → t.Past → ε → ε'
  | _, .ground, _, e => e
  | _, .add below _ layer, past, e => layer.answer past.2 (below.answer past.1 e)

def after : {ε' : Type} → (t : Tower ε ε') → t.Past → ε → t.Past
  | _, .ground, _, _ => ()
  | _, .add below _ _, past, e => (below.after past.1 e, past.2.add (below.answer past.1 e))

def heard : {ε' : Type} → (t : Tower ε ε') → t.Past → ε → List Event
  | _, .ground, _, _ => []
  | _, .add below mark layer, past, e =>
      below.heard past.1 e ++ layer.function.id.toList.map (mark · (below.answer past.1 e))

theorem call_eq (t : Tower ε ε') (c : Cursor σ α ε) (s : σ) (past : t.Past) (op : Operation) :
    (t.cursor c).call (t.join s past) op =
      let r := c.call s op
      ⟨r.answer.mapFault (t.answer past),
        t.join r.state (r.answer.failure?.elim past (t.after past)),
        r.trace ++ r.answer.failure?.elim [] (t.heard past)⟩ := by
  -- A layer hears what the layers below it have made of the fault.
  induction t with
  | ground =>
    show c.call s op = ⟨(c.call s op).answer.mapFault id, (c.call s op).state, _⟩
    rw [Answer.mapFault_id]
    cases (c.call s op).answer.failure? <;> simp [heard]
  | add below mark layer ih =>
    show (layer.above (below.cursor c) mark).call (below.join s past.1, past.2) op = _
    rw [layer.call_above, ih]
    simp only [Answer.failure?_mapFault, Answer.mapFault_mapFault]
    cases (c.call s op).answer.failure? with
    | none =>
      simp only [FaultLayer.heard, Option.map_none, Option.elim_none, List.append_nil]
      rfl
    | some e =>
      simp only [FaultLayer.heard, Option.map_some, Option.elim_some, List.append_assoc]
      rfl

/-- What becomes of the faults of a whole run, one layer after the other. -/
def image : {ε' : Type} → (t : Tower ε ε') → t.Past → List ε → List ε'
  | _, .ground, _, faults => faults
  | _, .add below _ layer, past, faults =>
      layer.function.values layer.returns past.2 (below.image past.1 faults)

/-- Each function has been asked about what the layers below it made of these faults. -/
def grown : {ε' : Type} → (t : Tower ε ε') → t.Past → List ε → t.Past
  | _, .ground, _, _ => ()
  | _, .add below _ _, past, faults =>
      (below.grown past.1 faults, (below.image past.1 faults).foldl History.add past.2)

theorem image_cons (t : Tower ε ε') (past : t.Past) (e : ε) (rest : List ε) :
    t.image past (e :: rest) = t.answer past e :: t.image (t.after past e) rest := by
  induction t with
  | ground => rfl
  | add below mark layer ih =>
    show layer.function.values layer.returns past.2 (below.image past.1 (e :: rest)) = _
    rw [ih]
    rfl

theorem grown_cons (t : Tower ε ε') (past : t.Past) (e : ε) (rest : List ε) :
    t.grown past (e :: rest) = t.grown (t.after past e) rest := by
  induction t with
  | ground => rfl
  | add below mark layer ih =>
    show (below.grown past.1 (e :: rest), (below.image past.1 (e :: rest)).foldl _ past.2) = _
    rw [ih, image_cons]
    rfl

theorem image_nil (t : Tower ε ε') (past : t.Past) : t.image past [] = [] := by
  induction t with
  | ground => rfl
  | add below mark layer ih =>
    show layer.function.values layer.returns past.2 (below.image past.1 []) = []
    rw [ih]
    rfl

theorem grown_nil (t : Tower ε ε') (past : t.Past) : t.grown past [] = past := by
  induction t with
  | ground => rfl
  | add below mark layer ih =>
    show (below.grown past.1 [], (below.image past.1 []).foldl _ past.2) = past
    rw [ih, image_nil]
    rfl

theorem run_eq (t : Tower ε ε') (c : Cursor σ α ε) (s : σ) (past : t.Past)
    (ops : List Operation) :
    let below := c.run s ops
    let above := (t.cursor c).run (t.join s past) ops
    above.state = t.join below.state (t.grown past (failures below.answers)) ∧
      above.answers.map (Answer.mapFault fun _ => ()) =
        below.answers.map (Answer.mapFault fun _ => ()) ∧
      failures above.answers = t.image past (failures below.answers) := by
  -- Each call adds one fault at most, which every function is asked about before the next call.
  induction ops generalizing s past with
  | nil =>
    refine ⟨?_, rfl, (image_nil t past).symm⟩
    exact congrArg (t.join s) (grown_nil t past).symm
  | cons op rest ih =>
    simp only [Cursor.run, call_eq, failures_cons, Answer.failure?_mapFault, List.map_cons,
      Answer.mapFault_mapFault]
    obtain ⟨hstate, hanswers, hfailures⟩ := ih (c.call s op).state
      ((c.call s op).answer.failure?.elim past (t.after past))
    rw [hstate, hanswers, hfailures]
    cases (c.call s op).answer.failure? with
    | none => exact ⟨rfl, rfl, rfl⟩
    | some e => exact ⟨by simp [grown_cons], rfl, by simp [image_cons]⟩

theorem run_noted (t : Tower ε ε') (c : Cursor σ α ε) (s : σ) (past : t.Past)
    (calls ops : List Operation) :
    let below := c.run s ops
    let above := (t.cursor c).run (t.join s past) ops
    (t.cursor c.noted).run (t.join (s, calls) past) ops =
      ⟨above.answers, t.join (below.state, calls ++ ops) (t.grown past (failures below.answers)),
        above.trace⟩ := by
  induction ops generalizing s past calls with
  | nil => simp [Cursor.run, failures, grown_nil]
  | cons op rest ih =>
    simp only [Cursor.run, call_eq, Cursor.call_noted, ih, failures_cons, List.append_assoc,
      List.singleton_append]
    cases (c.call s op).answer.failure? with
    | none => rfl
    | some e => simp [grown_cons]

def UndoneBy : {ε' : Type} → Tower ε ε' → (ε' → Option ε) → Prop
  | _, .ground, unwrap => unwrap = some
  | _, .add below _ layer, unwrap =>
      ∃ outer inner, layer.UndoneBy outer ∧ below.UndoneBy inner ∧ unwrap = (outer · >>= inner)

theorem UndoneBy.answer {t : Tower ε ε'} {unwrap : ε' → Option ε} (h : t.UndoneBy unwrap)
    (past : t.Past) (e : ε) : unwrap (t.answer past e) = some e := by
  induction t with
  | ground => exact congrFun h e
  | add below mark layer ih =>
    obtain ⟨outer, inner, houter, hinner, rfl⟩ := h
    show (outer (layer.answer past.2 (below.answer past.1 e)) >>= inner) = some e
    rw [houter.answer]
    exact ih hinner past.1

theorem UndoneBy.image {t : Tower ε ε'} {unwrap : ε' → Option ε} (h : t.UndoneBy unwrap)
    (past : t.Past) (faults : List ε) : (t.image past faults).map unwrap = faults.map some := by
  induction faults generalizing past with
  | nil => rw [image_nil, List.map_nil, List.map_nil]
  | cons e rest ih => rw [image_cons, List.map_cons, List.map_cons, h.answer, ih]

/-- Any cursor, any layers on top of it and any calls, from any state. Each call on the tower is
that call on the cursor and no other. The answers differ in nothing but the faults, and a fault is
put to every function once, from the lowest layer to the highest, in the order in which the faults
occur: the functions have then been asked about `image` of the layers below them, and what leaves
the tower is `image` of them all. A call without a fault is put to none. Declining is an answer like
others, and faults that are declined everywhere are still there, under one wrapping for each
layer. -/
theorem faults_answered_once (t : Tower ε ε') (c : Cursor σ α ε) (s : σ) (past : t.Past)
    (ops : List Operation) :
    let below := c.run s ops
    let above := (t.cursor c).run (t.join s past) ops
    let faults := failures below.answers
    let asked := t.grown past faults
    (t.cursor c.noted).run (t.join (s, []) past) ops =
      ⟨above.answers, t.join (below.state, ops) asked, above.trace⟩ ∧
    above.state = t.join below.state asked ∧
    above.answers.map (Answer.mapFault fun _ => ()) =
      below.answers.map (Answer.mapFault fun _ => ()) ∧
    failures above.answers = t.image past faults ∧
    (∀ op, (t.cursor c).call above.state op =
      let r := c.call below.state op
      match r.answer.failure? with
      | none => ⟨r.answer.mapFault (t.answer asked), t.join r.state asked, r.trace⟩
      | some e => ⟨r.answer.mapFault (t.answer asked), t.join r.state (t.after asked e),
          r.trace ++ t.heard asked e⟩) ∧
    (∀ {ε'' : Type} (mark : String → ε' → Event) (f : Callback ε' (Except ε' ε''))
      (declined : ε' → ε''), (t.cursor c).answering (Convert.answer mark f declined) =
        (t.cursor c).answering (Reword.answer mark (f.settled declined))) ∧
    ∀ unwrap, t.UndoneBy unwrap → (failures above.answers).map unwrap = faults.map some := by
  intro below above faults asked
  obtain ⟨hstate, hanswers, hfailures⟩ := run_eq t c s past ops
  refine ⟨run_noted t c s past [] ops, hstate, hanswers, hfailures, ?_, ?_, ?_⟩
  · intro op
    rw [hstate, call_eq]
    dsimp only
    cases (c.call below.state op).answer.failure? with
    | none => simp only [Option.elim_none, List.append_nil]; rfl
    | some e => rfl
  · intro ε'' mark f declined
    exact (t.cursor c).answering_convert mark f declined
  · intro unwrap h
    rw [hfailures]
    exact h.image past faults

theorem faults_answered_once_declined :
    let leaf : Plan :=
      .manual "leaf" ⟨[.value (.bool true)], [.fail (.element 3)], [.fail .release], []⟩ false
    let back (id : String) : Callback Fault (Except Fault Fault) :=
      ⟨some id, fun _ e => .ok (.error e)⟩
    let layer (id : String) : FaultLayer Fault Fault :=
      .convert (back id) (fun _ e => ⟨.error e, rfl⟩) .unconverted
    let t : Tower Fault Fault :=
      .add (.add .ground .reworded (layer "low")) .reworded (layer "high")
    let unwrap : Fault → Option Fault := (Fault.cause? · >>= (Fault.cause? · >>= some))
    let p : Plan := .convert (back "high") (.convert (back "low") leaf)
    let run := p.cursor.run p.start [.hasNext, .next, .next, .close]
    t.cursor leaf.cursor.toCursor = p.cursor.toCursor ∧ t.UndoneBy unwrap ∧
      failures run.answers =
        [.unconverted (.unconverted (.element 3)), .unconverted (.unconverted .release)] ∧
      (failures run.answers).map unwrap = [some (.element 3), some .release] ∧
      run.trace = [.called "leaf" .hasNext, .called "leaf" .next, .reworded "low" (.element 3),
        .reworded "high" (.unconverted (.element 3)), .called "leaf" .next, .called "leaf" .close,
        .reworded "low" .release, .reworded "high" (.unconverted .release)] := by
  intro leaf back layer t unwrap p run
  have hundone : t.UndoneBy unwrap := by
    refine ⟨Fault.cause?, _, ⟨fun _ _ => rfl, fun _ => rfl⟩, ?_, rfl⟩
    exact ⟨Fault.cause?, some, ⟨fun _ _ => rfl, fun _ => rfl⟩, rfl, rfl⟩
  obtain ⟨-, -, -, -, -, -, hunwrap⟩ := faults_answered_once t leaf.cursor.toCursor leaf.start
    t.fresh [.hasNext, .next, .next, .close]
  exact ⟨rfl, hundone, rfl, hunwrap unwrap hundone, rfl⟩

end Tower

end PullCursor
