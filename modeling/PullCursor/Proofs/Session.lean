import PullCursor.Proofs.Schedule
import PullCursor.Session.Run

/-! Sessions and cursors. The steps that call an operation of the cursor in a slot are a run of that
cursor, whatever is done in the other slots meanwhile. -/
namespace PullCursor.Session

def commandOf : Operation → Command
  | .hasNext => .hasNext
  | .next => .next
  | .pull => .pull
  | .close => .close

def answerOfCall : PullCursor.Answer Element Fault → Answer
  | .hasNext o => answerOf (.ok ∘ .flag) o
  | .next o => answerOfNext o
  | .pull o => answerOf (.ok ∘ .optional) o
  | .close o => answerOf (fun _ => .ok .done) o

def operationOf : Command → Option Operation
  | .hasNext => some .hasNext
  | .next => some .next
  | .pull => some .pull
  | .close => some .close
  | _ => none

/-- The operation that the step calls on the cursor in this slot. -/
def Step.operation? (i : Nat) (step : Step) : Option Operation :=
  if step.slot = i then operationOf step.command else none

def Step.places (step : Step) : List Nat :=
  match step.command with
  | .closeAll places _ => places
  | .chain j | .agree j => [step.slot, j]
  | _ => [step.slot]

def after (s : Session) : List Step → Session
  | [] => s
  | first :: rest => (s.step first).2.after rest

/-- What was recorded of the calls on the cursor in this slot. -/
def recordsAt (i : Nat) (steps : List Step) (records : List Record) : List Record :=
  (steps.zip records).filterMap fun p => (p.1.operation? i).map fun _ => p.2

variable {slots : List Slot} {step : Step} {i : Nat}

theorem commandOf_of_operationOf {command : Command} {op : Operation}
    (h : operationOf command = some op) : command = commandOf op := by
  cases command <;> cases h <;> rfl

theorem onCursor_commandOf (p : Plan) (t : p.State) (op : Operation) :
    onCursor ⟨p, t⟩ (commandOf op) =
      some ⟨answerOfCall (p.cursor.toCursor.call t op).answer,
        .cursor ⟨p, (p.cursor.toCursor.call t op).state⟩, (p.cursor.toCursor.call t op).trace⟩ := by
  cases op <;> rfl

theorem stepSlots_call {p : Plan} {t : p.State} {op : Operation}
    (h : slots[i]? = some (.cursor ⟨p, t⟩)) (hop : step.operation? i = some op) :
    let called := p.cursor.toCursor.call t op
    stepSlots slots step =
      (answerOfCall called.answer, slots.set i (.cursor ⟨p, called.state⟩), called.trace) := by
  intro called
  obtain ⟨slot, command⟩ := step
  unfold Step.operation? at hop
  split at hop
  next hslot =>
    have hcommand : command = commandOf op := commandOf_of_operationOf hop
    have hslots : slots[slot]? = some (.cursor ⟨p, t⟩) := by rw [← h, ← hslot]
    have hchange := onCursor_commandOf p t op
    subst hcommand hslot
    cases op <;> simp only [commandOf] at hchange ⊢ <;>
      simp only [stepSlots, hslots, hchange] <;> rfl
  next => cases hop

theorem foldl_set_elsewhere {put : List (Nat × Slot)} (h : i ∉ put.map Prod.fst) :
    (put.foldl (fun slots p => slots.set p.1 p.2) slots)[i]? = slots[i]? := by
  induction put generalizing slots with
  | nil => rfl
  | cons first rest ih =>
    rw [List.map_cons, List.mem_cons, not_or] at h
    rw [List.foldl_cons, ih h.2, List.getElem?_set_ne (Ne.symm h.1)]

theorem mem_places_of_cursorsAt {places : List Nat}
    (h : i ∈ (cursorsAt slots places).map Prod.fst) : i ∈ places := by
  obtain ⟨⟨j, t⟩, hmem, rfl⟩ := List.mem_map.mp h
  obtain ⟨j', hj', hfound⟩ := List.mem_filterMap.mp hmem
  split at hfound
  · cases hfound
    exact hj'
  · cases hfound

theorem closeAll_elsewhere {places : List Nat} (h : i ∉ places) (byValue : Bool) :
    (closeAll slots places byValue).2.1[i]? = slots[i]? := by
  apply foldl_set_elsewhere
  intro hmem
  apply h
  obtain ⟨⟨j, slot⟩, hput, rfl⟩ := List.mem_map.mp hmem
  have hchosen := mem_places_of_cursorsAt (List.of_mem_zip hput).1
  cases byValue with
  | true => exact List.mem_eraseDups.mp hchosen
  | false => exact of_decide_eq_true (List.mem_filter.mp hchosen).2

theorem stepSlots_elsewhere (h : i ∉ step.places) :
    (stepSlots slots step).2.1[i]? = slots[i]? := by
  obtain ⟨slot, command⟩ := step
  cases command with
  | drop => exact List.getElem?_set_ne fun hi => h (List.mem_singleton.mpr hi.symm)
  | closeAll places byValue => exact closeAll_elsewhere h byValue
  | chain j =>
    have hslot : slot ≠ i := fun hi => h (hi ▸ List.mem_cons_self)
    have hj : j ≠ i := fun hi => h (hi ▸ List.mem_cons_of_mem _ List.mem_cons_self)
    unfold stepSlots
    dsimp only
    split
    · split
      · rfl
      · rw [List.getElem?_set_ne hslot, List.getElem?_set_ne hj]
    · rfl
  | agree j =>
    have hslot : slot ≠ i := fun hi => h (hi ▸ List.mem_cons_self)
    have hj : j ≠ i := fun hi => h (hi ▸ List.mem_cons_of_mem _ List.mem_cons_self)
    unfold stepSlots
    dsimp only
    split
    · split
      · rfl
      · rw [List.getElem?_set_ne hj, List.getElem?_set_ne hslot]
    · rfl
  | _ =>
    have hslot : slot ≠ i := fun hi => h (List.mem_singleton.mpr hi.symm)
    unfold stepSlots
    dsimp only
    split
    · exact List.getElem?_set_ne hslot
    · rfl

theorem recordsAt_cons (first : Step) (rest : List Step) (record : Record)
    (records : List Record) :
    recordsAt i (first :: rest) (record :: records) =
      ((first.operation? i).map fun _ => record).toList ++ recordsAt i rest records := by
  unfold recordsAt
  rw [List.zip_cons_cons, List.filterMap_cons]
  cases first.operation? i <;> rfl

theorem run_cons (s : Session) (first : Step) (rest : List Step) :
    s.run (first :: rest) = (s.step first).1 :: (s.step first).2.run rest := rfl

theorem after_tallies (s : Session) (steps : List Step) :
    (s.after steps).tallies = Tally.count s.tallies ((s.run steps).flatMap Record.trace) := by
  induction steps generalizing s with
  | nil => rfl
  | cons first rest ih =>
    have hcounts : (s.step first).2.tallies = Tally.count s.tallies (s.step first).1.trace := rfl
    rw [run_cons, List.flatMap_cons, Tally.count_append, ← hcounts, ← ih]
    rfl

variable {s : Session} {p : Plan} {t : p.State}

theorem step_call {op : Operation} (h : s.slots[i]? = some (.cursor ⟨p, t⟩))
    (hop : step.operation? i = some op) :
    let called := p.cursor.toCursor.call t op
    let r := s.step step
    r.1.answer = answerOfCall called.answer ∧ r.1.trace = called.trace ∧
      r.2.slots[i]? = some (.cursor ⟨p, called.state⟩) := by
  have hlt : i < s.slots.length := (List.getElem?_eq_some_iff.mp h).1
  intro called r
  show (stepSlots s.slots step).1 = _ ∧ (stepSlots s.slots step).2.2 = _ ∧
    (stepSlots s.slots step).2.1[i]? = _
  rw [stepSlots_call h hop]
  exact ⟨rfl, rfl, List.getElem?_set_self hlt⟩

/-- Steps on other slots may come in between. What is recorded of the calls on one cursor is what
its plan's cursor answers and shows when the same operations are called on it in a row, and that is
the state in which the slot is left. -/
theorem run_at_slot (h : s.slots[i]? = some (.cursor ⟨p, t⟩)) (steps : List Step)
    (hsteps : ∀ step ∈ steps, (step.operation? i).isSome ∨ i ∉ step.places) :
    let calls := recordsAt i steps (s.run steps)
    let r := p.cursor.toCursor.run t (steps.filterMap (Step.operation? i))
    calls.map Record.answer = r.answers.map answerOfCall ∧ calls.flatMap Record.trace = r.trace ∧
      (s.after steps).slots[i]? = some (.cursor ⟨p, r.state⟩) := by
  -- A step is either a call on the cursor in this slot or leaves the slot alone.
  induction steps generalizing s t with
  | nil => exact ⟨rfl, rfl, h⟩
  | cons first rest ih =>
    have hrest := fun step hmem => hsteps step (List.mem_cons_of_mem _ hmem)
    have hcalls := recordsAt_cons (i := i) first rest (s.step first).1 ((s.step first).2.run rest)
    intro calls r
    rw [← run_cons] at hcalls
    cases hop : first.operation? i with
    | some op =>
      obtain ⟨hanswer, hshown, hslot⟩ := step_call h hop
      obtain ⟨hanswers, htrace, hstate⟩ := ih hslot hrest
      have hr : r = p.cursor.toCursor.run t (op :: rest.filterMap (Step.operation? i)) :=
        congrArg _ (List.filterMap_cons_some hop)
      rw [hop, Option.map_some, Option.toList_some, List.singleton_append] at hcalls
      rw [hr, show calls = _ from hcalls, List.map_cons, List.flatMap_cons, hanswer, hanswers,
        hshown, htrace]
      exact ⟨rfl, rfl, hstate⟩
    | none =>
      have hplaces : i ∉ first.places := by simpa [hop] using hsteps first List.mem_cons_self
      have hslot : (s.step first).2.slots[i]? = some (.cursor ⟨p, t⟩) :=
        (stepSlots_elsewhere hplaces).trans h
      obtain ⟨hanswers, htrace, hstate⟩ := ih hslot hrest
      have hr : r = p.cursor.toCursor.run t (rest.filterMap (Step.operation? i)) :=
        congrArg _ (List.filterMap_cons_none hop)
      rw [hop, Option.map_none, Option.toList_none, List.nil_append] at hcalls
      rw [hr, show calls = _ from hcalls]
      exact ⟨hanswers, htrace, hstate⟩

theorem run_ofPlans {plans : List Plan} (h : plans[i]? = some p) (steps : List Step)
    (hsteps : ∀ step ∈ steps, (step.operation? i).isSome ∨ i ∉ step.places) :
    let calls := recordsAt i steps ((ofPlans plans).run steps)
    let r := p.cursor.toCursor.run p.start (steps.filterMap (Step.operation? i))
    calls.map Record.answer = r.answers.map answerOfCall ∧
      calls.flatMap Record.trace = r.trace := by
  have hslot : (ofPlans plans).slots[i]? = some (.cursor ⟨p, p.start⟩) := by
    show (plans.map _)[i]? = _
    rw [List.getElem?_map, h]
    rfl
  exact ⟨(run_at_slot hslot steps hsteps).1, (run_at_slot hslot steps hsteps).2.1⟩

end PullCursor.Session
