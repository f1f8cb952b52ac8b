import Mathlib.Tactic

/-!
# Runs of a guarded transition system

A system is given by a partial step function on states.  A run is a finite
sequence of events each of which the system can take; `allowed` restricts the
runs to those whose every event meets a condition on the state it is taken
in.  The invariant rule is the only induction over runs that the systems of
this development need.
-/

namespace TransitionRuns

variable {σ ε : Type}

/-- A run of the step function whose every event is allowed where it is
taken. -/
inductive Run (step : σ → ε → Option σ) (allowed : σ → ε → Prop) :
    σ → List ε → σ → Prop
  | refl (start : σ) : Run step allowed start [] start
  | snoc {start middle next : σ} {events : List ε} {event : ε} :
      Run step allowed start events middle →
      allowed middle event → step middle event = some next →
      Run step allowed start (events ++ [event]) next

def anyEvent : σ → ε → Prop := fun _ _ => True

/-- A property that holds at the start and is kept by every allowed step holds
in every state that a run reaches. -/
theorem Run.invariant
    {step : σ → ε → Option σ} {allowed : σ → ε → Prop} {Inv : σ → Prop}
    (hstep : ∀ state event next, Inv state → allowed state event →
      step state event = some next → Inv next)
    {start final : σ} {events : List ε}
    (hrun : Run step allowed start events final) (hstart : Inv start) :
    Inv final := by
  induction hrun with
  | refl => exact hstart
  | snoc _ hallowed hnext ih => exact hstep _ _ _ ih hallowed hnext

/-- A run is one with every condition on events that its own events meet. -/
theorem Run.of_events
    {step : σ → ε → Option σ} {allowed : σ → ε → Prop} {good : ε → Prop}
    {start final : σ} {events : List ε}
    (hrun : Run step allowed start events final)
    (hgood : ∀ event ∈ events, good event) :
    Run step (fun _ event => good event) start events final := by
  induction hrun with
  | refl => exact .refl _
  | snoc _ _ hnext ih =>
      have hbefore := ih fun event hmem =>
        hgood event (List.mem_append_left _ hmem)
      exact hbefore.snoc
        (hgood _ (List.mem_append_right _ (List.mem_singleton_self _))) hnext

/-- Steps that each take one off a measure are as many as the measure has
fallen by. -/
theorem Run.length_add_measure
    {step : σ → ε → Option σ} {allowed : σ → ε → Prop} {Inv : σ → Prop}
    {measure : σ → ℕ}
    (hstep : ∀ state event next, Inv state → allowed state event →
      step state event = some next →
      Inv next ∧ measure next + 1 = measure state)
    {start final : σ} {events : List ε}
    (hrun : Run step allowed start events final) (hstart : Inv start) :
    Inv final ∧ events.length + measure final = measure start := by
  induction hrun with
  | refl => exact ⟨hstart, Nat.zero_add _⟩
  | snoc _ hallowed hnext ih =>
      obtain ⟨hinv, hlength⟩ := ih
      obtain ⟨hinv', hmeasure⟩ := hstep _ _ _ hinv hallowed hnext
      refine ⟨hinv', ?_⟩
      rw [List.length_append, List.length_singleton]
      omega

/-- When the events of a kind each take one off a measure that no event
raises, a run has no more of them than the measure has fallen by. -/
theorem Run.countP_add_measure_le
    {step : σ → ε → Option σ} {allowed : σ → ε → Prop} {Inv : σ → Prop}
    {kind : ε → Bool} {measure : σ → ℕ}
    (hstep : ∀ state event next, Inv state → allowed state event →
      step state event = some next →
      Inv next ∧ measure next + (if kind event then 1 else 0) ≤
        measure state)
    {start final : σ} {events : List ε}
    (hrun : Run step allowed start events final) (hstart : Inv start) :
    Inv final ∧ events.countP kind + measure final ≤ measure start := by
  induction hrun with
  | refl => exact ⟨hstart, (Nat.zero_add _).le⟩
  | snoc _ hallowed hnext ih =>
      obtain ⟨hinv, hcount⟩ := ih
      obtain ⟨hinv', hmeasure⟩ := hstep _ _ _ hinv hallowed hnext
      refine ⟨hinv', ?_⟩
      rw [List.countP_append, List.countP_singleton]
      omega

theorem Run.shorten
    {step : σ → ε → Option σ} {allowed : σ → ε → Prop}
    {start final : σ} {before events : List ε}
    (hrun : Run step allowed start events final) (hstart : before <+: events) :
    ∃ middle, Run step allowed start before middle := by
  induction hrun with
  | refl =>
      rw [List.prefix_nil] at hstart
      subst hstart
      exact ⟨_, .refl _⟩
  | snoc hrun hallowed hnext ih =>
      rcases List.prefix_concat_iff.mp hstart with rfl | hshorter
      · exact ⟨_, hrun.snoc hallowed hnext⟩
      · exact ih hshorter

/-- The events of a run determine the state it reaches. -/
theorem Run.unique
    {step : σ → ε → Option σ} {allowed allowed' : σ → ε → Prop}
    {start final final' : σ} {events : List ε}
    (hrun : Run step allowed start events final)
    (hrun' : Run step allowed' start events final') : final = final' := by
  induction hrun generalizing final' with
  | refl =>
      generalize hevents : ([] : List ε) = events at hrun'
      cases hrun' with
      | refl => rfl
      | snoc => simp at hevents
  | @snoc middle next events event _ _ hnext ih =>
      generalize hevents : events ++ [event] = longer at hrun'
      cases hrun' with
      | refl => simp at hevents
      | snoc hrun' _ hnext' =>
          obtain ⟨rfl, hlast⟩ := List.append_inj' hevents rfl
          cases hlast
          rw [ih hrun', hnext', Option.some.injEq] at hnext
          exact hnext.symm

/-- Where exactly the allowed events lead from good states to good ones, the
runs that stay in good states are those whose every event is allowed. -/
theorem Run.good_iff_allowed
    {step : σ → ε → Option σ} {allowed : σ → ε → Prop} {Inv Good : σ → Prop}
    (hkeeps : ∀ state event next, Inv state → Good state →
      step state event = some next → Inv next)
    (hgood : ∀ state event next, Inv state → Good state →
      step state event = some next → (Good next ↔ allowed state event))
    {start final : σ} {events : List ε} (hinv : Inv start)
    (hstart : Good start) (hrun : Run step anyEvent start events final) :
    (∀ before middle, before <+: events →
        Run step anyEvent start before middle → Good middle) ↔
      Run step allowed start events final := by
  have hstays : ∀ {reached : σ} {taken : List ε},
      Run step allowed start taken reached → Inv reached ∧ Good reached := by
    intro reached taken htaken
    apply htaken.invariant _ ⟨hinv, hstart⟩
    rintro state event next ⟨hstate, hstateGood⟩ hallowed hnext
    exact ⟨hkeeps _ _ _ hstate hstateGood hnext,
      (hgood _ _ _ hstate hstateGood hnext).mpr hallowed⟩
  constructor
  · intro hall
    induction hrun with
    | refl => exact .refl _
    | @snoc middle next events event hrun _ hnext ih =>
        have hbefore := ih fun before state hbegins =>
          hall before state (hbegins.trans (List.prefix_append _ _))
        have hlast := hall _ next (List.prefix_refl _)
          (hrun.snoc trivial hnext)
        obtain ⟨hmiddle, hmiddleGood⟩ := hstays hbefore
        exact hbefore.snoc
          ((hgood _ _ _ hmiddle hmiddleGood hnext).mp hlast) hnext
  · intro hallowed before middle hbegins hmiddle
    obtain ⟨reached, hreached⟩ := hallowed.shorten hbegins
    rw [hmiddle.unique hreached]
    exact (hstays hreached).2

instance : ∀ (state : σ) (event : ε), Decidable (anyEvent state event) :=
  fun _ _ => isTrue trivial

def execute (step : σ → ε → Option σ) (allowed : σ → ε → Prop)
    [∀ state event, Decidable (allowed state event)] :
    σ → List ε → Option σ
  | state, [] => some state
  | state, event :: rest =>
      if allowed state event then
        match step state event with
        | none => none
        | some next => execute step allowed next rest
      else
        none

theorem Run.execute
    {step : σ → ε → Option σ} {allowed : σ → ε → Prop}
    [∀ state event, Decidable (allowed state event)]
    {start state final : σ} {before events : List ε}
    (hrun : Run step allowed start before state)
    (hexec : TransitionRuns.execute step allowed state events = some final) :
    Run step allowed start (before ++ events) final := by
  induction events generalizing state before with
  | nil =>
      simp only [TransitionRuns.execute, Option.some.injEq] at hexec
      subst final
      simpa using hrun
  | cons event rest ih =>
      by_cases hallowed : allowed state event
      · cases hnext : step state event with
        | none => simp [TransitionRuns.execute, hallowed, hnext] at hexec
        | some next =>
            simp only [TransitionRuns.execute, hallowed, if_true,
              hnext] at hexec
            have hlonger := ih (hrun.snoc hallowed hnext) hexec
            simpa using hlonger
      · simp [TransitionRuns.execute, hallowed] at hexec

theorem run_of_execute
    {step : σ → ε → Option σ} {allowed : σ → ε → Prop}
    [∀ state event, Decidable (allowed state event)]
    {start final : σ} {events : List ε}
    (hexec : execute step allowed start events = some final) :
    Run step allowed start events final := by
  simpa using (Run.refl start).execute hexec

/-! ## Records that grow

The states of such systems keep their threads, calls and handles in lists; a
step appends one entry or replaces one.
-/

theorem getElem?_append_left_of_some {list more : List σ} {i : ℕ}
    {value : σ} (hvalue : list[i]? = some value) :
    (list ++ more)[i]? = some value := by
  rw [List.getElem?_append_left (List.getElem?_eq_some_iff.mp hvalue).1,
    hvalue]

theorem getElem?_append_singleton {list : List σ} {last value : σ}
    {i : ℕ} (hvalue : (list ++ [last])[i]? = some value) :
    list[i]? = some value ∨ i = list.length ∧ value = last := by
  rcases Nat.lt_trichotomy i list.length with hlt | rfl | hgt
  · rw [List.getElem?_append_left hlt] at hvalue
    exact .inl hvalue
  · simp only [List.getElem?_concat_length, Option.some.injEq] at hvalue
    exact .inr ⟨rfl, hvalue.symm⟩
  · have hlt := (List.getElem?_eq_some_iff.mp hvalue).1
    rw [List.length_append, List.length_singleton] at hlt
    omega

theorem getElem?_set_cases {list : List σ} {index i : ℕ} {entry value : σ}
    (hvalue : (list.set index entry)[i]? = some value) :
    i = index ∧ value = entry ∨ i ≠ index ∧ list[i]? = some value := by
  rw [List.getElem?_set] at hvalue
  by_cases heq : index = i
  · rw [if_pos heq] at hvalue
    split at hvalue
    · cases hvalue
      exact .inl ⟨heq.symm, rfl⟩
    · cases hvalue
  · rw [if_neg heq] at hvalue
    exact .inr ⟨Ne.symm heq, hvalue⟩

theorem sum_map_set {M : Type} [AddCommMonoid M] (f : σ → M)
    {list : List σ} {index : ℕ} {before : σ}
    (hbefore : list[index]? = some before) (after : σ) :
    ((list.set index after).map f).sum + f before =
      (list.map f).sum + f after := by
  induction list generalizing index with
  | nil => cases hbefore
  | cons first rest ih =>
      cases index with
      | zero =>
          simp only [List.getElem?_cons_zero, Option.some.injEq] at hbefore
          subst hbefore
          simp only [List.set_cons_zero, List.map_cons, List.sum_cons]
          abel
      | succ index =>
          have hrest := ih (by simpa using hbefore)
          simp only [List.set_cons_succ, List.map_cons, List.sum_cons,
            add_assoc, hrest]

/-- A sum over entries of which the first `count` contribute nothing. -/
theorem sum_map_le_of_settled (f : σ → ℕ) {list : List σ}
    {count bound : ℕ}
    (hsettled : ∀ i < count, ∀ entry ∈ list[i]?, f entry = 0)
    (hbound : ∀ entry ∈ list, f entry ≤ bound) :
    (list.map f).sum ≤ bound * (list.length - count) := by
  have hdone : ((list.take count).map f).sum = 0 := by
    rw [List.sum_eq_zero_iff]
    intro value hvalue
    obtain ⟨entry, hmem, rfl⟩ := List.mem_map.mp hvalue
    obtain ⟨i, hi⟩ := List.getElem?_of_mem hmem
    have hlt : i < count := by
      have hlength := (List.getElem?_eq_some_iff.mp hi).1
      rw [List.length_take] at hlength
      omega
    rw [List.getElem?_take_of_lt hlt] at hi
    exact hsettled i hlt entry hi
  have hrest : ((list.drop count).map f).sum ≤
      ((list.drop count).map f).length * bound := by
    apply List.sum_le_card_nsmul
    intro value hvalue
    obtain ⟨entry, hmem, rfl⟩ := List.mem_map.mp hvalue
    exact hbound entry (List.mem_of_mem_drop hmem)
  rw [List.length_map, List.length_drop, Nat.mul_comm] at hrest
  calc (list.map f).sum
      = ((list.take count).map f).sum + ((list.drop count).map f).sum := by
        rw [← List.sum_append, ← List.map_append, List.take_append_drop]
    _ ≤ bound * (list.length - count) := by
        rw [hdone, Nat.zero_add]
        exact hrest

theorem set_eq_self_of_getElem? {list : List σ} {index : ℕ} {entry : σ}
    (hentry : list[index]? = some entry) : list.set index entry = list := by
  obtain ⟨hlt, rfl⟩ := List.getElem?_eq_some_iff.mp hentry
  exact List.set_getElem_self hlt

theorem update_cases {f : ℕ → σ} {index i : ℕ} {entry value : σ}
    (hvalue : Function.update f index entry i = value) :
    i = index ∧ entry = value ∨ i ≠ index ∧ f i = value := by
  by_cases heq : i = index
  · subst heq
    rw [Function.update_self] at hvalue
    exact .inl ⟨rfl, hvalue⟩
  · rw [Function.update_of_ne heq] at hvalue
    exact .inr ⟨heq, hvalue⟩

end TransitionRuns
