import Mathlib.Tactic

/-!
# Programs that make calls

A program is a finite tree: it ends, writes a line, or makes a call and goes on
as the answer tells it.  A machine answers calls and may fail to.  A program
writes the same lines on two machines that answer each of its calls alike, the
calls of the second being those of the first translated; it is enough that
they do so for the calls that the program really makes.
-/

namespace Programs

variable {γ δ ρ ω σ τ : Type}

inductive Program (γ ρ ω : Type)
  | done
  | write (line : ω) (rest : Program γ ρ ω)
  | call (request : γ) (next : ρ → Program γ ρ ω)

/-- The lines that a program writes on a machine, and the state that it leaves
the machine in. -/
def Program.run (machine : σ → γ → Option (ρ × σ)) :
    Program γ ρ ω → σ → Option (List ω × σ)
  | .done, state => some ([], state)
  | .write line rest, state =>
      (rest.run machine state).map fun written =>
        (line :: written.1, written.2)
  | .call request next, state =>
      match machine state request with
      | none => none
      | some (answer, state) => (next answer).run machine state

/-- The same program with other calls. -/
def Program.translate (f : γ → δ) : Program γ ρ ω → Program δ ρ ω
  | .done => .done
  | .write line rest => .write line (rest.translate f)
  | .call request next =>
      .call (f request) fun answer => (next answer).translate f

theorem Program.translate_id (program : Program γ ρ ω) :
    program.translate id = program := by
  induction program with
  | done => rfl
  | write line rest ih => rw [Program.translate, ih]
  | call request next ih =>
      rw [Program.translate, funext ih, id_eq]

/-- Every call of the program's run on a machine is allowed where it is
made. -/
def Program.Meets (machine : σ → γ → Option (ρ × σ))
    (allowed : σ → γ → Prop) : Program γ ρ ω → σ → Prop
  | .done, _ => True
  | .write _ rest, state => rest.Meets machine allowed state
  | .call request next, state =>
      allowed state request ∧ ∀ answer after,
        machine state request = some (answer, after) →
        (next answer).Meets machine allowed after

theorem Program.meets_call {machine : σ → γ → Option (ρ × σ)}
    {allowed : σ → γ → Prop} {request : γ} {next : ρ → Program γ ρ ω}
    {state : σ} (answer : ρ) (after : σ)
    (hallowed : allowed state request)
    (hanswer : machine state request = some (answer, after))
    (hnext : (next answer).Meets machine allowed after) :
    (Program.call request next).Meets machine allowed state := by
  refine ⟨hallowed, fun answer' after' hanswer' => ?_⟩
  rw [hanswer, Option.some.injEq, Prod.mk.injEq] at hanswer'
  obtain ⟨rfl, rfl⟩ := hanswer'
  exact hnext

theorem Program.Meets.mono {machine : σ → γ → Option (ρ × σ)}
    {allowed wider : σ → γ → Prop}
    (hwider : ∀ state request, allowed state request → wider state request)
    {program : Program γ ρ ω} {state : σ}
    (hmeets : program.Meets machine allowed state) :
    program.Meets machine wider state := by
  induction program generalizing state with
  | done => trivial
  | write line rest ih => exact ih hmeets
  | call request next ih =>
      exact ⟨hwider _ _ hmeets.1, fun answer after hanswer =>
        ih answer (hmeets.2 answer after hanswer)⟩

/-- Every call that the program can come to make is a good one, as long as
the answers to earlier ones fit them. -/
def Program.MakesOnly (good : γ → Prop) (fits : γ → ρ → Prop) :
    Program γ ρ ω → Prop
  | .done => True
  | .write _ rest => rest.MakesOnly good fits
  | .call request next =>
      good request ∧ ∀ answer, fits request answer →
        (next answer).MakesOnly good fits

theorem Program.Meets.and_makesOnly {machine : σ → γ → Option (ρ × σ)}
    {allowed : σ → γ → Prop} {good : γ → Prop} {fits : γ → ρ → Prop}
    (hfits : ∀ state request answer after, good request →
      machine state request = some (answer, after) → fits request answer)
    {program : Program γ ρ ω} {state : σ}
    (hmeets : program.Meets machine allowed state)
    (hmakes : program.MakesOnly good fits) :
    program.Meets machine
      (fun state request => allowed state request ∧ good request) state := by
  induction program generalizing state with
  | done => trivial
  | write line rest ih => exact ih hmeets hmakes
  | call request next ih =>
      refine ⟨⟨hmeets.1, hmakes.1⟩, fun answer after hanswer => ?_⟩
      exact ih answer (hmeets.2 answer after hanswer)
        (hmakes.2 answer (hfits _ _ _ _ hmakes.1 hanswer))

theorem Program.run_translate {machine : σ → γ → Option (ρ × σ)}
    {other : τ → δ → Option (ρ × τ)} {f : γ → δ}
    {related : σ → τ → Prop} {allowed : σ → γ → Prop}
    (hanswers : ∀ state state' request, related state state' →
      allowed state request →
      ∃ answer after after',
        machine state request = some (answer, after) ∧
        other state' (f request) = some (answer, after') ∧
        related after after')
    {program : Program γ ρ ω} {state : σ} {state' : τ}
    (hrelated : related state state')
    (hmeets : program.Meets machine allowed state) :
    ∃ lines final final',
      program.run machine state = some (lines, final) ∧
      (program.translate f).run other state' = some (lines, final') ∧
      related final final' := by
  induction program generalizing state state' with
  | done => exact ⟨[], state, state', rfl, rfl, hrelated⟩
  | write line rest ih =>
      obtain ⟨lines, final, final', hrun, hrun', hfinal⟩ := ih hrelated hmeets
      refine ⟨line :: lines, final, final', ?_, ?_, hfinal⟩
      · rw [Program.run, hrun, Option.map_some]
      · rw [Program.translate, Program.run, hrun', Option.map_some]
  | call request next ih =>
      obtain ⟨hallowed, hrest⟩ := hmeets
      obtain ⟨answer, after, after', hanswer, hanswer', hafter⟩ :=
        hanswers state state' request hrelated hallowed
      obtain ⟨lines, final, final', hrun, hrun', hfinal⟩ :=
        ih answer hafter (hrest answer after hanswer)
      refine ⟨lines, final, final', ?_, ?_, hfinal⟩
      · simp only [Program.run, hanswer, hrun]
      · simp only [Program.translate, Program.run, hanswer', hrun']

end Programs
