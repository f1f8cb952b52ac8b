import Mathlib.Tactic

/-!
# Linearizable histories

An object is given by its sequential specification.  Its users invoke
operations and get responses at any time, so that operations overlap; the
history of what they see is linearizable when the operations have one order in
which each of them takes effect at once, and which keeps two operations as
they were when one ended before the other began.  An operation without a
response may be in the order or not.
-/

namespace Linearizability

variable {σ ο ρ : Type}

/-- The states and results with which an operation may end. -/
abbrev Specification (σ ο ρ : Type) := σ → ο → ρ → σ → Prop

inductive Act (ο ρ : Type)
  | invoke (id : ℕ) (operation : ο)
  | respond (id : ℕ) (result : ρ)
  deriving DecidableEq

structure Effect (ο ρ : Type) where
  id : ℕ
  operation : ο
  result : ρ

inductive Legal (spec : Specification σ ο ρ) :
    σ → List (Effect ο ρ) → σ → Prop
  | nil (start : σ) : Legal spec start [] start
  | snoc {start middle final : σ} {order : List (Effect ο ρ)}
      {effect : Effect ο ρ} :
      Legal spec start order middle →
      spec middle effect.operation effect.result final →
      Legal spec start (order ++ [effect]) final

/-- An order of effects that explains a history, from the state before it to
the state after it. -/
structure Linearizes (spec : Specification σ ο ρ) (start final : σ)
    (history : List (Act ο ρ)) (order : List (Effect ο ρ)) : Prop where
  legal : Legal spec start order final
  once : (order.map Effect.id).Nodup
  invoked : ∀ effect ∈ order,
    .invoke effect.id effect.operation ∈ history
  answered : ∀ id result, .respond id result ∈ history →
    ∃ effect ∈ order, effect.id = id ∧ effect.result = result
  realTime : ∀ before after left result right operation,
    history = before ++ .respond left result :: after →
    .invoke right operation ∈ after → right ∈ order.map Effect.id →
    [left, right].Sublist (order.map Effect.id)

section Steps

variable {spec : Specification σ ο ρ} {start final : σ}
  {history : List (Act ο ρ)} {order : List (Effect ο ρ)}

theorem Linearizes.initial (spec : Specification σ ο ρ) (start : σ) :
    Linearizes spec start start [] [] where
  legal := .nil start
  once := List.nodup_nil
  invoked := by simp
  answered := by simp
  realTime := by simp

/-- What follows a response in a history that grew by one act. -/
theorem eq_append_of_append_eq {before after : List (Act ο ρ)}
    {act last : Act ο ρ}
    (hsplit : history ++ [last] = before ++ act :: after) :
    (after = [] ∧ act = last) ∨
      ∃ rest, after = rest ++ [last] ∧ history = before ++ act :: rest := by
  rcases List.eq_nil_or_concat after with rfl | ⟨rest, final, rfl⟩
  · left
    obtain ⟨_, hlast⟩ := List.append_inj' hsplit rfl
    simp only [List.cons.injEq, and_true] at hlast
    exact ⟨rfl, hlast.symm⟩
  · right
    rw [List.concat_eq_append, ← List.cons_append, ← List.append_assoc]
      at hsplit
    obtain ⟨hrest, hlast⟩ := List.append_inj' hsplit rfl
    simp only [List.cons.injEq, and_true] at hlast
    exact ⟨rest, by rw [List.concat_eq_append, hlast], hrest⟩

theorem Linearizes.invoke
    (hlin : Linearizes spec start final history order) {id : ℕ}
    (hfresh : ∀ operation, .invoke id operation ∉ history) (operation : ο) :
    Linearizes spec start final (history ++ [.invoke id operation])
      order where
  legal := hlin.legal
  once := hlin.once
  invoked := fun effect hmem =>
    List.mem_append_left _ (hlin.invoked effect hmem)
  answered := by
    intro other result hmem
    rcases List.mem_append.mp hmem with hold | hnew
    · exact hlin.answered other result hold
    · cases List.mem_singleton.mp hnew
  realTime := by
    intro before after left result right other hsplit hmem hright
    rcases eq_append_of_append_eq hsplit with ⟨_, hact⟩ |
      ⟨rest, rfl, hhistory⟩
    · cases hact
    · rcases List.mem_append.mp hmem with hold | hnew
      · exact hlin.realTime before rest left result right other hhistory hold
          hright
      · -- A fresh operation has no effect yet.
        cases List.mem_singleton.mp hnew
        obtain ⟨effect, heffect, rfl⟩ := List.mem_map.mp hright
        exact absurd (hlin.invoked effect heffect) (hfresh _)

/-- An operation takes effect between its invocation and its response. -/
theorem Linearizes.commit
    (hlin : Linearizes spec start final history order) {id : ℕ}
    {operation : ο} {result : ρ} {next : σ}
    (hinvoked : .invoke id operation ∈ history)
    (hnew : id ∉ order.map Effect.id)
    (hspec : spec final operation result next) :
    Linearizes spec start next history
      (order ++ [⟨id, operation, result⟩]) where
  legal := hlin.legal.snoc hspec
  once := by
    rw [List.map_append, List.map_singleton, List.nodup_append]
    refine ⟨hlin.once, List.nodup_singleton _, ?_⟩
    intro left hleft right hright hsame
    rw [hsame, List.mem_singleton.mp hright] at hleft
    exact hnew hleft
  invoked := by
    intro effect hmem
    rcases List.mem_append.mp hmem with hold | hlast
    · exact hlin.invoked effect hold
    · rw [List.mem_singleton.mp hlast]
      exact hinvoked
  answered := by
    intro other value hmem
    obtain ⟨effect, heffect, hid, hvalue⟩ := hlin.answered other value hmem
    exact ⟨effect, List.mem_append_left _ heffect, hid, hvalue⟩
  realTime := by
    intro before after left value right other hhistory hmem hright
    rw [List.map_append, List.map_singleton] at hright ⊢
    rcases List.mem_append.mp hright with hold | hlast
    · have hsub := hlin.realTime before after left value right other hhistory
        hmem hold
      exact hsub.trans (List.sublist_append_left _ _)
    · -- What has a response has its effect already.
      obtain ⟨effect, heffect, rfl, _⟩ := hlin.answered left value
        (by rw [hhistory]; simp)
      rw [List.mem_singleton.mp hlast]
      have hleft : [effect.id].Sublist (order.map Effect.id) :=
        List.singleton_sublist.mpr (List.mem_map_of_mem heffect)
      exact hleft.append (List.Sublist.refl [id])

theorem Linearizes.respond
    (hlin : Linearizes spec start final history order)
    {effect : Effect ο ρ} (heffect : effect ∈ order) :
    Linearizes spec start final
      (history ++ [.respond effect.id effect.result]) order where
  legal := hlin.legal
  once := hlin.once
  invoked := fun other hmem =>
    List.mem_append_left _ (hlin.invoked other hmem)
  answered := by
    intro id result hmem
    rcases List.mem_append.mp hmem with hold | hnew
    · exact hlin.answered id result hold
    · cases List.mem_singleton.mp hnew
      exact ⟨effect, heffect, rfl, rfl⟩
  realTime := by
    intro before after left result right operation hsplit hmem hright
    rcases eq_append_of_append_eq hsplit with ⟨rfl, _⟩ |
      ⟨rest, rfl, hhistory⟩
    · cases hmem
    · rcases List.mem_append.mp hmem with hold | hnew
      · exact hlin.realTime before rest left result right operation hhistory
          hold hright
      · cases List.mem_singleton.mp hnew

end Steps

end Linearizability
