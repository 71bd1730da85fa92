/-!
# Runs of a machine

Tables, arrays, indexes and sessions are all driven in the same way: one
operation after the other, each with an answer.  A property of every state is
proved of one step and then carried over by `runAll_invariant`, and a machine
is compared with another one step by step, for `runAll_simulates` to compare
whole runs.  `occasions` counts how often something happens in the course of a
run.
-/

namespace SnapshotIndex

universe u v w x

variable {σ : Type u} {τ : Type v} {ω : Type w} {ρ : Type x}

/-- The answers of a machine to a list of operations, and the state in which
it ends. -/
def runAll (step : σ → ω → ρ × σ) : σ → List ω → List ρ × σ
  | s, [] => ([], s)
  | s, op :: ops =>
    let (answer, s) := step s op
    let (answers, s) := runAll step s ops
    (answer :: answers, s)

@[simp] theorem runAll_nil (step : σ → ω → ρ × σ) (s : σ) : runAll step s [] = ([], s) := rfl

@[simp] theorem runAll_cons (step : σ → ω → ρ × σ) (s : σ) (op : ω) (ops : List ω) :
    runAll step s (op :: ops) =
      ((step s op).1 :: (runAll step (step s op).2 ops).1, (runAll step (step s op).2 ops).2) :=
  rfl

/-- What holds at the start and survives every operation holds after every run. -/
theorem runAll_invariant {step : σ → ω → ρ × σ} {Inv : σ → Prop}
    (hstep : ∀ s op, Inv s → Inv (step s op).2) {s : σ} (hs : Inv s) (ops : List ω) :
    Inv (runAll step s ops).2 := by
  induction ops generalizing s with
  | nil => exact hs
  | cons op ops ih => exact ih (hstep s op hs)

/-- What every answer is like as long as an invariant holds, every answer of a
run is like. -/
theorem runAll_answers {step : σ → ω → ρ × σ} {Inv : σ → Prop} {Good : ρ → Prop}
    (hstep : ∀ s op, Inv s → Good (step s op).1 ∧ Inv (step s op).2) {s : σ} (hs : Inv s)
    (ops : List ω) : ∀ answer ∈ (runAll step s ops).1, Good answer := by
  induction ops generalizing s with
  | nil =>
    intro answer hanswer
    exact absurd hanswer List.not_mem_nil
  | cons op ops ih =>
    obtain ⟨hgood, hnext⟩ := hstep s op hs
    intro answer hanswer
    rcases List.mem_cons.mp hanswer with rfl | hrest
    · exact hgood
    · exact ih hnext answer hrest

/-- Two machines that answer alike and stay related at the operations of a run
answer alike and stay related over the run. -/
theorem runAll_simulates_of_mem {step : σ → ω → ρ × σ} {step' : τ → ω → ρ × τ}
    {Rel : σ → τ → Prop} {ops : List ω}
    (hstep : ∀ s t, ∀ op ∈ ops, Rel s t →
      (step s op).1 = (step' t op).1 ∧ Rel (step s op).2 (step' t op).2)
    {s : σ} {t : τ} (hst : Rel s t) :
    (runAll step s ops).1 = (runAll step' t ops).1 ∧
      Rel (runAll step s ops).2 (runAll step' t ops).2 := by
  induction ops generalizing s t with
  | nil => exact ⟨rfl, hst⟩
  | cons op ops ih =>
    obtain ⟨hanswer, hrel⟩ := hstep s t op List.mem_cons_self hst
    have hlater : ∀ s t, ∀ op' ∈ ops, Rel s t →
        (step s op').1 = (step' t op').1 ∧ Rel (step s op').2 (step' t op').2 :=
      fun s t op' hmem => hstep s t op' (List.mem_cons_of_mem op hmem)
    obtain ⟨hanswers, hend⟩ := ih hlater hrel
    refine ⟨?_, hend⟩
    rw [runAll_cons, runAll_cons, hanswer, hanswers]

/-- Two machines that answer alike and stay related at every operation answer
alike and stay related over every run. -/
theorem runAll_simulates {step : σ → ω → ρ × σ} {step' : τ → ω → ρ × τ} {Rel : σ → τ → Prop}
    (hstep : ∀ s t op, Rel s t →
      (step s op).1 = (step' t op).1 ∧ Rel (step s op).2 (step' t op).2)
    {s : σ} {t : τ} (hst : Rel s t) (ops : List ω) :
    (runAll step s ops).1 = (runAll step' t ops).1 ∧
      Rel (runAll step s ops).2 (runAll step' t ops).2 :=
  runAll_simulates_of_mem (fun s t op _ => hstep s t op) hst

/-- At how many operations of a run a condition holds when the operation is about
to be carried out. -/
def occasions (step : σ → ω → ρ × σ) (p : σ → ω → Bool) : σ → List ω → Nat
  | _, [] => 0
  | s, op :: ops => (p s op).toNat + occasions step p (step s op).2 ops

@[simp] theorem occasions_nil (step : σ → ω → ρ × σ) (p : σ → ω → Bool) (s : σ) :
    occasions step p s [] = 0 := rfl

@[simp] theorem occasions_cons (step : σ → ω → ρ × σ) (p : σ → ω → Bool) (s : σ) (op : ω)
    (ops : List ω) : occasions step p s (op :: ops) =
      (p s op).toNat + occasions step p (step s op).2 ops :=
  rfl

theorem runAll_append_snd (step : σ → ω → ρ × σ) (s : σ) (ops more : List ω) :
    (runAll step s (ops ++ more)).2 = (runAll step (runAll step s ops).2 more).2 := by
  induction ops generalizing s with
  | nil => rfl
  | cons op ops ih => exact ih (step s op).2

theorem occasions_append (step : σ → ω → ρ × σ) (p : σ → ω → Bool) (s : σ) (ops more : List ω) :
    occasions step p s (ops ++ more) =
      occasions step p s ops + occasions step p (runAll step s ops).2 more := by
  induction ops generalizing s with
  | nil => exact (Nat.zero_add _).symm
  | cons op ops ih =>
    rw [List.cons_append, occasions_cons, occasions_cons, ih, Nat.add_assoc]
    rfl

end SnapshotIndex
