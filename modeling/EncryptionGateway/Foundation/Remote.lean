import EncryptionGateway.Foundation.Run
import Mathlib.Data.List.Nodup
import Mathlib.Logic.Function.Basic

/-!
# Programs over a remote object

Any number of sequential programs call one object over a network that loses
requests and replies. A call is executed at most once, possibly after its caller
has given it up; what a caller gets is the result of the execution or a failure.
The executions of a run are a run of the object on its own, and each program has
walked a path of its own whose results are executions.

## Implementation notes

Callers read the time where they run, the object has a clock of its own, and
nothing relates the two.
-/

namespace EncryptionGateway.Foundation

/-- A sequential program that calls with `C`, gets an `R` or a failure and the
local time with each call, and ends with an `A`. -/
inductive Proc (C R A : Type)
  | done (answer : A)
  | call (command : C) (resume : Int → Except String R → Proc C R A)

namespace Proc

variable {C R A : Type}

/-- `Path p log q`: the calls in `log` lead from `p` to `q`. -/
inductive Path : Proc C R A → List (C × Except String R) → Proc C R A → Prop
  | nil (p : Proc C R A) : Path p [] p
  | cons {command : C} {resume : Int → Except String R → Proc C R A} {outcome : Except String R}
      {log : List (C × Except String R)} {q : Proc C R A} (now : Int)
      (tail : Path (resume now outcome) log q) :
      Path (call command resume) ((command, outcome) :: log) q

theorem Path.snoc {p : Proc C R A} {log : List (C × Except String R)} {command : C}
    {resume : Int → Except String R → Proc C R A} (h : Path p log (call command resume)) (now : Int)
    (outcome : Except String R) : Path p (log ++ [(command, outcome)]) (resume now outcome) := by
  generalize hq : call command resume = q at h
  induction h with
  | nil p =>
      subst hq
      exact .cons now (.nil _)
  | cons now' _ ih => exact .cons now' (ih hq)

/-- A program that has ended makes no call. -/
theorem Path.of_done {answer : A} {log : List (C × Except String R)} {q : Proc C R A}
    (h : Path (done answer) log q) : log = [] ∧ q = done answer := by
  cases h
  exact ⟨rfl, rfl⟩

/-- A program at a call has not moved, or has got an outcome of this call. -/
theorem Path.of_call {command : C} {resume : Int → Except String R → Proc C R A}
    {log : List (C × Except String R)} {q : Proc C R A} (h : Path (call command resume) log q) :
    (log = [] ∧ q = call command resume) ∨
      ∃ now outcome rest, log = (command, outcome) :: rest ∧ Path (resume now outcome) rest q := by
  cases h with
  | nil _ => exact Or.inl ⟨rfl, rfl⟩
  | cons now tail => exact Or.inr ⟨now, _, _, rfl, tail⟩

/-- Every call of the program, whatever it gets, satisfies `P`. -/
inductive Only (P : C → Prop) : Proc C R A → Prop
  | done (answer : A) : Only P (done answer)
  | call {command : C} {resume : Int → Except String R → Proc C R A} (h : P command)
      (rest : ∀ now outcome, Only P (resume now outcome)) : Only P (call command resume)

theorem Only.path {P : C → Prop} {p q : Proc C R A} {log : List (C × Except String R)}
    (h : Only P p) (hpath : Path p log q) : (∀ e ∈ log, P e.1) ∧ Only P q := by
  induction hpath with
  | nil p => exact ⟨by simp, h⟩
  | cons now _ ih =>
      cases h with
      | call hcommand hrest =>
          obtain ⟨hlog, hq⟩ := ih (hrest now _)
          exact ⟨List.forall_mem_cons.mpr ⟨hcommand, hlog⟩, hq⟩

end Proc

namespace Remote

open Proc

/-- A call that was sent, with its result once it is executed. -/
structure Call (C R : Type) where
  task : ℕ
  command : C
  result : Option R

structure Execution (C R : Type) where
  call : ℕ
  task : ℕ
  now : Int
  command : C
  result : R

/-- A program with the calls it has behind it, the number of the call it waits
for and what is left of it. -/
structure Task (C R A : Type) where
  program : Proc C R A
  log : List (ℕ × C × Except String R)
  waiting : Option ℕ
  rest : Proc C R A

structure State (C R A σ : Type) where
  clock : Int
  object : σ
  calls : List (Call C R)
  tasks : ℕ → Option (Task C R A)

def State.initial {C R A σ : Type} (clock : Int) (object : σ) : State C R A σ :=
  ⟨clock, object, [], fun _ => none⟩

variable {C R A σ : Type} (exec : Int → C → σ → R × σ) (Starts : ℕ → Proc C R A → Prop)

/-- One step. The label is an execution; the other steps concern one program
only. A call may fail before or after its execution. -/
inductive Step : State C R A σ → Option (Execution C R) → State C R A σ → Prop
  | start {s : State C R A σ} {t : ℕ} {p : Proc C R A} (free : s.tasks t = none) (h : Starts t p) :
      Step s none { s with tasks := Function.update s.tasks t (some ⟨p, [], none, p⟩) }
  | send {s : State C R A σ} {t : ℕ} {p : Proc C R A} {log : List (ℕ × C × Except String R)}
      {command : C} {resume : Int → Except String R → Proc C R A}
      (h : s.tasks t = some ⟨p, log, none, .call command resume⟩) :
      Step s none { s with
        calls := s.calls ++ [⟨t, command, none⟩]
        tasks := Function.update s.tasks t
          (some ⟨p, log, some s.calls.length, .call command resume⟩) }
  | execute {s : State C R A σ} {n t : ℕ} {command : C} {now : Int} {result : R} {object : σ}
      (sent : s.calls[n]? = some ⟨t, command, none⟩) (clock : s.clock ≤ now)
      (h : exec now command s.object = (result, object)) :
      Step s (some ⟨n, t, now, command, result⟩) { s with
        clock := now
        object := object
        calls := s.calls.set n ⟨t, command, some result⟩ }
  | receive {s : State C R A σ} {n t : ℕ} {p : Proc C R A} {log : List (ℕ × C × Except String R)}
      {command : C} {resume : Int → Except String R → Proc C R A} {result : R}
      (h : s.tasks t = some ⟨p, log, some n, .call command resume⟩)
      (executed : s.calls[n]? = some ⟨t, command, some result⟩) (now : Int) :
      Step s none { s with
        tasks := Function.update s.tasks t
          (some ⟨p, log ++ [(n, command, .ok result)], none, resume now (.ok result)⟩) }
  | fail {s : State C R A σ} {n t : ℕ} {p : Proc C R A} {log : List (ℕ × C × Except String R)}
      {command : C} {resume : Int → Except String R → Proc C R A}
      (h : s.tasks t = some ⟨p, log, some n, .call command resume⟩) (now : Int) (reason : String) :
      Step s none { s with
        tasks := Function.update s.tasks t
          (some ⟨p, log ++ [(n, command, .error reason)], none, resume now (.error reason)⟩) }

/-- The executions of a run, in their order. -/
def executions (tr : List (Option (Execution C R))) : List (Execution C R) := tr.filterMap id

/-- A step of the object alone, at a time that is not before the last one. -/
def ExecStep (s : Int × σ) (e : Execution C R) (s' : Int × σ) : Prop :=
  s.1 ≤ e.now ∧ s'.1 = e.now ∧ exec e.now e.command s.2 = (e.result, s'.2)

variable {exec} {Starts}

/-- A call that is sent and executed at once. -/
theorem run_served {s : State C R A σ} {t : ℕ} {p : Proc C R A}
    {log : List (ℕ × C × Except String R)} {command : C}
    {resume : Int → Except String R → Proc C R A}
    (h : s.tasks t = some ⟨p, log, none, .call command resume⟩) {now : Int}
    (clock : s.clock ≤ now) :
    ∃ tr, Run (Step exec Starts) s tr
      ⟨now, (exec now command s.object).2,
        s.calls ++ [⟨t, command, some (exec now command s.object).1⟩],
        Function.update s.tasks t (some ⟨p, log, some s.calls.length, .call command resume⟩)⟩ := by
  have hsent : (s.calls ++ [⟨t, command, none⟩])[s.calls.length]? = some ⟨t, command, none⟩ :=
    at_last
  have hexecute : Step exec Starts ⟨s.clock, s.object, s.calls ++ [⟨t, command, none⟩],
      Function.update s.tasks t (some ⟨p, log, some s.calls.length, .call command resume⟩)⟩ _ _ :=
    .execute hsent clock rfl
  rw [show ∀ call call' : Call C R,
    (s.calls ++ [call]).set s.calls.length call' = s.calls ++ [call'] by simp] at hexecute
  exact ⟨_, .cons (.send h) (.cons hexecute (.nil _))⟩

/-- The clock of the object is past every execution. -/
theorem ExecStep.now_le {clock : Int} {object : σ} {tr : List (Execution C R)} {s : Int × σ}
    (run : Run (ExecStep exec) (clock, object) tr s) {e : Execution C R} (he : e ∈ tr) :
    e.now ≤ s.1 := by
  refine run.snoc_induction (motive := fun tr s => ∀ e ∈ tr, e.now ≤ s.1) (by simp) ?_ e he
  intro tr l s s' _ ih hstep e he
  rw [hstep.2.1]
  rcases List.mem_append.mp he with he | he
  · exact Int.le_trans (ih e he) hstep.1
  · obtain rfl := List.mem_singleton.mp he
    exact Int.le_refl _

/-- The executions are a run of the object. -/
theorem executions_run {clock : Int} {object : σ} {tr : List (Option (Execution C R))}
    {s : State C R A σ} (run : Run (Step exec Starts) (State.initial clock object) tr s) :
    Run (ExecStep exec) (clock, object) (executions tr) (s.clock, s.object) := by
  obtain ⟨t, hrun, rfl⟩ := run.projection (ExecStep exec) id
    (R := fun s t => t = (s.clock, s.object)) (t := (clock, object)) rfl
    (by
      rintro s l s' t rfl hstep hview
      cases hstep with
      | execute _ _ _ => cases hview
      | _ => rfl)
    (by
      rintro s l s' t e rfl hstep hview
      cases hstep with
      | execute _ clock h =>
          cases hview
          exact ⟨_, ⟨clock, rfl, h⟩, rfl⟩
      | _ => cases hview)
  exact hrun

/-- What is known of a program: it has walked a path from where it started, and
each result that it got is that of its call. -/
structure Accounted (Starts : ℕ → Proc C R A → Prop) (calls : List (Call C R)) (t : ℕ)
    (task : Task C R A) : Prop where
  starts : Starts t task.program
  path : Path task.program (task.log.map Prod.snd) task.rest
  results : ∀ n command result, (n, command, .ok result) ∈ task.log →
    calls[n]? = some ⟨t, command, some result⟩

/-- A call is behind its program, or is the one its program waits for. -/
def Owned (s : State C R A σ) (n : ℕ) (call : Call C R) : Prop :=
  ∃ task, s.tasks call.task = some task ∧
    ((∃ outcome, (n, call.command, outcome) ∈ task.log) ∨
      task.waiting = some n ∧ ∃ resume, task.rest = .call call.command resume)

structure Sound (Starts : ℕ → Proc C R A → Prop) (tr : List (Execution C R)) (s : State C R A σ) :
    Prop where
  executed : ∀ e ∈ tr, s.calls[e.call]? = some ⟨e.task, e.command, some e.result⟩
  covered : ∀ n t command result, s.calls[n]? = some ⟨t, command, some result⟩ →
    ∃ e ∈ tr, e.call = n ∧ e.task = t ∧ e.command = command ∧ e.result = result
  distinct : (tr.map Execution.call).Nodup
  accounted : ∀ t task, s.tasks t = some task → Accounted Starts s.calls t task
  owned : ∀ n call, s.calls[n]? = some call → Owned s n call

section Steps

variable {tr : List (Execution C R)} {s : State C R A σ}

theorem Accounted.grown {calls calls' : List (Call C R)} {t : ℕ} {task : Task C R A}
    (h : Accounted Starts calls t task)
    (hkept : ∀ (n : ℕ) (call : Call C R), calls[n]? = some call → call.result.isSome = true →
      calls'[n]? = some call) :
    Accounted Starts calls' t task :=
  ⟨h.starts, h.path, fun n command result hmem => hkept n _ (h.results n command result hmem) rfl⟩

/-- A step that only moves one program keeps the account when it does so along
its path and leaves none of its calls unaccounted. -/
theorem Sound.move (h : Sound Starts tr s) {t : ℕ} {task : Task C R A}
    (haccounted : Accounted Starts s.calls t task)
    (howned : ∀ n call, s.calls[n]? = some call → call.task = t →
      (∃ outcome, (n, call.command, outcome) ∈ task.log) ∨
        task.waiting = some n ∧ ∃ resume, task.rest = .call call.command resume) :
    Sound Starts tr { s with tasks := Function.update s.tasks t (some task) } where
  executed := h.executed
  covered := h.covered
  distinct := h.distinct
  accounted t' task' htask := by
    by_cases ht : t' = t
    · subst ht
      simp only [Function.update_self, Option.some.injEq] at htask
      exact htask ▸ haccounted
    · simp only [Function.update_of_ne ht] at htask
      exact h.accounted t' task' htask
  owned n call hcall := by
    by_cases ht : call.task = t
    · exact ⟨task, by simp only [ht, Function.update_self], howned n call hcall ht⟩
    · obtain ⟨task', htask', hcases⟩ := h.owned n call hcall
      exact ⟨task', by simp only [Function.update_of_ne ht, htask'], hcases⟩

/-- Where the call that a program waits for is over. -/
theorem Sound.over (h : Sound Starts tr s) {n t : ℕ} {p : Proc C R A}
    {log : List (ℕ × C × Except String R)} {command : C}
    {resume : Int → Except String R → Proc C R A} (outcome : Except String R)
    (htask : s.tasks t = some ⟨p, log, some n, .call command resume⟩) (now : Int)
    (hresult : ∀ result, outcome = .ok result → s.calls[n]? = some ⟨t, command, some result⟩) :
    Sound Starts tr { s with
      tasks := Function.update s.tasks t
        (some ⟨p, log ++ [(n, command, outcome)], none, resume now outcome⟩) } := by
  have haccounted := h.accounted t _ htask
  refine h.move ⟨haccounted.starts, ?_, ?_⟩ ?_
  · rw [List.map_append]
    exact haccounted.path.snoc now outcome
  · intro m command' result hmem
    rcases List.mem_append.mp hmem with hmem | hmem
    · exact haccounted.results m command' result hmem
    · cases List.mem_singleton.mp hmem
      exact hresult result rfl
  · intro m call hcall ht
    obtain ⟨task, htask', hcases⟩ := h.owned m call hcall
    rw [ht, htask] at htask'
    cases htask'
    refine Or.inl ?_
    rcases hcases with ⟨outcome', hmem⟩ | ⟨hwaiting, resume', hrest⟩
    · exact ⟨outcome', List.mem_append_left _ hmem⟩
    · cases hwaiting
      cases hrest
      exact ⟨outcome, List.mem_append_right _ (List.mem_singleton.mpr rfl)⟩

theorem Sound.start (h : Sound Starts tr s) {t : ℕ} {p : Proc C R A} (free : s.tasks t = none)
    (hp : Starts t p) :
    Sound Starts tr { s with tasks := Function.update s.tasks t (some ⟨p, [], none, p⟩) } := by
  refine h.move ⟨hp, .nil p, by simp⟩ ?_
  intro n call hcall ht
  obtain ⟨task, htask, -⟩ := h.owned n call hcall
  rw [ht, free] at htask
  cases htask

theorem Sound.send (h : Sound Starts tr s) {t : ℕ} {p : Proc C R A}
    {log : List (ℕ × C × Except String R)} {command : C}
    {resume : Int → Except String R → Proc C R A}
    (htask : s.tasks t = some ⟨p, log, none, .call command resume⟩) :
    Sound Starts tr { s with
      calls := s.calls ++ [⟨t, command, none⟩]
      tasks := Function.update s.tasks t
        (some ⟨p, log, some s.calls.length, .call command resume⟩) } where
  executed e he := at_append (h.executed e he) _
  covered n t' command' result hcall := by
    rcases at_snoc_iff.mp hcall with hcall | ⟨-, hcall⟩
    · exact h.covered n t' command' result hcall
    · cases hcall
  distinct := h.distinct
  accounted t' task' htask' := by
    by_cases ht : t' = t
    · subst ht
      simp only [Function.update_self, Option.some.injEq] at htask'
      have haccounted := h.accounted t' _ htask
      subst htask'
      exact ⟨haccounted.starts, haccounted.path, fun n command' result hmem =>
        at_append (haccounted.results n command' result hmem) _⟩
    · simp only [Function.update_of_ne ht] at htask'
      exact (h.accounted t' task' htask').grown fun n call hcall _ => at_append hcall _
  owned n call hcall := by
    rcases at_snoc_iff.mp hcall with hcall | ⟨rfl, rfl⟩
    · obtain ⟨task', htask', hcases⟩ := h.owned n call hcall
      by_cases ht : call.task = t
      · rw [ht, htask] at htask'
        cases htask'
        refine ⟨_, by simp only [ht, Function.update_self]; rfl, ?_⟩
        rcases hcases with hmem | ⟨hwaiting, -⟩
        · exact Or.inl hmem
        · cases hwaiting
      · exact ⟨task', by simp only [Function.update_of_ne ht, htask'], hcases⟩
    · exact ⟨_, Function.update_self _ _ _, Or.inr ⟨rfl, resume, rfl⟩⟩

theorem Sound.execute (h : Sound Starts tr s) {n t : ℕ} {command : C} {now : Int} {result : R}
    {object : σ} (sent : s.calls[n]? = some ⟨t, command, none⟩) :
    Sound Starts (tr ++ [⟨n, t, now, command, result⟩]) { s with
      clock := now
      object := object
      calls := s.calls.set n ⟨t, command, some result⟩ } := by
  have hlt := lt_length_of_at sent
  have hset : ∀ m call, (s.calls.set n ⟨t, command, some result⟩)[m]? = some call ↔
      (m = n ∧ call = ⟨t, command, some result⟩) ∨ (m ≠ n ∧ s.calls[m]? = some call) := by
    intro m call
    rw [List.getElem?_set]
    by_cases hm : n = m
    · subst hm
      simp [hlt, eq_comm]
    · simp [hm, Ne.symm hm]
  have hkept : ∀ (m : ℕ) (call : Call C R), s.calls[m]? = some call → call.result.isSome = true →
      (s.calls.set n ⟨t, command, some result⟩)[m]? = some call := by
    intro m call hcall hsome
    refine (hset m call).mpr (Or.inr ⟨?_, hcall⟩)
    rintro rfl
    rw [sent] at hcall
    cases hcall
    cases hsome
  have hnew : ∀ e ∈ tr, e.call ≠ n := by
    intro e he heq
    have hexecuted := h.executed e he
    rw [heq, sent] at hexecuted
    cases hexecuted
  constructor
  · intro e he
    rcases List.mem_append.mp he with he | he
    · exact hkept _ _ (h.executed e he) rfl
    · cases List.mem_singleton.mp he
      exact (hset n _).mpr (Or.inl ⟨rfl, rfl⟩)
  · intro m t' command' result' hcall
    rcases (hset m _).mp hcall with ⟨rfl, heq⟩ | ⟨-, hcall⟩
    · cases heq
      exact ⟨_, List.mem_append_right _ (List.mem_singleton.mpr rfl), rfl, rfl, rfl, rfl⟩
    · obtain ⟨e, he, hspec⟩ := h.covered m t' command' result' hcall
      exact ⟨e, List.mem_append_left _ he, hspec⟩
  · rw [List.map_append, List.nodup_append']
    refine ⟨h.distinct, List.nodup_singleton _, ?_⟩
    intro m hm hm'
    obtain ⟨e, he, rfl⟩ := List.mem_map.mp hm
    exact hnew e he (List.mem_singleton.mp hm')
  · exact fun t' task htask => (h.accounted t' task htask).grown hkept
  · intro m call hcall
    rcases (hset m call).mp hcall with ⟨rfl, rfl⟩ | ⟨-, hcall⟩
    · obtain ⟨task, htask, hcases⟩ := h.owned m _ sent
      exact ⟨task, htask, hcases⟩
    · exact h.owned m call hcall

theorem Step.sound {s s' : State C R A σ} {l : Option (Execution C R)} (h : Sound Starts tr s)
    (hstep : Step exec Starts s l s') : Sound Starts (tr ++ l.toList) s' := by
  cases hstep with
  | start free hp => simpa using h.start free hp
  | send htask => simpa using h.send htask
  | execute sent _ _ => exact h.execute sent
  | @receive n t p log command resume result htask executed now =>
      simpa using h.over (.ok result) htask now fun result' heq => by cases heq; exact executed
  | fail htask now reason => simpa using h.over (.error reason) htask now nofun

end Steps

/-- The account holds in every run. -/
theorem sound_of_run {clock : Int} {object : σ} {tr : List (Option (Execution C R))}
    {s : State C R A σ} (run : Run (Step exec Starts) (State.initial clock object) tr s) :
    Sound Starts (executions tr) s := by
  refine run.snoc_induction (motive := fun tr s => Sound Starts (executions tr) s) ?_ ?_
  · exact ⟨by simp [executions], by simp [State.initial], by simp [executions],
      by simp [State.initial], by simp [State.initial]⟩
  · intro tr l s s' _ ih hstep
    have hnext := hstep.sound ih
    have happend : executions (tr ++ [l]) = executions tr ++ l.toList := by
      cases l <;> simp [executions]
    rwa [happend]

/-- An execution is for a program of the run, and of a call that it may make. -/
theorem Sound.owner {tr : List (Execution C R)} {s : State C R A σ} (h : Sound Starts tr s)
    {e : Execution C R} (he : e ∈ tr) :
    ∃ task, s.tasks e.task = some task ∧ Starts e.task task.program ∧
      ∀ P : C → Prop, Only P task.program → P e.command := by
  obtain ⟨task, htask, hcases⟩ := h.owned e.call _ (h.executed e he)
  have haccounted := h.accounted _ task htask
  refine ⟨task, htask, haccounted.starts, fun P honly => ?_⟩
  obtain ⟨hlog, hrest⟩ := honly.path haccounted.path
  rcases hcases with ⟨outcome, hmem⟩ | ⟨-, resume, heq⟩
  · exact hlog _ (List.mem_map_of_mem hmem)
  · rw [heq] at hrest
    cases hrest with
    | call hcommand _ => exact hcommand

/-- A program that ends after its first call is executed for once. -/
theorem Sound.once {tr : List (Execution C R)} {s : State C R A σ} (h : Sound Starts tr s) {t : ℕ}
    {task : Task C R A} (htask : s.tasks t = some task) {command : C}
    {resume : Int → Except String R → Proc C R A} (hprogram : task.program = .call command resume)
    (hends : ∀ now outcome, ∃ answer, resume now outcome = .done answer) {e e' : Execution C R}
    (he : e ∈ tr) (he' : e' ∈ tr) (ht : e.task = t) (ht' : e'.task = t) : e = e' := by
  have hpath := (h.accounted t task htask).path
  rw [hprogram] at hpath
  -- the log has no more than one call, and then nothing is left to wait for
  have hshape : (task.log = [] ∨ ∃ x, task.log = [x] ∧ ∃ answer, task.rest = .done answer) := by
    rcases hpath.of_call with ⟨hnil, -⟩ | ⟨now, outcome, rest, hcons, htail⟩
    · exact Or.inl (List.map_eq_nil_iff.mp hnil)
    · obtain ⟨answer, hanswer⟩ := hends now outcome
      rw [hanswer] at htail
      obtain ⟨rfl, hrest⟩ := htail.of_done
      obtain ⟨x, hx, -⟩ := List.map_eq_singleton_iff.mp hcons
      exact Or.inr ⟨x, hx, answer, hrest⟩
  have hcall : ∀ e ∈ tr, e.task = t → (∃ x, task.log = [x] ∧ x.1 = e.call) ∨
      task.log = [] ∧ task.waiting = some e.call := by
    intro e he ht
    obtain ⟨task', htask', hcases⟩ := h.owned e.call _ (h.executed e he)
    simp only [ht, htask, Option.some.injEq] at htask'
    subst htask'
    rcases hshape with hnil | ⟨x, hx, answer, hrest⟩
    · rcases hcases with ⟨outcome, hmem⟩ | ⟨hwaiting, -⟩
      · rw [hnil] at hmem
        cases hmem
      · exact Or.inr ⟨hnil, hwaiting⟩
    · rcases hcases with ⟨outcome, hmem⟩ | ⟨-, resume', heq⟩
      · rw [hx] at hmem
        exact Or.inl ⟨x, hx, (congrArg Prod.fst (List.mem_singleton.mp hmem)).symm⟩
      · rw [hrest] at heq
        cases heq
  have hsame : e.call = e'.call := by
    rcases hcall e he ht with ⟨x, hx, hcall₁⟩ | ⟨hnil, hwaiting⟩
    · rcases hcall e' he' ht' with ⟨y, hy, hcall₂⟩ | ⟨hnil', -⟩
      · rw [hx] at hy
        cases hy
        exact hcall₁.symm.trans hcall₂
      · rw [hx] at hnil'
        cases hnil'
    · rcases hcall e' he' ht' with ⟨y, hy, -⟩ | ⟨-, hwaiting'⟩
      · rw [hnil] at hy
        cases hy
      · exact Option.some.inj (hwaiting.symm.trans hwaiting')
  exact List.inj_on_of_nodup_map h.distinct he he' hsame

/-- A result that a program got is that of an execution for it. -/
theorem Sound.execution {tr : List (Execution C R)} {s : State C R A σ} (h : Sound Starts tr s)
    {t : ℕ} {task : Task C R A} (htask : s.tasks t = some task) {command : C} {result : R}
    (hmem : (command, .ok result) ∈ task.log.map Prod.snd) :
    ∃ e ∈ tr, e.task = t ∧ e.command = command ∧ e.result = result := by
  obtain ⟨⟨n, command', outcome⟩, hentry, heq⟩ := List.mem_map.mp hmem
  cases heq
  obtain ⟨e, he, -, hspec⟩ := h.covered n t command result
    ((h.accounted t task htask).results n command result hentry)
  exact ⟨e, he, hspec⟩

end Remote

end EncryptionGateway.Foundation
