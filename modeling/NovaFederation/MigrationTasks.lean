import NovaFederation.Redelivery
import NovaFederation.Schedule

/-!
# The Celery tasks

A task awaits `engine.run()` and drops what it returns, so that it learns of a failure only by
an exception that leaves the engine. An exception leaves the engine when the failure cannot be
written to the database, and a failure that is recorded ends the task as a success.

`Attempts` is the life of one message: a worker runs the task, and runs it again as long as
`self.retry` sends the message again.
-/

namespace NovaFederation
open Coroutine Schedule

/-- What `self.retry` raises: `Retry` once the message has been sent again, or an exception. -/
inductive TaskException
  | retry (countdown : ℕ)
  | raised (e : PyException)
  deriving DecidableEq

/-- `self.retry(exc=exc, countdown=countdown)` of a bound task that has been retried so often. -/
abbrev RetryMethod := (maxRetries retries : ℕ) → PyException → (countdown : ℕ) → TaskException

/-- Celery sends the message again until the task has been retried `max_retries` times, and then
raises the exception that it was given. -/
structure RetriesUpToMax (retry : RetryMethod) : Prop where
  again : ∀ maxRetries retries e countdown, retries < maxRetries →
    retry maxRetries retries e countdown = .retry countdown
  exhausted : ∀ maxRetries retries e countdown, maxRetries ≤ retries →
    retry maxRetries retries e countdown = .raised e

namespace MigrationMessage
variable (m : MigrationMessage)

def maxRetries : ℕ := if m.live then 1 else 2

def countdown : ℕ := if m.live then 10 else 30

/-- `run_cold_migration` and `run_live_migration`, which differ in these two numbers. What
`engine.run()` returns is dropped. -/
def runMigration (retry : RetryMethod) (cfg : Settings) (O : World) (retries : ℕ) (h : Trace) :
    Except TaskException Unit × Trace :=
  let out := m.execute cfg O h
  match out.1 with
  | .ok _ => (.ok (), out.2.2)
  | .error e => (.error (retry m.maxRetries retries e m.countdown), out.2.2)

end MigrationMessage

/-- `outcome` is the state of the task once it is neither queued nor to be retried. -/
structure Attempts where
  retries : ℕ := 0
  history : Trace := []
  outcome : Option (Except PyException Unit) := none

namespace Attempts
variable (retry : RetryMethod) (cfg : Settings) (O : World) (m : MigrationMessage) (s : Attempts)

def step (_ : Unit) : Option Attempts :=
  match s.outcome with
  | some _ => none
  | none =>
    match m.runMigration retry cfg O s.retries s.history with
    | (.ok (), h) => some { s with history := h, outcome := some (.ok ()) }
    | (.error (.raised e), h) => some { s with history := h, outcome := some (.error e) }
    | (.error (.retry _), h) => some { s with history := h, retries := s.retries + 1 }

/-- The task succeeds only when `run()` returns `True`; otherwise it is retried as long as
retries are left, and fails then. -/
def Reflects (_ : Unit) (s' : Attempts) : Prop :=
  let result := (m.execute cfg O s.history).1
  (s'.outcome = some (.ok ()) → result = .ok true) ∧
    (result ≠ .ok true → if s.retries < m.maxRetries
      then s'.outcome = none ∧ s'.retries = s.retries + 1
      else s'.outcome.any (·.isOk = false) = true) ∧
    s'.retries ≤ m.maxRetries

def Escapes (_ : Unit) (_ : Attempts) : Prop :=
  ∀ e s₀ t, BodyRaises (migrationType m.live) cfg m.context (after O s.history) e s₀ t →
    (O (s.history ++ t) (.fail e.message)).isOk = false

end Attempts

/-! ### One attempt -/

namespace MigrationMessage
variable {cfg : Settings} {O : World} {m : MigrationMessage} {h : Trace}

theorem execute_eq (m : MigrationMessage) (cfg : Settings) (O : World) (h : Trace) :
    (m.execute cfg O h).1 =
      ((migrationType m.live).migrate cfg m.context (after O h)).result := by
  have hafter := exec_after O ((migrationType m.live).run cfg) (EngineState.init m.context) h []
  rw [List.append_nil] at hafter
  rw [execute, hafter]
  rfl

theorem execute_false_iff : (m.execute cfg O h).1 = .ok false ↔
    ∃ e s₀ t, BodyRaises (migrationType m.live) cfg m.context (after O h) e s₀ t ∧
      (O (h ++ t) (.fail e.message)).isOk = true := by
  rw [execute_eq]
  constructor
  · intro hres
    obtain ⟨e, s₀, t, hb, -⟩ := rolledBack_of_false hres
    refine ⟨e, s₀, t, hb, ?_⟩
    rcases hb.ends with ⟨hO, -, -⟩ | ⟨x, hO, -⟩
    · change (after O h t (.fail e.message)).isOk = true
      rw [hO]
      rfl
    · rw [hb.raised hO] at hres
      cases hres
  · rintro ⟨e, s₀, t, hb, hok⟩
    rcases hb.ends with ⟨-, hres, -⟩ | ⟨x, hO, -⟩
    · exact hres
    · change (after O h t (.fail e.message)).isOk = true at hok
      rw [hO] at hok
      cases hok

end MigrationMessage

namespace Attempts
variable {retry : RetryMethod} {cfg : Settings} {O : World} {m : MigrationMessage}
  {s s' : Attempts} {u : Unit}

theorem escapes_iff : s.Escapes cfg O m u s' ↔ (m.execute cfg O s.history).1 ≠ .ok false := by
  rw [Ne, MigrationMessage.execute_false_iff]
  constructor
  · rintro hesc ⟨e, s₀, t, hb, hok⟩
    rw [hesc e s₀ t hb] at hok
    cases hok
  · intro hno e s₀ t hb
    by_contra hok
    exact hno ⟨e, s₀, t, hb, by simpa using hok⟩

theorem step_cases (hretry : RetriesUpToMax retry) (h : step retry cfg O m s u = some s') :
    s.outcome = none ∧
      match (m.execute cfg O s.history).1 with
      | .ok _ => s'.outcome = some (.ok ()) ∧ s'.retries = s.retries
      | .error e => if s.retries < m.maxRetries
        then s'.outcome = none ∧ s'.retries = s.retries + 1
        else s'.outcome = some (.error e) ∧ s'.retries = s.retries := by
  unfold step at h
  cases ho : s.outcome with
  | some r => simp [ho] at h
  | none =>
    refine ⟨rfl, ?_⟩
    rw [ho] at h
    unfold MigrationMessage.runMigration at h
    cases hx : (m.execute cfg O s.history).1 with
    | ok b =>
      simp only [hx] at h
      obtain rfl := Option.some.inj h
      exact ⟨rfl, rfl⟩
    | error e =>
      simp only [hx] at h
      dsimp only
      by_cases hleft : s.retries < m.maxRetries
      · rw [hretry.again _ _ _ _ hleft] at h
        obtain rfl := Option.some.inj h
        rw [if_pos hleft]
        exact ⟨rfl, rfl⟩
      · rw [hretry.exhausted _ _ _ _ (Nat.le_of_not_lt hleft)] at h
        obtain rfl := Option.some.inj h
        rw [if_neg hleft]
        exact ⟨rfl, rfl⟩

theorem retries_step (hretry : RetriesUpToMax retry) (h : step retry cfg O m s u = some s')
    (hs : s.retries ≤ m.maxRetries) : s'.retries ≤ m.maxRetries := by
  obtain ⟨-, hcases⟩ := step_cases hretry h
  split at hcases
  · omega
  · split_ifs at hcases with hleft
    · omega
    · omega

theorem reflects_iff (hretry : RetriesUpToMax retry) (h : step retry cfg O m s u = some s')
    (hs : s.retries ≤ m.maxRetries) : s.Reflects cfg O m u s' ↔ s.Escapes cfg O m u s' := by
  have hmax := retries_step hretry h hs
  obtain ⟨-, hcases⟩ := step_cases hretry h
  rw [escapes_iff]
  unfold Reflects
  cases hx : (m.execute cfg O s.history).1 with
  | ok b =>
    rw [hx] at hcases
    obtain ⟨hout, -⟩ := hcases
    cases b with
    | true => exact iff_of_true ⟨fun _ => rfl, fun hne => absurd rfl hne, hmax⟩ (by simp)
    | false =>
      refine iff_of_false ?_ (by simp)
      rintro ⟨honly, -⟩
      cases honly hout
  | error e =>
    rw [hx] at hcases
    refine iff_of_true ⟨fun hout => ?_, fun _ => ?_, hmax⟩ (by simp)
    · dsimp only at hcases
      split_ifs at hcases with hleft
      · rw [hcases.1] at hout
        cases hout
      · rw [hcases.1] at hout
        cases hout
    · dsimp only at hcases
      by_cases hleft : s.retries < m.maxRetries
      · rw [if_pos hleft] at hcases ⊢
        exact hcases
      · rw [if_neg hleft] at hcases ⊢
        rw [hcases.1]
        rfl

end Attempts

/-! ### Every message -/

open Attempts in
theorem task_reflects_iff (retry : RetryMethod) (hretry : RetriesUpToMax retry) (cfg : Settings)
    (O : World) (m : MigrationMessage) (n : ℕ) :
    Along (step retry cfg O m) (Reflects cfg O m) {} (List.replicate n ()) ↔
      Along (step retry cfg O m) (Escapes cfg O m) {} (List.replicate n ()) := by
  have hstart : ({} : Attempts).retries ≤ m.maxRetries := Nat.zero_le _
  constructor
  · intro hr
    refine hr.imp (fun s => s.retries ≤ m.maxRetries) ?_ hstart
    intro s u s' h hs hr
    exact ⟨(reflects_iff hretry h hs).1 hr, retries_step hretry h hs⟩
  · intro hesc
    refine hesc.imp (fun s => s.retries ≤ m.maxRetries) ?_ hstart
    intro s u s' h hs hesc
    exact ⟨(reflects_iff hretry h hs).2 hesc, retries_step hretry h hs⟩

instance (cfg : Settings) (O : World) (m : MigrationMessage) (s : Attempts) (u : Unit)
    (s' : Attempts) : Decidable (s.Reflects cfg O m u s') :=
  inferInstanceAs (Decidable (_ ∧ _ ∧ _))

def countingRetry : RetryMethod := fun maxRetries retries e countdown =>
  if retries < maxRetries then .retry countdown else .raised e

theorem retriesUpToMax_counting : RetriesUpToMax countingRetry where
  again _ _ _ _ h := if_pos h
  exhausted _ _ _ _ h := if_neg (Nat.not_lt.2 h)

def withoutDatabase : World
  | _, .transition .. => .error ⟨.other, "connection refused"⟩
  | _, .fail _ => .error ⟨.other, "connection refused"⟩
  | h, c => cooperative twoVolumes h c

theorem task_reflects_without_database :
    Along (Attempts.step countingRetry settings withoutDatabase (message false))
      (Attempts.Reflects settings withoutDatabase (message false)) {} (List.replicate 3 ()) :=
  (task_reflects_iff countingRetry retriesUpToMax_counting settings withoutDatabase
    (message false) 3).2 (along_of_forall fun _ _ _ _ _ _ _ => rfl)

def vmInError : World := cooperative { twoVolumes with status := "ERROR" }

/-- The engine records the failure and returns `False`, and the task succeeds at once. -/
theorem not_task_reflects :
    ((message false).execute settings vmInError []).1 = .ok false ∧
      ¬ Along (Attempts.step countingRetry settings vmInError (message false))
        (Attempts.Reflects settings vmInError (message false)) {} (List.replicate 3 ()) :=
  ⟨by decide +kernel, by decide +kernel⟩

end NovaFederation
