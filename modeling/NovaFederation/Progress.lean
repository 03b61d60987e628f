import Mathlib.Algebra.Order.Field.Basic
import Mathlib.Data.Rat.Cast.Order
import Mathlib.Tactic.Linarith
import Mathlib.Tactic.NormNum
import Mathlib.Tactic.Positivity
import NovaFederation.SagaRuns
import NovaFederation.Phases
import NovaFederation.Clusters

/-!
# Progress of a live migration

A step writes a fixed percentage when it begins. The memory step goes from 25 to 75 by what the
monitor polls: half of the share of the memory that libvirt reports as processed, cut off at 99%,
and zero when it reports nothing or raises. `Shows` gives what has been written together with the
polls that were.
-/

namespace NovaFederation
open Coroutine History MigrationEngine
variable {cfg : Settings} {ctx : MigrationContext} {O : World} {s : EngineState} {h : Trace}
  {e : CallEvent}

abbrev PollAnswer := Except PyException (Option JobInfo)

def progressOf : CallEvent → Option ℚ
  | ⟨.transition _ _ progress, .ok _⟩ => some progress
  | _ => none

def progressWritten (h : Trace) : List ℚ := h.filterMap progressOf

/-- The last poll and the polls whose percentage was committed. -/
structure Polling where
  last : Option PollAnswer := none
  committed : List PollAnswer := []

def Polling.apply (p : Polling) : CallEvent → Polling
  | ⟨.jobInfo _ _, answer⟩ => { p with last := some answer }
  | ⟨.transition .monitor _ _, .ok _⟩ => { p with committed := p.committed ++ p.last.toList }
  | _ => p

def committedPolls (h : Trace) : List PollAnswer := (replay Polling.apply {} h).committed

/-- The progress of a run never goes backwards nor out of its range. -/
def ProgressGrows (h : Trace) : Prop :=
  (progressWritten h).Pairwise (· ≤ ·) ∧ ∀ progress ∈ progressWritten h,
    0 ≤ progress ∧ progress ≤ 100

instance (h : Trace) : Decidable (ProgressGrows h) :=
  inferInstanceAs (Decidable (_ ∧ ∀ progress ∈ progressWritten h, _))

def counters : PollAnswer → Option JobInfo
  | .ok (some info) => if 0 < info.total then some info else none
  | _ => none

/-- The second poll is not behind the first: it is past 99%, or no smaller share of its total has
been processed. A poll without counters is behind any that has processed something. -/
def NotBehind (a b : PollAnswer) : Prop :=
  match counters a, counters b with
  | none, _ => True
  | some i, none => i.processed = 0
  | some i, some j => 99 * j.total ≤ 100 * j.processed ∨
      i.processed * j.total ≤ j.processed * i.total

/-! ### Percentages -/

def percent (answer : PollAnswer) : ℚ :=
  match counters answer with
  | some info => min 99 ((info.processed : ℚ) / info.total * 100)
  | none => 0

theorem total_pos {answer : PollAnswer} {info : JobInfo} (hc : counters answer = some info) :
    0 < info.total := by
  unfold counters at hc
  split at hc
  · split_ifs at hc with htotal
    obtain rfl := Option.some.inj hc
    exact htotal
  · cases hc

theorem percent_nonneg (answer : PollAnswer) : 0 ≤ percent answer := by
  unfold percent
  split
  · exact le_min (by norm_num) (by positivity)
  · exact le_refl 0

theorem percent_le (answer : PollAnswer) : percent answer ≤ 99 := by
  unfold percent
  split
  · exact min_le_left _ _
  · norm_num

theorem share_le_iff {p t q u : ℕ} (ht : 0 < t) (hu : 0 < u) :
    (p : ℚ) / t * 100 ≤ (q : ℚ) / u * 100 ↔ p * u ≤ q * t := by
  have ht' : (0 : ℚ) < t := Nat.cast_pos.2 ht
  have hu' : (0 : ℚ) < u := Nat.cast_pos.2 hu
  rw [mul_le_mul_iff_left₀ (by norm_num), div_le_div_iff₀ ht' hu']
  exact_mod_cast Iff.rfl

theorem past_iff {q u : ℕ} (hu : 0 < u) : 99 ≤ (q : ℚ) / u * 100 ↔ 99 * u ≤ 100 * q := by
  have hu' : (0 : ℚ) < u := Nat.cast_pos.2 hu
  rw [div_mul_eq_mul_div, le_div_iff₀ hu', mul_comm (q : ℚ)]
  exact_mod_cast Iff.rfl

/-- Two polls compare as their counters do. -/
theorem percent_le_percent_iff (a b : PollAnswer) : percent a ≤ percent b ↔ NotBehind a b := by
  unfold percent NotBehind
  cases ha : counters a with
  | none =>
    refine iff_of_true ?_ (by cases counters b <;> trivial)
    exact percent_nonneg b
  | some i =>
    have hi := total_pos ha
    cases hb : counters b with
    | none =>
      dsimp only
      rw [min_le_iff, or_iff_right (by norm_num)]
      have hzero := share_le_iff (p := i.processed) (q := 0) hi Nat.one_pos
      simpa using hzero
    | some j =>
      have hj := total_pos hb
      dsimp only
      rw [le_min_iff, min_le_iff, min_le_iff, ← past_iff hj, ← share_le_iff hi hj]
      exact and_iff_right (.inl (le_refl _))

/-! ### What a history shows -/

/-- `_progress_cb`: the memory phase goes from 25% to 75%. -/
def overall (answer : PollAnswer) : ℚ := 25 + percent answer * (1 / 2)

def Call.isProgress : Call → Bool
  | .transition _ _ _ => true
  | .jobInfo _ _ => true
  | _ => false

structure Shows (written : List ℚ) (polls : List PollAnswer) (h : Trace) : Prop where
  written : progressWritten h = written
  polls : committedPolls h = polls

variable {written : List ℚ} {polls : List PollAnswer}

theorem committedPolls_snoc (h : Trace) (e : CallEvent) :
    committedPolls (h ++ [e]) = ((replay Polling.apply {} h).apply e).committed := by
  rw [committedPolls, replay_append]
  rfl

theorem progressWritten_snoc_none (he : progressOf e = none) :
    progressWritten (h ++ [e]) = progressWritten h :=
  filterMap_snoc_none _ he h

theorem progressWritten_snoc_some {progress : ℚ} (he : progressOf e = some progress) :
    progressWritten (h ++ [e]) = progressWritten h ++ [progress] :=
  filterMap_snoc_some _ he h

theorem Shows.other (hs : Shows written polls h) (he : e.call.isProgress = false) :
    Shows written polls (h ++ [e]) where
  written := by
    rw [progressWritten_snoc_none, hs.written]
    unfold progressOf
    split
    · cases he
    · rfl
  polls := by
    rw [committedPolls_snoc, Polling.apply.eq_def]
    split
    · cases he
    · cases he
    · exact hs.polls

theorem Shows.unwritten (hs : Shows written polls h) (task : Task) (state : MigrationState)
    (progress : ℚ) (x : PyException) :
    Shows written polls (h ++ [⟨.transition task state progress, .error x⟩]) where
  written := (progressWritten_snoc_none rfl).trans hs.written
  polls := by
    rw [committedPolls_snoc]
    cases task with
    | run => exact hs.polls
    | monitor => exact hs.polls

theorem Shows.transition (hs : Shows written polls h) (state : MigrationState) (progress : ℚ) :
    Shows (written ++ [progress]) polls (h ++ [⟨.transition .run state progress, .ok ()⟩]) where
  written := by rw [progressWritten_snoc_some rfl, hs.written]
  polls := (committedPolls_snoc _ _).trans hs.polls

theorem Shows.asked (hs : Shows written polls h) (sourceHost vmId : String) (answer : PollAnswer) :
    Shows written polls (h ++ [⟨.jobInfo sourceHost vmId, answer⟩]) where
  written := (progressWritten_snoc_none rfl).trans hs.written
  polls := (committedPolls_snoc _ _).trans hs.polls

theorem Shows.poll (hs : Shows written polls h) (sourceHost vmId : String) (answer : PollAnswer)
    (state : MigrationState) (progress : ℚ) :
    Shows (written ++ [progress]) (polls ++ [answer]) (h ++ [⟨.jobInfo sourceHost vmId, answer⟩] ++
      [⟨.transition .monitor state progress, .ok ()⟩]) where
  written := by
    rw [progressWritten_snoc_some rfl, progressWritten_snoc_none rfl, hs.written]
  polls := by
    rw [committedPolls_snoc, replay_append]
    exact congrArg (· ++ [answer]) hs.polls

/-! ### One step -/

def Enters (progress : ℚ) (step : Engine Unit) : Prop :=
  ∃ st rest, (step = transition .run st progress >>= fun _ => rest) ∧
    Calls (fun c => c.isProgress = false) rest

theorem wp_transition_shows (hs : Shows written polls h) (st : MigrationState) (progress : ℚ) :
    wp (transition .run st progress) (fun _ _ h' => Shows (written ++ [progress]) polls h')
      (fun _ _ h' => Shows written polls h') s h := by
  rw [transition, wp_bind, wp_modify, wp_perform]
  exact ⟨fun _ => hs.transition st progress, fun x => hs.unwritten _ _ _ x⟩

theorem wp_enters {progress : ℚ} {step : Engine Unit} (hstep : Enters progress step)
    (hs : Shows written polls h) :
    wp step (fun _ _ h' => Shows (written ++ [progress]) polls h')
      (fun _ _ h' => Shows written polls h' ∨ Shows (written ++ [progress]) polls h') s h := by
  obtain ⟨st, rest, rfl, hrest⟩ := hstep
  apply wp_seq (wp_mono (wp_transition_shows hs st progress) (fun _ _ _ hq => hq)
    fun _ _ _ hq => .inl hq)
  intro _ s₁ h₁ hs₁
  apply wp_mono (wp_calls hrest (Shows _ polls) (fun _ _ he hq => hq.other he) hs₁)
  · exact fun _ _ _ hq => hq
  · exact fun _ _ _ hq => .inr hq

theorem enters_preflight (admits : String → Bool) (refusal : String → VMDetails → String) :
    Enters 5 (preflight cfg admits refusal) := by
  refine ⟨_, _, rfl, .bind (.read _) fun _ => .bind (.perform rfl) fun _ =>
    .bind (.modify _ _) fun _ => .ite ?_ (.throw _ _)⟩
  refine .bind (.modify _ _) fun _ => .bind (.read _) fun _ => .forM fun _ _ => ?_
  exact .bind (.perform rfl) fun _ => .ite (.pure _ _) (.throw _ _)

theorem steady_handoff (prefixes : List String) (hop : Option String)
    (client : Option (CNFControlStub .source)) :
    Calls (fun c => c.isProgress = false) (BGPManager.handoff prefixes hop client) := by
  refine .bind (.forM fun _ _ => .perform rfl) fun _ => .bind (.forM fun pfx _ => ?_) fun _ =>
    .forM fun _ _ => .perform rfl
  refine .tryCatch (.bind ?_ fun _ => .pure _ _) fun _ => .pure _ _
  cases client with
  | none => exact .throw _ _
  | some _ => exact .perform rfl

theorem enters_cleanup (progress : ℚ) : Enters progress (cleanup progress) :=
  ⟨_, _, rfl, .bind (.read _) fun _ => .tryCatch (.perform rfl) fun _ => .pure _ _⟩

namespace LiveMigrationEngine

theorem enters_stepDiskSync : Enters 15 (stepDiskSync cfg) :=
  ⟨_, _, rfl, .bind (.read _) fun _ => .forM fun _ _ => .bind (.perform rfl) fun _ => .pure _ _⟩

theorem enters_stepCutover : Enters 80 (stepCutover cfg) := by
  refine ⟨_, _, rfl, .bind (.read _) fun _ =>
    .bind (.forM fun _ _ => .bind (.perform rfl) fun _ => .perform rfl) fun _ =>
    .bind (.modify _ _) fun _ => .bind (.read _) fun _ => .forM fun _ _ => .ite ?_ (.perform rfl)⟩
  exact .bind (.perform rfl) fun _ => .pure _ _

theorem enters_stepBgp : Enters 90 stepBgp :=
  ⟨_, _, rfl, .bind (.read _) fun _ => .ite (.pure _ _) (steady_handoff _ _ _)⟩

end LiveMigrationEngine

/-! ### The body -/

/-- After the entry of the memory step: the polls, and after them some of the given values. -/
def Climbing (values : List ℚ) (h : Trace) : Prop :=
  ∃ polls after, after.Sublist values ∧
    Shows ([5, 15, 25] ++ polls.map overall ++ after) polls h

def Climbed (h : Trace) : Prop :=
  (∃ before, before.Sublist [5, 15, 25] ∧ Shows before [] h) ∨ Climbing [75, 80, 90, 96, 100] h

theorem Climbing.mono {values values' : List ℚ} (hc : Climbing values h)
    (hv : values.Sublist values') : Climbing values' h := by
  obtain ⟨polls, after, hafter, hs⟩ := hc
  exact ⟨polls, after, hafter.trans hv, hs⟩

theorem Climbing.append {values : List ℚ} {progress : ℚ} {polls : List PollAnswer}
    {after : List ℚ} (hafter : after.Sublist values)
    (hs : Shows ([5, 15, 25] ++ polls.map overall ++ after ++ [progress]) polls h) :
    Climbing (values ++ [progress]) h :=
  ⟨polls, after ++ [progress], hafter.append (List.Sublist.refl _), by
    rwa [← List.append_assoc]⟩

theorem wp_transition_climbing {values : List ℚ} (hc : Climbing values h) (st : MigrationState)
    (progress : ℚ) :
    wp (transition .run st progress) (fun _ _ h' => Climbing (values ++ [progress]) h')
      (fun _ _ h' => Climbing values h') s h := by
  obtain ⟨polls, after, hafter, hs⟩ := hc
  apply wp_mono (wp_transition_shows hs st progress)
  · exact fun _ _ _ hq => Climbing.append hafter hq
  · exact fun _ _ _ hq => ⟨polls, after, hafter, hq⟩

theorem wp_enters_climbing {values : List ℚ} {progress : ℚ} {step : Engine Unit}
    (hstep : Enters progress step) (hc : Climbing values h) :
    wp step (fun _ _ h' => Climbing (values ++ [progress]) h')
      (fun _ _ h' => Climbing (values ++ [progress]) h') s h := by
  obtain ⟨polls, after, hafter, hs⟩ := hc
  apply wp_mono (wp_enters hstep hs)
  · exact fun _ _ _ hq => Climbing.append hafter hq
  · rintro _ _ _ (hq | hq)
    · exact ⟨polls, after, hafter.trans (List.sublist_append_left _ _), hq⟩
    · exact Climbing.append hafter hq

namespace LiveMigrationEngine

theorem wp_getProgressPct_percent {sourceHost vmId : String} :
    wp (QEMUMigrationTunnel.getProgressPct sourceHost vmId)
      (fun pct s' h' => s' = s ∧ ∃ answer, pct = percent answer ∧
        h' = h ++ [⟨.jobInfo sourceHost vmId, answer⟩]) (fun _ _ _ => False) s h := by
  rw [QEMUMigrationTunnel.getProgressPct, wp_tryCatch, wp_bind, wp_perform]
  constructor
  · intro info
    cases info with
    | none => exact ⟨rfl, .ok none, rfl, rfl⟩
    | some info =>
      dsimp only
      rw [wp_ite]
      refine ⟨fun htotal => ⟨rfl, .ok (some info), ?_, rfl⟩,
        fun htotal => ⟨rfl, .ok (some info), ?_, rfl⟩⟩
      · rw [percent, counters, if_pos htotal]
      · rw [percent, counters, if_neg htotal]
  · exact fun x => ⟨rfl, .error x, rfl, rfl⟩

/-- The loop shows its committed polls, each at its percentage. -/
theorem wp_monitorProgress_climbing {sourceHost vmId : String} (count : ℕ) (hc : Climbing [] h) :
    wp (QEMUMigrationTunnel.monitorProgress sourceHost vmId (progressCb .monitor) count)
      (fun _ _ h' => Climbing [] h') (fun _ _ _ => False) s h := by
  induction count generalizing s h with
  | zero => exact hc
  | succ count ih =>
    rw [QEMUMigrationTunnel.monitorProgress, wp_bind, wp_read, wp_ite]
    refine ⟨fun _ => hc, fun _ => ?_⟩
    obtain ⟨polls, after, hafter, hs⟩ := hc
    obtain rfl := List.sublist_nil.1 hafter
    rw [List.append_nil] at hs
    rw [wp_bind, wp_tryCatch, wp_bind]
    apply wp_mono wp_getProgressPct_percent
    · rintro _ _ _ ⟨rfl, answer, rfl, rfl⟩
      rw [progressCb, transition, wp_bind, wp_modify, wp_perform]
      constructor
      · intro _
        apply ih
        refine ⟨polls ++ [answer], [], List.Sublist.refl _, ?_⟩
        rw [List.append_nil, List.map_append, ← List.append_assoc]
        exact hs.poll _ _ answer _ _
      · intro x
        apply ih
        refine ⟨polls, [], List.Sublist.refl _, ?_⟩
        rw [List.append_nil]
        exact (hs.asked _ _ answer).unwritten _ _ _ x
    · exact fun _ _ _ hfalse => hfalse.elim

theorem wp_tunnelRun_climbing {vmId sourceHost destHost : String} (hc : Climbing [] h) :
    wp (QEMUMigrationTunnel.run vmId sourceHost destHost (progressCb .monitor) (progressCb .run))
      (fun _ _ h' => Climbing [75] h') (fun _ _ h' => Climbing [75] h') s h := by
  have hother : ∀ {h : Trace} {e : CallEvent}, Climbing [] h → e.call.isProgress = false →
      Climbing [] (h ++ [e]) := by
    rintro h e ⟨polls, after, hafter, hs⟩ he
    exact ⟨polls, after, hafter, hs.other he⟩
  have hmono : ∀ {h : Trace}, Climbing [] h → Climbing [75] h :=
    fun hc => hc.mono (List.nil_sublist _)
  have hpolls : wp (tryCatch (await .monitorPolls) fun _ => pure 0)
      (fun _ _ h' => Climbing [] h') (fun _ _ h' => Climbing [75] h') s h := by
    rw [wp_tryCatch, wp_perform]
    exact ⟨fun _ => hother hc rfl, fun _ => hother hc rfl⟩
  rw [QEMUMigrationTunnel.run]
  apply wp_seq hpolls
  intro count s₁ h₁ hc₁
  apply wp_seq (wp_mono (wp_monitorProgress_climbing count hc₁) (fun _ _ _ hq => hq)
    fun _ _ _ hfalse => hfalse.elim)
  intro _ s₂ h₂ hc₂
  rw [wp_bind, wp_perform]
  refine ⟨fun job => ?_, fun _ => hmono (hother hc₂ rfl)⟩
  cases job.raised with
  | some x => exact hmono (hother hc₂ rfl)
  | none =>
    have hfull : (25 : ℚ) + 100 * (1 / 2) = 75 := by norm_num
    dsimp only
    rw [progressCb, hfull]
    exact wp_mono (wp_transition_climbing (hother hc₂ rfl) .memory 75) (fun _ _ _ hq => hq)
      fun _ _ _ hq => hmono hq

theorem wp_stepMemory_climbing (hs : Shows [5, 15] [] h) :
    wp stepMemory (fun _ _ h' => Climbing [75] h') (fun _ _ h' => Climbed h') s h := by
  rw [stepMemory]
  apply wp_seq (wp_mono (wp_transition_shows hs .memory 25) (fun _ _ _ hq => hq)
    fun _ _ _ hq => .inl ⟨_, by simp, hq⟩)
  intro _ s₁ h₁ hs₁
  have hc₁ : Climbing [] h₁ := ⟨[], [], .slnil, hs₁⟩
  have hmono : ∀ {h : Trace}, Climbing [75] h → Climbed h :=
    fun hc => .inr (hc.mono (by simp))
  rw [wp_bind, wp_read]
  cases s₁.ctx.vm with
  | none => exact hc₁.mono (List.nil_sublist _)
  | some vm =>
    dsimp only
    split
    · exact hmono (hc₁.mono (List.nil_sublist _))
    · exact hmono (hc₁.mono (List.nil_sublist _))
    · rw [registerRollback, wp_bind, wp_modify]
      exact wp_mono (wp_tunnelRun_climbing hc₁) (fun _ _ _ hq => hq) fun _ _ _ hq => hmono hq

theorem wp_body_climbed (cfg : Settings) (ctx : MigrationContext) :
    wp (body cfg) (fun _ _ h' => Climbed h') (fun _ _ h' => Climbed h')
      (EngineState.init ctx) [] := by
  have hshows : ∀ {before : List ℚ} {progress : ℚ} {h : Trace},
      (before ++ [progress]).Sublist [5, 15, 25] →
      Shows before [] h ∨ Shows (before ++ [progress]) [] h → Climbed h := by
    rintro before progress h hsub (hq | hq)
    · exact .inl ⟨before, (List.sublist_append_left _ _).trans hsub, hq⟩
    · exact .inl ⟨_, hsub, hq⟩
  have hclimb : ∀ {values : List ℚ} {h : Trace}, values.Sublist [75, 80, 90, 96, 100] →
      Climbing values h → Climbed h := fun hv hc => .inr (hc.mono hv)
  have hnil : Shows [] [] [] := ⟨rfl, rfl⟩
  unfold body steps
  apply wp_seq (wp_mono (wp_enters (enters_preflight _ _) hnil) (fun _ _ _ hq => hq)
    fun _ _ _ hq => hshows (by simp) hq)
  intro _ s₁ h₁ hs₁
  rw [wp_bind, wp_read, wp_ite]
  refine ⟨fun _ => hshows (by simp) (.inr hs₁), fun _ => ?_⟩
  apply wp_seq (wp_mono (wp_enters enters_stepDiskSync hs₁) (fun _ _ _ hq => hq)
    fun _ _ _ hq => hshows (by simp) hq)
  intro _ s₂ h₂ hs₂
  apply wp_seq (wp_stepMemory_climbing hs₂)
  intro _ s₃ h₃ hc₃
  apply wp_seq (wp_mono (wp_enters_climbing enters_stepCutover hc₃) (fun _ _ _ hq => hq)
    fun _ _ _ hq => hclimb (by simp) hq)
  intro _ s₄ h₄ hc₄
  apply wp_seq (wp_mono (wp_enters_climbing enters_stepBgp hc₄) (fun _ _ _ hq => hq)
    fun _ _ _ hq => hclimb (by simp) hq)
  intro _ s₅ h₅ hc₅
  apply wp_seq (wp_mono (wp_enters_climbing (enters_cleanup 96) hc₅) (fun _ _ _ hq => hq)
    fun _ _ _ hq => hclimb (by simp) hq)
  intro _ s₆ h₆ hc₆
  exact wp_seq (wp_mono (wp_transition_climbing hc₆ .done 100) (fun _ _ _ hq => hq)
    fun _ _ _ hq => hclimb (by simp) hq) fun _ _ _ hc₇ => .inr hc₇

end LiveMigrationEngine

/-! ### Runs -/

theorem Climbed.other (hc : Climbed h) (he : e.call.isProgress = false) : Climbed (h ++ [e]) := by
  rcases hc with ⟨before, hsub, hs⟩ | ⟨polls, after, hafter, hs⟩
  · exact .inl ⟨before, hsub, hs.other he⟩
  · exact .inr ⟨polls, after, hafter, hs.other he⟩

theorem climbed_migrate (cfg : Settings) (ctx : MigrationContext) (O : World) :
    Climbed (MigrationType.live.migrate cfg ctx O).trace := by
  apply migrate_of_body .live (fun _ => Climbed) (LiveMigrationEngine.wp_body_climbed cfg ctx)
  intro _ h e he hc
  apply hc.other
  generalize e.call = c at he
  cases c <;> first | rfl | cases he

theorem overall_mem (answer : PollAnswer) : 25 ≤ overall answer ∧ overall answer ≤ 75 := by
  have hge := percent_nonneg answer
  have hle := percent_le answer
  rw [overall]
  constructor <;> linarith

theorem overall_le_overall_iff (a b : PollAnswer) : overall a ≤ overall b ↔ NotBehind a b := by
  rw [overall, overall, add_le_add_iff_left, mul_le_mul_iff_left₀ (by norm_num),
    percent_le_percent_iff]

/-- The values around the polls are in order and in range, so the polls decide. -/
theorem Shows.grows_iff {before after : List ℚ} (hbefore : before.Sublist [5, 15, 25])
    (hafter : after.Sublist [75, 80, 90, 96, 100])
    (hs : Shows (before ++ polls.map overall ++ after) polls h) :
    ProgressGrows h ↔ (committedPolls h).Pairwise NotBehind := by
  have hlow : ∀ p ∈ before, 0 ≤ p ∧ p ≤ 25 := by
    have hfixed : ∀ p ∈ ([5, 15, 25] : List ℚ), 0 ≤ p ∧ p ≤ 25 := by norm_num
    exact fun p hp => hfixed p (hbefore.subset hp)
  have hmid : ∀ p ∈ polls.map overall, 25 ≤ p ∧ p ≤ 75 := by
    intro p hp
    obtain ⟨answer, -, rfl⟩ := List.mem_map.1 hp
    exact overall_mem answer
  have hhigh : ∀ p ∈ after, 75 ≤ p ∧ p ≤ 100 := by
    have hfixed : ∀ p ∈ ([75, 80, 90, 96, 100] : List ℚ), 75 ≤ p ∧ p ≤ 100 := by norm_num
    exact fun p hp => hfixed p (hafter.subset hp)
  have hrange : ∀ p ∈ before ++ polls.map overall ++ after, 0 ≤ p ∧ p ≤ 100 := by
    intro p hp
    rcases List.mem_append.1 hp with hp | hp
    · rcases List.mem_append.1 hp with hp | hp
      · exact ⟨(hlow p hp).1, (hlow p hp).2.trans (by norm_num)⟩
      · exact ⟨le_trans (by norm_num) (hmid p hp).1, (hmid p hp).2.trans (by norm_num)⟩
    · exact ⟨le_trans (by norm_num) (hhigh p hp).1, (hhigh p hp).2⟩
  have hsorted : before.Pairwise (· ≤ ·) ∧ after.Pairwise (· ≤ ·) :=
    ⟨List.Pairwise.sublist hbefore (by norm_num), List.Pairwise.sublist hafter (by norm_num)⟩
  rw [ProgressGrows, hs.written, hs.polls, and_iff_left hrange, List.pairwise_append,
    List.pairwise_append, List.pairwise_map]
  simp only [overall_le_overall_iff]
  constructor
  · exact fun hq => hq.1.2.1
  · intro hq
    refine ⟨⟨hsorted.1, hq, fun a ha b hb => (hlow a ha).2.trans (hmid b hb).1⟩, hsorted.2, ?_⟩
    intro a ha b hb
    have hle : a ≤ 75 := by
      rcases List.mem_append.1 ha with ha | ha
      · exact (hlow a ha).2.trans (by norm_num)
      · exact (hmid a ha).2
    exact hle.trans (hhigh b hb).1

/-- For every live migration, whatever its polls are answered and whichever writes fail. -/
theorem progress_grows_iff (cfg : Settings) (ctx : MigrationContext) (O : World) :
    ProgressGrows (MigrationType.live.migrate cfg ctx O).trace ↔
      (committedPolls (MigrationType.live.migrate cfg ctx O).trace).Pairwise NotBehind := by
  rcases climbed_migrate cfg ctx O with ⟨before, hsub, hs⟩ | ⟨polls, after, hafter, hs⟩
  · have hs' : Shows (before ++ ([] : List PollAnswer).map overall ++ []) []
        (MigrationType.live.migrate cfg ctx O).trace := by
      rwa [List.map_nil, List.append_nil, List.append_nil]
    exact hs'.grows_iff hsub (List.nil_sublist _)
  · exact hs.grows_iff (.refl _) hafter

/-- The first poll of the migration job finds half of the memory processed, the second raises. -/
def losesLibvirt : World
  | _, .monitorPolls => .ok 2
  | h, .jobInfo _ _ =>
    if committedPolls h = [] then .ok (some ⟨100, 50⟩) else .error ⟨.other, "connection reset"⟩
  | h, c => cooperative twoVolumes h c

/-- A poll that raises takes the progress of the row back to 25%. -/
theorem progress_falls :
    (MigrationType.live.migrate settings (connected .live) losesLibvirt).result = .ok true ∧
      progressWritten (MigrationType.live.migrate settings (connected .live) losesLibvirt).trace =
        [5, 15, 25, 50, 25, 75, 80, 90, 96, 100] ∧
      ¬ ProgressGrows
        (MigrationType.live.migrate settings (connected .live) losesLibvirt).trace := by
  decide +kernel

end NovaFederation
