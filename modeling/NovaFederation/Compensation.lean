import NovaFederation.SagaSteps

/-!
# Rolling back

`_run_rollbacks` calls every registered handler once, newest first, whatever the handlers
raise, and the handlers issue nothing but their own calls. `Finished`, `RolledBack` and
`Unrecorded` are the three ways in which `run()` ends: it returns `True`, it returns `False`
after the handlers ran, or the failure could not be recorded and the exception of that
transaction leaves `run()` with the handlers not called.
-/

namespace NovaFederation
open History Coroutine
variable {kind : MigrationType} {cfg : Settings} {p : Plan} {s : EngineState} {h h₀ : Trace}
  {rbs : List Rollback}

/-- The calls that a handler may issue. -/
def Rollback.issues (cfg : Settings) (p : Plan) : Rollback → Call → Prop
  | .disk, c => ∃ image ∈ p.images, c = .promote cfg.pool image true
  | .cutover, c => ∃ image ∈ p.images, c = .promote cfg.pool image true
  | .bgp prefixes, c => ∃ pfx ∈ prefixes, c = .withdraw pfx ∨ c = .announceIP .dest pfx
  | .tunnelAbort vmId sourceHost, c => c = .abortJob sourceHost vmId

def ForceAttempted (cfg : Settings) (image : String) (e : CallEvent) : Prop :=
  e.call = .promote cfg.pool image true

theorem Rollback.issues.call_cases {rb : Rollback} {c : Call} (hc : rb.issues cfg p c) :
    ((rb = .disk ∨ rb = .cutover) ∧ ∃ image ∈ p.images, c = .promote cfg.pool image true) ∨
      (∃ prefixes, rb = .bgp prefixes ∧
        ∃ pfx ∈ prefixes, c = .withdraw pfx ∨ c = .announceIP .dest pfx) ∨
      ∃ vmId sourceHost, rb = .tunnelAbort vmId sourceHost ∧ c = .abortJob sourceHost vmId := by
  cases rb with
  | disk => exact .inl ⟨.inl rfl, hc⟩
  | cutover => exact .inl ⟨.inr rfl, hc⟩
  | bgp prefixes => exact .inr (.inl ⟨prefixes, rfl, hc⟩)
  | tunnelAbort vmId sourceHost => exact .inr (.inr ⟨vmId, sourceHost, rfl, hc⟩)

theorem Rollback.issues.law {rb : Rollback} {c : Call} (hc : rb.issues cfg p c)
    (hf : Has FailRecorded h) : Law kind cfg p h c := by
  obtain ⟨-, _, -, rfl⟩ | ⟨_, -, _, -, rfl | rfl⟩ | ⟨_, _, -, rfl⟩ := hc.call_cases
  · exact hf
  · exact hf
  · exact hf
  · exact hf

theorem Rollback.issues.not_forward {rb : Rollback} {c : Call} (hc : rb.issues cfg p c) :
    c.isForward = false := by
  obtain ⟨-, _, -, rfl⟩ | ⟨_, -, _, -, rfl | rfl⟩ | ⟨_, _, -, rfl⟩ := hc.call_cases
  · rfl
  · rfl
  · rfl
  · rfl

/-- Between two calls of the handlers `rbs`, after the history `h₀`. -/
structure Compensating (kind : MigrationType) (cfg : Settings) (p : Plan) (rbs : List Rollback)
    (h₀ : Trace) (s : EngineState) (h : Trace) : Prop where
  law : Respects (Law kind cfg p) h
  plan : s.ctx.plan = p
  rollbacks : s.rollbacks = rbs
  tail : ∃ t, h = h₀ ++ t ∧ ∀ e ∈ t, ∃ rb ∈ rbs, rb.issues cfg p e.call

theorem Compensating.reply (hk : Compensating kind cfg p rbs h₀ s h) (hf : Has FailRecorded h₀)
    {rb : Rollback} (hrb : rb ∈ rbs) {c : Call} (hc : rb.issues cfg p c)
    (r : Except PyException c.Reply) :
    Compensating kind cfg p rbs h₀ s (h ++ [⟨c, r⟩]) where
  law := by
    obtain ⟨t, rfl, -⟩ := hk.tail
    exact respects_snoc.2 ⟨hk.law, hc.law (hf.append t)⟩
  plan := hk.plan
  rollbacks := hk.rollbacks
  tail := by
    obtain ⟨t, rfl, ht⟩ := hk.tail
    refine ⟨t ++ [⟨c, r⟩], by simp, ?_⟩
    intro e he
    rcases List.mem_append.1 he with he | he
    · exact ht e he
    · rw [List.mem_singleton.1 he]
      exact ⟨rb, hrb, hc⟩

theorem wp_await_handler {rb : Rollback} {c : Call} (hk : Compensating kind cfg p rbs h₀ s h)
    (hf : Has FailRecorded h₀) (hrb : rb ∈ rbs) (hc : rb.issues cfg p c) :
    wp (await c)
      (fun v s' h' => s' = s ∧ h' = h ++ [⟨c, .ok v⟩] ∧ Compensating kind cfg p rbs h₀ s h')
      (fun x s' h' => s' = s ∧ h' = h ++ [⟨c, .error x⟩] ∧ Compensating kind cfg p rbs h₀ s h')
      s h := by
  rw [wp_perform]
  exact ⟨fun _ => ⟨rfl, rfl, hk.reply hf hrb hc _⟩, fun _ => ⟨rfl, rfl, hk.reply hf hrb hc _⟩⟩

theorem wp_forcePromoteAll {rb : Rollback} (hk : Compensating kind cfg p rbs h₀ s h)
    (hf : Has FailRecorded h₀) (hrb : rb ∈ rbs)
    (hc : ∀ image ∈ p.images, rb.issues cfg p (.promote cfg.pool image true)) :
    wp (MigrationEngine.forcePromoteAll cfg)
      (fun _ s' h' => s' = s ∧ h <+: h' ∧ Compensating kind cfg p rbs h₀ s h' ∧
        ∃ t, h' = h ++ t ∧ ∀ i ∈ p.images, Has (ForceAttempted cfg i) t)
      (fun _ _ _ => False) s h := by
  have hplan := hk.plan
  subst hplan
  rw [MigrationEngine.forcePromoteAll, wp_bind, wp_read]
  apply wp_weaken (wp_forM (fun done s' h' => s' = s ∧
    Compensating kind cfg s.ctx.plan rbs h₀ s h' ∧
    ∃ t, h' = h ++ t ∧ ∀ i ∈ done, Has (ForceAttempted cfg i) t) _ ?_
    ⟨rfl, hk, [], by simp, by simp⟩)
  · intro _ s h' hq
    obtain ⟨rfl, hk', t, rfl, ht⟩ := hq
    exact ⟨rfl, List.prefix_append _ _, hk', t, rfl, ht⟩
  · intro done image rest s _ hxs hq
    obtain ⟨rfl, hk', t, rfl, ht⟩ := hq
    have hi : rb.issues cfg s.ctx.plan (.promote cfg.pool image true) := by
      apply hc
      change image ∈ s.ctx.rbdImages
      simp [hxs]
    rw [wp_tryCatch]
    apply wp_mono (wp_await_handler hk' hf hrb hi)
    · intro _ _ _ hq
      obtain ⟨rfl, rfl, hk''⟩ := hq
      exact ⟨rfl, hk'', _, List.append_assoc _ _ _, forall_mem_snoc ht rfl⟩
    · intro _ _ _ hq
      obtain ⟨rfl, rfl, hk''⟩ := hq
      exact ⟨rfl, hk'', _, List.append_assoc _ _ _, forall_mem_snoc ht rfl⟩

/-- A handler that concerns the disks tries to promote every image on the source. -/
def Reinstates (cfg : Settings) (p : Plan) (rb : Rollback) (t : Trace) : Prop :=
  rb = .disk ∨ rb = .cutover → ∀ i ∈ p.images, Has (ForceAttempted cfg i) t

theorem Reinstates.append {rb : Rollback} {t : Trace} (hr : Reinstates cfg p rb t)
    (t' : Trace) : Reinstates cfg p rb (t ++ t') :=
  fun hrb i hi => (hr hrb i hi).append t'

/-- What every call of a handler leaves behind, returned or raised. -/
structure Attempted (kind : MigrationType) (cfg : Settings) (p : Plan) (rbs : List Rollback)
    (h₀ : Trace) (s : EngineState) (h : Trace) (rb : Rollback) (s' : EngineState) (h' : Trace) :
    Prop where
  compensating : Compensating kind cfg p rbs h₀ s' h'
  attempted : s'.attempted = s.attempted
  reinstates : ∃ t, h' = h ++ t ∧ Reinstates cfg p rb t

theorem wp_rollback {prefixes : List String} {peer : Option (CNFControlStub .dest)}
    (hk : Compensating kind cfg p rbs h₀ s h) (hf : Has FailRecorded h₀)
    (hrb : .bgp prefixes ∈ rbs) :
    wp (BGPManager.rollback prefixes peer)
      (fun _ s' h' => s' = s ∧ Compensating kind cfg p rbs h₀ s h' ∧ h <+: h')
      (fun _ s' h' => s' = s ∧ Compensating kind cfg p rbs h₀ s h' ∧ h <+: h') s h := by
  rw [BGPManager.rollback]
  apply wp_forM (fun _ s' h' => s' = s ∧ Compensating kind cfg p rbs h₀ s h' ∧ h <+: h')
  · intro done pfx rest s h₁ hxs hq
    obtain ⟨rfl, hk₁, hh₁⟩ := hq
    have hpfx : pfx ∈ prefixes := by simp [hxs]
    rw [wp_bind]
    apply wp_mono (wp_await_handler hk₁ hf hrb ⟨pfx, hpfx, .inl rfl⟩)
    · intro _ s _ hq
      obtain ⟨rfl, rfl, hk₂⟩ := hq
      have hh₂ := prefix_snoc hh₁ ⟨.withdraw pfx, .ok ()⟩
      rw [wp_tryCatch]
      cases peer with
      | none => exact ⟨rfl, hk₂, hh₂⟩
      | some stub =>
        rw [wp_bind]
        apply wp_mono (wp_await_handler hk₂ hf hrb ⟨pfx, hpfx, .inr rfl⟩)
        · intro _ _ _ hq
          obtain ⟨rfl, rfl, hk₃⟩ := hq
          exact ⟨rfl, hk₃, prefix_snoc hh₂ _⟩
        · intro _ _ _ hq
          obtain ⟨rfl, rfl, hk₃⟩ := hq
          exact ⟨rfl, hk₃, prefix_snoc hh₂ _⟩
    · intro _ _ _ hq
      obtain ⟨rfl, rfl, hk₂⟩ := hq
      exact ⟨rfl, hk₂, prefix_snoc hh₁ _⟩
  · exact ⟨rfl, hk, List.prefix_rfl⟩

theorem wp_invoke {rb : Rollback} (hk : Compensating kind cfg p rbs h₀ s h)
    (hf : Has FailRecorded h₀) (hrb : rb ∈ rbs) :
    wp (MigrationEngine.invoke cfg rb)
      (fun _ s' h' => Attempted kind cfg p rbs h₀ s h rb s' h')
      (fun _ s' h' => Attempted kind cfg p rbs h₀ s h rb s' h') s h := by
  have hforce (hc : ∀ image ∈ p.images, rb.issues cfg p (.promote cfg.pool image true)) :
      wp (MigrationEngine.forcePromoteAll cfg)
        (fun _ s' h' => Attempted kind cfg p rbs h₀ s h rb s' h')
        (fun _ s' h' => Attempted kind cfg p rbs h₀ s h rb s' h') s h := by
    apply wp_mono (wp_forcePromoteAll hk hf hrb hc)
    · intro _ _ _ hq
      obtain ⟨rfl, -, hk', t, rfl, ht⟩ := hq
      exact ⟨hk', rfl, t, rfl, fun _ => ht⟩
    · exact fun _ _ _ hfalse => hfalse.elim
  cases rb with
  | disk => exact hforce (fun image hi => ⟨image, hi, rfl⟩)
  | cutover => exact hforce (fun image hi => ⟨image, hi, rfl⟩)
  | bgp prefixes =>
    rw [MigrationEngine.invoke, wp_bind, wp_read]
    have hend {s' : EngineState} {h' : Trace}
        (hq : s' = s ∧ Compensating kind cfg p rbs h₀ s h' ∧ h <+: h') :
        Attempted kind cfg p rbs h₀ s h (.bgp prefixes) s' h' := by
      obtain ⟨rfl, hk', t, rfl⟩ := hq
      exact ⟨hk', rfl, t, rfl, by simp [Reinstates]⟩
    exact wp_mono (wp_rollback hk hf hrb) (fun _ _ _ => hend) (fun _ _ _ => hend)
  | tunnelAbort vmId sourceHost =>
    rw [MigrationEngine.invoke, QEMUMigrationTunnel.abort, wp_bind, wp_modify, wp_tryCatch]
    have hk' : Compensating kind cfg p rbs h₀ { s with cancelled := true } h :=
      ⟨hk.law, hk.plan, hk.rollbacks, hk.tail⟩
    apply wp_mono (wp_await_handler hk' hf hrb rfl)
    · intro _ _ _ hq
      obtain ⟨rfl, rfl, hk''⟩ := hq
      exact ⟨hk'', rfl, _, rfl, by simp [Reinstates]⟩
    · intro _ _ _ hq
      obtain ⟨rfl, rfl, hk''⟩ := hq
      exact ⟨hk'', rfl, _, rfl, by simp [Reinstates]⟩

theorem wp_runRollbacks (hk : Compensating kind cfg p s.rollbacks h s h)
    (hf : Has FailRecorded h) :
    wp (MigrationEngine.runRollbacks cfg)
      (fun _ s' h' => Compensating kind cfg p s.rollbacks h s' h' ∧
        s'.attempted = s.attempted ++ s.rollbacks.reverse ∧
        ∃ t, h' = h ++ t ∧ ∀ rb ∈ s.rollbacks, Reinstates cfg p rb t)
      (fun _ _ _ => False) s h := by
  rw [MigrationEngine.runRollbacks, wp_bind, wp_read]
  apply wp_weaken (wp_forM (fun done s' h' => Compensating kind cfg p s.rollbacks h s' h' ∧
    s'.attempted = s.attempted ++ done ∧ ∃ t, h' = h ++ t ∧ ∀ rb ∈ done, Reinstates cfg p rb t)
    _ ?_ ⟨hk, by simp, [], by simp, by simp⟩)
  · intro _ s' _ hq
    obtain ⟨hk', ha, t, rfl, ht⟩ := hq
    exact ⟨hk', ha, t, rfl, fun rb hrb => ht rb (List.mem_reverse.2 hrb)⟩
  · intro done rb rest s' _ hxs hq
    obtain ⟨hk', ha, t, rfl, ht⟩ := hq
    have hrb : rb ∈ s.rollbacks := by
      rw [← List.mem_reverse, hxs]
      simp
    have hk₁ : Compensating kind cfg p s.rollbacks h
        { s' with attempted := s'.attempted ++ [rb] } (h ++ t) :=
      ⟨hk'.law, hk'.plan, hk'.rollbacks, hk'.tail⟩
    have hend {s₂ : EngineState} {h₂ : Trace}
        (hq : Attempted kind cfg p s.rollbacks h { s' with attempted := s'.attempted ++ [rb] }
          (h ++ t) rb s₂ h₂) :
        Compensating kind cfg p s.rollbacks h s₂ h₂ ∧
          s₂.attempted = s.attempted ++ (done ++ [rb]) ∧
          ∃ t, h₂ = h ++ t ∧ ∀ rb' ∈ done ++ [rb], Reinstates cfg p rb' t := by
      obtain ⟨hk₂, ha₂, t₂, rfl, hr₂⟩ := hq
      refine ⟨hk₂, by simp [ha₂, ha], t ++ t₂, by simp, ?_⟩
      intro rb' hrb'
      rcases List.mem_append.1 hrb' with hrb' | hrb'
      · exact (ht rb' hrb').append t₂
      · rw [List.mem_singleton.1 hrb']
        exact fun hd i hi => has_append.2 (.inr (hr₂ hd i hi))
    rw [MigrationEngine.attempt, wp_bind, wp_modify, wp_tryCatch]
    exact wp_mono (wp_invoke hk₁ hf hrb) (fun _ _ _ => hend) (fun _ _ _ => hend)

/-! ### The three ends of a run -/

structure Finished (kind : MigrationType) (cfg : Settings) (s : EngineState) (h : Trace) :
    Prop where
  done : Done kind cfg s.ctx.plan s h
  relocated : Relocated kind cfg s.ctx.plan h
  armed : Armed s

structure RolledBack (kind : MigrationType) (cfg : Settings) (error : String) (s₀ : EngineState)
    (h₀ : Trace) (s : EngineState) (h : Trace) : Prop where
  stopped : Stopped kind cfg s.ctx.plan s₀ h₀
  law : Respects (Law kind cfg s.ctx.plan) h
  rollbacks : s.rollbacks = s₀.rollbacks
  attempted : s.attempted = s.rollbacks.reverse
  tail : ∃ t, h = h₀ ++ ⟨.fail error, .ok ()⟩ :: t ∧
    (∀ e ∈ t, ∃ rb ∈ s.rollbacks, rb.issues cfg s.ctx.plan e.call) ∧
    ∀ rb ∈ s.rollbacks, Reinstates cfg s.ctx.plan rb t

structure Unrecorded (kind : MigrationType) (cfg : Settings) (error : String) (s₀ : EngineState)
    (h₀ : Trace) (s : EngineState) (h : Trace) : Prop where
  stopped : Stopped kind cfg s.ctx.plan s₀ h₀
  law : Respects (Law kind cfg s.ctx.plan) h
  rollbacks : s.rollbacks = s₀.rollbacks
  attempted : s.attempted = []
  tail : ∃ x, h = h₀ ++ [⟨.fail error, .error x⟩]

def Report (kind : MigrationType) (cfg : Settings) :
    Except PyException Bool → EngineState → Trace → Prop
  | .ok true, s, h => Finished kind cfg s h
  | .ok false, s, h => ∃ error s₀ h₀, RolledBack kind cfg error s₀ h₀ s h
  | .error _, s, h => ∃ error s₀ h₀, Unrecorded kind cfg error s₀ h₀ s h

/-- After the preflight step the plan is the one that the engine object holds. -/
theorem wp_stopped {body : Engine Bool} {Q : Bool → EngineState → Trace → Prop}
    (hb : wp body Q (stopped kind cfg p) s h) :
    wp body Q (fun _ s' h' => Stopped kind cfg s'.ctx.plan s' h') s h :=
  wp_mono hb (fun _ _ _ hq => hq) (fun _ _ _ hst => hst.plan ▸ hst)

def Sound (kind : MigrationType) (cfg : Settings) (body : Engine Bool) (ctx : MigrationContext) :
    Prop :=
  wp body (fun b s h => b = true ∧ Finished kind cfg s h)
    (fun _ s h => Stopped kind cfg s.ctx.plan s h) (EngineState.init ctx) []

theorem sound_of_steps {ctx : MigrationContext} {refusal : String → VMDetails → String}
    {steps : Engine Bool}
    (hsteps : ∀ p s h, Going kind cfg p s h → PreflightPassed cfg p h → Untouched s h →
      wp steps (fun b s' h' => b = true ∧ Finished kind cfg s' h') (stopped kind cfg p) s h) :
    Sound kind cfg (do
      MigrationEngine.preflight cfg kind.admits refusal
      let s ← Coroutine.read
      if s.aborted then pure false else steps) ctx := by
  rw [Sound]
  apply wp_seq (wp_preflight rfl rfl rfl)
  intro _ s h hq
  obtain ⟨hg, hp, hu⟩ := hq
  generalize s.ctx.plan = p at hg hp
  rw [wp_bind, wp_read, wp_ite]
  refine ⟨fun hab => by simp [hg.aborted] at hab, fun _ => wp_stopped (p := p) ?_⟩
  exact hsteps p s h hg hp hu

theorem wp_ending {progress : ℚ} (hg : Going kind cfg p s h) (ha : Armed s)
    (hr : Relocated kind cfg p h) :
    wp (do
        MigrationEngine.cleanup progress
        MigrationEngine.transition .run .done 100
        pure true)
      (fun b s' h' => b = true ∧ Finished kind cfg s' h') (stopped kind cfg p) s h := by
  apply wp_seq (wp_cleanup hg ha hr)
  intro _ s₁ h₁ hq
  obtain ⟨hd₁, hr₁, hh₁⟩ := hq
  have ha₁ := ha.congr hr₁
  have hrel₁ := hr.extend hh₁
  apply wp_seq (wp_done hd₁ hrel₁.preflight ha₁)
  intro _ s₂ h₂ hq
  obtain ⟨hd₂, hr₂, hh₂⟩ := hq
  obtain rfl := hd₂.plan
  exact ⟨rfl, hd₂, hrel₁.extend hh₂, ha₁.congr hr₂⟩

theorem wp_compensate {e : PyException} (hst : Stopped kind cfg s.ctx.plan s h) :
    wp (MigrationEngine.compensate cfg e)
      (fun b s' h' => b = false ∧ RolledBack kind cfg e.message s h s' h')
      (fun _ s' h' => Unrecorded kind cfg e.message s h s' h') s h := by
  have hl : Law kind cfg s.ctx.plan h (.fail e.message) := ⟨hst.forward, hst.undone⟩
  rw [MigrationEngine.compensate, wp_bind, MigrationEngine.fail, wp_bind, wp_modify, wp_perform]
  constructor
  · intro _
    have hrec : Has FailRecorded (h ++ [⟨.fail e.message, .ok ()⟩]) := has_snoc.2 (.inr ⟨_, rfl⟩)
    have hk : Compensating kind cfg s.ctx.plan s.rollbacks (h ++ [⟨.fail e.message, .ok ()⟩])
        { s with ctx := { s.ctx with error := e.message } } (h ++ [⟨.fail e.message, .ok ()⟩]) :=
      ⟨respects_snoc.2 ⟨hst.law, hl⟩, rfl, rfl, [], by simp, by simp⟩
    apply wp_seq (wp_mono (wp_runRollbacks hk hrec) (fun _ _ _ hq => hq)
      (fun _ _ _ hfalse => hfalse.elim))
    intro _ s₂ h₂ hq
    obtain ⟨hk₂, ha₂, t, rfl, ht⟩ := hq
    obtain ⟨t', htt, hi⟩ := hk₂.tail
    obtain rfl : t = t' := List.append_cancel_left htt
    have hr₂ : s₂.rollbacks = s.rollbacks := hk₂.rollbacks
    refine ⟨rfl, ?_, ?_, hr₂, ?_, t, by simp, ?_, ?_⟩
    · rw [hk₂.plan]
      exact hst
    · rw [hk₂.plan]
      exact hk₂.law
    · rw [ha₂, hr₂]
      simp [hst.attempted]
    · rw [hr₂, hk₂.plan]
      exact hi
    · rw [hr₂, hk₂.plan]
      exact ht
  · intro x
    exact ⟨hst, respects_snoc.2 ⟨hst.law, hl⟩, rfl, hst.attempted, x, rfl⟩

theorem wp_guarded {body : Engine Bool} {ctx : MigrationContext} (hb : Sound kind cfg body ctx) :
    wp (MigrationEngine.guarded cfg body) (fun b s' h' => Report kind cfg (.ok b) s' h')
      (fun e s' h' => Report kind cfg (.error e) s' h') (EngineState.init ctx) [] := by
  rw [MigrationEngine.guarded, wp_tryCatch]
  apply wp_mono hb
  · intro _ s' h' hq
    obtain ⟨rfl, hfin⟩ := hq
    exact hfin
  · intro e s₀ h₀ hst
    apply wp_mono (wp_compensate hst)
    · intro _ s' h' hq
      obtain ⟨rfl, hrb⟩ := hq
      exact ⟨e.message, s₀, h₀, hrb⟩
    · exact fun _ _ _ hun => ⟨e.message, s₀, h₀, hun⟩

end NovaFederation
