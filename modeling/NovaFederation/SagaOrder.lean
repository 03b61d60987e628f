import NovaFederation.SagaRuns

/-!
# The order of the calls of a run

The law of the saga, read clause by clause for whole runs: what each call of the forward steps
comes after, and what is left to be called once a step has raised.
-/

namespace NovaFederation
open History Coroutine
variable {kind : MigrationType} {cfg : Settings} {ctx : MigrationContext} {O : World}

/-- The calls that change a cluster or the network. -/
def Call.isEffect : Call → Bool
  | .stopVm _ => true
  | .doMigrate _ _ _ => true
  | .demote _ _ => true
  | .promote _ _ force => !force
  | .promoteRBDImage _ _ _ => true
  | .createVolumeFromRbd _ _ _ _ => true
  | .announce _ => true
  | .withdrawIP _ _ => true
  | .deleteVm _ => true
  | _ => false

theorem Call.isEffect.forward {c : Call} (hc : c.isEffect = true) :
    c.isForward = true ∧ c.isPreparation = false := by
  cases c <;> simp_all [Call.isEffect, Call.isForward, Call.isPreparation]

/-- The two ways of the forward loop to promote on the destination. -/
def PromotionIssued (e : CallEvent) : Prop :=
  (∃ peer pool image, e.call = .promoteRBDImage peer pool image) ∨
    ∃ pool image, e.call = .promote pool image false

def Registered (e : CallEvent) : Prop :=
  (∃ pool image sizeGb name, e.call = .createVolumeFromRbd pool image sizeGb name) ∨
    ∃ route, e.call = .announce route

def WithdrawIssued (e : CallEvent) : Prop := ∃ peer pfx, e.call = .withdrawIP peer pfx

/-- Every volume of the VM is an image of the run, and every image passed its check. -/
def AllChecked (cfg : Settings) (ctx : MigrationContext) (pre : Trace) : Prop :=
  ∃ vm, ctx.vm = some vm ∧ Has (VmFetched vm) pre ∧
    (∀ volumeId ∈ vm.volumeIds, s!"volume-{volumeId}" ∈ ctx.rbdImages) ∧
    ∀ image ∈ ctx.rbdImages, Has (Preflighted cfg image) pre

/-- What the call of an event comes after, in the run that ended with the context `ctx`. -/
structure Ordered (kind : MigrationType) (cfg : Settings) (ctx : MigrationContext) (pre : Trace)
    (e : CallEvent) : Prop where
  checked : e.call.isEffect = true → AllChecked cfg ctx pre
  synced : ∀ pool image, e.call = .demote pool image →
    pool = cfg.pool ∧ Has (Synced cfg image) pre
  demoted : PromotionIssued e → ∀ image ∈ ctx.rbdImages, Has (Demoted cfg image) pre
  promoted : Registered e → ∀ image ∈ ctx.rbdImages, Has (Promoted cfg image) pre
  announced : WithdrawIssued e → ∀ pfx ∈ MigrationEngine.prefixes ctx, Has (Announced pfx) pre
  deleted : DeleteIssued e → ¬ Has DeleteIssued pre ∧
    (∀ image ∈ ctx.rbdImages, Has (Promoted cfg image) pre) ∧
    (kind = .cold → ∀ image ∈ ctx.rbdImages, Has (VolumeCreated cfg image) pre) ∧
    ∀ pfx ∈ MigrationEngine.prefixes ctx, Has (Announced pfx) pre
  unraised : e.call.isForward = true → ∀ a ∈ pre, escapes kind a = false

/-- Once an exception has left the `try` body, the run records it and calls nothing but what
the registered handlers call. -/
def Quiet (kind : MigrationType) (cfg : Settings) (ctx : MigrationContext) (O : World) : Prop :=
  ∀ e s₀ h₀, BodyRaises kind cfg ctx O e s₀ h₀ →
    ∃ r t, (kind.migrate cfg ctx O).trace = h₀ ++ ⟨.fail e.message, r⟩ :: t ∧
      ∀ a ∈ t, ∃ rb ∈ s₀.rollbacks, rb.issues cfg s₀.ctx.plan a.call

structure SagaOrdered (kind : MigrationType) (cfg : Settings) (ctx : MigrationContext)
    (O : World) : Prop where
  ordered : ∀ pre e post, (kind.migrate cfg ctx O).trace = pre ++ e :: post →
    Ordered kind cfg (kind.migrate cfg ctx O).state.ctx pre e
  quiet : Quiet kind cfg ctx O

theorem ordered_of_law {pre : Trace} {e : CallEvent}
    (hl : Law kind cfg ctx.plan pre e.call) : Ordered kind cfg ctx pre e := by
  have hforward (hf : e.call.isForward = true) := (law_forward hf).1 hl
  constructor
  · intro he
    obtain ⟨hf, hp⟩ := Call.isEffect.forward he
    obtain ⟨-, hpre, -⟩ := hforward hf
    obtain ⟨⟨vm, hvm, hfetch, hvol⟩, hchecked⟩ := hpre hp
    exact ⟨vm, hvm, hfetch, hvol, hchecked⟩
  · intro pool image hc
    rw [hc] at hforward
    obtain ⟨-, -, hpool, -, hs, -⟩ := hforward rfl
    exact ⟨hpool, hs⟩
  · intro hq
    rcases hq with ⟨peer, pool, image, hc⟩ | ⟨pool, image, hc⟩
    · rw [hc] at hforward
      obtain ⟨-, -, -, -, -, -, hd⟩ := hforward rfl
      exact hd
    · rw [hc] at hforward
      obtain ⟨-, -, -, -, -, hd⟩ := hforward rfl
      exact hd
  · intro hq
    rcases hq with ⟨pool, image, sizeGb, name, hc⟩ | ⟨route, hc⟩
    · rw [hc] at hforward
      obtain ⟨-, -, hp⟩ := hforward rfl
      exact hp
    · rw [hc] at hforward
      obtain ⟨-, -, hp⟩ := hforward rfl
      exact hp
  · intro hq
    obtain ⟨peer, pfx, hc⟩ := hq
    rw [hc] at hforward
    obtain ⟨-, -, ha⟩ := hforward rfl
    exact ha
  · intro hq
    obtain ⟨vmId, hc⟩ := hq
    rw [hc] at hforward
    obtain ⟨-, -, hn, hp, hv, ha, -⟩ := hforward rfl
    exact ⟨hn, hp, hv, ha⟩
  · intro hf a ha
    exact ((hforward hf).1 a ha).2

theorem saga_ordered (kind : MigrationType) (cfg : Settings) (ctx : MigrationContext)
    (O : World) : SagaOrdered kind cfg ctx O where
  ordered := fun _ _ _ hh => ordered_of_law ((law_run kind cfg ctx O).at_split hh)
  quiet := by
    intro e s₀ h₀ hb
    rcases hb.ends with ⟨-, -, hrb⟩ | ⟨x, -, hun⟩
    · obtain ⟨t, ht, hi, -⟩ := hrb.tail
      refine ⟨.ok (), t, ht, ?_⟩
      rw [← hrb.rollbacks, hrb.stopped.plan]
      exact hi
    · obtain ⟨y, hy⟩ := hun.tail
      exact ⟨.error y, [], hy, by simp⟩

end NovaFederation
